import Mathlib.Data.Finmap

/-! # Finite maps with unordered iteration

A finite map has no iteration order, so a loop over its entries is written as one of the
order-free operations below. Mathlib supplies lookup, insertion, erasure and left-biased union;
this module adds the pointwise update of every value, the restriction to the entries a test
keeps, and the point lookups that turn every operation into a conditional.
-/

namespace Spotter.Library

/-- A finite map from keys to values of one type. -/
abbrev FiniteMap (K V : Type*) := Finmap (fun _ : K => V)

namespace FiniteMap

variable {K V W : Type*}

/-- Replace every value, leaving the keys alone. -/
def mapValues (f : K → V → W) (m : FiniteMap K V) : FiniteMap K W where
  entries := m.entries.map (fun entry => ⟨entry.1, f entry.1 entry.2⟩)
  nodupKeys := by
    have keys := m.nodupKeys
    rw [← Multiset.nodup_keys] at keys ⊢
    simpa only [Multiset.keys, Multiset.map_map, Function.comp_def] using keys

/-- Retain the entries that satisfy a test. -/
def keep (p : K → V → Bool) (m : FiniteMap K V) : FiniteMap K V where
  entries := m.entries.filter (fun entry => p entry.1 entry.2)
  nodupKeys := by
    have keys := m.nodupKeys
    rw [← Multiset.nodup_keys] at keys ⊢
    exact Multiset.nodup_of_le (Multiset.map_le_map (Multiset.filter_le _ _)) keys

section Lookup

variable [DecidableEq K]

@[simp] theorem lookup_mapValues (f : K → V → W) (m : FiniteMap K V) (key : K) :
    (mapValues f m).lookup key = (m.lookup key).map (f key) := by
  ext value
  rw [Finmap.lookup_eq_some_iff, Option.map_eq_some_iff]
  simp only [mapValues, Multiset.mem_map, Sigma.mk.injEq]
  constructor
  · rintro ⟨⟨key', value'⟩, member, rfl, same⟩
    exact ⟨value', Finmap.lookup_eq_some_iff.mpr member, eq_of_heq same⟩
  · rintro ⟨value', found, rfl⟩
    exact ⟨⟨key, value'⟩, Finmap.lookup_eq_some_iff.mp found, rfl, HEq.rfl⟩

@[simp] theorem lookup_keep (p : K → V → Bool) (m : FiniteMap K V) (key : K) :
    (keep p m).lookup key = (m.lookup key).filter (p key) := by
  ext value
  rw [Finmap.lookup_eq_some_iff, Option.filter_eq_some_iff, Finmap.lookup_eq_some_iff]
  simp only [keep, Multiset.mem_filter]

theorem lookup_insert_ite (m : FiniteMap K V) (key query : K) (value : V) :
    (m.insert key value).lookup query = if query = key then some value else m.lookup query := by
  rcases eq_or_ne query key with rfl | same
  · rw [if_pos rfl, Finmap.lookup_insert]
  · rw [if_neg same, Finmap.lookup_insert_of_ne m same]

theorem lookup_erase_ite (m : FiniteMap K V) (key query : K) :
    (m.erase key).lookup query = if query = key then none else m.lookup query := by
  rcases eq_or_ne query key with rfl | same
  · rw [if_pos rfl, Finmap.lookup_erase]
  · rw [if_neg same, Finmap.lookup_erase_ne same]

theorem lookup_insert_eq_some_iff {m : FiniteMap K V} {key query : K} {value found : V} :
    (m.insert key value).lookup query = some found ↔
      query = key ∧ found = value ∨ query ≠ key ∧ m.lookup query = some found := by
  rw [lookup_insert_ite]
  split_ifs with same
  · simp [same, eq_comm]
  · simp [same]

theorem lookup_erase_eq_some_iff {m : FiniteMap K V} {key query : K} {found : V} :
    (m.erase key).lookup query = some found ↔ query ≠ key ∧ m.lookup query = some found := by
  rw [lookup_erase_ite]
  split_ifs with same
  · simp [same]
  · simp [same]

theorem lookup_union (first second : FiniteMap K V) (key : K) :
    (first ∪ second).lookup key = (first.lookup key).or (second.lookup key) := by
  cases found : first.lookup key with
  | none => rw [Finmap.lookup_union_right (Finmap.lookup_eq_none.mp found), Option.none_or]
  | some value =>
    rw [Finmap.lookup_union_left (Finmap.mem_of_lookup_eq_some found), found, Option.some_or]

end Lookup

end FiniteMap

end Spotter.Library
