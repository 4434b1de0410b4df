import Mathlib.Data.List.Nodup
import Mathlib.Order.Lattice

/-! # Stores kept sorted by a key

The value-level view of an ordered tree whose comparison is a key of its values: a list in strictly
increasing key order. Inserting a value replaces the one with the same key.
-/

namespace Spotter.Library

theorem nil_sorted {K V : Type} [LinearOrder K] (key : V → K) :
    ([] : List V).Pairwise (fun first second => key first < key second) :=
  List.Pairwise.nil

/-- Values in strictly increasing order of their keys. -/
structure SortedStore {K V : Type} [LinearOrder K] (key : V → K) where
  entries : List V := []
  sorted : entries.Pairwise (fun first second => key first < key second) := by exact nil_sorted _

namespace SortedStore

variable {K V : Type} [LinearOrder K] {key : V → K}

instance [DecidableEq V] : DecidableEq (SortedStore key) := fun first second =>
  decidable_of_iff (first.entries = second.entries) (by cases first; cases second; simp)

/-- Put a value at its place in a sorted list. -/
def place (key : V → K) (value : V) : List V → List V
  | [] => [value]
  | head :: rest =>
    if key value < key head then value :: head :: rest
    else if key head < key value then head :: place key value rest
    else value :: rest

variable {value : V}

section

variable {entries : List V} (sorted : entries.Pairwise (fun first second => key first < key second))

include sorted

theorem mem_place {other : V} :
    other ∈ place key value entries ↔ other = value ∨ (other ∈ entries ∧ key other ≠ key value) := by
  induction entries with
  | nil => simp [place]
  | cons head rest ih =>
    obtain ⟨above, tail⟩ := List.pairwise_cons.mp sorted
    unfold place
    split_ifs with below beyond
    · -- Every entry lies above the value, so none has its key.
      have apart : ∀ entry ∈ head :: rest, key entry ≠ key value := by
        intro entry member
        rcases List.mem_cons.mp member with rfl | later
        · exact ne_of_gt below
        · exact ne_of_gt (lt_trans below (above entry later))
      rw [List.mem_cons]
      constructor
      · rintro (rfl | member)
        · exact .inl rfl
        · exact .inr ⟨member, apart other member⟩
      · rintro (rfl | ⟨member, _⟩)
        · exact .inl rfl
        · exact .inr member
    · rw [List.mem_cons, ih tail, List.mem_cons]
      constructor
      · rintro (rfl | rfl | ⟨member, apart⟩)
        · exact .inr ⟨.inl rfl, ne_of_lt beyond⟩
        · exact .inl rfl
        · exact .inr ⟨.inr member, apart⟩
      · rintro (rfl | ⟨rfl | member, apart⟩)
        · exact .inr (.inl rfl)
        · exact .inl rfl
        · exact .inr (.inr ⟨member, apart⟩)
    · have same : key head = key value := le_antisymm (not_lt.mp below) (not_lt.mp beyond)
      rw [List.mem_cons, List.mem_cons]
      constructor
      · rintro (rfl | member)
        · exact .inl rfl
        · exact .inr ⟨.inr member, ne_of_gt (same ▸ above other member)⟩
      · rintro (rfl | ⟨rfl | member, apart⟩)
        · exact .inl rfl
        · exact absurd same apart
        · exact .inr member

theorem place_sorted :
    (place key value entries).Pairwise (fun first second => key first < key second) := by
  induction entries with
  | nil => simp [place]
  | cons head rest ih =>
    obtain ⟨above, tail⟩ := List.pairwise_cons.mp sorted
    unfold place
    split_ifs with below beyond
    · refine List.pairwise_cons.mpr ⟨?_, sorted⟩
      intro entry member
      rcases List.mem_cons.mp member with rfl | later
      · exact below
      · exact lt_trans below (above entry later)
    · refine List.pairwise_cons.mpr ⟨?_, ih tail⟩
      intro entry member
      rcases (mem_place tail).mp member with rfl | ⟨later, _⟩
      · exact beyond
      · exact above entry later
    · have same : key head = key value := le_antisymm (not_lt.mp below) (not_lt.mp beyond)
      exact List.pairwise_cons.mpr ⟨fun entry member => same ▸ above entry member, tail⟩

end

variable (store : SortedStore key)

/-- Insert a value, replacing the one with its key. -/
def replaceOrInsert (value : V) : SortedStore key :=
  ⟨place key value store.entries, place_sorted store.sorted⟩

/-- Remove the value with a key. -/
def erase (k : K) : SortedStore key :=
  ⟨store.entries.filter (fun value => decide (key value ≠ k)), store.sorted.filter _⟩

/-- The value with a key. -/
def find (store : SortedStore key) (k : K) : Option V := store.entries.find? fun value => decide (key value = k)

theorem keys_nodup : (store.entries.map key).Nodup :=
  List.pairwise_map.mpr (store.sorted.imp fun below => ne_of_lt below)

variable {store : SortedStore key} {k : K}

theorem find_eq_some_iff :
    store.find k = some value ↔ value ∈ store.entries ∧ key value = k := by
  have sound : ∀ {value}, store.find k = some value → value ∈ store.entries ∧ key value = k := by
    intro value found
    exact ⟨List.mem_of_find?_eq_some found, by simpa using List.find?_some found⟩
  refine ⟨sound, ?_⟩
  rintro ⟨member, own⟩
  cases found : store.find k with
  | none => exact absurd own (by simpa using List.find?_eq_none.mp found value member)
  | some other =>
    obtain ⟨among, sameKey⟩ := sound found
    rw [List.inj_on_of_nodup_map store.keys_nodup among member (sameKey.trans own.symm)]

theorem mem_replaceOrInsert {other : V} :
    other ∈ (store.replaceOrInsert value).entries ↔ other = value ∨ (other ∈ store.entries ∧ key other ≠ key value) :=
  mem_place store.sorted

theorem mem_erase :
    value ∈ (store.erase k).entries ↔ value ∈ store.entries ∧ key value ≠ k := by
  rw [erase, List.mem_filter, decide_eq_true_eq]

theorem find_replaceOrInsert (store : SortedStore key) (value : V) (k : K) :
    (store.replaceOrInsert value).find k = if k = key value then some value else store.find k := by
  ext other
  rw [find_eq_some_iff, mem_replaceOrInsert]
  split_ifs with same
  · subst same
    constructor
    · rintro ⟨rfl | ⟨_, apart⟩, sameKey⟩
      · rfl
      · exact absurd sameKey apart
    · rintro ⟨⟩
      exact ⟨.inl rfl, rfl⟩
  · rw [find_eq_some_iff]
    constructor
    · rintro ⟨rfl | ⟨member, _⟩, own⟩
      · exact absurd own.symm same
      · exact ⟨member, own⟩
    · rintro ⟨member, rfl⟩
      exact ⟨.inr ⟨member, same⟩, rfl⟩

theorem find_erase (store : SortedStore key) (k query : K) :
    (store.erase k).find query = if query = k then none else store.find query := by
  ext other
  rw [find_eq_some_iff, mem_erase]
  split_ifs with same
  · subst same
    constructor
    · rintro ⟨⟨_, apart⟩, own⟩
      exact absurd own apart
    · rintro ⟨⟩
  · rw [find_eq_some_iff]
    constructor
    · rintro ⟨⟨member, _⟩, own⟩
      exact ⟨member, own⟩
    · rintro ⟨member, rfl⟩
      exact ⟨⟨member, same⟩, rfl⟩

/-- Inserting values one after the other: the last value of a key stays. -/
theorem find_foldl (values : List V) (store : SortedStore key) (k : K) : (values.foldl replaceOrInsert store).find k =
      (values.reverse.find? fun value => decide (key value = k)).or (store.find k) := by
  induction values generalizing store with
  | nil => rfl
  | cons value rest ih =>
    rw [List.foldl_cons, ih, find_replaceOrInsert, List.reverse_cons, List.find?_append, List.find?_singleton, Option.or_assoc]
    rcases eq_or_ne k (key value) with rfl | other
    · simp
    · simp [other, other.symm]

/-- A value found after inserting values was inserted or was there before. -/
theorem mem_foldl {values : List V}
    (member : value ∈ (values.foldl replaceOrInsert store).entries) : value ∈ values ∨ value ∈ store.entries := by
  have found := find_eq_some_iff.mpr ⟨member, rfl⟩
  rw [find_foldl, Option.or_eq_some_iff] at found
  rcases found with inserted | ⟨_, earlier⟩
  · exact .inl (List.mem_reverse.mp (List.mem_of_find?_eq_some inserted))
  · exact .inr (find_eq_some_iff.mp earlier).1

/-- Values that are determined by their keys are all found after inserting them into an empty store. -/
theorem find_foldl_eq_some_iff {values : List V}
    (unique : ∀ first ∈ values, ∀ second ∈ values, key first = key second → first = second) :
    (values.foldl replaceOrInsert {} : SortedStore key).find k = some value ↔ value ∈ values ∧ key value = k := by
  constructor
  · intro found
    obtain ⟨member, own⟩ := find_eq_some_iff.mp found
    rcases mem_foldl member with inserted | nowhere
    · exact ⟨inserted, own⟩
    · cases nowhere
  · rintro ⟨member, rfl⟩
    rw [find_foldl]
    cases found : values.reverse.find? fun other => decide (key other = key value) with
    | none =>
      have absent := List.find?_eq_none.mp found value (List.mem_reverse.mpr member)
      exact absurd (decide_eq_true rfl) absent
    | some other =>
      have among := List.mem_reverse.mp (List.mem_of_find?_eq_some found)
      have own : key other = key value := by simpa using List.find?_some found
      rw [unique other among value member own, Option.some_or]

end SortedStore

end Spotter.Library
