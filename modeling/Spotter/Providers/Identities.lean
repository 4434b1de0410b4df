import Spotter.Domain.Instance
import Spotter.Library.Occurrences

/-! # Matching provider and remote instances

A reconcile indexes both sides by identity and refuses to compare a side on which an identity occurs
twice. A remote instance that carries an older identity is matched by its wire id, if that is unique
and nothing speaks against it.
-/

namespace Spotter.Providers

open Library Domain

/-- An index under construction; the keys that occurred twice are the ambiguous ones. -/
structure StrictIndex where
  index : FiniteMap String Instance := ∅
  ambiguous : List String := []

def StrictIndex.add (state : StrictIndex) (value : Instance) : StrictIndex :=
  let key := identityKey value
  match state.index.lookup key with
  | some _ =>
    { index := state.index.erase key
      ambiguous := if key ∈ state.ambiguous then state.ambiguous else state.ambiguous ++ [key] }
  | none => if key ∈ state.ambiguous then state else { state with index := state.index.insert key value }

variable (items : Instances)

/-- `StrictListToMap`; nil entries are skipped. -/
def strictListToMap : StrictIndex :=
  (items.filterMap id).foldl StrictIndex.add {}

/-- The instance carries no source metadata at all. -/
def legacyIdentity (item : Instance) : Bool :=
  decide (item.sourceKey = "" ∧ item.sourceCluster = "" ∧ item.labelValue "sourceKey" = "" ∧ item.labelValue "sourceCluster" = "")

/-- `LookupIdentity`: by identity, else by a wire id that exactly one item has; two explicit identities must
also agree on their source, provider, application and address. -/
def lookupIdentity (index : FiniteMap String Instance) (items : Instances) (target : Instance) :
    Option Instance :=
  match index.lookup (identityKey target) with
  | some value => some value
  | none =>
    if target.instanceId = "" then none
    else match (items.filterMap id).filter (fun item => decide (item.instanceId = target.instanceId)) with
      | [only] =>
        if !legacyIdentity target && !legacyIdentity only then
          if target.sourceCluster ≠ "" ∧ target.sourceCluster = only.sourceCluster ∧
              target.provider = only.provider ∧ target.appCode = only.appCode ∧ target.ip = only.ip then some only
          else none
        else some only
      | _ => none

/-- The values of an identity. -/
def ofIdentity (values : List Instance) (key : String) : List Instance := values.filter fun value => decide (identityKey value = key)

theorem count_identities (values : List Instance) (key : String) :
    (values.map identityKey).count key = (ofIdentity values key).length := by
  rw [List.count, List.countP_map, List.countP_eq_length_filter, ofIdentity]
  congr 1

theorem ofIdentity_append_singleton (values : List Instance) (value : Instance) (key : String) :
    ofIdentity (values ++ [value]) key = ofIdentity values key ++ if identityKey value = key then [value] else [] := by
  rw [ofIdentity, List.filter_append, List.filter_singleton]
  simp [ofIdentity]

/-- The index is exact: it holds the sole value of an identity, and the ambiguous keys are the repeated ones. -/
structure StrictIndex.Exact (state : StrictIndex) (values : List Instance) : Prop where
  sole : ∀ key value, state.index.lookup key = some value ↔ ofIdentity values key = [value]
  repeated : state.ambiguous = secondOccurrences (values.map identityKey)

variable {value : Instance} {key : String}

namespace StrictIndex.Exact

variable {state : StrictIndex} {values : List Instance}

section

variable (built : state.Exact values)

include built

theorem mem_ambiguous_iff :
    key ∈ state.ambiguous ↔ 2 ≤ (ofIdentity values key).length := by
  rw [built.repeated, mem_secondOccurrences, count_identities]

/-- An identity that the new value does not have is found as before. -/
theorem sole_append (apart : identityKey value ≠ key)
    (found : Instance) : state.index.lookup key = some found ↔ ofIdentity (values ++ [value]) key = [found] := by
  rw [ofIdentity_append_singleton, if_neg apart, List.append_nil]
  exact built.sole key found

theorem repeated_append (value : Instance) : secondOccurrences ((values ++ [value]).map identityKey) =
      state.ambiguous ++ if (ofIdentity values (identityKey value)).length = 1 then [identityKey value] else [] := by
  rw [List.map_append, List.map_singleton, secondOccurrences_append_singleton, count_identities, built.repeated]

theorem add (value : Instance) : (state.add value).Exact (values ++ [value]) := by
  have own : ofIdentity (values ++ [value]) (identityKey value) = ofIdentity values (identityKey value) ++ [value] := by
    rw [ofIdentity_append_singleton, if_pos rfl]
  rw [StrictIndex.add]
  cases found : state.index.lookup (identityKey value) with
  | some previous =>
    -- The second value of the identity.
    have before := (built.sole _ _).mp found
    have fresh : identityKey value ∉ state.ambiguous := by
      rw [built.mem_ambiguous_iff, before]
      exact Nat.not_succ_le_self 1
    refine ⟨fun key held => ?_, ?_⟩
    · rw [FiniteMap.lookup_erase_eq_some_iff]
      rcases eq_or_ne (identityKey value) key with rfl | apart
      · simp [own, before]
      · rw [← built.sole_append apart held, and_iff_right apart.symm]
    · rw [built.repeated_append, before, List.length_singleton, if_pos rfl]
      exact if_neg fresh
  | none =>
    have missing : ∀ sole, ofIdentity values (identityKey value) ≠ [sole] := by
      intro sole only
      rw [(built.sole _ _).mpr only] at found
      cases found
    have notOnce : (ofIdentity values (identityKey value)).length ≠ 1 := by
      intro once
      obtain ⟨sole, only⟩ := List.length_eq_one_iff.mp once
      exact missing sole only
    have ambiguous : state.ambiguous = secondOccurrences ((values ++ [value]).map identityKey) := by
      rw [built.repeated_append, if_neg notOnce, List.append_nil]
    simp only
    split_ifs with known
    · -- A third or later value of the identity.
      have twice := built.mem_ambiguous_iff.mp known
      refine ⟨fun key held => ?_, ambiguous⟩
      rcases eq_or_ne (identityKey value) key with rfl | apart
      · rw [own, found]
        refine ⟨fun impossible => absurd impossible.symm (Option.some_ne_none held), fun only => ?_⟩
        have length := congrArg List.length only
        rw [List.length_append, List.length_singleton, List.length_singleton] at length
        omega
      · exact built.sole_append apart held
    · -- The first value of the identity.
      have none : ofIdentity values (identityKey value) = [] := by
        rw [built.mem_ambiguous_iff] at known
        exact List.length_eq_zero_iff.mp (by omega)
      refine ⟨fun key held => ?_, ambiguous⟩
      rw [FiniteMap.lookup_insert_eq_some_iff]
      rcases eq_or_ne (identityKey value) key with rfl | apart
      · simp [own, none, eq_comm]
      · simp only [apart.symm, false_and, ne_eq, not_false_eq_true, true_and, false_or]
        exact built.sole_append apart held

end

end StrictIndex.Exact

theorem strictListToMap_exact : (strictListToMap items).Exact (items.filterMap id) := by
  rw [strictListToMap]
  induction items.filterMap id using List.reverseRecOn with
  | nil =>
    refine ⟨fun key value => ?_, rfl⟩
    simp [ofIdentity]
  | append_singleton values value ih =>
    rw [List.foldl_append]
    exact ih.add value

/-- What an index holds of the values it was built from. -/
structure StrictIndex.Indexes (state : StrictIndex) (values : List Instance) : Prop where
  keyed : ∀ key value, state.index.lookup key = some value → identityKey value = key ∧ value ∈ values
  complete : ∀ value ∈ values, identityKey value ∈ state.index ∨ identityKey value ∈ state.ambiguous

theorem mem_ofIdentity {values : List Instance} :
    value ∈ ofIdentity values key ↔ value ∈ values ∧ identityKey value = key := by
  rw [ofIdentity, List.mem_filter, decide_eq_true_iff]

theorem StrictIndex.Exact.indexes {state : StrictIndex} {values : List Instance} (built : state.Exact values) :
    state.Indexes values := by
  refine ⟨fun key value found => ?_, fun value member => ?_⟩
  · have sole : value ∈ ofIdentity values key := by
      rw [(built.sole key value).mp found]
      exact List.mem_singleton_self value
    exact (mem_ofIdentity.mp sole).symm
  · have among : value ∈ ofIdentity values (identityKey value) := mem_ofIdentity.mpr ⟨member, rfl⟩
    rw [built.mem_ambiguous_iff]
    rcases Nat.lt_or_ge 1 (ofIdentity values (identityKey value)).length with twice | once
    · exact .inr twice
    · obtain ⟨only, sole⟩ := List.length_eq_one_iff.mp (Nat.le_antisymm once (List.length_pos_of_mem among))
      exact .inl (Finmap.mem_of_lookup_eq_some ((built.sole _ only).mpr sole))

theorem strictListToMap_indexes : (strictListToMap items).Indexes (items.filterMap id) :=
  (strictListToMap_exact items).indexes

section

variable (values : List Instance)

include values

theorem filterMap_map_some : (values.map some).filterMap id = values := by
  rw [List.filterMap_map, Function.id_comp, List.filterMap_some]

theorem strictListToMap_map_some :
    strictListToMap (values.map some) = values.foldl StrictIndex.add {} := by
  rw [strictListToMap, filterMap_map_some]

/-- The index of a list without nil entries. -/
theorem indexes_map_some : (strictListToMap (values.map some)).Indexes values := by
  have built := strictListToMap_indexes (values.map some)
  rwa [filterMap_map_some] at built

/-- An index has no ambiguous keys exactly if it was built from values of different identities. -/
theorem strictListToMap_nodup :
    (strictListToMap (values.map some)).ambiguous = [] ↔ (values.map identityKey).Nodup := by
  have built := strictListToMap_exact (values.map some)
  rw [filterMap_map_some] at built
  rw [List.nodup_iff_count_le_one, List.eq_nil_iff_forall_not_mem, built.repeated]
  refine forall_congr' fun key => ?_
  rw [mem_secondOccurrences]
  exact Nat.not_lt

end

/-- A value of a list of different identities is the one that the list's index holds. -/
theorem lookup_strictListToMap {values : List Instance}
    (clear : (strictListToMap (values.map some)).ambiguous = []) (member : value ∈ values) :
    (strictListToMap (values.map some)).index.lookup (identityKey value) = some value := by
  have indexes := indexes_map_some values
  have held : identityKey value ∈ (strictListToMap (values.map some)).index := by
    apply (indexes.complete value member).resolve_right
    rw [clear]
    exact List.not_mem_nil
  obtain ⟨found, own⟩ := Finmap.mem_iff.mp held
  obtain ⟨identity, listed⟩ := indexes.keyed _ _ own
  rw [own, List.inj_on_of_nodup_map ((strictListToMap_nodup values).mp clear) listed member identity]

variable {index : FiniteMap String Instance} {target : Instance}

/-- The look-up depends on the index at the target's identity only. -/
theorem lookupIdentity_congr {index' : FiniteMap String Instance}
    (same : index.lookup (identityKey target) = index'.lookup (identityKey target)) :
    lookupIdentity index items target = lookupIdentity index' items target := by
  simp only [lookupIdentity, same]

/-- A target that an index holds under its own identity is found there. -/
theorem lookupIdentity_of_mem {items : Instances} {found : Instance}
    (held : index.lookup (identityKey target) = some found) : lookupIdentity index items target = some found := by
  simp [lookupIdentity, held]

/-- A source-aware target that the index does not hold is not matched by a wire id if the source-aware items of that
wire id have other addresses. -/
theorem lookupIdentity_eq_none {items : Instances}
    (absent : index.lookup (identityKey target) = none) (aware : legacyIdentity target = false)
    (apart : ∀ item, some item ∈ items → legacyIdentity item = false ∧ target.ip ≠ item.ip) :
    lookupIdentity index items target = none := by
  simp only [lookupIdentity, absent]
  split_ifs with unnamed
  · rfl
  cases found : (items.filterMap id).filter (fun item => decide (item.instanceId = target.instanceId)) with
  | nil => rfl
  | cons only rest =>
    have member : only ∈ items.filterMap id := (List.mem_filter.mp (found ▸ List.mem_cons_self)).1
    obtain ⟨item, listed, rfl⟩ := List.mem_filterMap.mp member
    obtain ⟨itemAware, other⟩ := apart only listed
    cases rest with
    | cons second rest => rfl
    | nil => simp [aware, itemAware, other]

/-- The strict index of a list with nil entries: the identities that occur once lead to their instance, those that occur
more often are reported, each once, in the order of their second occurrences. -/
theorem strictListToMap_occurrences (items : Instances) : (∀ key value, (strictListToMap items).index.lookup key = some value ↔
        (items.filterMap id).filter (fun item => decide (identityKey item = key)) = [value]) ∧
      (strictListToMap items).ambiguous = secondOccurrences ((items.filterMap id).map identityKey) ∧
      (strictListToMap items).ambiguous.Nodup ∧
      ∀ key, key ∈ (strictListToMap items).ambiguous ↔ 2 ≤ ((items.filterMap id).map identityKey).count key := by
  have built := strictListToMap_exact items
  refine ⟨built.sole, built.repeated, ?_, fun key => ?_⟩
  · rw [built.repeated]
    exact nodup_secondOccurrences _
  · rw [built.repeated, mem_secondOccurrences]

end Spotter.Providers
