import Spotter.Providers.Consul.Provider
import Spotter.Worker.Registrations

/-! # The events of a changed cache

The merged read has the identities of the catalog and never goes back below a cached revision. The diff
against the old cache has at most one event for each identity: an add of a new one, an update of a changed
one, a delete of a missing one.
-/

namespace Spotter.Providers.Consul

open Library Domain Worker

/-- An instance as conversion and the filters let it through: it passes the filters, and its identity is a source
key, which is not mistaken for a wire id. -/
@[mk_iff] structure Admitted (config : Config) (ins : Instance) : Prop where
  verified : verifyInstance config.filters ins = none
  qualified : Cache.sourceQualified (identityKey ins) = true
  listed : listedStatus ins = true

instance (config : Config) (ins : Instance) : Decidable (Admitted config ins) := decidable_of_iff _ (admitted_iff config ins).symm

section Merge

variable {old : Cache} {current : List Instance}

/-- The merged read of one instance. -/
def mergeOne (old : Cache) (ins : Instance) : Instance :=
  match old.get (identityKey ins) with
  | some previous => if ins.reversion < previous.reversion then previous else ins
  | none => ins

theorem merge_eq_map : mergeMonotonicInstances old current = current.map (mergeOne old) := rfl

theorem mergeOne_cases (old : Cache) (ins : Instance) :
    (mergeOne old ins = ins ∧ ∀ previous, old.get (identityKey ins) = some previous → previous.reversion ≤ ins.reversion) ∨
      ∃ previous, old.get (identityKey ins) = some previous ∧ ins.reversion < previous.reversion ∧ mergeOne old ins = previous := by
  unfold mergeOne
  cases found : old.get (identityKey ins) with
  | none => exact .inl ⟨rfl, fun _ impossible => nomatch impossible⟩
  | some previous =>
    by_cases behind : ins.reversion < previous.reversion
    · exact .inr ⟨previous, rfl, behind, if_pos behind⟩
    · refine .inl ⟨if_neg behind, ?_⟩
      rintro other same
      cases same
      exact not_lt.mp behind

/-- What a merged instance is: of the same identity, either the read one or the cached one, and at no lower
revision than the cached one. -/
structure Merges (old : Cache) (ins merged : Instance) : Prop where
  identity : identityKey merged = identityKey ins
  origin : merged = ins ∨ merged ∈ old.entries
  monotone : ∀ previous, old.find (identityKey merged) = some previous → previous.reversion ≤ merged.reversion
  atLeast : ins.reversion ≤ merged.reversion

theorem mergeOne_merges (old : Cache) {ins : Instance} (qualified : Cache.sourceQualified (identityKey ins) = true) :
    Merges old ins (mergeOne old ins) := by
  have cases := mergeOne_cases old ins
  rw [Cache.get_qualified qualified] at cases
  rcases cases with ⟨same, current⟩ | ⟨previous, held, older, same⟩
  · rw [same]
    exact ⟨rfl, .inl rfl, current, le_refl _⟩
  · obtain ⟨member, identity⟩ := SortedStore.find_eq_some_iff.mp held
    rw [same]
    refine ⟨identity, .inr member, ?_, older.le⟩
    intro other cached
    rw [identity, held] at cached
    cases cached
    exact le_refl _

theorem find_cacheOf (instances : List Instance) (key : String) :
    (cacheOf instances).find key = instances.reverse.find? fun ins => decide (identityKey ins = key) := by
  rw [cacheOf, SortedStore.find_foldl]
  exact Option.or_none

/-- The cached identities are those of the instances. -/
theorem cacheOf_find_isSome {instances : List Instance} {key : String} :
    ((cacheOf instances).find key).isSome = true ↔ key ∈ instances.map identityKey := by
  rw [find_cacheOf, List.find?_isSome]
  simp

theorem cacheOf_find_eq_some_iff {instances : List Instance} {key : String} {ins : Instance}
    (distinct : (instances.map identityKey).Nodup) :
    (cacheOf instances).find key = some ins ↔ ins ∈ instances ∧ identityKey ins = key :=
  SortedStore.find_foldl_eq_some_iff fun _ firstMember _ secondMember =>
    List.inj_on_of_nodup_map distinct firstMember secondMember

section Qualified

variable (old) (qualified : ∀ ins ∈ current, Cache.sourceQualified (identityKey ins) = true)

include qualified

theorem merge_identities : (mergeMonotonicInstances old current).map identityKey = current.map identityKey := by
  rw [merge_eq_map, List.map_map]
  refine List.map_congr_left fun ins member => ?_
  exact (mergeOne_merges old (qualified ins member)).identity

/-- Merging a read again changes nothing if no identity is read twice. -/
theorem merge_again (distinct : (current.map identityKey).Nodup) :
    mergeMonotonicInstances (cacheOf (mergeMonotonicInstances old current)) current = mergeMonotonicInstances old current := by
  rw [← merge_identities old qualified] at distinct
  rw [merge_eq_map, merge_eq_map]
  refine List.map_congr_left fun ins member => ?_
  have merges := mergeOne_merges old (qualified ins member)
  have found : (cacheOf (current.map (mergeOne old))).find (identityKey ins) = some (mergeOne old ins) :=
    (cacheOf_find_eq_some_iff distinct).mpr ⟨List.mem_map_of_mem member, merges.identity⟩
  rw [← Cache.get_qualified (qualified ins member)] at found
  rcases mergeOne_cases (cacheOf (current.map (mergeOne old))) ins with ⟨same, atMost⟩ | ⟨previous, held, _, same⟩
  · -- The read one is not older than the merged one, so the merged one is the read one.
    rw [same]
    rcases mergeOne_cases old ins with ⟨read, _⟩ | ⟨_, _, older, cached⟩
    · exact read.symm
    · have bound := atMost _ found
      rw [cached] at bound
      exact absurd older (not_lt.mpr bound)
  · rw [same]
    exact Option.some.inj (held.symm.trans found)

end Qualified

end Merge

/-! ## The diff -/

/-- All events of a diff, in the order in which they are sent. -/
def CacheDiff.events (diff : CacheDiff) : List Instance := diff.add ++ diff.update ++ diff.del

@[simp] theorem identityKey_announced (ins : Instance) : identityKey (announced ins) = identityKey ins := rfl

@[simp] theorem identityKey_terminated (ins : Instance) : identityKey (terminated ins) = identityKey ins := rfl

section Diff

variable {config : Config} {old new : Cache} {ins event : Instance} {key : String}

/-- Every stored instance is admitted. -/
def AllAdmitted (config : Config) (cache : Cache) : Prop := ∀ ins ∈ cache.entries, Admitted config ins

theorem mem_add (admitted : AllAdmitted config new) : event ∈ (extractDiff config old new).add ↔
      ∃ ins ∈ new.entries, old.find (identityKey ins) = none ∧ announced ins = event := by
  simp only [extractDiff, List.mem_map, List.mem_filter, Bool.and_eq_true, Option.isNone_iff_eq_none, and_assoc]
  refine exists_congr fun ins => and_congr_right fun member => ?_
  rw [Cache.get_qualified (admitted ins member).qualified, (admitted ins member).verified]
  simp only [true_and]

theorem mem_update (admitted : AllAdmitted config new) : event ∈ (extractDiff config old new).update ↔
      event ∈ new.entries ∧ ∃ previous, old.find (identityKey event) = some previous ∧
        updated config.json previous event = true := by
  simp only [extractDiff, List.mem_filter, Bool.and_eq_true, Option.isNone_iff_eq_none, Option.any_eq_true]
  refine and_congr_right fun member => ?_
  rw [Cache.get_qualified (admitted event member).qualified, (admitted event member).verified]
  simp only [and_true]

theorem mem_del (admitted : AllAdmitted config old) : event ∈ (extractDiff config old new).del ↔
      ∃ ins ∈ old.entries, new.find (identityKey ins) = none ∧ terminated ins = event := by
  simp only [extractDiff, List.mem_map, List.mem_filter, Option.isNone_iff_eq_none, and_assoc]
  refine exists_congr fun ins => and_congr_right fun member => ?_
  rw [Cache.get_qualified (admitted ins member).qualified]

theorem not_missing (member : ins ∈ new.entries) (same : identityKey ins = key) : new.find key ≠ none := by
  rw [SortedStore.find_eq_some_iff.mpr ⟨member, same⟩]
  simp

/-- No identity has two events. -/
theorem events_distinct (oldAdmitted : AllAdmitted config old) (newAdmitted : AllAdmitted config new) :
    ((extractDiff config old new).events.map identityKey).Nodup := by
  have addKeys : ((extractDiff config old new).add.map identityKey).Nodup := by
    simp only [extractDiff, List.map_map, Function.comp_def, identityKey_announced]
    exact new.keys_nodup.sublist (List.filter_sublist.map _)
  have updateKeys : ((extractDiff config old new).update.map identityKey).Nodup :=
    new.keys_nodup.sublist (List.filter_sublist.map _)
  have delKeys : ((extractDiff config old new).del.map identityKey).Nodup := by
    simp only [extractDiff, List.map_map, Function.comp_def, identityKey_terminated]
    exact old.keys_nodup.sublist (List.filter_sublist.map _)
  rw [CacheDiff.events, List.map_append, List.map_append, List.nodup_append, List.nodup_append]
  refine ⟨⟨addKeys, updateKeys, ?_⟩, delKeys, ?_⟩
  · -- An added identity was not cached, an updated one was.
    intro first added second changed same
    obtain ⟨_, add, rfl⟩ := List.mem_map.mp added
    obtain ⟨ins, update, rfl⟩ := List.mem_map.mp changed
    obtain ⟨fresh, _, missing, rfl⟩ := (mem_add newAdmitted).mp add
    obtain ⟨_, previous, found, _⟩ := (mem_update newAdmitted).mp update
    rw [identityKey_announced] at same
    rw [← same, missing] at found
    cases found
  · -- A deleted identity is missing from the new cache, the others are in it.
    intro first other second removed same
    obtain ⟨_, del, rfl⟩ := List.mem_map.mp removed
    obtain ⟨gone, _, missing, rfl⟩ := (mem_del oldAdmitted).mp del
    rcases List.mem_append.mp other with added | changed
    · obtain ⟨_, add, rfl⟩ := List.mem_map.mp added
      obtain ⟨fresh, member, _, rfl⟩ := (mem_add newAdmitted).mp add
      exact not_missing member same missing
    · obtain ⟨ins, update, rfl⟩ := List.mem_map.mp changed
      exact not_missing ((mem_update newAdmitted).mp update).1 same missing

section Events

variable (oldAdmitted : AllAdmitted config old) (newAdmitted : AllAdmitted config new)

include oldAdmitted newAdmitted

theorem lastWrite_added (now_cached : new.find key = some ins) (missing : old.find key = none) :
    lastWrite (extractDiff config old new).events key = some (announced ins) := by
  obtain ⟨member, rfl⟩ := SortedStore.find_eq_some_iff.mp now_cached
  rw [← identityKey_announced ins]
  apply lastWrite_of_mem (events_distinct oldAdmitted newAdmitted)
  have added := (mem_add newAdmitted).mpr ⟨ins, member, missing, rfl⟩
  exact List.mem_append_left _ (List.mem_append_left _ added)

theorem lastWrite_updated {previous : Instance} (now_cached : new.find key = some ins) (cached : old.find key = some previous)
    (changed : updated config.json previous ins = true) :
    lastWrite (extractDiff config old new).events key = some ins := by
  obtain ⟨member, rfl⟩ := SortedStore.find_eq_some_iff.mp now_cached
  apply lastWrite_of_mem (events_distinct oldAdmitted newAdmitted)
  have updates := (mem_update newAdmitted).mpr ⟨member, previous, cached, changed⟩
  exact List.mem_append_left _ (List.mem_append_right _ updates)

theorem lastWrite_removed (now_missing : new.find key = none) (cached : old.find key = some ins) :
    lastWrite (extractDiff config old new).events key = some (terminated ins) := by
  obtain ⟨member, rfl⟩ := SortedStore.find_eq_some_iff.mp cached
  rw [← identityKey_terminated ins]
  apply lastWrite_of_mem (events_distinct oldAdmitted newAdmitted)
  exact List.mem_append_right _ ((mem_del oldAdmitted).mpr ⟨ins, member, now_missing, rfl⟩)

/-- An event's identity is new, changed or missing. -/
theorem event_cases (sent : event ∈ (extractDiff config old new).events) :
    (∃ ins, new.find (identityKey event) = some ins ∧ old.find (identityKey event) = none ∧ event = announced ins) ∨
      (∃ previous, new.find (identityKey event) = some event ∧ old.find (identityKey event) = some previous ∧
        updated config.json previous event = true) ∨
      ∃ ins, new.find (identityKey event) = none ∧ old.find (identityKey event) = some ins ∧ event = terminated ins := by
  rcases List.mem_append.mp sent with kept | removed
  · rcases List.mem_append.mp kept with added | changed
    · obtain ⟨ins, member, missing, rfl⟩ := (mem_add newAdmitted).mp added
      exact .inl ⟨ins, SortedStore.find_eq_some_iff.mpr ⟨member, rfl⟩, missing, rfl⟩
    · obtain ⟨member, previous, found, differs⟩ := (mem_update newAdmitted).mp changed
      exact .inr (.inl ⟨previous, SortedStore.find_eq_some_iff.mpr ⟨member, rfl⟩, found, differs⟩)
  · obtain ⟨ins, member, missing, rfl⟩ := (mem_del oldAdmitted).mp removed
    exact .inr (.inr ⟨ins, missing, SortedStore.find_eq_some_iff.mpr ⟨member, rfl⟩, rfl⟩)

theorem lastWrite_unchanged {previous : Instance} (now_cached : new.find key = some ins)
    (cached : old.find key = some previous) (same : updated config.json previous ins = false) :
    lastWrite (extractDiff config old new).events key = none := by
  rw [lastWrite_eq_none]
  rintro event sent rfl
  rcases event_cases oldAdmitted newAdmitted sent with ⟨_, _, missing, _⟩ | ⟨other, found, was, changed⟩ | ⟨_, missing, _⟩
  · rw [cached] at missing
    cases missing
  · rw [now_cached] at found
    cases found
    rw [cached] at was
    cases was
    rw [same] at changed
    cases changed
  · rw [now_cached] at missing
    cases missing

theorem lastWrite_absent (now_missing : new.find key = none) (missing : old.find key = none) :
    lastWrite (extractDiff config old new).events key = none := by
  rw [lastWrite_eq_none]
  rintro event sent rfl
  rcases event_cases oldAdmitted newAdmitted sent with ⟨_, found, _⟩ | ⟨_, found, _⟩ | ⟨_, _, found, _⟩
  · rw [now_missing] at found
    cases found
  · rw [now_missing] at found
    cases found
  · rw [missing] at found
    cases found

end Events

end Diff

end Spotter.Providers.Consul
