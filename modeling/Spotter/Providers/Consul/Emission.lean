import Spotter.Providers.Consul.MixedTimes

/-! # Which instances the provider emits

The diff of a sync verifies what it adds and updates. The full snapshots and the corrections of a compare
are the merged read as it is, so an instance that the filters reject reaches the sinks on these paths.
An added instance is verified before it is announced as online, which the filters might not have let
through.

In runs in which the filters accept what full pushes and compares merge, and the adds of syncs also once
they are announced as online, everything the provider emits of its source is accepted.
-/

namespace Spotter.Providers.Consul

open Library Domain

/-- What is left of a compare is to delete remote instances. -/
def Compare.onlyDeletes (c : Compare) : Bool :=
  match c.phase with
  | .deleting _ => true
  | _ => false

/-- The source instances that a step emits: the adds and updates of a sync, the snapshot of a full push or of its
revalidation, and the correction of a compare. -/
def Reconcile.emitsSource (config : Config) (w : Reconcile) : ReconcileStep → List Instance
  | .sync catalog => ((w.provider.syncInstanceAt config catalog).2.map Dispatch.announces).getD []
  | .fullPush advance catalog => ((w.provider.snapshotForFullPushMode advance catalog).2.map Prod.fst).getD []
  | .compareNext id key =>
    match w.compares id with
    | some c => if c.onlyDeletes then [] else (c.next config key).2.toList
    | none => []
  | _ => []

/-- What the provider relies on where it does not verify: an accepted instance that a sync adds is accepted as an online
one, and everything that a full push or a compare merges is accepted. -/
def Reconcile.Accepts (config : Config) (w : Reconcile) : ReconcileStep → Prop
  | .sync catalog => ∀ found ∈ catalog, ∀ ins ∈ mergeMonotonicInstances w.provider.cache found.instances,
      w.provider.cache.get (identityKey ins) = none → verifyInstance config.filters ins = none →
        verifyInstance config.filters (announced ins) = none
  | .fullPush _ catalog | .compareBegin _ catalog =>
    ∀ found ∈ catalog, ∀ ins ∈ mergeMonotonicInstances w.provider.cache found.instances, verifyInstance config.filters ins = none
  | .compareRead _ _ | .compareNext _ _ => True

instance (config : Config) (w : Reconcile) : (event : ReconcileStep) → Decidable (w.Accepts config event)
  | .sync _ | .fullPush _ _ | .compareBegin _ _ => inferInstanceAs (Decidable (∀ _ ∈ _, _))
  | .compareRead _ _ | .compareNext _ _ => inferInstanceAs (Decidable True)

section Reads

variable {config : Config} {k : Provider} {catalog : Option Catalog}

/-- What a diff adds or updates is verified, if the instances that it verifies may be announced. -/
theorem extractDiff_verified {old new : Cache} (accepts : ∀ ins ∈ new.entries, old.get (identityKey ins) = none →
      verifyInstance config.filters ins = none → verifyInstance config.filters (announced ins) = none) :
    ∀ ins ∈ (extractDiff config old new).add ++ (extractDiff config old new).update, verifyInstance config.filters ins = none := by
  intro ins member
  rcases List.mem_append.mp member with added | changed
  · obtain ⟨fresh, listed, rfl⟩ := List.mem_map.mp added
    obtain ⟨among, passes⟩ := List.mem_filter.mp listed
    simp only [Bool.and_eq_true, Option.isNone_iff_eq_none] at passes
    exact accepts fresh among passes.1 passes.2
  · have passes := (List.mem_filter.mp changed).2
    simp only [Bool.and_eq_true, Option.isNone_iff_eq_none] at passes
    exact passes.2

/-- A compare goes on with what it merged, or with nothing. -/
theorem mem_compareSnapshot {all : List Instance} {ins : Instance} (taken : (k.compareSnapshot catalog).2 = some all)
    (member : ins ∈ all) : ∃ found ∈ catalog, ins ∈ mergeMonotonicInstances k.cache found.instances := by
  cases catalog with
  | none => cases taken
  | some found =>
    simp only [Provider.compareSnapshot] at taken
    split_ifs at taken <;> cases taken
    · cases member
    · cases member
    · exact ⟨found, rfl, member⟩

end Reads

/-! ## Runs -/

section Runs

variable {config : Config} {w : Reconcile}

/-- The snapshots of the running compares are accepted. -/
def Reconcile.HoldsAccepted (config : Config) (w : Reconcile) : Prop :=
  ∀ id c, w.compares id = some c → ∀ ins ∈ c.all, verifyInstance config.filters ins = none

theorem Reconcile.HoldsAccepted.step (holds : w.HoldsAccepted config) {event : ReconcileStep} (accepts : w.Accepts config event) :
    (w.step config event).HoldsAccepted config := by
  refine compares_step holds event ?_ ?_ ?_
  · rintro id catalog all rfl taken ins member
    obtain ⟨found, read, merged⟩ := mem_compareSnapshot taken member
    exact accepts found read ins merged
  · intro id c next list running continued
    rw [Compare.read_all continued]
    exact running
  · intro id c next key running goesOn
    rw [Compare.next_all goesOn]
    exact running

theorem run_holdsAccepted {history : List ReconcileStep}
    (accepts : History.AllSteps (fun before event => (Reconcile.after config before).Accepts config event) history) :
    (Reconcile.after config history).HoldsAccepted config := by
  refine History.invariant (fun earlier => (Reconcile.after config earlier).HoldsAccepted config) ?_ ?_ accepts
  · intro id c nothing
    cases nothing
  · intro earlier event condition holds
    rw [Reconcile.after_append]
    exact holds.step condition

/-- A source instance that a compare sends is one of its snapshot. -/
theorem Compare.next_source {c : Compare} (valid : c.Valid) {key : String} {sent : Instance}
    (source : c.onlyDeletes = false) (sends : (c.next config key).2 = some sent) : sent ∈ c.all := by
  rcases Compare.next_sends valid sends with member | ⟨remote, servIns, deleting, _⟩
  · exact member
  · rw [Compare.onlyDeletes, deleting] at source
    cases source

/-- In every run whose steps are acceptable, every source instance that the provider emits passes its filters. -/
theorem emitted_verified (config : Config) (history : List ReconcileStep) (event : ReconcileStep)
    (accepts : History.AllSteps (fun before step => (Reconcile.after config before).Accepts config step) (history ++ [event])) :
    ∀ ins ∈ (Reconcile.after config history).emitsSource config event, verifyInstance config.filters ins = none := by
  obtain ⟨earlier, last⟩ := History.allSteps_append.mp accepts
  have holds := run_holdsAccepted earlier
  have valid := run_valid config history
  generalize Reconcile.after config history = w at holds valid last ⊢
  intro ins emitted
  cases event with
  | sync catalog =>
    cases catalog with
    | none => cases emitted
    | some found =>
      cases dispatched : (w.provider.syncInstanceAt config (some found)).2 with
      | none =>
        simp only [Reconcile.emitsSource, dispatched] at emitted
        cases emitted
      | some dispatch =>
        simp only [Reconcile.emitsSource, dispatched, Option.map_some, Option.getD_some] at emitted
        refine extractDiff_verified (fun fresh member => ?_) ins ((sync_dispatch dispatched).2 ▸ dispatch.mem_announces emitted)
        exact last found rfl fresh (cacheOf_mem member)
  | fullPush advance catalog =>
    cases catalog with
    | none => cases emitted
    | some found => exact last found rfl ins emitted
  | compareBegin id catalog | compareRead id list => cases emitted
  | compareNext id key =>
    cases running : w.compares id with
    | none =>
      simp only [Reconcile.emitsSource, running] at emitted
      cases emitted
    | some c =>
      simp only [Reconcile.emitsSource, running] at emitted
      split_ifs at emitted with deletes
      · cases emitted
      · rw [Option.mem_toList] at emitted
        exact holds id c running ins
          (Compare.next_source (valid.compares id c running) (Bool.not_eq_true _ ▸ deletes) emitted)

end Runs

/-! ## Incomplete instances -/

/-- The provider's filters, on a catalog whose payloads are never compared. -/
def filtered : Config := { json := ⟨fun ins => ins.instanceId, fun _ => none⟩, nacosReconcile := true, sourceCluster := "dc1" }

def completeService : Instance :=
  { sourceKey := "dc1/node/a", sourceCluster := "dc1", instanceId := "a", provider := "ecs", appCode := "order",
    envType := "product", ip := "10.0.0.1", reversion := 1, status := instanceStatusOnline }

def catalogOf (ins : Instance) (present : ins.status = instanceStatusOnline ∨ ins.status = instanceStatusUnhealthy) : Catalog :=
  ⟨[ins], fun _ member => List.mem_singleton.mp member ▸ present⟩

/-- The environment of the service is not known. -/
def withoutEnv : Instance := { completeService with envType := "" }

/-- A sync that reads a service without environment emits nothing, and a full push emits a complete instance. -/
theorem completeService_pushed :
    let sync := ReconcileStep.sync (some (catalogOf withoutEnv (.inl rfl)))
    let push := ReconcileStep.fullPush true (some (catalogOf completeService (.inl rfl)))
    (Reconcile.after filtered []).emitsSource filtered sync = [] ∧
      (Reconcile.after filtered [sync]).emitsSource filtered push = [completeService] ∧
      verifyInstance filtered.filters completeService = none := by
  intro sync push
  have emitted : (Reconcile.after filtered [sync]).emitsSource filtered push = [completeService] := by decide +kernel
  have accepts : History.AllSteps (fun before step => (Reconcile.after filtered before).Accepts filtered step) ([sync] ++ [push]) := by
    decide +kernel
  exact ⟨by decide +kernel, emitted, emitted_verified filtered _ _ accepts _ (emitted ▸ List.mem_singleton_self _)⟩

/-- The node of the unhealthy service has no address. -/
def withoutAddress : Instance := { completeService with ip := "", status := instanceStatusUnhealthy }

/-- A full push and a compare with an empty remote view emit a service without environment, and a sync announces a
service without address as online. The filters reject all three. -/
theorem incomplete_services_emitted :
    (Reconcile.after filtered []).emitsSource filtered (.fullPush true (some (catalogOf withoutEnv (.inl rfl)))) = [withoutEnv] ∧
      (Reconcile.after filtered [.compareBegin 0 (some (catalogOf withoutEnv (.inl rfl))), .compareRead 0 (some [])]).emitsSource
        filtered (.compareNext 0 "") = [withoutEnv] ∧
      (verifyInstance filtered.filters withoutEnv).isSome = true ∧
      (Reconcile.after filtered []).emitsSource filtered (.sync (some (catalogOf withoutAddress (.inr rfl)))) =
        [announced withoutAddress] ∧
      (verifyInstance filtered.filters (announced withoutAddress)).isSome = true := by
  decide +kernel

end Spotter.Providers.Consul
