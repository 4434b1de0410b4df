import Spotter.Library.History
import Spotter.Providers.Consul.Provider

/-! # Comparing the Consul cache with the remote view

A compare replaces the cache and takes its snapshot under the provider's lock, releases the lock, reads
the remote view, and then decides about one instance after the other, in the order in which a map happens
to be iterated. Syncs, full pushes and other compares run in between at any point.
-/

namespace Spotter.Providers.Consul

open Library Domain

/-- What is left of a compare after it released the lock. -/
inductive ComparePhase where
  | reading
  | flushing (rest : List Instance)
  | comparing (rest remote : FiniteMap String Instance)
  | deleting (remote : FiniteMap String Instance)

structure Compare where
  all : List Instance
  /-- The remote view, once it was read. -/
  items : Instances := []
  phase : ComparePhase := .reading

/-- `buildAndSendEvent`: an instance of unknown status is not sent. -/
def buildAndSendEvent (ins : Instance) : Option Instance := if ins.status = instanceStatusUnknown then none else some ins

section Steps

variable (config : Config)

/-- The remote instance is to be overwritten by the provider's. -/
def differs (consulIns servIns : Instance) : Bool :=
  if config.nacosReconcile then diffNacosReconcile config.json consulIns servIns
  else decide (servIns.reversion < consulIns.reversion ∨ (consulIns.reversion = servIns.reversion ∧
    canonicalPayload config.json consulIns ≠ canonicalPayload config.json servIns))

/-- What becomes of an instance that only the remote view has. -/
def retired (servIns : Instance) : Instance :=
  if config.nacosReconcile then terminated servIns else { servIns with status := instanceStatusUnhealthy }

namespace Compare

/-- The compare goes on with the remote view: an empty view gets everything, an ambiguous side stops it. -/
def read (c : Compare) (list : Instances) : Option Compare :=
  let items := sourceScopedRemote config list
  if items.isEmpty then some { c with phase := .flushing c.all }
  else
    let remote := strictListToMap items
    let current := strictListToMap (c.all.map some)
    if remote.ambiguous ≠ [] ∨ current.ambiguous ≠ [] then none
    else some { c with items := items, phase := .comparing current.index remote.index }

/-- The next decision, about the given key where a map is iterated, and the instance that is sent. -/
def next (c : Compare) (key : String) : Option Compare × Option Instance :=
  match c.phase with
  | .reading => (some c, none)
  | .flushing [] => (none, none)
  | .flushing (ins :: rest) => (some { c with phase := .flushing rest }, buildAndSendEvent ins)
  | .comparing rest remote =>
    match rest.lookup key with
    | some consulIns =>
      match lookupIdentity remote c.items consulIns with
      | some servIns =>
        (some { c with phase := .comparing (rest.erase key) (remote.erase (identityKey servIns)) },
          if differs config consulIns servIns then buildAndSendEvent consulIns else none)
      | none =>
        (some { c with phase := .comparing (rest.erase key) remote },
          if consulIns.status = instanceStatusOnline then buildAndSendEvent consulIns else none)
    | none => (some (if rest = ∅ then { c with phase := .deleting remote } else c), none)
  | .deleting remote =>
    match remote.lookup key with
    | some servIns =>
      (some { c with phase := .deleting (remote.erase key) }, buildAndSendEvent (retired config servIns))
    | none => (if remote = ∅ then none else some c, none)

end Compare

/-- The provider and its running compares. -/
structure Reconcile where
  provider : Provider := {}
  compares : ℕ → Option Compare := fun _ => none

/-- Everything that can happen. A failed read of the catalog or of the remote view yields none. -/
inductive ReconcileStep where
  | sync (catalog : Option Catalog)
  | fullPush (advance : Bool) (catalog : Option Catalog)
  | compareBegin (id : ℕ) (catalog : Option Catalog)
  | compareRead (id : ℕ) (list : Option Instances)
  | compareNext (id : ℕ) (key : String)

namespace Reconcile

def step (w : Reconcile) : ReconcileStep → Reconcile
  | .sync catalog => { w with provider := (w.provider.syncInstanceAt config catalog).1 }
  | .fullPush advance catalog => { w with provider := (w.provider.snapshotForFullPushMode advance catalog).1 }
  | .compareBegin id catalog =>
    match w.compares id with
    | some _ => w
    | none =>
      let (provider, all) := w.provider.compareSnapshot catalog
      ⟨provider, Function.update w.compares id (all.map fun all => { all := all })⟩
  | .compareRead id list =>
    match w.compares id with
    | some { all := all, phase := .reading, .. } =>
      { w with compares := Function.update w.compares id (list.bind fun list => ({ all := all } : Compare).read config list) }
    | _ => w
  | .compareNext id key =>
    match w.compares id with
    | some c => { w with compares := Function.update w.compares id (c.next config key).1 }
    | none => w

def after (history : List ReconcileStep) : Reconcile := history.foldl (fun w event => w.step config event) {}

variable {config} in
theorem after_append {history : List ReconcileStep} {event : ReconcileStep} :
    after config (history ++ [event]) = (after config history).step config event := by
  rw [after, List.foldl_append]
  rfl

/-- The instance that a step decides to send. -/
def emits (w : Reconcile) : ReconcileStep → Option Instance
  | .compareNext id key => (w.compares id).bind fun c => (c.next config key).2
  | _ => none

end Reconcile

end Steps

end Spotter.Providers.Consul
