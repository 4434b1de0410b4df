import Spotter.Nacos.Prune
import Spotter.Ports.Sink

/-! # A full push as a concurrent run

`PushAll` writes the snapshot's items in goroutines, one per item, waits for them, reads the catalog
back and removes the unwanted hosts in goroutines again. A goroutine is a thread with one atomic step
per critical section or server call. The scheduler chooses which thread moves and the environment
chooses what the server answers; both choices are the labels of a run.

Batches of one pair run one after the other, so a thread may only move when the earlier batches of its
pair have finished. The limiter on concurrent calls restricts the schedules further and is left out, and
so are log lines, metrics and the observer of acknowledged writes.
-/

namespace Spotter.Nacos

open Library Domain Ports

/-- What a thread does. -/
inductive Job where
  | register (ins : Instance)
  | deregister (ins : Instance)
  | sweep (task : PruneTask)

/-- How far a thread is. -/
inductive Phase where
  | waiting
  /-- `recoverWireOwnership` holds the scan lock and the owners it read. -/
  | scanning (owners : List (String × String))
  | recovered
  /-- The write may be sent; a register holds a claim, and the flag says that it made the claim. -/
  | admitted (claimed : Bool)
  | answered (claimed : Bool) (err : Option GoError)
  | finished (err : Option GoError)

/-- What the server and the network do with the call of a step. -/
inductive Answer where
  | done
  /-- The health-check set-up before a register failed, so nothing was sent. -/
  | blocked (err : GoError)
  /-- The call failed; the server may have applied it all the same. -/
  | failed (applied : Bool) (err : GoError)

namespace Answer

def err : Answer → Option GoError
  | .done => none
  | .blocked err => some err
  | .failed _ err => some err

def applies : Answer → Bool
  | .done => true
  | .blocked _ => false
  | .failed applied _ => applied

end Answer

/-- The server's catalog and the sink's memory. -/
structure World where
  catalog : Catalog
  ownership : Ownership := {}
  scanLocked : Bool := false

/-! ## The steps of a thread -/

variable (config : Config)

/-- The host key of an instance. -/
def instanceTarget (ins : Instance) : HostKey :=
  ⟨ins.appCode, effectiveGroup config.group, clusterOf ins, ins.ip, firstPort ins⟩

variable {ins : Instance}

theorem instanceTarget_compositeID {config : Config} :
    (instanceTarget config ins).compositeID = compositeIDWithGroup ins config.group :=
  rfl

theorem registerParams_key {config : Config} : (registerParams config.lib config.group ins).key = instanceTarget config ins :=
  rfl

theorem registerParams_owned {config : Config} : (registerParams config.lib config.group ins).Owned :=
  ownerMarked_metadataOf

variable (world : World)

/-- The first half of `recoverWireOwnership`: it reads each pair once per process, one pair at a time. -/
def recoverWireOwnership (ins : Instance) (answer : Answer) : World × Phase :=
  let scope := clusterKeyOf ins
  if ins.sourceKey = "" ∧ ins.sourceCluster = "" then (world, .recovered)
  else if world.scanLocked then (world, .waiting)
  else if scope ∈ world.ownership.wireScanned then (world, .recovered)
  else
    match answer.err with
    | some err =>
      let context := "nacos: recover wire ownership for " ++ scope.service ++ "/" ++ scope.cluster ++ ": %w"
      (world, .finished (some (.wrapped context err)))
    | none =>
      let hosts := world.catalog.selectAll (effectiveGroup config.group) scope.service scope.cluster
      match scanOwners config.lib config.group scope.service [] hosts with
      | .error err => (world, .finished (some err))
      | .ok owners => ({ world with scanLocked := true }, .scanning owners)

variable (job : Job)

def Job.begin (answer : Answer) : World × Phase :=
  match job with
  | .register ins =>
    if ins.ip = "" then (world, .finished none)
    else
      match validateMetadataSize (metadataOf config.lib ins) with
      | some err => (world, .finished (some err))
      | none => recoverWireOwnership config world ins answer
  | .deregister ins =>
    if ins.ip = "" then (world, .finished none) else recoverWireOwnership config world ins answer
  | .sweep _ => (world, .admitted false)

/-- The second half of `recoverWireOwnership`. -/
def Job.record (owners : List (String × String)) : World × Phase :=
  match job with
  | .register ins | .deregister ins =>
    match world.ownership.recordScan (clusterKeyOf ins) owners with
    | (ownership, some err) => ({ world with ownership := ownership, scanLocked := false }, .finished (some err))
    | (ownership, none) => ({ world with ownership := ownership, scanLocked := false }, .recovered)
  | .sweep _ => (world, .scanning owners)

/-- The claim of a register and the ownership check of a deregister. -/
def Job.enter : World × Phase :=
  match job with
  | .register ins =>
    match world.ownership.claimWireIdentity config.group ins with
    | .error err => (world, .finished (some err))
    | .ok (ownership, claimed) => ({ world with ownership := ownership }, .admitted claimed)
  | .deregister ins =>
    match world.ownership.deregisterConflict config.group ins with
    | some err => (world, .finished (some err))
    | none => (world, .admitted false)
  | .sweep _ => (world, .recovered)

/-- The error of a register as the batch and the per-item path return it. -/
def registerError (ins : Instance) (answer : Answer) : Option GoError :=
  match config.persistentVendor, answer with
  | true, _ => answer.err
  | false, .done => none
  | false, .blocked err =>
    some (.wrapped ("nacos: register " ++ ins.instanceId ++ " blocked by cluster health-check setup: %w") err)
  | false, .failed _ err => some (.wrapped ("nacos: register " ++ ins.instanceId ++ ": %w") err)

def deregisterError (key : HostKey) (answer : Answer) : Option GoError :=
  answer.err.map (.wrapped ("nacos: deregister " ++ key.ip ++ "#" ++ toString key.port ++ "/" ++ key.cluster ++ ": %w"))

/-- The server call of a thread. -/
def Job.send (claimed : Bool) (answer : Answer) : World × Phase :=
  let remove (key : HostKey) : World × Phase :=
    ({ world with catalog := if answer.applies then world.catalog.deregister key else world.catalog },
      .answered claimed (deregisterError key answer))
  match job with
  | .register ins =>
    let params := registerParams config.lib config.group ins
    ({ world with catalog := if answer.applies then world.catalog.register params else world.catalog },
      .answered claimed (registerError config ins answer))
  | .deregister ins => remove (instanceTarget config ins)
  | .sweep task => remove (task.target config)

/-- What a thread does after its server call. -/
def Job.settle (claimed : Bool) (err : Option GoError) : World × Phase :=
  let forgetKey (key : HostKey) : Ownership := if err.isNone then
      world.ownership.forget (compositeText key.ip key.port key.cluster config.group key.service)
    else world.ownership
  match job with
  | .register ins =>
    ({ world with ownership := world.ownership.releaseWireIdentity config.group ins claimed err.isNone }, .finished err)
  | .deregister ins => ({ world with ownership := forgetKey (instanceTarget config ins) }, .finished err)
  | .sweep task => ({ world with ownership := forgetKey (task.target config) }, .finished err)

/-- One step of a thread. -/
def Job.act (phase : Phase) (answer : Answer) : World × Phase :=
  match phase with
  | .waiting => job.begin config world answer
  | .scanning owners => job.record world owners
  | .recovered => job.enter config world
  | .admitted claimed => job.send config world claimed answer
  | .answered claimed err => job.settle config world claimed err
  | .finished err => (world, .finished err)

/-! ## Threads -/

structure Thread where
  job : Job
  scope : ClusterKey
  batch : ℕ := 0
  phase : Phase := .waiting

namespace Thread

/-- The thread's result once it has finished. -/
def result (t : Thread) : Option (Option GoError) :=
  match t.phase with
  | .finished err => some err
  | _ => none

def error (t : Thread) : Option GoError := t.result.join

end Thread

variable (threads : List Thread)

/-- The earlier batches of the thread's pair have finished. -/
def ready (t : Thread) : Bool :=
  threads.all fun other => decide (other.scope = t.scope → other.batch < t.batch → other.result.isSome = true)

def allFinished : Bool := threads.all fun t => t.result.isSome

def moveThread (index : ℕ) (answer : Answer) :
    World × List Thread :=
  match threads[index]? with
  | none => (world, threads)
  | some t =>
    if ready threads t then
      let next := t.job.act config world t.phase answer
      (next.1, threads.set index { t with phase := next.2 })
    else (world, threads)

/-- The thread of a snapshot item, given the batches. -/
def itemThread (batches : List PersistentBatch) (item : Option Instance × ℕ) : Option Thread :=
  item.1.bind fun ins => (persistentBatchOperation ins.status).map fun operation =>
    { job := match operation with
        | .register => .register ins
        | .deregister => .deregister ins
      scope := clusterKeyOf ins
      batch := batches.findIdx fun batch => decide (item.2 ∈ batch.indexes) }

/-- The threads of `pushPersistentBatches`, in snapshot order. -/
def batchThreads (instances : Instances) : List Thread :=
  instances.zipIdx.filterMap (itemThread (splitPersistentBatchesForScope instances maxPersistentBatchSize))

def sweepThread (task : PruneTask) : Thread := { job := .sweep task, scope := task.key }

/-- The failed items with their pairs. -/
def failures : List (ClusterKey × GoError) :=
  threads.filterMap fun t => t.error.map fun err => (t.scope, err)

def batchApplyError (failed : List (ClusterKey × GoError)) : Option GoError :=
  if failed.isEmpty then none
  else some (.classified "nacos: persistent batch application failed" (failed.all fun failure => failure.2.isPermanentError)
    (failed.map Prod.snd))

/-- The error of the writes joined with the one of the prune. -/
def joinErrors : Option GoError → Option GoError → Option GoError
  | none, prune => prune
  | some applied, none => some applied
  | some applied, some prune => some (.joined [applied, prune])

/-! ## The run -/

inductive Stage where
  | applying (threads : List Thread)
  /-- The prune deregisters; the errors of the writes and of the listings are known. -/
  | sweeping (applied listed : Option GoError) (threads : List Thread)
  | returned (err : Option GoError)

instance (stage : Stage) : Decidable (stage = .returned none) :=
  match stage with
  | .returned none => isTrue rfl
  | .returned (some _) => isFalse nofun
  | .applying _ => isFalse nofun
  | .sweeping _ _ _ => isFalse nofun

/-- A call of `PushAll` under way. -/
structure PushRun where
  world : World
  instances : Instances
  scopes : List String := []
  stage : Stage

inductive PushStep where
  | move (index : ℕ) (answer : Answer)
  /-- Every write has an answer and the prune reads. -/
  | discover (reads : PruneReads)
  /-- Every removal has an answer and the call returns. -/
  | leave

namespace PushRun

/-- The run at the call. -/
def start (instances : Instances) : PushRun where
  world := world
  instances := instances
  stage :=
    match world.ownership.validateWireIdentitySet config.group instances with
    | some err => .returned (some err)
    | none => .applying (batchThreads instances)

/-- `PushAllOperation`: only a confirmed empty operation with a scope prunes without a snapshot. -/
def startOperation (op : RetryOperation) : PushRun :=
  if op.instances ≠ [] then start config world op.instances
  else if op.emptyConfirmed = false ∨ op.scope = "" then { world := world, instances := [], stage := .returned none }
  else { world := world, instances := [], scopes := [op.scope], stage := .applying [] }

variable (run : PushRun)

/-- What the prune is about once the writes have finished. -/
def pruneInput : PruneInput :=
  ⟨run.instances, run.scopes, (failures threads).map Prod.fst⟩

/-- The prune reads after the writes. -/
def discover (reads : PruneReads) : PushRun :=
  let applied := batchApplyError (failures threads)
  let plan := prunePlan config run.world.catalog run.world.ownership reads (run.pruneInput threads)
  { run with
    world := { run.world with ownership := plan.1 }
    stage :=
      match plan.2 with
      | .error err => .returned (joinErrors applied (some err))
      | .ok (tasks, listed) => .sweeping applied listed (tasks.map sweepThread) }

def step : PushStep → PushRun
  | .move index answer =>
    match run.stage with
    | .applying threads =>
      let next := moveThread config run.world threads index answer
      { run with world := next.1, stage := .applying next.2 }
    | .sweeping applied listed threads =>
      let next := moveThread config run.world threads index answer
      { run with world := next.1, stage := .sweeping applied listed next.2 }
    | .returned _ => run
  | .discover reads =>
    match run.stage with
    | .applying threads => if allFinished threads then run.discover config threads reads else run
    | _ => run
  | .leave =>
    match run.stage with
    | .sweeping applied listed threads =>
      if allFinished threads then
        { run with stage := .returned (joinErrors applied (listed.or (threads.findSome? Thread.error))) }
      else run
    | _ => run

/-- The run after a history of steps. -/
def after (history : List PushStep) : PushRun := history.foldl (step config) run

theorem after_append (history : List PushStep) (label : PushStep) :
    run.after config (history ++ [label]) = (run.after config history).step config label := by
  rw [after, after, List.foldl_append]
  rfl

/-- The steps of a full push, with what they change of the run. -/
inductive Steps (config : Config) (run : PushRun) : PushStep → PushRun → Prop
  | rests (label : PushStep) (idle : ∀ index answer, label = .move index answer → ∃ err, run.stage = .returned err) :
      Steps config run label run
  | applies (threads : List Thread) (stage : run.stage = .applying threads) (index : ℕ) (answer : Answer) :
      Steps config run (.move index answer)
        { run with
          world := (moveThread config run.world threads index answer).1
          stage := .applying (moveThread config run.world threads index answer).2 }
  | discovers (threads : List Thread) (stage : run.stage = .applying threads) (all : allFinished threads = true)
      (reads : PruneReads) : Steps config run (.discover reads) (run.discover config threads reads)
  | sweeps (applied listed : Option GoError) (threads : List Thread) (stage : run.stage = .sweeping applied listed threads)
      (index : ℕ) (answer : Answer) :
      Steps config run (.move index answer)
        { run with
          world := (moveThread config run.world threads index answer).1
          stage := .sweeping applied listed (moveThread config run.world threads index answer).2 }
  | leaves (applied listed : Option GoError) (threads : List Thread) (stage : run.stage = .sweeping applied listed threads)
      (all : allFinished threads = true) :
      Steps config run .leave
        { run with stage := .returned (joinErrors applied (listed.or (threads.findSome? Thread.error))) }

theorem step_steps (label : PushStep) : run.Steps config label (run.step config label) := by
  cases label with
  | move index answer =>
    cases stage : run.stage with
    | applying threads =>
      simp only [step, stage]
      exact .applies threads stage index answer
    | sweeping applied listed threads =>
      simp only [step, stage]
      exact .sweeps applied listed threads stage index answer
    | returned err =>
      simp only [step, stage]
      exact .rests _ fun _ _ _ => ⟨err, stage⟩
  | discover reads =>
    have idle : ∀ index answer, PushStep.discover reads = .move index answer → ∃ err, run.stage = .returned err := by
      rintro _ _ ⟨⟩
    cases stage : run.stage with
    | applying threads =>
      simp only [step, stage]
      split_ifs with all
      · exact .discovers threads stage all reads
      · exact .rests _ idle
    | sweeping applied listed threads | returned err =>
      simp only [step, stage]
      exact .rests _ idle
  | leave =>
    have idle : ∀ index answer, PushStep.leave = .move index answer → ∃ err, run.stage = .returned err := by
      rintro _ _ ⟨⟩
    cases stage : run.stage with
    | applying threads =>
      simp only [step, stage]
      exact .rests _ idle
    | sweeping applied listed threads =>
      simp only [step, stage]
      split_ifs with all
      · exact .leaves applied listed threads stage all
      · exact .rests _ idle
    | returned err =>
      simp only [step, stage]
      exact .rests _ idle

end PushRun

/-! ## What a step does to the catalog -/

/-- The thread's write was acknowledged, or the thread finished without an error before it wrote. -/
def Phase.Acknowledged : Phase → Prop
  | .answered _ err => err = none
  | .finished err => err = none
  | _ => False

/-- The thread is between its checks and its end. -/
def Phase.Begun : Phase → Prop
  | .waiting => False
  | .finished _ => False
  | _ => True

variable {config : Config} {world : World} {phase : Phase} {answer : Answer}

theorem acknowledged_registerError (acknowledged : registerError config ins answer = none) : answer.applies = true := by
  cases answer with
  | done => rfl
  | blocked err | failed applied err =>
    cases vendor : config.persistentVendor <;> simp [registerError, vendor, Answer.err] at acknowledged

theorem acknowledged_deregisterError {key : HostKey} (acknowledged : deregisterError key answer = none) :
    answer.applies = true := by
  cases answer with
  | done => rfl
  | blocked err | failed applied err => cases acknowledged

/-- Only instances with an address get past the checks. -/
theorem act_begun {job : Job} (writes : job = .register ins ∨ job = .deregister ins)
    (begun : (job.act config world phase answer).2.Begun) : phase.Begun ∨ ins.ip ≠ "" := by
  cases phase with
  | waiting =>
    refine .inr fun empty => ?_
    rcases writes with rfl | rfl
    · simp only [Job.act, Job.begin, empty, ↓reduceIte] at begun
      exact begun
    · simp only [Job.act, Job.begin, empty, ↓reduceIte] at begun
      exact begun
  | finished err => exact absurd begun id
  | scanning owners | recovered | admitted claimed | answered claimed err => exact .inl trivial

/-- A step of a prune task leaves the catalog alone or removes its host; an acknowledgement comes with the removal. -/
theorem act_sweep (task : PruneTask) :
    let next := (Job.sweep task).act config world phase answer
    (next.1.catalog = world.catalog ∧ (next.2.Acknowledged → phase.Acknowledged)) ∨
      next.1.catalog = world.catalog.deregister (task.target config) := by
  cases phase with
  | waiting => exact .inl ⟨rfl, nofun⟩
  | scanning owners | recovered => exact .inl ⟨rfl, id⟩
  | admitted claimed =>
    simp only [Job.act, Job.send]
    split_ifs with applies
    · exact .inr rfl
    · exact .inl ⟨rfl, fun acknowledged => absurd (acknowledged_deregisterError acknowledged) applies⟩
  | answered claimed err | finished err => exact .inl ⟨rfl, id⟩

variable {threads : List Thread} {index : ℕ}

/-- A move changes nothing or advances one thread. -/
theorem moveThread_cases : moveThread config world threads index answer = (world, threads) ∨
      ∃ t ∈ threads, moveThread config world threads index answer = ((t.job.act config world t.phase answer).1,
          threads.set index { t with phase := (t.job.act config world t.phase answer).2 }) ∧ threads[index]? = some t := by
  simp only [moveThread]
  split
  · exact .inl rfl
  · next t found =>
    split_ifs
    · exact .inr ⟨t, List.mem_of_getElem? found, rfl, found⟩
    · exact .inl rfl

/-- A move changes at most the phase of a thread. -/
theorem moveThread_map {β : Type*} (f : Thread → β) (fixed : ∀ t phase, f { t with phase := phase } = f t) :
    (moveThread config world threads index answer).2.map f = threads.map f := by
  rcases moveThread_cases with same | ⟨t, _, moved, found⟩
  · rw [same]
  · rw [moved]
    refine List.ext_getElem? fun position => ?_
    rw [List.getElem?_map, List.getElem?_map, List.getElem?_set]
    split_ifs with here inside
    · rw [← here, found]
      exact congrArg some (fixed t _)
    · rw [← here, List.getElem?_eq_none (not_lt.mp inside)]
    · rfl

/-- Moves never change what the threads do. -/
theorem moveThread_jobs : (moveThread config world threads index answer).2.map Thread.job = threads.map Thread.job :=
  moveThread_map Thread.job fun _ _ => rfl

/-! ## Results of threads -/

theorem acknowledged_of_allFinished {t : Thread} (all : allFinished threads = true) (member : t ∈ threads)
    (clean : t.error = none) : t.phase.Acknowledged := by
  have finished := List.all_eq_true.mp all t member
  cases phase : t.phase with
  | finished err => simpa [Phase.Acknowledged, Thread.error, Thread.result, phase] using clean
  | waiting | scanning owners | recovered | admitted claimed | answered claimed err => simp [Thread.result, phase] at finished

theorem failures_of_batchApplyError (clean : batchApplyError (failures threads) = none) : failures threads = [] := by
  simp only [batchApplyError] at clean
  split_ifs at clean with empty
  exact List.isEmpty_iff.mp empty

theorem error_of_failures {t : Thread} (clean : failures threads = []) (member : t ∈ threads) : t.error = none := by
  simpa using List.filterMap_eq_nil_iff.mp clean t member

theorem joinErrors_eq_none {applied prune : Option GoError} (clean : joinErrors applied prune = none) :
    applied = none ∧ prune = none := by
  cases applied with
  | none => exact ⟨rfl, clean⟩
  | some err => cases prune <;> cases clean

end Spotter.Nacos
