import Spotter.Nacos.BatchPartition
import Spotter.Nacos.Footprint

/-! # Calls of a sink, one after the other

A session is a sequence of `Push` and `PushAll` calls that do not overlap. `Push` writes its items in
goroutines like a full push, but in no batches, after no check of the whole call and without a prune.
The session also keeps, for the statements only, whom the last acknowledged registration of a host was
made for.

Within a call, writes at one composite id are orderly: they have one owner scope, and a removal and a
registration are never under way together.
-/

namespace Spotter.Nacos

open Library Domain Ports

/-! ## The session -/

variable (config : Config)

/-- The per-item path, whose register errors name the instance. -/
def Config.perItem : Config := { config with persistentVendor := false }

/-- `pushOne`: a status without an operation is skipped. -/
def pushThread (ins : Instance) : Option Thread :=
  (persistentBatchOperation ins.status).map fun operation => { job := itemJob operation ins, scope := clusterKeyOf ins }

/-- The threads of `pushInstances`; a nil item is skipped. -/
def pushThreads (instances : Instances) : List Thread := instances.reduceOption.filterMap pushThread

def Stage.threads : Stage → List Thread
  | .applying threads => threads
  | .sweeping _ _ threads => threads
  | .returned _ => []

/-- The call under way, or the last one. -/
inductive Call where
  | push (world : World) (threads : List Thread)
  | full (run : PushRun)

inductive SessionStep where
  | push (instances : Instances)
  | pushAll (instances : Instances)
  /-- The call under way takes a step. -/
  | work (label : PushStep)

namespace Call

def world : Call → World
  | .push world _ => world
  | .full run => run.world

def threads : Call → List Thread
  | .push _ threads => threads
  | .full run => run.stage.threads

/-- The call has returned. -/
def ended : Call → Bool
  | .push _ threads => allFinished threads
  | .full run =>
    match run.stage with
    | .returned _ => true
    | _ => false

def work (label : PushStep) : Call → Call
  | .push world threads =>
    match label with
    | .move index answer =>
      let next := moveThread config.perItem world threads index answer
      .push next.1 next.2
    | _ => .push world threads
  | .full run => .full (run.step config label)

/-- A new call starts when the last one has returned. -/
def step (call : Call) : SessionStep → Call
  | .push instances => if call.ended then .push call.world (pushThreads instances) else call
  | .pushAll instances => if call.ended then .full (PushRun.start config call.world instances) else call
  | .work label => call.work config label

end Call

/-- The instance whose register is acknowledged when the thread moves. -/
def Thread.acknowledges (threads : List Thread) (answer : Answer) (t : Thread) : Option Instance :=
  match t.job, t.phase, answer with
  | .register ins, .admitted _, .done => if ready threads t then some ins else none
  | _, _, _ => none

def acknowledged (threads : List Thread) : PushStep → Option Instance
  | .move index answer => threads[index]?.bind (Thread.acknowledges threads answer)
  | _ => none

/-- Note an acknowledged registration at its key. -/
def noteRegistered (registered : HostKey → Option Instance) (ack : Option Instance) (key : HostKey) :
    Option Instance :=
  match ack with
  | some ins => if key = instanceTarget config ins then some ins else registered key
  | none => registered key

structure Session where
  call : Call
  /-- The instance of the last acknowledged registration at a key. -/
  registered : HostKey → Option Instance := fun _ => none

namespace Session

/-- A new sink on a catalog: its tables are empty and nothing was called yet. -/
def fresh (catalog : Catalog) : Session where
  call := .push { catalog := catalog } []

def step (config : Config) (session : Session) (label : SessionStep) : Session where
  call := session.call.step config label
  registered :=
    match label with
    | .work work => noteRegistered config session.registered (acknowledged session.call.threads work)
    | _ => session.registered

def after (session : Session) (history : List SessionStep) : Session :=
  history.foldl (step config) session

theorem after_append (session : Session) (history : List SessionStep) (label : SessionStep) :
    session.after config (history ++ [label]) = (session.after config history).step config label := by
  rw [after, after, List.foldl_append]
  rfl

end Session

/-! ## What holds of the threads of a call -/

/-- How the writes of one call at one composite id relate. -/
structure Orderly (threads : List Thread) : Prop where
  order : InOrder threads
  owner : ∀ t ∈ threads, ∀ u ∈ threads, ∀ ins other, t.job.Writes ins → u.job.Writes other →
    compositeIDWithGroup ins config.group = compositeIDWithGroup other config.group →
    wireOwnerScope ins = wireOwnerScope other
  apart : ∀ t ∈ threads, ∀ u ∈ threads, ∀ ins, t.job.removal config = some (instanceTarget config ins) →
    u.job = .register ins → t.scope = u.scope ∧ t.batch ≠ u.batch

variable {config : Config} {world : World} {threads : List Thread} {index : ℕ} {answer : Answer}
  {instances : Instances}

/-- A removal and a registration at one key are not under way together. -/
theorem Orderly.exclusive (orderly : Orderly config threads) {t u : Thread} {ins : Instance} (member : t ∈ threads)
    (member' : u ∈ threads) (removal : t.job.removal config = some (instanceTarget config ins))
    (register : u.job = .register ins) (begun : t.phase.Begun) (begun' : u.phase.Begun) : False := by
  obtain ⟨scope, batch⟩ := orderly.apart t member u member' ins removal register
  have unfinished : ∀ {v : Thread}, v.phase.Begun → v.phase ≠ .waiting ∧ v.result.isSome ≠ true := by
    intro v begun
    refine ⟨?_, ?_⟩
    · intro waiting
      rw [waiting] at begun
      exact begun
    · intro done
      obtain ⟨err, finished⟩ := result_isSome done
      rw [finished] at begun
      exact begun
  rcases Nat.lt_or_gt_of_ne batch with before | after
  · exact (unfinished begun).2 (orderly.order t member u member' scope before (unfinished begun').1)
  · exact (unfinished begun').2 (orderly.order u member' t member scope.symm after (unfinished begun).1)

theorem Orderly.move (orderly : Orderly config threads) (moving : Config) (world : World) (index : ℕ) (answer : Answer) :
    Orderly config (moveThread moving world threads index answer).2 := by
  have plans : ∀ t ∈ (moveThread moving world threads index answer).2, ∃ made ∈ threads, made.plan = t.plan := by
    intro t member
    have among : t.plan ∈ threads.map Thread.plan := by
      rw [← moveThread_map Thread.plan fun _ _ => rfl]
      exact List.mem_map_of_mem member
    exact List.mem_map.mp among
  refine ⟨orderly.order.move moving world index answer, ?_, ?_⟩
  · intro t member u member' ins other writes writes'
    obtain ⟨t', listed, plan⟩ := plans t member
    obtain ⟨u', listed', plan'⟩ := plans u member'
    obtain ⟨job, _, _⟩ := plan_eq plan
    obtain ⟨job', _, _⟩ := plan_eq plan'
    exact orderly.owner t' listed u' listed' ins other (job ▸ writes) (job' ▸ writes')
  · intro t member u member' ins removal register
    obtain ⟨t', listed, plan⟩ := plans t member
    obtain ⟨u', listed', plan'⟩ := plans u member'
    obtain ⟨job, scope, batch⟩ := plan_eq plan
    obtain ⟨job', scope', batch'⟩ := plan_eq plan'
    rw [← scope, ← scope', ← batch, ← batch']
    exact orderly.apart t' listed u' listed' ins (job ▸ removal) (job'.trans register)

/-! ## Where the threads of a call come from -/

theorem register_itemJob {operation : BatchOperation} {ins other : Instance}
    (register : itemJob operation ins = .register other) : operation = .register ∧ other = ins := by
  cases operation with
  | register =>
    cases register
    exact ⟨rfl, rfl⟩
  | deregister => cases register

theorem mem_pushThreads {t : Thread} (member : t ∈ pushThreads instances) :
    ∃ ins operation, Item instances operation ins ∧ t.job = itemJob operation ins ∧ t.phase = .waiting := by
  obtain ⟨ins, listed, made⟩ := List.mem_filterMap.mp member
  obtain ⟨operation, known, rfl⟩ := Option.map_eq_some_iff.mp made
  exact ⟨ins, operation, ⟨List.reduceOption_mem_iff.mp listed, known⟩, rfl, rfl⟩

/-- The batch of a thread is of the thread's own pair and operation. -/
theorem batch_of_thread {t : Thread} (member : t ∈ batchThreads instances) : ∃ ins operation batch,
    Item instances operation ins ∧ t.job = itemJob operation ins ∧ t.scope = clusterKeyOf ins ∧
      (splitPersistentBatchesForScope instances maxPersistentBatchSize)[t.batch]? = some batch ∧
      batch.key = ⟨clusterKeyOf ins, operation⟩ := by
  obtain ⟨ins, operation, index, among, known, rfl⟩ := thread_item member
  obtain ⟨batch, found, key⟩ := batch_of_item maxPersistentBatchSize among known
  exact ⟨ins, operation, batch, ⟨List.fst_mem_of_mem_zipIdx among, known⟩, rfl, rfl, found, key⟩

/-- Items of one composite id have one owner scope and one operation. -/
def Apart (config : Config) (instances : Instances) : Prop :=
  ∀ ins other operation operation', Item instances operation ins → Item instances operation' other →
    compositeIDWithGroup ins config.group = compositeIDWithGroup other config.group →
    wireOwnerScope ins = wireOwnerScope other ∧ operation = operation'

theorem orderly_push (apart : Apart config instances) : Orderly config (pushThreads instances) := by
  refine ⟨inOrder_of_waiting ?_, ?_, ?_⟩
  · intro t member
    obtain ⟨_, _, _, _, waiting⟩ := mem_pushThreads member
    exact waiting
  · intro t member u member' ins other writes writes' same
    obtain ⟨ins', operation, item, job, _⟩ := mem_pushThreads member
    obtain ⟨other', operation', item', job', _⟩ := mem_pushThreads member'
    cases (itemJob_writes operation ins').unique (job ▸ writes)
    cases (itemJob_writes operation' other').unique (job' ▸ writes')
    exact (apart ins other operation operation' item item' same).1
  · intro t member u member' ins removal register
    obtain ⟨ins', operation, item, job, _⟩ := mem_pushThreads member
    obtain ⟨other', operation', item', job', _⟩ := mem_pushThreads member'
    obtain ⟨rfl, target⟩ := removal_itemJob (job ▸ removal)
    obtain ⟨rfl, rfl⟩ := register_itemJob (job' ▸ register)
    have id : compositeIDWithGroup ins' config.group = compositeIDWithGroup ins config.group := by
      rw [← instanceTarget_compositeID, ← instanceTarget_compositeID, target]
    cases (apart ins' ins .deregister .register item item' id).2

theorem orderly_pushAll (valid : world.ownership.validateWireIdentitySet config.group instances = none) :
    Orderly config (batchThreads instances) := by
  refine ⟨inOrder_of_waiting ?_, ?_, ?_⟩
  · intro t member
    obtain ⟨_, _, _, _, _, waiting⟩ := mem_batchThreads member
    exact waiting
  · intro t member u member' ins other writes writes' same
    obtain ⟨ins', operation, item, job, _, _⟩ := mem_batchThreads member
    obtain ⟨other', operation', item', job', _, _⟩ := mem_batchThreads member'
    cases (itemJob_writes operation ins').unique (job ▸ writes)
    cases (itemJob_writes operation' other').unique (job' ▸ writes')
    exact Ownership.validateFrom_scopes valid item.1 item'.1 (by rw [item.2]; rfl) (by rw [item'.2]; rfl) same
  · intro t member u member' ins removal register
    obtain ⟨ins', operation, batch, item, job, scope, found, key⟩ := batch_of_thread member
    obtain ⟨other', operation', batch', item', job', scope', found', key'⟩ := batch_of_thread member'
    obtain ⟨rfl, target⟩ := removal_itemJob (job ▸ removal)
    obtain ⟨rfl, rfl⟩ := register_itemJob (job' ▸ register)
    have pair : clusterKeyOf ins = clusterKeyOf ins' := congrArg HostKey.pair target
    refine ⟨by rw [scope, scope', pair], ?_⟩
    intro same
    rw [same, found'] at found
    cases found
    cases congrArg BatchKey.operation (key.symm.trans key')

theorem orderly_sweeps (tasks : List PruneTask) : Orderly config (tasks.map sweepThread) := by
  have sweeps : ∀ t ∈ tasks.map sweepThread, ∃ task, t = sweepThread task := by
    intro t member
    obtain ⟨task, _, made⟩ := List.mem_map.mp member
    exact ⟨task, made.symm⟩
  refine ⟨inOrder_of_waiting ?_, ?_, ?_⟩
  · intro t member
    obtain ⟨task, rfl⟩ := sweeps t member
    rfl
  · intro t member _ _ ins _ writes
    obtain ⟨task, rfl⟩ := sweeps t member
    rcases writes with same | same
    · cases same
    · cases same
  · intro _ _ u member ins _ register
    obtain ⟨task, rfl⟩ := sweeps u member
    cases register

end Spotter.Nacos
