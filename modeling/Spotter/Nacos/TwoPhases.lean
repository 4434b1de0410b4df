import Spotter.Nacos.PushAll

/-! # The two phases of a full push

A full push first writes and then removes, and between the two it reads the catalog once. Whatever every
move keeps true of the writing threads is therefore true of the catalog that the removals were planned
from, and the removals take exactly the planned hosts away.
-/

namespace Spotter.Nacos

open Library Domain Ports

variable {config : Config} {world : World} {threads : List Thread} {index : ℕ} {answer : Answer}

/-- Every move of a thread keeps the property. -/
def MoveInvariant (config : Config) (holds : World → List Thread → Prop) : Prop :=
  ∀ world threads index answer, holds world threads →
    holds (moveThread config world threads index answer).1 (moveThread config world threads index answer).2

/-! ## The removals -/

/-- The removals of a plan under way: `mid` is the catalog that the plan was made from. -/
structure Swept (config : Config) (mid : Catalog) (tasks : List PruneTask) (catalog : Catalog)
    (threads : List Thread) : Prop where
  jobs : threads.map Thread.job = tasks.map .sweep
  shrinks : ∀ p ∈ catalog.entries, p ∈ mid.entries
  keeps : ∀ p ∈ mid.entries, (∀ task ∈ tasks, p.key ≠ task.target config) → p ∈ catalog.entries
  gone : ∀ t ∈ threads, t.phase.Acknowledged → ∀ task, t.job = .sweep task → ∀ p ∈ catalog.entries, p.key ≠ task.target config

variable {mid catalog : Catalog} {tasks : List PruneTask}

theorem Swept.start : Swept config mid tasks mid (tasks.map sweepThread) := by
  refine ⟨?_, fun _ => id, fun _ member _ => member, ?_⟩
  · rw [List.map_map]
    rfl
  · intro t member acknowledged
    obtain ⟨task, _, rfl⟩ := List.mem_map.mp member
    exact acknowledged.elim

theorem Swept.task (swept : Swept config mid tasks catalog threads) {t : Thread} (member : t ∈ threads) :
    ∃ task ∈ tasks, t.job = .sweep task := by
  have among : t.job ∈ tasks.map Job.sweep := swept.jobs ▸ List.mem_map_of_mem member
  obtain ⟨task, planned, job⟩ := List.mem_map.mp among
  exact ⟨task, planned, job.symm⟩

theorem Swept.move (swept : Swept config mid tasks world.catalog threads) :
    Swept config mid tasks (moveThread config world threads index answer).1.catalog
      (moveThread config world threads index answer).2 := by
  have jobs := swept.jobs
  rw [← moveThread_jobs] at jobs
  rcases moveThread_cases with same | ⟨t, member, moved, _⟩
  · rw [same]
    exact swept
  · obtain ⟨task, planned, job⟩ := swept.task member
    rw [moved] at jobs ⊢
    rw [job] at jobs ⊢
    rcases act_sweep task with ⟨catalog, quiet⟩ | catalog
    · rw [catalog]
      refine ⟨jobs, swept.shrinks, swept.keeps, ?_⟩
      intro u among done other own
      rcases List.mem_or_eq_of_mem_set among with earlier | rfl
      · exact swept.gone u earlier done other own
      · cases own
        exact swept.gone t member (quiet done) task job
    · rw [catalog]
      refine ⟨jobs, ?_, ?_, ?_⟩
      · exact fun p among => swept.shrinks p (Catalog.mem_deregister.mp among).1
      · exact fun p among spared => Catalog.mem_deregister.mpr ⟨swept.keeps p among spared, spared task planned⟩
      · intro u among done other own p present
        obtain ⟨before, apart⟩ := Catalog.mem_deregister.mp present
        rcases List.mem_or_eq_of_mem_set among with earlier | rfl
        · exact swept.gone u earlier done other own p before
        · cases own
          exact apart

/-- The hosts of the plan are gone, and no other. -/
def Cleared (config : Config) (mid : Catalog) (tasks : List PruneTask) (catalog : Catalog) : Prop :=
  ∀ p, p ∈ catalog.entries ↔ p ∈ mid.entries ∧ ∀ task ∈ tasks, p.key ≠ task.target config

theorem Swept.cleared (swept : Swept config mid tasks catalog threads) (all : allFinished threads = true)
    (clean : threads.findSome? Thread.error = none) : Cleared config mid tasks catalog := by
  intro p
  constructor
  · intro present
    refine ⟨swept.shrinks p present, ?_⟩
    intro task planned
    have among : Job.sweep task ∈ threads.map Thread.job := swept.jobs ▸ List.mem_map_of_mem planned
    obtain ⟨t, member, job⟩ := List.mem_map.mp among
    have done := acknowledged_of_allFinished all member (List.findSome?_eq_none_iff.mp clean t member)
    exact swept.gone t member done task job p present
  · rintro ⟨early, spared⟩
    exact swept.keeps p early spared

variable {p : InstanceParams}

/-- A removal adds nothing. -/
theorem Swept.move_shrinks (swept : Swept config mid tasks world.catalog threads)
    (member : p ∈ (moveThread config world threads index answer).1.catalog.entries) : p ∈ world.catalog.entries := by
  rcases moveThread_cases with same | ⟨t, among, moved, _⟩
  · rwa [same] at member
  · obtain ⟨task, _, job⟩ := swept.task among
    rw [moved, job] at member
    rcases act_sweep task with ⟨catalog, _⟩ | catalog
    · rwa [catalog] at member
    · rw [catalog] at member
      exact (Catalog.mem_deregister.mp member).1

/-- A removal takes the host of a planned task. -/
theorem Swept.removes (swept : Swept config mid tasks world.catalog threads)
    (registered : p ∈ world.catalog.entries)
    (removed : p ∉ (moveThread config world threads index answer).1.catalog.entries) :
    ∃ task ∈ tasks, p.key = task.target config := by
  rcases moveThread_cases with same | ⟨t, member, moved, _⟩
  · rw [same] at removed
    exact absurd registered removed
  · obtain ⟨task, planned, job⟩ := swept.task member
    rw [moved, job] at removed
    rcases act_sweep task with ⟨catalog, _⟩ | catalog
    · rw [catalog] at removed
      exact absurd registered removed
    · rw [catalog, Catalog.mem_deregister, not_and, not_not] at removed
      exact ⟨task, planned, removed registered⟩

/-! ## The whole run -/

/-- The removals were planned from a world in which the writes had finished and the property held. -/
structure Discovered (config : Config) (holds : World → List Thread → Prop) (instances : Instances)
    (scopes : List String) (mid : World) (writers : List Thread) (tasks : List PruneTask) (listed : Option GoError) :
    Prop where
  held : holds mid writers
  finished : allFinished writers = true
  planned : ∃ reads, (prunePlan config mid.catalog mid.ownership reads
    ⟨instances, scopes, (failures writers).map Prod.fst⟩).2 = .ok (tasks, listed)

/-- What a run has behind it, given a property of its writes. -/
def Traced (config : Config) (holds : World → List Thread → Prop) (run : PushRun) : Prop :=
  match run.stage with
  | .applying threads => holds run.world threads
  | .sweeping applied listed threads => ∃ mid writers tasks,
      Discovered config holds run.instances run.scopes mid writers tasks listed ∧
        applied = batchApplyError (failures writers) ∧ Swept config mid.catalog tasks run.world.catalog threads
  | .returned none => ∃ mid writers tasks,
      Discovered config holds run.instances run.scopes mid writers tasks none ∧
        failures writers = [] ∧ Cleared config mid.catalog tasks run.world.catalog
  | .returned (some _) => True

variable {holds : World → List Thread → Prop} {run : PushRun}

theorem Traced.discover {reads : PruneReads} (held : holds run.world threads) (all : allFinished threads = true) :
    Traced config holds (run.discover config threads reads) := by
  simp only [PushRun.discover, PushRun.pruneInput, Traced]
  cases plan : (prunePlan config run.world.catalog run.world.ownership reads
      ⟨run.instances, run.scopes, (failures threads).map Prod.fst⟩).2 with
  | error err => cases batchApplyError (failures threads) <;> trivial
  | ok planned => exact ⟨run.world, threads, planned.1, ⟨held, all, reads, plan⟩, rfl, .start⟩

theorem Traced.step (moves : MoveInvariant config holds) (traced : Traced config holds run) (label : PushStep) :
    Traced config holds (run.step config label) := by
  have held := id traced
  simp only [Traced] at held
  have steps := run.step_steps config label
  generalize run.step config label = next at steps ⊢
  cases steps with
  | rests => exact traced
  | applies threads stage index answer =>
    rw [stage] at held
    exact moves _ _ _ _ held
  | discovers threads stage all reads =>
    rw [stage] at held
    exact Traced.discover held all
  | sweeps applied listed threads stage index answer =>
    rw [stage] at held
    obtain ⟨mid, writers, tasks, discovered, faults, swept⟩ := held
    exact ⟨mid, writers, tasks, discovered, faults, swept.move⟩
  | leaves applied listed threads stage all =>
    rw [stage] at held
    obtain ⟨mid, writers, tasks, discovered, faults, swept⟩ := held
    cases result : joinErrors applied (listed.or (threads.findSome? Thread.error)) with
    | some err => exact trivial
    | none =>
      obtain ⟨written, prune⟩ := joinErrors_eq_none result
      obtain ⟨listing, errors⟩ := Option.or_eq_none_iff.mp prune
      rw [listing] at discovered
      rw [faults] at written
      exact ⟨mid, writers, tasks, discovered, failures_of_batchApplyError written, swept.cleared all errors⟩

/-- A property of the writes that every move keeps is behind every state of a run. -/
theorem traced_after (moves : MoveInvariant config holds) (start : Traced config holds run) (history : List PushStep) :
    Traced config holds (run.after config history) := by
  induction history using List.reverseRecOn with
  | nil => exact start
  | append_singleton earlier label ih =>
    rw [PushRun.after_append]
    exact ih.step moves label

theorem step_fixed (config : Config) (run : PushRun) (label : PushStep) : (run.step config label).instances = run.instances ∧
    (run.step config label).scopes = run.scopes := by
  have steps := run.step_steps config label
  generalize run.step config label = next at steps ⊢
  cases steps with
  | _ => exact ⟨rfl, rfl⟩

/-- The snapshot and the scopes of a run are those of its call. -/
theorem after_fixed (config : Config) (run : PushRun) (history : List PushStep) : (run.after config history).instances = run.instances ∧
    (run.after config history).scopes = run.scopes := by
  induction history using List.reverseRecOn with
  | nil => exact ⟨rfl, rfl⟩
  | append_singleton earlier label ih =>
    rw [PushRun.after_append]
    obtain ⟨instances, scopes⟩ := step_fixed config (run.after config earlier) label
    exact ⟨instances.trans ih.1, scopes.trans ih.2⟩

theorem traced_start {instances : Instances} (held : holds world (batchThreads instances)) :
    Traced config holds (PushRun.start config world instances) := by
  simp only [Traced, PushRun.start]
  cases world.ownership.validateWireIdentitySet config.group instances with
  | some err => exact trivial
  | none => exact held

end Spotter.Nacos
