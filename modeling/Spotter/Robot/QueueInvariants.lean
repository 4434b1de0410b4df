import Spotter.Library.ArrivalOrder
import Spotter.Library.History
import Spotter.Robot.LatestEvent

/-! # The robot's queue over whole runs

Whatever is offered and popped, the queue's map and its order hold the same keys, and the recovery buffer is in use
only while the queue is full. As long as nothing is dropped, the popped entries are the coalesced sets of the offered
events in the order of their first arrivals.
-/

namespace Spotter.Robot

open Library

/-- What is popped for a coalesced set: its last event, created when its earliest one was. -/
def entry (s : ArrivalSet QueueObject) : QueueObject :=
  { s.members.getLast (List.cons_ne_nil _ _) with
    createAt := (s.later.map QueueObject.createAt).foldl min s.first.createAt }

theorem supersede_eq (existing item : QueueObject) :
    QueueObject.supersede existing item = { item with createAt := min existing.createAt item.createAt } := by
  unfold QueueObject.supersede
  split_ifs with earlier
  · rw [min_eq_left earlier.le]
  · rw [min_eq_right (not_lt.mp earlier)]

/-- Superseding one event after the other keeps the last event and the earliest creation time. -/
theorem merged_supersede (s : ArrivalSet QueueObject) : s.merged QueueObject.supersede = entry s := by
  obtain ⟨arrival, first, later⟩ := s
  induction later using List.reverseRecOn with
  | nil => rfl
  | append_singleton later item ih =>
    have joined := ArrivalSet.merged_join QueueObject.supersede ⟨arrival, first, later⟩ item
    rw [ih, supersede_eq] at joined
    refine joined.trans ?_
    simp [entry, ArrivalSet.members]

/-- An operation on the idealised queue. -/
def arrivalStep (a : Arrivals QueueObject) (position : ℕ) : QueueOp → Arrivals QueueObject
  | .offer item => a.arrive QueueObject.identityKey position item
  | .pop => a.take

variable (ops : List QueueOp)

/-- The coalesced sets of a run; a position is an index into the operations. -/
def arrivals : Arrivals QueueObject :=
  ops.zipIdx.foldl (fun a op => arrivalStep a op.2 op.1) {}

theorem arrivals_append (op : QueueOp) :
    arrivals (ops ++ [op]) = arrivalStep (arrivals ops) ops.length op := by
  simp [arrivals, List.zipIdx_append]

def offeredBy : QueueOp → Option QueueObject
  | .offer item => some item
  | .pop => none

/-- What the sets of a run are: ordered by their first arrivals, of one key each, and every offer in exactly one of them. -/
structure CoalescedSets (a : Arrivals QueueObject) : Prop extends
    Arrivals.InOrder QueueObject.identityKey a ops.length where
  started : ∀ s ∈ a.sets, ops[s.arrival]? = some (.offer s.first)
  complete : (a.sets.flatMap ArrivalSet.members).Perm (ops.filterMap offeredBy)

theorem arrivals_coalescedSets : CoalescedSets ops (arrivals ops) := by
  induction ops using List.reverseRecOn with
  | nil => exact ⟨⟨.nil, by simp [arrivals, Arrivals.sets], by simp [arrivals, Arrivals.sets], .nil⟩,
      by simp [arrivals, Arrivals.sets], .nil⟩
  | append_singleton ops op ih =>
    have kept : ∀ s ∈ (arrivals ops).sets, (ops ++ [op])[s.arrival]? = some (.offer s.first) := by
      intro s member
      rw [List.getElem?_append_left (ih.arrived s member)]
      exact ih.started s member
    have length : (ops ++ [op]).length = ops.length + 1 := by simp
    rw [arrivals_append]
    cases op with
    | offer item =>
      refine ⟨length ▸ ih.toInOrder.arrive, ?_, ?_⟩
      · intro s member
        rcases Arrivals.arrive_started ih.distinct member with ⟨old, known, arrival, first⟩ | ⟨arrival, first⟩
        · rw [arrival, first]
          exact kept old known
        · rw [arrival, first]
          simp
      · refine (Arrivals.arrive_members ih.distinct).trans ?_
        rw [List.filterMap_append]
        exact ih.complete.append_right _
    | pop =>
      refine ⟨length ▸ ih.toInOrder.take, ?_, ?_⟩
      · intro s member
        rw [arrivalStep, Arrivals.take_sets] at member
        exact kept s member
      · have nothing : [QueueOp.pop].filterMap offeredBy = [] := rfl
        rw [arrivalStep, Arrivals.take_sets, List.filterMap_append, nothing, List.append_nil]
        exact ih.complete

namespace QueueRun

/-- The operation is an offer that is dropped. -/
def drops (run : QueueRun) : QueueOp → Bool
  | .offer item => (run.queue.offer item).2
  | .pop => false

/-- No offer of the run is dropped. -/
def NoDrops (capacity : ℕ) (ops : List QueueOp) : Prop :=
  History.AllSteps (fun before op => ((start capacity).after before).drops op = false) ops

theorem after_append (run : QueueRun) (ops : List QueueOp) (op : QueueOp) : run.after (ops ++ [op]) = (run.after ops).step op := by
  rw [after, List.foldl_append]
  rfl

theorem start_delivering (capacity : ℕ) (ops : List QueueOp) : ((start capacity).after ops).queue.Delivering := by
  have initially : (start capacity).queue.Delivering := CoalescingQueue.newCoalescingQueue_delivering capacity
  exact after_delivering initially ops

/-- A run without drops pops the entries of the sets that left. -/
theorem popped_of_noDrops {capacity : ℕ} {ops : List QueueOp} (noDrops : NoDrops capacity ops) :
    Coalescing.Merges QueueObject.identityKey QueueObject.supersede ((start capacity).after ops).queue (arrivals ops) ∧
      ((start capacity).after ops).popped = (arrivals ops).taken.map entry := by
  induction ops using List.reverseRecOn with
  | nil => exact ⟨⟨rfl, rfl, by simp [arrivals]⟩, rfl⟩
  | append_singleton ops op ih =>
    obtain ⟨before, accepted⟩ := History.allSteps_append.mp noDrops
    obtain ⟨merges, popped⟩ := ih before
    have aligned := (start_delivering capacity ops).toAligned
    rw [after_append, arrivals_append]
    generalize (start capacity).after ops = run at *
    cases op with
    | offer item =>
      refine ⟨merges.offer aligned accepted, popped.trans ?_⟩
      simp only [arrivalStep, Arrivals.arrive]
      split_ifs
      · rfl
      · rfl
    | pop =>
      have taken := merges.pop aligned
      simp only [step, CoalescingQueue.pop]
      cases found : Coalescing.pop QueueObject.identityKey run.queue with
      | none =>
        rw [found] at taken
        simp only [arrivalStep, Arrivals.take, taken]
        exact ⟨merges, popped⟩
      | some pair =>
        obtain ⟨event, next⟩ := pair
        rw [found] at taken
        obtain ⟨s, rest, waits, rfl, later⟩ := taken
        refine ⟨later, ?_⟩
        simp only [arrivalStep, Arrivals.take, waits, List.map_append, List.map_singleton, popped, merged_supersede]

theorem after_capacity (capacity : ℕ) (ops : List QueueOp) : ((start capacity).after ops).queue.capacity = capacity := by
  induction ops using List.reverseRecOn with
  | nil => rfl
  | append_singleton ops op ih =>
    have wellFormed := (start_delivering capacity ops).toWellFormed
    rw [after_append]
    generalize (start capacity).after ops = run at *
    cases op with
    | offer item => exact (CoalescingQueue.offer_spec wellFormed item).2.1.trans ih
    | pop =>
      simp only [step]
      cases popped : run.queue.pop with
      | none => exact ih
      | some pair => exact (Coalescing.pop_spec wellFormed popped).2.1.trans ih

end QueueRun

/-- For every capacity and every sequence of offers and pops: the map and the order hold the same keys, each once and at most
capacity many; the recovery buffer is in use only while the queue is full and never exceeds the capacity. Without drops the
popped entries are those of the coalesced sets in the order of their first arrivals. -/
theorem queue_invariants (capacity : ℕ) (ops : List QueueOp) :
    let run := (QueueRun.start capacity).after ops
    (run.queue.order.Nodup ∧ (∀ key, key ∈ run.queue.order ↔ key ∈ run.queue.items) ∧
        (∀ key event, run.queue.items.lookup key = some event → event.identityKey = key) ∧
        run.queue.order.length ≤ capacity ∧ (run.queue.recovering ≠ [] → run.queue.order.length = capacity) ∧
        run.queue.recovering.length ≤ capacity) ∧
      (QueueRun.NoDrops capacity ops →
        run.popped = (arrivals ops).taken.map entry ∧ CoalescedSets ops (arrivals ops)) := by
  intro run
  have wellFormed := (QueueRun.start_delivering capacity ops).toWellFormed
  have size : run.queue.capacity = capacity := QueueRun.after_capacity capacity ops
  have bounded : run.queue.order.length ≤ capacity := size ▸ wellFormed.bounded
  refine ⟨⟨wellFormed.distinct, ?_, wellFormed.keyed, bounded, ?_, size ▸ wellFormed.bufferBounded⟩, ?_⟩
  · intro key
    rw [wellFormed.same, Finmap.lookup_isSome]
  · intro used
    have isFull := wellFormed.full_iff.mp (wellFormed.buffer used)
    rw [QueueRun.after_capacity] at isFull
    exact Nat.le_antisymm bounded isFull
  · intro noDrops
    exact ⟨(QueueRun.popped_of_noDrops noDrops).2, arrivals_coalescedSets ops⟩

/-- Two pods, one of them changed before its turn and again after it. -/
def changedTwice : List QueueOp :=
  [.offer (podObject "a" .add 5), .offer (podObject "b" .add 6), .offer (podObject "a" .update 3), .pop,
    .offer (podObject "a" .delete 8), .pop, .pop]

/-- The first change is coalesced, the second takes its place behind the other pod. -/
theorem changedTwice_popped :
    ((QueueRun.start 2).after changedTwice).popped = [podObject "a" .update 3, podObject "b" .add 6, podObject "a" .delete 8] := by
  have noDrops : QueueRun.NoDrops 2 changedTwice := by
    simp only [QueueRun.NoDrops, changedTwice, History.allSteps_cons]
    exact ⟨by decide +kernel, by decide +kernel, by decide +kernel, rfl, by decide +kernel, rfl, rfl, History.allSteps_nil _⟩
  rw [((queue_invariants 2 changedTwice).2 noDrops).1]
  decide +kernel

/-! ## Who waits for how long -/

variable {later : List QueueOp} {key : String}

namespace QueueRun

/-- One of the later pops returns an event of the key. -/
def Pops (run : QueueRun) (later : List QueueOp) (key : String) : Prop :=
  ∃ before rest event next, later = before ++ .pop :: rest ∧ (run.after before).queue.pop = some (event, next) ∧
    event.identityKey = key

theorem Pops.cons {run : QueueRun} {op : QueueOp} (pops : (run.step op).Pops later key) :
    run.Pops (op :: later) key := by
  obtain ⟨before, rest, event, next, rfl, popped, own⟩ := pops
  exact ⟨op :: before, rest, event, next, rfl, popped, own⟩

/-- A key is popped at the latest when everything before it in the line has been. -/
theorem pops_of_waits {run : QueueRun} (delivering : run.queue.Delivering) (waits : key ∈ run.queue.line QueueObject.identityKey)
    (enough : (run.queue.line QueueObject.identityKey).idxOf key < later.count .pop) : run.Pops later key := by
  induction later generalizing run with
  | nil => exact absurd enough (Nat.not_lt_zero _)
  | cons op rest ih =>
    have next := step_delivering delivering op
    cases op with
    | offer item =>
      have line : run.queue.line QueueObject.identityKey <+: (run.queue.offer item).1.line QueueObject.identityKey :=
        Coalescing.offer_line delivering.toWellFormed item
      refine (ih next (line.subset waits) ?_).cons
      obtain ⟨joined, longer⟩ := line
      rwa [List.count_cons_of_ne (by simp), ← List.idxOf_append_of_mem waits, longer] at enough
    | pop =>
      obtain ⟨event, queue, popped, front⟩ := Coalescing.pop_line delivering.toWellFormed waits
      rcases front with own | ⟨member, ahead⟩
      · exact ⟨[], rest, event, queue, rfl, popped, own⟩
      · have stepped : run.step .pop = { queue := queue, popped := run.popped ++ [event] } := by
          simp only [step, CoalescingQueue.pop, popped]
        rw [List.count_cons_self] at enough
        refine (ih next ?_ ?_).cons
        · rwa [stepped]
        · rw [stepped]
          exact ahead.trans_le (Nat.le_of_lt_succ enough)

end QueueRun

/-- Whatever is offered in between, a pod with a pending event is popped within twice as many pops as the capacity. -/
theorem pending_popped {capacity : ℕ} {ops : List QueueOp}
    (pending : (((QueueRun.start capacity).after ops).queue.effective key).isSome = true)
    (enough : 2 * capacity ≤ later.count .pop) : ((QueueRun.start capacity).after ops).Pops later key := by
  have delivering := QueueRun.start_delivering capacity ops
  have size := QueueRun.after_capacity capacity ops
  have wellFormed := delivering.toWellFormed
  have bounded := wellFormed.bounded
  have bufferBounded := wellFormed.bufferBounded
  have waits : key ∈ ((QueueRun.start capacity).after ops).queue.line QueueObject.identityKey := by
    rw [CoalescingQueue.effective, Coalescing.effective, Option.isSome_or, Bool.or_eq_true] at pending
    refine List.mem_append.mpr (pending.imp (wellFormed.same key).mpr fun buffered => ?_)
    obtain ⟨item, found⟩ := Option.isSome_iff_exists.mp buffered
    exact List.mem_map.mpr ⟨item, List.mem_of_find?_eq_some found, by simpa using List.find?_some found⟩
  have place := List.idxOf_lt_length_of_mem waits
  have length : (((QueueRun.start capacity).after ops).queue.line QueueObject.identityKey).length ≤ 2 * capacity := by
    rw [Coalescing.line, List.length_append, List.length_map]
    omega
  exact QueueRun.pops_of_waits delivering waits (by omega)

/-- Two pods in a queue for one. -/
theorem buffered_popped :
    ((QueueRun.start 1).after [.offer (podObject "a" .add 5), .offer (podObject "b" .add 6)]).Pops [.pop, .pop]
      (podObject "b" .add 6).identityKey :=
  pending_popped (by decide +kernel) (by decide)

end Spotter.Robot
