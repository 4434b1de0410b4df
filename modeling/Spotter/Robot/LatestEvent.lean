import Spotter.Library.SingleDelivery
import Spotter.Robot.CoalescingQueue

/-! # The latest event of a pod

Offers and pops of the robot's queue in any order. The last event a pod delivers is its next event after its
last offer. That is the offered event, unless the event was recorded in the recovery buffer behind an earlier
event of the pod: the earlier one is readmitted, and the recorded one is then dropped as a duplicate.
-/

namespace Spotter.Robot

open Library

/-- The objects are one event, up to the creation time that coalescing keeps from the earliest one. -/
def QueueObject.SameEvent (obj item : QueueObject) : Prop := { obj with createAt := item.createAt } = item

instance (obj item : QueueObject) : Decidable (obj.SameEvent item) := inferInstanceAs (Decidable (_ = _))

inductive QueueOp where
  | offer (item : QueueObject)
  | pop
deriving DecidableEq

/-- A queue and what was popped from it, the latest last. -/
structure QueueRun where
  queue : CoalescingQueue
  popped : List QueueObject := []

namespace QueueRun

def step (run : QueueRun) : QueueOp → QueueRun
  | .offer item => { run with queue := (run.queue.offer item).1 }
  | .pop =>
    match run.queue.pop with
    | none => run
    | some (event, next) => { queue := next, popped := run.popped ++ [event] }

def after (run : QueueRun) (ops : List QueueOp) : QueueRun := ops.foldl step run

def start (capacity : ℕ) : QueueRun := { queue := newCoalescingQueue capacity }

/-- The events popped for a key. -/
def poppedOf (run : QueueRun) (key : String) : List QueueObject :=
  run.popped.filter fun obj => decide (obj.identityKey = key)

/-- The last event popped for a key. -/
def lastPopped (run : QueueRun) (key : String) : Option QueueObject := (run.poppedOf key).getLast?

end QueueRun

namespace CoalescingQueue

/-- The next offer of the object is queued, coalesced or recorded in the recovery buffer. -/
def Records (q : CoalescingQueue) (item : QueueObject) : Prop :=
  (q.items.lookup item.identityKey).isSome = true ∨ q.full = false ∨ q.recovering.length < q.capacity

/-- The key is queued, or no different event of it is first in the recovery buffer. -/
def Unpreceded (q : CoalescingQueue) (item : QueueObject) : Prop :=
  (q.items.lookup item.identityKey).isSome = true ∨
    ∀ earlier, q.buffered QueueObject.identityKey item.identityKey = some earlier → earlier.SameEvent item

abbrev Delivering (q : CoalescingQueue) : Prop := Coalescing.Delivering QueueObject.identityKey q

theorem newCoalescingQueue_delivering (capacity : ℕ) : Delivering (newCoalescingQueue capacity) := by
  refine ⟨newCoalescingQueue_wellFormed capacity, ?_⟩
  intro i j item queued
  cases queued

/-- The next event of a recorded object's key is the object unless a different event precedes it. -/
theorem offer_effective_iff {q : CoalescingQueue} {item : QueueObject} (wellFormed : q.WellFormed) (records : q.Records item) :
    ∃ obj, (q.offer item).1.effective item.identityKey = some obj ∧ (obj.SameEvent item ↔ q.Unpreceded item) := by
  cases found : q.items.lookup item.identityKey with
  | some existing =>
    have next := (Coalescing.offer_queued wellFormed QueueObject.supersede_identityKey found).2.2 item.identityKey
    refine ⟨_, next.trans (if_pos rfl), iff_of_true ?_ (.inl (by rw [found]; rfl))⟩
    unfold QueueObject.supersede
    split_ifs
    · rfl
    · rfl
  | none =>
    cases isFull : q.full with
    | false =>
      refine ⟨item, ((Coalescing.offer_room wellFormed found isFull).2.2 _).trans (if_pos rfl), iff_of_true rfl (.inr ?_)⟩
      intro earlier buffered
      have used := List.ne_nil_of_mem (List.mem_of_find?_eq_some buffered)
      rw [wellFormed.buffer used] at isFull
      cases isFull
    | true =>
      have room : q.recovering.length < q.capacity := by
        rcases records with queued | notFull | room
        · rw [found] at queued
          cases queued
        · rw [isFull] at notFull
          cases notFull
        · exact room
      have waiting : q.effective item.identityKey = q.buffered QueueObject.identityKey item.identityKey := by
        rw [effective, Coalescing.effective, found, Option.none_or]
      have next : (q.offer item).1.effective item.identityKey = _ := offer_effective_full wellFormed found isFull
      rw [if_pos ⟨rfl, room⟩, waiting] at next
      unfold Unpreceded
      rw [found]
      cases buffered : q.buffered QueueObject.identityKey item.identityKey with
      | none =>
        rw [buffered] at next
        exact ⟨item, next, iff_of_true rfl (.inr fun earlier impossible => absurd impossible (by simp))⟩
      | some earlier =>
        rw [buffered] at next
        refine ⟨earlier, next, ?_⟩
        simp

end CoalescingQueue

namespace QueueRun

variable {run : QueueRun} {key : String}

section

variable (delivering : run.queue.Delivering)

include delivering

theorem step_delivering (op : QueueOp) : (run.step op).queue.Delivering := by
  cases op with
  | offer item => exact delivering.offer QueueObject.supersede_identityKey
  | pop =>
    simp only [step]
    cases popped : run.queue.pop with
    | none => exact delivering
    | some taken => exact (delivering.pop popped).1

theorem after_delivering (ops : List QueueOp) : (run.after ops).queue.Delivering := by
  induction ops generalizing run with
  | nil => exact delivering
  | cons op rest ih => exact ih (step_delivering delivering op)

/-- A step that does not offer a key delivers the key's next event or keeps it. -/
theorem step_deliveries {op : QueueOp} (unoffered : ∀ item, op = .offer item → item.identityKey ≠ key) :
    (run.step op).poppedOf key ++ ((run.step op).queue.effective key).toList =
      run.poppedOf key ++ (run.queue.effective key).toList := by
  cases op with
  | offer item =>
    have other : key ≠ item.identityKey := (unoffered item rfl).symm
    have kept := (CoalescingQueue.offer_spec delivering.toWellFormed item).2.2 key other
    simp only [step, kept]
    rfl
  | pop =>
    simp only [step]
    cases popped : run.queue.pop with
    | none => rfl
    | some taken =>
      obtain ⟨event, next⟩ := taken
      obtain ⟨_, own, others, _⟩ := delivering.pop popped
      simp only [poppedOf, List.filter_append, List.append_assoc]
      congr 1
      change _ ++ (Coalescing.effective QueueObject.identityKey next key).toList = _
      rw [others key]
      rcases eq_or_ne (event.identityKey) key with rfl | same
      · rw [if_pos rfl, CoalescingQueue.effective, own]
        simp
      · rw [if_neg (Ne.symm same)]
        simp [same, CoalescingQueue.effective]

/-- A key that is not offered again delivers its next event or still has it. -/
theorem after_deliveries {ops : List QueueOp} (unoffered : ∀ item, .offer item ∈ ops → item.identityKey ≠ key) :
    (run.after ops).poppedOf key ++ ((run.after ops).queue.effective key).toList =
      run.poppedOf key ++ (run.queue.effective key).toList := by
  induction ops generalizing run with
  | nil => rfl
  | cons op rest ih =>
    have later := ih (step_delivering delivering op) fun item member => unoffered item (List.mem_cons_of_mem op member)
    refine later.trans (step_deliveries delivering ?_)
    rintro item rfl
    exact unoffered item List.mem_cons_self

/-- Enough pops drain the queue. -/
theorem pops_drain {pops : ℕ} (enough : run.queue.pending ≤ pops) :
    (run.after (List.replicate pops .pop)).queue.order = [] := by
  induction pops generalizing run with
  | zero =>
    have none_left : run.queue.order.length + run.queue.recovering.length ≤ 0 := enough
    have drained : run.queue.order = [] := List.length_eq_zero_iff.mp (by omega)
    exact drained
  | succ pops ih =>
    refine ih (step_delivering delivering .pop) ?_
    simp only [step]
    cases popped : run.queue.pop with
    | none =>
      have drained := delivering.toWellFormed.pop_eq_none_iff.mp popped
      rw [Coalescing.pending, drained, delivering.toWellFormed.recovering_of_drained drained]
      exact Nat.zero_le pops
    | some taken =>
      have fewer := (delivering.pop popped).2.2.2
      simp only
      omega

end

end QueueRun

/-- For every capacity and every sequence of offers and pops: once the queue is drained, the last event popped for a key is
the last one offered and recorded for it exactly when no different event of the key preceded it in the recovery buffer. -/
theorem latest_event_delivered_iff (capacity : ℕ) (before after : List QueueOp) (item : QueueObject) (pops : ℕ)
    (recorded : ((QueueRun.start capacity).after before).queue.Records item)
    (last : ∀ later, .offer later ∈ after → later.identityKey ≠ item.identityKey)
    (enough : ((QueueRun.start capacity).after (before ++ .offer item :: after)).queue.pending ≤ pops) :
    let drained := (QueueRun.start capacity).after (before ++ .offer item :: after ++ List.replicate pops .pop)
    drained.queue.order = [] ∧ ((∃ popped, drained.lastPopped item.identityKey = some popped ∧ popped.SameEvent item) ↔
        ((QueueRun.start capacity).after before).queue.Unpreceded item) := by
  intro drained
  have split : ∀ ops more, (QueueRun.start capacity).after (ops ++ more) = ((QueueRun.start capacity).after ops).after more :=
    fun ops more => List.foldl_append
  have delivering : ∀ ops, ((QueueRun.start capacity).after ops).queue.Delivering :=
    QueueRun.after_delivering (CoalescingQueue.newCoalescingQueue_delivering capacity)
  have empty : drained.queue.order = [] := by
    simp only [drained, split _ (List.replicate pops _)]
    exact QueueRun.pops_drain (delivering _) enough
  refine ⟨empty, ?_⟩
  obtain ⟨obj, next, same⟩ := CoalescingQueue.offer_effective_iff (delivering before).toWellFormed recorded
  -- From the offer on, the key delivers its next event and nothing else.
  have onward : drained = (((QueueRun.start capacity).after before).step (.offer item)).after (after ++ List.replicate pops .pop) := by
    simp only [drained, QueueRun.after, List.append_assoc, List.foldl_append, List.foldl_cons]
  have unoffered : ∀ later, .offer later ∈ after ++ List.replicate pops QueueOp.pop →
      later.identityKey ≠ item.identityKey := by
    intro later member
    rcases List.mem_append.mp member with among | popped
    · exact last later among
    · cases List.eq_of_mem_replicate popped
  have deliveries := QueueRun.after_deliveries (QueueRun.step_delivering (delivering before) (.offer item)) unoffered
  rw [← onward] at deliveries
  have finished : drained.queue.effective item.identityKey = none :=
    (delivering _).toWellFormed.effective_of_drained empty item.identityKey
  have pending : (((QueueRun.start capacity).after before).step (.offer item)).queue.effective item.identityKey = some obj := next
  rw [finished, pending, Option.toList_none, List.append_nil, Option.toList_some] at deliveries
  have delivered : drained.lastPopped item.identityKey = some obj := by
    rw [QueueRun.lastPopped, deliveries, List.getLast?_append, List.getLast?_singleton, Option.some_or]
  rw [delivered, ← same]
  constructor
  · rintro ⟨popped, found, event⟩
    cases found
    exact event
  · intro event
    exact ⟨obj, rfl, event⟩

def podObject (key : String) (event : EventType) (createAt : ℤ) : QueueObject :=
  { key := key, clusterID := "c1", uid := key, event := event, createAt := createAt }

/-- Two pods fill the queue. -/
def filledQueue : List QueueOp := [.offer (podObject "a" .add 1), .offer (podObject "b" .add 2)]

/-- The recorded delete of a pod without other events is delivered. -/
theorem recorded_delete_delivered :
    let drained := (QueueRun.start 2).after (filledQueue ++ .offer (podObject "c" .delete 4) :: [] ++ List.replicate 3 .pop)
    ∃ popped, drained.lastPopped (podObject "c" .delete 4).identityKey = some popped ∧
      popped.SameEvent (podObject "c" .delete 4) := by
  have recorded : ((QueueRun.start 2).after filledQueue).queue.Records (podObject "c" .delete 4) := .inr (.inr (by decide +kernel))
  have delivered := latest_event_delivered_iff 2 filledQueue [] (podObject "c" .delete 4) 3 recorded
    (fun _ member => absurd member List.not_mem_nil) (by decide +kernel)
  refine delivered.2.mpr (.inr ?_)
  intro earlier buffered
  have unbuffered : ((QueueRun.start 2).after filledQueue).queue.buffered QueueObject.identityKey
      (podObject "c" .delete 4).identityKey = none := by decide +kernel
  rw [unbuffered] at buffered
  cases buffered

/-- The update and the delete of a pod are both recorded; the update is delivered last. -/
theorem recorded_delete_lost :
    let full := (QueueRun.start 2).after (filledQueue ++ [.offer (podObject "c" .update 3)])
    let recorded := full.step (.offer (podObject "c" .delete 4))
    let drained := recorded.after (List.replicate 3 .pop)
    podObject "c" .delete 4 ∈ recorded.queue.recovering ∧ drained.queue.order = [] ∧
      drained.lastPopped (podObject "c" .delete 4).identityKey = some (podObject "c" .update 3) := by
  decide +kernel

end Spotter.Robot
