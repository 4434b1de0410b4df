import Spotter.Library.Coalescing

/-! # The robot's work queue

Informer callbacks become queue objects, and objects of one pod coalesce: the latest event of a pod
replaces the queued one and keeps the earliest creation time. The wakeup channel carries no data and
is not modelled; the one resource type, pods, is left implicit.
-/

namespace Spotter.Robot

open Library

/-- The change that produced a queue object. Objects listed from a store have none; the source only asks whether such an
object is a deletion, so they are taken for additions. -/
inductive EventType where
  | add
  | update
  | delete
deriving DecidableEq

structure QueueObject where
  key : String
  clusterID : String
  uid : String
  event : EventType := .add
  createAt : ℤ := 0
deriving DecidableEq

namespace QueueObject

/-- The queue's key of an object: one per pod generation of a cluster. -/
def identityKey (obj : QueueObject) : String :=
  if obj.clusterID = "" ∧ obj.uid = "" then obj.key
  else obj.clusterID ++ "\x00" ++ obj.key ++ "\x00" ++ obj.uid

/-- The newest event of a key with the earliest creation time. -/
def supersede (existing item : QueueObject) : QueueObject :=
  if existing.createAt < item.createAt then { item with createAt := existing.createAt } else item

@[simp] theorem supersede_identityKey (existing item : QueueObject) :
    (supersede existing item).identityKey = item.identityKey := by
  unfold supersede
  split_ifs <;> rfl

@[simp] theorem supersede_event (existing item : QueueObject) : (supersede existing item).event = item.event := by
  unfold supersede
  split_ifs <;> rfl

end QueueObject

abbrev CoalescingQueue := Coalescing String QueueObject

def newCoalescingQueue (capacity : ℕ) : CoalescingQueue := { capacity := capacity }

namespace CoalescingQueue

/-- `Offer`; the flag says that the event was dropped. -/
def offer (q : CoalescingQueue) (item : QueueObject) : CoalescingQueue × Bool :=
  Coalescing.offer QueueObject.identityKey QueueObject.supersede q item

def pop (q : CoalescingQueue) : Option (QueueObject × CoalescingQueue) :=
  Coalescing.pop QueueObject.identityKey q

/-- The next event of a pod. -/
def effective (q : CoalescingQueue) (key : String) : Option QueueObject :=
  Coalescing.effective QueueObject.identityKey q key

/-- An offer of the key becomes the key's next event: the key is queued, there is room, or the buffer has
room and does not hold the key. -/
def Accepts (q : CoalescingQueue) (key : String) : Prop :=
  (q.items.lookup key).isSome = true ∨ q.full = false ∨
    (q.recovering.length < q.capacity ∧ q.buffered QueueObject.identityKey key = none)

abbrev WellFormed (q : CoalescingQueue) : Prop := Coalescing.WellFormed QueueObject.identityKey q

theorem newCoalescingQueue_wellFormed (capacity : ℕ) : WellFormed (newCoalescingQueue capacity) :=
  ⟨⟨List.nodup_nil, fun k => by simp [newCoalescingQueue], fun k event found => by simp [newCoalescingQueue] at found⟩,
    Nat.zero_le _, fun used => absurd rfl used, Nat.zero_le _⟩

variable {q : CoalescingQueue} {item : QueueObject} {key : String}

section

variable (wellFormed : q.WellFormed)

include wellFormed

theorem offer_effective_full (fresh : q.items.lookup item.identityKey = none) (isFull : q.full = true) :
    (q.offer item).1.effective key =
      if key = item.identityKey ∧ q.recovering.length < q.capacity then (q.effective key).or (some item)
      else q.effective key :=
  (Coalescing.offer_full wellFormed fresh isFull).2.2 key

/-- An offer keeps the queue well formed and its capacity, and changes the next event of its own key only. -/
theorem offer_spec (item : QueueObject) : (q.offer item).1.WellFormed ∧
    (q.offer item).1.capacity = q.capacity ∧ ∀ key ≠ item.identityKey, (q.offer item).1.effective key = q.effective key := by
  cases found : q.items.lookup item.identityKey with
  | some existing =>
    obtain ⟨formed, capacity, next⟩ := Coalescing.offer_queued wellFormed QueueObject.supersede_identityKey found
    exact ⟨formed, capacity, fun key other => (next key).trans (if_neg other)⟩
  | none =>
    cases isFull : q.full with
    | false =>
      obtain ⟨formed, capacity, next⟩ := Coalescing.offer_room wellFormed found isFull
      exact ⟨formed, capacity, fun key other => (next key).trans (if_neg other)⟩
    | true =>
      obtain ⟨formed, capacity, next⟩ := Coalescing.offer_full wellFormed found isFull
      exact ⟨formed, capacity, fun key other => (next key).trans (if_neg fun same => other same.1)⟩

theorem offer_effective_event (accepted : q.Accepts item.identityKey) :
    ∃ obj, (q.offer item).1.effective item.identityKey = some obj ∧ obj.event = item.event := by
  cases found : q.items.lookup item.identityKey with
  | some existing =>
    have next := (Coalescing.offer_queued wellFormed QueueObject.supersede_identityKey found).2.2 item.identityKey
    exact ⟨_, next.trans (if_pos rfl), QueueObject.supersede_event existing item⟩
  | none =>
    cases isFull : q.full with
    | false => exact ⟨item, ((Coalescing.offer_room wellFormed found isFull).2.2 _).trans (if_pos rfl), rfl⟩
    | true =>
      simp only [Accepts, found, isFull, Option.isSome_none, Bool.false_eq_true, Bool.true_eq_false, false_or] at accepted
      refine ⟨item, ?_, rfl⟩
      rw [offer_effective_full wellFormed found isFull, if_pos ⟨rfl, accepted.1⟩, effective, Coalescing.effective,
        found, accepted.2]
      rfl

/-- A key that has a next event has one after every offer. -/
theorem offer_effective_isSome (pending : (q.effective key).isSome = true) :
    ((q.offer item).1.effective key).isSome = true := by
  rcases eq_or_ne key item.identityKey with rfl | other
  · cases found : q.items.lookup item.identityKey with
    | some existing =>
      obtain ⟨obj, next, _⟩ := offer_effective_event wellFormed (.inl (by rw [found]; rfl))
      rw [next]
      rfl
    | none =>
      cases isFull : q.full with
      | false =>
        obtain ⟨obj, next, _⟩ := offer_effective_event wellFormed (.inr (.inl isFull))
        rw [next]
        rfl
      | true =>
        rw [offer_effective_full wellFormed found isFull]
        split_ifs
        · rw [Option.isSome_or, Option.isSome_some, Bool.or_true]
        · exact pending
  · rw [(offer_spec wellFormed item).2.2 _ other]
    exact pending

end

end CoalescingQueue

end Spotter.Robot
