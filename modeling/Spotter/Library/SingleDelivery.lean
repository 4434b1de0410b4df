import Spotter.Library.Coalescing

/-! # Each key is delivered once

While a key waits in a coalescing queue, its events in the recovery buffer are all reached, and dropped,
before the key's turn comes. So a key that is not offered again delivers its next event and no other.
-/

namespace Spotter.Library.Coalescing

variable {K E : Type} {key : E → K} {q : Coalescing K E} {item event : E}

/-- A buffered event of a queued key is closer to readmission than the key is to its turn. -/
def Spread (key : E → K) (q : Coalescing K E) (rest : List E) : Prop :=
  ∀ i j item, q.order[i]? = some (key item) → rest[j]? = some item → j + q.order.length < i + q.capacity

theorem Spread.tail {rest : List E} (spread : Spread key q (item :: rest)) : Spread key q rest := by
  intro i j other queued buffered
  have closer := spread i (j + 1) other queued buffered
  omega

variable [DecidableEq K] {supersede : E → E → E}

theorem Spread.insert {rest : List E} (spread : Spread key q (item :: rest)) (bufferBounded : rest.length + 1 ≤ q.capacity) :
    Spread key (q.insert key item) rest := by
  intro i j other queued buffered
  have within : j < rest.length := (List.getElem?_eq_some_iff.mp buffered).1
  simp only [Coalescing.insert, List.length_append, List.length_singleton] at queued ⊢
  rcases Nat.lt_or_ge i q.order.length with earlier | last
  · rw [List.getElem?_append_left earlier] at queued
    have closer := spread i (j + 1) other queued buffered
    omega
  · omega

theorem refill_spread (rest : List E) (spread : Spread key q rest) (bufferBounded : rest.length ≤ q.capacity) :
    Spread key (refill key rest q) (refill key rest q).recovering := by
  induction rest generalizing q with
  | nil => exact spread
  | cons item rest ih =>
    have shorter : rest.length ≤ q.capacity := Nat.le_of_succ_le bufferBounded
    unfold refill
    split_ifs
    · exact spread
    · exact ih spread.tail shorter
    · exact ih (spread.insert bufferBounded) shorter

/-- Readmission takes an event out of the buffer for each one it puts into the queue. -/
theorem refill_pending (key : E → K) (q : Coalescing K E) (rest : List E) :
    (refill key rest q).order.length + (refill key rest q).recovering.length ≤ q.order.length + rest.length := by
  induction rest generalizing q with
  | nil => exact le_rfl
  | cons item rest ih =>
    unfold refill
    split_ifs
    · exact le_rfl
    · refine (ih q).trans ?_
      rw [List.length_cons]
      omega
    · refine (ih (q.insert key item)).trans ?_
      simp only [Coalescing.insert, List.length_append, List.length_cons, List.length_nil]
      omega

/-- The queue is well-formed and its buffer spread. -/
structure Delivering (key : E → K) (q : Coalescing K E) : Prop extends WellFormed key q where
  spread : Spread key q q.recovering

theorem Delivering.offer (delivering : Delivering key q) (keeps : ∀ old new, key (supersede old new) = key new) :
    Delivering key (q.offer key supersede item).1 := by
  cases found : q.items.lookup (key item) with
  | some existing =>
    refine ⟨(offer_queued delivering.toWellFormed keeps found).1, ?_⟩
    rw [Coalescing.offer, found]
    exact delivering.spread
  | none =>
    cases isFull : q.full with
    | false =>
      have unused : q.recovering = [] := by
        by_contra used
        rw [delivering.buffer used] at isFull
        cases isFull
      refine ⟨(offer_room delivering.toWellFormed found isFull).1, ?_⟩
      simp only [Coalescing.offer, found, isFull, Bool.false_eq_true, ↓reduceIte]
      intro i j other _ buffered
      simp [Coalescing.insert, unused] at buffered
    | true =>
      refine ⟨(offer_full delivering.toWellFormed found isFull).1, ?_⟩
      simp only [Coalescing.offer, found, isFull, ↓reduceIte]
      split_ifs
      · intro i j other queued buffered
        rcases Nat.lt_or_ge j q.recovering.length with earlier | last
        · rw [List.getElem?_append_left earlier] at buffered
          exact delivering.spread i j other queued buffered
        · -- The new entry is the last one, and its key is not queued.
          rw [List.getElem?_append_right last, List.getElem?_singleton] at buffered
          split_ifs at buffered
          cases buffered
          have present := (delivering.same _).mp (List.mem_of_getElem? queued)
          rw [found] at present
          cases present
      · exact delivering.spread

/-- What taking an event out says about the queue's order. -/
theorem WellFormed.pop_order {next : Coalescing K E} (wellFormed : WellFormed key q) (popped : q.pop key = some (event, next)) :
    ∃ rest, q.order = key event :: rest ∧
      next = refill key q.recovering { q with items := q.items.erase (key event), order := rest } := by
  obtain ⟨front, rest, ordered, found, taken⟩ := pop_cases popped
  rw [wellFormed.keyed front event found]
  exact ⟨rest, ordered, taken⟩

theorem WellFormed.pop_eq_none_iff (wellFormed : WellFormed key q) : q.pop key = none ↔ q.order = [] := by
  unfold Coalescing.pop
  cases ordered : q.order with
  | nil => simp
  | cons front rest =>
    have present := (wellFormed.same front).mp (by rw [ordered]; exact List.mem_cons_self)
    obtain ⟨event, found⟩ := Option.isSome_iff_exists.mp present
    simp [found]

/-- A key whose turn has come has no event left in the buffer. -/
theorem Delivering.unbuffered {rest : List K} (delivering : Delivering key q) (ordered : q.order = key event :: rest) :
    q.buffered key (key event) = none := by
  refine List.find?_eq_none.mpr ?_
  intro other member same
  obtain ⟨j, buffered⟩ := List.mem_iff_getElem?.mp member
  have closer := delivering.spread 0 j other (by rw [ordered, of_decide_eq_true same]; rfl) buffered
  have isFull := delivering.full_iff.mp (delivering.buffer (List.ne_nil_of_mem member))
  omega

/-- The entries of the queue and its buffer. -/
def pending (q : Coalescing K E) : ℕ := q.order.length + q.recovering.length

/-- Taking an event out ends its key's deliveries and changes no other key's. -/
theorem Delivering.pop {next : Coalescing K E} (delivering : Delivering key q) (popped : q.pop key = some (event, next)) :
    Delivering key next ∧ q.effective key (key event) = some event ∧
      (∀ k, next.effective key k = if k = key event then none else q.effective key k) ∧ next.pending + 1 ≤ q.pending := by
  obtain ⟨wellFormed, _, effective, others⟩ := pop_spec delivering.toWellFormed popped
  obtain ⟨rest, ordered, refilled⟩ := delivering.toWellFormed.pop_order popped
  refine ⟨⟨wellFormed, ?_⟩, effective, ?_, ?_⟩
  · rw [refilled]
    refine refill_spread q.recovering ?_ delivering.bufferBounded
    intro i j other queued buffered
    have closer := delivering.spread (i + 1) j other (by rw [ordered]; exact queued) buffered
    rw [ordered, List.length_cons] at closer
    simp only
    omega
  · intro k
    rw [others k]
    split_ifs with same
    · rw [same]
      exact delivering.unbuffered ordered
    · rfl
  · have fewer := refill_pending key { q with items := q.items.erase (key event), order := rest } q.recovering
    rw [← refilled] at fewer
    simp only [pending, ordered, List.length_cons] at fewer ⊢
    omega

end Spotter.Library.Coalescing
