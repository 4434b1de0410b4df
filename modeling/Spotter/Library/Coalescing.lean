import Spotter.Library.FiniteMap

/-! # Keyed coalescing queues with a recovery buffer

A bounded queue of keyed events. A later event of a queued key takes the place of the queued one; an
event that finds the queue full waits in a bounded recovery buffer and is readmitted, in order, as
soon as an event is taken out. The event a key will deliver next is the queued one or, failing that,
its first one in the buffer: this is what the operations are specified by.
-/

namespace Spotter.Library

variable {K E : Type} [DecidableEq K]

structure Coalescing (K E : Type) where
  items : FiniteMap K E := ∅
  order : List K := []
  recovering : List E := []
  capacity : ℕ

namespace Coalescing

variable (key : E → K) (supersede : E → E → E) (q : Coalescing K E)

/-- Every key of the queue is taken. -/
def full : Bool := decide (q.capacity ≤ q.items.keys.card)

def insert (q : Coalescing K E) (item : E) : Coalescing K E :=
  { q with items := q.items.insert (key item) item, order := q.order ++ [key item] }

/-- Offer an event; the flag reports that it found no place in the queue. -/
def offer (item : E) : Coalescing K E × Bool :=
  match q.items.lookup (key item) with
  | some existing => ({ q with items := q.items.insert (key item) (supersede existing item) }, false)
  | none =>
    if q.full then
      (if q.recovering.length < q.capacity then { q with recovering := q.recovering ++ [item] } else q, true)
    else (q.insert key item, false)

/-- Readmit buffered events while there is room; an event of a queued key is dropped. -/
def refill : List E → Coalescing K E → Coalescing K E
  | [], q => { q with recovering := [] }
  | item :: rest, q =>
    if q.full then { q with recovering := item :: rest }
    else if (q.items.lookup (key item)).isSome then refill rest q
    else refill rest (q.insert key item)

/-- Take the oldest key's event out and refill buffered ones. -/
def pop : Option (E × Coalescing K E) :=
  match q.order with
  | [] => none
  | front :: rest =>
    (q.items.lookup front).map fun event =>
      (event, refill key q.recovering { q with items := q.items.erase front, order := rest })

/-- The first buffered event of a key. -/
def buffered (k : K) : Option E := q.recovering.find? fun item => decide (key item = k)

/-- The event a key delivers next. -/
def effective (k : K) : Option E := (q.items.lookup k).or (q.buffered key k)

/-- The queue's map and order hold the same keys, and events sit under their own key. -/
structure Aligned : Prop where
  distinct : q.order.Nodup
  same : ∀ k, k ∈ q.order ↔ (q.items.lookup k).isSome
  keyed : ∀ k event, q.items.lookup k = some event → key event = k

/-- An aligned queue within its bounds, whose buffer is in use only while it is full. -/
structure WellFormed : Prop extends Aligned key q where
  bounded : q.order.length ≤ q.capacity
  buffer : q.recovering ≠ [] → q.full = true
  bufferBounded : q.recovering.length ≤ q.capacity

variable {key supersede} {q : Coalescing K E} {item event : E} {k : K}

theorem Aligned.card_eq (aligned : Aligned key q) : q.items.keys.card = q.order.length := by
  have keys : q.items.keys = q.order.toFinset := by
    ext k
    rw [Finmap.mem_keys, ← Finmap.lookup_isSome, List.mem_toFinset, aligned.same]
  rw [keys, List.toFinset_card_of_nodup aligned.distinct]

theorem Aligned.full_iff (aligned : Aligned key q) : q.full = true ↔ q.capacity ≤ q.order.length := by
  rw [full, decide_eq_true_eq, aligned.card_eq]

theorem Aligned.insert (aligned : Aligned key q) (fresh : q.items.lookup (key item) = none) :
    Aligned key (q.insert key item) := by
  have absent : key item ∉ q.order := by
    rw [aligned.same, fresh]
    exact Bool.false_ne_true
  refine ⟨?_, ?_, ?_⟩
  · exact List.nodup_append.mpr ⟨aligned.distinct, List.nodup_singleton _, by grind⟩
  · intro k
    simp only [Coalescing.insert, List.mem_append, List.mem_singleton, FiniteMap.lookup_insert_ite, aligned.same]
    split_ifs with same <;> simp [same]
  · intro k event
    simp only [Coalescing.insert, FiniteMap.lookup_insert_ite]
    split_ifs with same
    · rintro ⟨⟩
      exact same.symm
    · exact aligned.keyed k event

theorem WellFormed.recovering_of_drained (wellFormed : WellFormed key q) (drained : q.order = []) : q.recovering = [] := by
  by_contra used
  have isFull := wellFormed.full_iff.mp (wellFormed.buffer used)
  have bound := wellFormed.bufferBounded
  rw [drained, List.length_nil] at isFull
  exact used (List.length_eq_zero_iff.mp (by omega))

/-- A drained queue has an empty buffer as well, so no key has a next event. -/
theorem WellFormed.effective_of_drained (wellFormed : WellFormed key q) (drained : q.order = []) (k : K) :
    q.effective key k = none := by
  have unqueued : q.items.lookup k = none := by
    have absent := wellFormed.same k
    rw [drained] at absent
    simpa using absent
  rw [effective, buffered, unqueued, wellFormed.recovering_of_drained drained, List.find?_nil, Option.or_none]

theorem refill_capacity (rest : List E) : (refill key rest q).capacity = q.capacity := by
  induction rest generalizing q with
  | nil => rfl
  | cons item rest ih =>
    unfold refill
    split_ifs
    · rfl
    · exact ih
    · exact ih

/-- Readmission restores the queue's shape. -/
theorem refill_wellFormed (rest : List E) (aligned : Aligned key q) (bounded : q.order.length ≤ q.capacity)
    (bufferBounded : rest.length ≤ q.capacity) : WellFormed key (refill key rest q) := by
  induction rest generalizing q with
  | nil =>
    exact ⟨⟨aligned.distinct, aligned.same, aligned.keyed⟩, bounded, fun used => absurd rfl used, Nat.zero_le _⟩
  | cons item rest ih =>
    have shorter : rest.length ≤ q.capacity := Nat.le_of_succ_le bufferBounded
    unfold refill
    split_ifs with isFull queued
    · exact ⟨⟨aligned.distinct, aligned.same, aligned.keyed⟩, bounded, fun _ => isFull, bufferBounded⟩
    · exact ih aligned bounded shorter
    · have fresh : q.items.lookup (key item) = none := by simpa using queued
      have room : q.order.length < q.capacity := by
        rw [aligned.full_iff] at isFull
        omega
      exact ih (aligned.insert fresh) (by simp [Coalescing.insert]; omega) shorter

/-- Readmission changes no key's next event. -/
theorem effective_refill (rest : List E) (k : K) :
    (refill key rest q).effective key k = (q.items.lookup k).or (rest.find? fun item => decide (key item = k)) := by
  induction rest generalizing q with
  | nil => rfl
  | cons item rest ih =>
    unfold refill
    split_ifs with isFull queued
    · rfl
    · rw [ih, List.find?_cons]
      rcases eq_or_ne (key item) k with rfl | other
      · obtain ⟨event, found⟩ := Option.isSome_iff_exists.mp queued
        rw [found, Option.some_or, Option.some_or]
      · simp [other]
    · rw [ih, List.find?_cons]
      rcases eq_or_ne (key item) k with rfl | other
      · have fresh : q.items.lookup (key item) = none := by simpa using queued
        simp [Coalescing.insert, fresh]
      · simp [Coalescing.insert, other, other.symm]

/-- An event that is taken out was the one of the first key of the order. -/
theorem pop_cases {next : Coalescing K E} (popped : q.pop key = some (event, next)) :
    ∃ front rest, q.order = front :: rest ∧ q.items.lookup front = some event ∧
      next = refill key q.recovering { q with items := q.items.erase front, order := rest } := by
  unfold pop at popped
  cases ordered : q.order with
  | nil => simp [ordered] at popped
  | cons front rest =>
    simp only [ordered, Option.map_eq_some_iff, Prod.mk.injEq] at popped
    obtain ⟨taken, found, rfl, rfl⟩ := popped
    exact ⟨front, rest, rfl, found, rfl⟩

section

variable (wellFormed : WellFormed key q)

include wellFormed

/-- What taking an event out does: the event was its key's next one, and afterwards that key has its
first buffered event and every other key the event it had. -/
theorem pop_spec {event : E} {next : Coalescing K E} (popped : q.pop key = some (event, next)) :
    WellFormed key next ∧ next.capacity = q.capacity ∧ q.effective key (key event) = some event ∧
      ∀ k, next.effective key k = if k = key event then q.buffered key k else q.effective key k := by
  obtain ⟨front, rest, ordered, found, rfl⟩ := pop_cases popped
  have own : key event = front := wellFormed.keyed front event found
  have distinct := wellFormed.distinct
  rw [ordered, List.nodup_cons] at distinct
  have remaining : Aligned key { q with items := q.items.erase front, order := rest } := by
    refine ⟨distinct.2, ?_, ?_⟩
    · intro k
      have before := wellFormed.same k
      rw [ordered, List.mem_cons] at before
      simp only [FiniteMap.lookup_erase_ite]
      split_ifs with same
      · subst same
        simp [distinct.1]
      · simpa [same] using before
    · exact fun k other held => wellFormed.keyed k other (FiniteMap.lookup_erase_eq_some_iff.mp held).2
  have bounded := wellFormed.bounded
  rw [ordered, List.length_cons] at bounded
  refine ⟨refill_wellFormed q.recovering remaining (Nat.le_of_succ_le bounded) wellFormed.bufferBounded, ?_, ?_, ?_⟩
  · exact refill_capacity q.recovering
  · rw [effective, own, found, Option.some_or]
  · intro k
    rw [effective_refill, FiniteMap.lookup_erase_ite, own]
    split_ifs
    · rw [Option.none_or]
      rfl
    · rfl

/-- An event of a queued key takes the queued one's place. -/
theorem offer_queued {existing : E}
    (keeps : ∀ old new, key (supersede old new) = key new) (found : q.items.lookup (key item) = some existing) :
    WellFormed key (q.offer key supersede item).1 ∧ (q.offer key supersede item).1.capacity = q.capacity ∧
      ∀ k, (q.offer key supersede item).1.effective key k =
        if k = key item then some (supersede existing item) else q.effective key k := by
  have offered : q.offer key supersede item =
      ({ q with items := q.items.insert (key item) (supersede existing item) }, false) := by
    rw [offer, found]
  have aligned : Aligned key { q with items := q.items.insert (key item) (supersede existing item) } := by
    refine ⟨wellFormed.distinct, ?_, ?_⟩
    · intro k
      simp only [FiniteMap.lookup_insert_ite, wellFormed.same]
      split_ifs with same
      · rw [same, found]
        rfl
      · rfl
    · intro k event
      simp only [FiniteMap.lookup_insert_ite]
      split_ifs with same
      · rintro ⟨⟩
        rw [keeps, same]
      · exact wellFormed.keyed k event
  rw [offered]
  refine ⟨⟨aligned, wellFormed.bounded, ?_, wellFormed.bufferBounded⟩, rfl, ?_⟩
  · intro used
    exact aligned.full_iff.mpr (wellFormed.full_iff.mp (wellFormed.buffer used))
  · intro k
    simp only [effective, FiniteMap.lookup_insert_ite]
    split_ifs
    · rw [Option.some_or]
    · rfl

/-- An event of a new key takes a free place. -/
theorem offer_room (fresh : q.items.lookup (key item) = none) (room : q.full = false) :
    WellFormed key (q.offer key supersede item).1 ∧ (q.offer key supersede item).1.capacity = q.capacity ∧
      ∀ k, (q.offer key supersede item).1.effective key k =
        if k = key item then some item else q.effective key k := by
  have offered : q.offer key supersede item = (q.insert key item, false) := by
    simp [offer, fresh, room]
  have unused : q.recovering = [] := by
    by_contra used
    rw [wellFormed.buffer used] at room
    cases room
  have bound : q.order.length < q.capacity := by
    rw [← Bool.not_eq_true, wellFormed.full_iff] at room
    omega
  rw [offered]
  refine ⟨⟨wellFormed.insert fresh, ?_, ?_, wellFormed.bufferBounded⟩, rfl, ?_⟩
  · simp only [Coalescing.insert, List.length_append, List.length_singleton]
    omega
  · intro used
    exact absurd unused used
  · intro k
    simp only [effective, Coalescing.insert, FiniteMap.lookup_insert_ite]
    split_ifs
    · rw [Option.some_or]
    · rfl

/-- An event that finds the queue full is buffered behind its key's buffered events, if the buffer has room. -/
theorem offer_full (fresh : q.items.lookup (key item) = none) (isFull : q.full = true) :
    WellFormed key (q.offer key supersede item).1 ∧ (q.offer key supersede item).1.capacity = q.capacity ∧
      ∀ k, (q.offer key supersede item).1.effective key k =
        if k = key item ∧ q.recovering.length < q.capacity then (q.effective key k).or (some item)
        else q.effective key k := by
  simp only [offer, fresh, isFull, ↓reduceIte]
  split_ifs with room
  · refine ⟨⟨⟨wellFormed.distinct, wellFormed.same, wellFormed.keyed⟩, wellFormed.bounded, fun _ => isFull, ?_⟩, rfl, ?_⟩
    · simp only [List.length_append, List.length_singleton]
      omega
    · intro k
      simp only [effective, buffered, List.find?_append, List.find?_singleton, room, and_true]
      rcases eq_or_ne k (key item) with rfl | other
      · simp
      · simp [other, other.symm]
  · exact ⟨wellFormed, rfl, fun k => by simp [room]⟩

end

/-! ## What the queue holds -/

/-- Every event in the queue or its buffer satisfies a property. -/
structure Holds (property : E → Prop) (q : Coalescing K E) : Prop where
  queued : ∀ k event, q.items.lookup k = some event → property event
  buffered : ∀ event ∈ q.recovering, property event

variable {property : E → Prop}

theorem Holds.insert (holds : Holds property q) (offered : property item) : Holds property (q.insert key item) := by
  refine ⟨?_, holds.buffered⟩
  intro k event
  simp only [Coalescing.insert, FiniteMap.lookup_insert_ite]
  split_ifs
  · rintro ⟨⟩
    exact offered
  · exact holds.queued k event

theorem Holds.offer (holds : Holds property q) (closed : ∀ old new, property new → property (supersede old new))
    (offered : property item) : Holds property (q.offer key supersede item).1 := by
  unfold Coalescing.offer
  split
  · refine ⟨?_, holds.buffered⟩
    intro k event
    simp only [FiniteMap.lookup_insert_ite]
    split_ifs
    · rintro ⟨⟩
      exact closed _ item offered
    · exact holds.queued k event
  · split_ifs
    · refine ⟨holds.queued, ?_⟩
      intro event member
      rcases List.mem_append.mp member with earlier | last
      · exact holds.buffered event earlier
      · rwa [List.mem_singleton.mp last]
    · exact holds
    · exact holds.insert offered

theorem Holds.refill (rest : List E) (queued : ∀ k event, q.items.lookup k = some event → property event)
    (buffered : ∀ event ∈ rest, property event) : Holds property (refill key rest q) := by
  induction rest generalizing q with
  | nil => exact ⟨queued, buffered⟩
  | cons item rest ih =>
    have later : ∀ event ∈ rest, property event := fun event member => buffered event (List.mem_cons_of_mem _ member)
    unfold Coalescing.refill
    split_ifs
    · exact ⟨queued, buffered⟩
    · exact ih queued later
    · have inserted : Holds property ({ q with recovering := [] }.insert key item) :=
        Holds.insert ⟨queued, fun _ member => nomatch member⟩ (buffered item (List.mem_cons_self ..))
      exact ih inserted.queued later

theorem Holds.pop (holds : Holds property q) {event : E} {next : Coalescing K E}
    (popped : q.pop key = some (event, next)) : property event ∧ Holds property next := by
  obtain ⟨front, rest, _, found, rfl⟩ := pop_cases popped
  refine ⟨holds.queued front event found, Holds.refill _ ?_ holds.buffered⟩
  exact fun k other held => holds.queued k other (FiniteMap.lookup_erase_eq_some_iff.mp held).2

/-! ## Who waits for how long -/

/-- The keys in the order of their turns: the queued ones, then the buffered ones. -/
def line (key : E → K) (q : Coalescing K E) : List K := q.order ++ q.recovering.map key

/-- Readmission loses nobody's place: only the later events of a key are dropped. -/
theorem refill_line (rest : List E) (listed : ∀ k, (q.items.lookup k).isSome = true → k ∈ q.order)
    (waits : k ∈ q.order ++ rest.map key) :
    k ∈ (refill key rest q).line key ∧ ((refill key rest q).line key).idxOf k ≤ (q.order ++ rest.map key).idxOf k := by
  induction rest generalizing q with
  | nil => exact ⟨waits, le_rfl⟩
  | cons item rest ih =>
    unfold refill
    split_ifs with isFull queued
    · exact ⟨waits, le_rfl⟩
    · have earlier : key item ∈ q.order := listed _ queued
      by_cases own : k ∈ q.order
      · obtain ⟨member, before⟩ := ih listed (List.mem_append_left _ own)
        rw [List.idxOf_append_of_mem own] at before ⊢
        exact ⟨member, before⟩
      · have other : key item ≠ k := fun same => own (same ▸ earlier)
        have behind : k ∈ rest.map key := by simpa [own, other.symm] using waits
        obtain ⟨member, before⟩ := ih listed (List.mem_append_right _ behind)
        refine ⟨member, before.trans ?_⟩
        rw [List.idxOf_append_of_notMem own, List.idxOf_append_of_notMem own, List.map_cons, List.idxOf_cons_ne _ other]
        omega
    · have placed : ∀ k, ((q.insert key item).items.lookup k).isSome = true → k ∈ (q.insert key item).order := by
        intro k
        simp only [Coalescing.insert, FiniteMap.lookup_insert_ite, List.mem_append, List.mem_singleton]
        split_ifs with own
        · exact fun _ => .inr own
        · exact fun held => .inl (listed k held)
      have same : (q.insert key item).order ++ rest.map key = q.order ++ (item :: rest).map key := by
        simp [Coalescing.insert]
      have result := ih placed (same ▸ waits)
      rwa [same] at result

/-- A new key joins the line at its end. -/
theorem offer_line (wellFormed : WellFormed key q) (item : E) : q.line key <+: (q.offer key supersede item).1.line key := by
  unfold offer
  split
  · exact List.prefix_rfl
  · split_ifs with isFull
    · exact ⟨[key item], by simp [line]⟩
    · exact List.prefix_rfl
    · have unused : q.recovering = [] := by
        by_contra used
        exact isFull (wellFormed.buffer used)
      exact ⟨[key item], by simp [line, Coalescing.insert, unused]⟩

/-- Whoever waits is first, or has one key less before it. -/
theorem pop_line (wellFormed : WellFormed key q) (waits : k ∈ q.line key) : ∃ event next, q.pop key = some (event, next) ∧
      (key event = k ∨ k ∈ next.line key ∧ (next.line key).idxOf k < (q.line key).idxOf k) := by
  cases ordered : q.order with
  | nil =>
    rw [line, ordered, wellFormed.recovering_of_drained ordered] at waits
    cases waits
  | cons front rest =>
    obtain ⟨event, found⟩ := Option.isSome_iff_exists.mp ((wellFormed.same front).mp (ordered ▸ List.mem_cons_self))
    have popped : q.pop key = some (event, refill key q.recovering { q with items := q.items.erase front, order := rest }) := by
      simp [pop, ordered, found]
    refine ⟨event, _, popped, ?_⟩
    rcases eq_or_ne front k with rfl | other
    · exact .inl (wellFormed.keyed front event found)
    · have behind : ∀ k, ((q.items.erase front).lookup k).isSome = true → k ∈ rest := by
        intro k held
        obtain ⟨kept, held⟩ := Option.isSome_iff_exists.mp held
        obtain ⟨own, held⟩ := FiniteMap.lookup_erase_eq_some_iff.mp held
        have member : k ∈ q.order := (wellFormed.same k).mpr (by rw [held]; rfl)
        rw [ordered] at member
        exact (List.mem_cons.mp member).resolve_left own
      have before : q.line key = front :: (rest ++ q.recovering.map key) := by rw [line, ordered, List.cons_append]
      rw [before] at waits ⊢
      obtain ⟨member, ahead⟩ := @refill_line _ _ _ key { q with items := q.items.erase front, order := rest } k q.recovering behind
        ((List.mem_cons.mp waits).resolve_left other.symm)
      refine .inr ⟨member, ?_⟩
      rw [List.idxOf_cons_ne _ other]
      exact Nat.lt_succ_of_le ahead

end Coalescing

end Spotter.Library
