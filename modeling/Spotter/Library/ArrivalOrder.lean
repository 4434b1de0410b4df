import Spotter.Library.Coalescing

/-! # The order of arrivals

An idealised coalescing queue without bounds: the events of one key that arrive before the key's turn form one set, the
sets wait in the order in which their first events arrived, and the set whose turn it is leaves as a whole. A bounded
coalescing queue that refuses nothing does the same, each set merged into one event.
-/

namespace Spotter.Library

/-- Events of one key that arrived before the key's turn, and the position at which the first of them arrived. -/
structure ArrivalSet (E : Type) where
  arrival : ℕ
  first : E
  later : List E := []
deriving DecidableEq

namespace ArrivalSet

variable {E : Type} (s : ArrivalSet E)

/-- The events of a set, in the order of their arrival. -/
def members : List E := s.first :: s.later

def join (item : E) : ArrivalSet E := { s with later := s.later ++ [item] }

/-- The set as one event. -/
def merged (supersede : E → E → E) (s : ArrivalSet E) : E := s.later.foldl supersede s.first

@[simp] theorem merged_join (supersede : E → E → E) (s : ArrivalSet E) (item : E) :
    (s.join item).merged supersede = supersede (s.merged supersede) item := by
  rw [merged, merged, join, List.foldl_concat]

@[simp] theorem join_first (item : E) : (s.join item).first = s.first := rfl

@[simp] theorem join_arrival (item : E) : (s.join item).arrival = s.arrival := rfl

@[simp] theorem join_members (item : E) : (s.join item).members = s.members ++ [item] := rfl

end ArrivalSet

/-- The sets that wait for their turn and those that had it. -/
structure Arrivals (E : Type) where
  waiting : List (ArrivalSet E) := []
  taken : List (ArrivalSet E) := []
deriving DecidableEq

namespace Arrivals

variable {E K : Type} [DecidableEq K] (key : E → K) (a : Arrivals E)

/-- An event joins the set of its key that waits, or starts a new one. -/
def arrive (position : ℕ) (item : E) : Arrivals E :=
  if a.waiting.any fun s => decide (key s.first = key item) then
    { a with waiting := a.waiting.map fun s => if key s.first = key item then s.join item else s }
  else { a with waiting := a.waiting ++ [⟨position, item, []⟩] }

/-- The set whose turn it is leaves. -/
def take : Arrivals E :=
  match a.waiting with
  | [] => a
  | s :: rest => { waiting := rest, taken := a.taken ++ [s] }

/-- All sets, in the order in which they leave. -/
def sets : List (ArrivalSet E) := a.taken ++ a.waiting

omit [DecidableEq K] in
theorem take_sets : a.take.sets = a.sets := by
  unfold take
  split
  · rfl
  · next s rest waits => simp [sets, waits]

/-- The sets leave in the order of their first arrivals, hold events of one key each, and no key waits in two sets. -/
structure InOrder (position : ℕ) : Prop where
  ordered : (a.sets.map ArrivalSet.arrival).Pairwise (· < ·)
  arrived : ∀ s ∈ a.sets, s.arrival < position
  keyed : ∀ s ∈ a.sets, ∀ item ∈ s.members, key item = key s.first
  distinct : (a.waiting.map fun s => key s.first).Nodup

variable {key} {a : Arrivals E} {position : ℕ} {item : E}

omit [DecidableEq K] in
theorem InOrder.take (inOrder : InOrder key a position) : InOrder key a.take (position + 1) := by
  refine ⟨?_, ?_, ?_, ?_⟩
  · rw [take_sets]
    exact inOrder.ordered
  · intro s member
    rw [take_sets] at member
    exact Nat.lt_succ_of_lt (inOrder.arrived s member)
  · rw [take_sets]
    exact inOrder.keyed
  · have distinct := inOrder.distinct
    unfold Arrivals.take
    split
    · exact distinct
    · next s rest waits =>
      rw [waits, List.map_cons, List.nodup_cons] at distinct
      exact distinct.2

/-- What an arrival does: one set grows, or a new set waits behind the others. -/
theorem arrive_cases (distinct : (a.waiting.map fun s => key s.first).Nodup) (position : ℕ) (item : E) :
    (∃ left s right, a.waiting = left ++ s :: right ∧ key s.first = key item ∧
        a.arrive key position item = { a with waiting := left ++ s.join item :: right }) ∨
      (∀ s ∈ a.waiting, key s.first ≠ key item) ∧
        a.arrive key position item = { a with waiting := a.waiting ++ [⟨position, item, []⟩] } := by
  unfold arrive
  split_ifs with known
  · left
    obtain ⟨s, member, own⟩ := List.any_eq_true.mp known
    obtain ⟨left, right, waits⟩ := List.append_of_mem member
    have same : key s.first = key item := of_decide_eq_true own
    rw [waits, List.map_append, List.map_cons, List.nodup_append, List.nodup_cons] at distinct
    obtain ⟨_, ⟨afterwards, _⟩, before⟩ := distinct
    refine ⟨left, s, right, waits, same, ?_⟩
    have keptLeft : left.map (fun s => if key s.first = key item then s.join item else s) = left := by
      refine (List.map_congr_left ?_).trans (List.map_id left)
      intro other among
      exact if_neg fun again =>
        before _ (List.mem_map_of_mem among) _ (List.mem_cons_self ..) (again.trans same.symm)
    have keptRight : right.map (fun s => if key s.first = key item then s.join item else s) = right := by
      refine (List.map_congr_left ?_).trans (List.map_id right)
      intro other among
      refine if_neg fun again => afterwards ?_
      rw [same, ← again]
      exact List.mem_map_of_mem (f := fun s : ArrivalSet E => key s.first) among
    rw [waits, List.map_append, List.map_cons, keptLeft, keptRight, if_pos same]
  · right
    refine ⟨?_, rfl⟩
    intro s member same
    exact known (List.any_eq_true.mpr ⟨s, member, decide_eq_true same⟩)

theorem InOrder.arrive (inOrder : InOrder key a position) : InOrder key (a.arrive key position item) (position + 1) := by
  have ordered := inOrder.ordered
  have arrived := inOrder.arrived
  have keyed := inOrder.keyed
  have distinct := inOrder.distinct
  rcases arrive_cases inOrder.distinct position item with ⟨left, s, right, waits, same, grown⟩ | ⟨fresh, appended⟩
  · rw [grown]
    simp only [sets, waits, List.map_append, List.map_cons, List.mem_append, List.mem_cons] at ordered arrived keyed distinct
    refine ⟨?_, ?_, ?_, ?_⟩
    · simpa [sets] using ordered
    · simp only [sets, List.mem_append, List.mem_cons]
      rintro other (taken | before | rfl | behind)
      · exact Nat.lt_succ_of_lt (arrived other (.inl taken))
      · exact Nat.lt_succ_of_lt (arrived other (.inr (.inl before)))
      · exact Nat.lt_succ_of_lt (arrived s (.inr (.inr (.inl rfl))))
      · exact Nat.lt_succ_of_lt (arrived other (.inr (.inr (.inr behind))))
    · simp only [sets, List.mem_append, List.mem_cons]
      rintro other (taken | before | rfl | behind)
      · exact keyed other (.inl taken)
      · exact keyed other (.inr (.inl before))
      · intro event member
        rw [ArrivalSet.join_members, List.mem_append, List.mem_singleton] at member
        rcases member with earlier | rfl
        · exact keyed s (.inr (.inr (.inl rfl))) event earlier
        · exact same.symm
      · exact keyed other (.inr (.inr (.inr behind)))
    · simpa using distinct
  · rw [appended]
    refine ⟨?_, ?_, ?_, ?_⟩
    · simp only [sets, ← List.append_assoc]
      rw [List.map_append, List.pairwise_append]
      refine ⟨ordered, by simp, ?_⟩
      intro earlier among last single
      obtain ⟨s, member, rfl⟩ := List.mem_map.mp among
      rw [List.map_singleton, List.mem_singleton] at single
      rw [single]
      exact arrived s member
    · simp only [sets, ← List.append_assoc, List.mem_append, List.mem_singleton]
      rintro s (known | rfl)
      · exact Nat.lt_succ_of_lt (arrived s (List.mem_append.mpr known))
      · exact Nat.lt_succ_self _
    · simp only [sets, ← List.append_assoc, List.mem_append, List.mem_singleton]
      rintro s (known | rfl)
      · exact keyed s (List.mem_append.mpr known)
      · intro event member
        rw [List.mem_singleton.mp member]
    · rw [List.map_append, List.nodup_append]
      refine ⟨distinct, by simp, ?_⟩
      intro earlier among last single
      obtain ⟨s, member, rfl⟩ := List.mem_map.mp among
      rw [List.map_singleton, List.mem_singleton] at single
      rw [single]
      exact fresh s member

/-- Every arrival is in exactly one set. -/
theorem arrive_members (distinct : (a.waiting.map fun s => key s.first).Nodup) :
    ((a.arrive key position item).sets.flatMap ArrivalSet.members).Perm (a.sets.flatMap ArrivalSet.members ++ [item]) := by
  rcases arrive_cases distinct position item with ⟨left, s, right, waits, _, grown⟩ | ⟨_, appended⟩
  · rw [grown, sets, sets, waits]
    simp only [List.flatMap_append, List.flatMap_cons, ArrivalSet.join_members, List.append_assoc]
    refine .append_left _ (.append_left _ (.append_left _ ?_))
    exact List.perm_append_comm
  · rw [appended, sets, sets]
    simp [ArrivalSet.members]

/-- A set keeps the arrival that started it. -/
theorem arrive_started (distinct : (a.waiting.map fun s => key s.first).Nodup) {s : ArrivalSet E}
    (member : s ∈ (a.arrive key position item).sets) :
    (∃ old ∈ a.sets, s.arrival = old.arrival ∧ s.first = old.first) ∨ s.arrival = position ∧ s.first = item := by
  rcases arrive_cases distinct position item with ⟨left, grownSet, right, waits, _, grown⟩ | ⟨_, appended⟩
  · rw [grown, sets, List.mem_append, List.mem_append, List.mem_cons] at member
    rw [sets, waits]
    simp only [List.mem_append, List.mem_cons]
    rcases member with taken | before | rfl | behind
    · exact .inl ⟨s, .inl taken, rfl, rfl⟩
    · exact .inl ⟨s, .inr (.inl before), rfl, rfl⟩
    · exact .inl ⟨grownSet, .inr (.inr (.inl rfl)), rfl, rfl⟩
    · exact .inl ⟨s, .inr (.inr (.inr behind)), rfl, rfl⟩
  · rw [appended, sets, ← List.append_assoc, List.mem_append, List.mem_singleton] at member
    rcases member with known | rfl
    · exact .inl ⟨s, known, rfl, rfl⟩
    · exact .inr ⟨rfl, rfl⟩

end Arrivals

namespace Coalescing

variable {E K : Type} [DecidableEq K] {key : E → K} {supersede : E → E → E} {q : Coalescing K E} {a : Arrivals E} {item : E}

/-- The queue holds the waiting sets, each merged into one event, and nothing is buffered. -/
structure Merges (key : E → K) (supersede : E → E → E) (q : Coalescing K E) (a : Arrivals E) : Prop where
  unbuffered : q.recovering = []
  order : q.order = a.waiting.map fun s => key s.first
  items : ∀ s ∈ a.waiting, q.items.lookup (key s.first) = some (s.merged supersede)

/-- An event that the queue does not refuse arrives. -/
theorem Merges.offer (merges : Merges key supersede q a) (aligned : Aligned key q) {position : ℕ}
    (accepted : (q.offer key supersede item).2 = false) :
    Merges key supersede (q.offer key supersede item).1 (a.arrive key position item) := by
  have distinct : (a.waiting.map fun s => key s.first).Nodup := merges.order ▸ aligned.distinct
  rcases Arrivals.arrive_cases distinct position item with ⟨left, s, right, waits, same, grown⟩ | ⟨fresh, appended⟩
  · have own := merges.items s (by rw [waits]; exact List.mem_append_right _ (List.mem_cons_self ..))
    rw [same] at own
    rw [Coalescing.offer, own, grown]
    refine ⟨merges.unbuffered, ?_, ?_⟩
    · rw [merges.order, waits]
      simp
    · rw [waits, List.map_append, List.map_cons, List.nodup_append, List.nodup_cons] at distinct
      obtain ⟨_, ⟨afterwards, _⟩, before⟩ := distinct
      intro other among
      simp only [List.mem_append, List.mem_cons] at among
      simp only [FiniteMap.lookup_insert_ite]
      rcases among with among | rfl | among
      · have apart : key other.first ≠ key item := by
          rw [← same]
          exact before _ (List.mem_map_of_mem among) _ (List.mem_cons_self ..)
        rw [if_neg apart]
        exact merges.items other (by rw [waits]; exact List.mem_append_left _ among)
      · rw [ArrivalSet.join_first, if_pos same, ArrivalSet.merged_join]
      · have apart : key other.first ≠ key item := by
          rw [← same]
          intro again
          exact afterwards (again ▸ List.mem_map_of_mem (f := fun s : ArrivalSet E => key s.first) among)
        rw [if_neg apart]
        exact merges.items other (by rw [waits]; exact List.mem_append_right _ (List.mem_cons_of_mem _ among))
  · have absent : q.items.lookup (key item) = none := by
      rw [← Option.not_isSome_iff_eq_none, ← aligned.same, merges.order, List.mem_map]
      rintro ⟨s, member, same⟩
      exact fresh s member same
    rw [Coalescing.offer, absent] at accepted ⊢
    simp only at accepted ⊢
    split_ifs at accepted ⊢ with isFull
    rw [appended]
    refine ⟨merges.unbuffered, ?_, ?_⟩
    · rw [Coalescing.insert, merges.order, List.map_append, List.map_singleton]
    · intro s member
      rw [List.mem_append, List.mem_singleton] at member
      simp only [Coalescing.insert, FiniteMap.lookup_insert_ite]
      rcases member with known | rfl
      · rw [if_neg (fresh s known)]
        exact merges.items s known
      · exact if_pos rfl

/-- Taking an event out takes the set whose turn it is. -/
theorem Merges.pop (merges : Merges key supersede q a) (aligned : Aligned key q) :
    match q.pop key with
    | none => a.waiting = []
    | some (event, next) => ∃ s rest, a.waiting = s :: rest ∧ event = s.merged supersede ∧ Merges key supersede next a.take := by
  cases waits : a.waiting with
  | nil =>
    have drained := merges.order
    rw [waits, List.map_nil] at drained
    simp [Coalescing.pop, drained]
  | cons s rest =>
    have order := merges.order
    rw [waits, List.map_cons] at order
    have distinct := aligned.distinct
    rw [order, List.nodup_cons] at distinct
    have own := merges.items s (by rw [waits]; exact List.mem_cons_self ..)
    simp only [Coalescing.pop, order, own, Option.map_some]
    refine ⟨s, rest, rfl, rfl, ?_⟩
    rw [merges.unbuffered, refill, Arrivals.take, waits]
    refine ⟨rfl, rfl, ?_⟩
    intro other member
    have apart : key other.first ≠ key s.first := by
      intro same
      exact distinct.1 (same ▸ List.mem_map_of_mem (f := fun s : ArrivalSet E => key s.first) member)
    simp only [FiniteMap.lookup_erase_ite, if_neg apart]
    exact merges.items other (by rw [waits]; exact List.mem_cons_of_mem _ member)

end Coalescing

end Spotter.Library
