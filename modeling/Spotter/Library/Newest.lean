import Mathlib.Data.List.Induction
import Mathlib.Tactic.Order

/-! # The newest of the owed events

Events arrive in an order and carry a rank. The newest of a list is the most recent event of the
highest rank. Settling an event discharges the events it supersedes: those of a lower rank, and
those of its own rank that arrived no later than it. Settling the newest event leaves nothing
owed, and settling an older one never disturbs a newer newest event.
-/

namespace Spotter.Library.Newest

variable {α β : Type*} [LinearOrder β] (rank : α → β)

/-- Keep the later of two events unless its rank is lower. -/
def newer : Option α → α → Option α
  | none, event => some event
  | some best, event => if rank best ≤ rank event then some event else some best

/-- The most recent event among those of the highest rank. -/
def newest (events : List α) : Option α := events.foldl (newer rank) none

/-- What is still owed after the sink settled a push. -/
def discharge [DecidableEq α] (pushed : α) : List α → List α
  | [] => []
  | event :: rest =>
    if rank pushed < rank event ∨ (rank event = rank pushed ∧ pushed ∉ event :: rest) then
      event :: discharge pushed rest
    else discharge pushed rest

variable {rank}

theorem newest_append (events : List α) (event : α) :
    newest rank (events ++ [event]) = newer rank (newest rank events) event := by
  simp only [newest, List.foldl_append, List.foldl_cons, List.foldl_nil]

theorem newest_eq_some_iff {events : List α} {best : α} : newest rank events = some best ↔
      ∃ before after, events = before ++ best :: after ∧ (∀ event ∈ before, rank event ≤ rank best) ∧
        ∀ event ∈ after, rank event < rank best := by
  induction events using List.reverseRecOn generalizing best with
  | nil => simp [newest]
  | append_singleton events last ih =>
    rw [newest_append]
    constructor
    · intro kept
      cases found : newest rank events with
      | none =>
        rw [found] at kept
        cases kept
        have empty : events = [] := by
          rcases List.eq_nil_or_concat events with rfl | ⟨initial, final, rfl⟩
          · rfl
          · rw [List.concat_eq_append, newest_append] at found
            cases previous : newest rank initial with
            | none => simp [newer, previous] at found
            | some other =>
              rw [previous, newer] at found
              split_ifs at found
        exact ⟨[], [], by simp [empty], by simp, by simp⟩
      | some previous =>
        obtain ⟨before, after, rfl, low, below⟩ := ih.mp found
        rw [found, newer] at kept
        split_ifs at kept with ranked
        · cases kept
          refine ⟨before ++ previous :: after, [], by simp, ?_, by simp⟩
          intro event member
          rcases List.mem_append.mp member with earlier | later
          · exact (low event earlier).trans ranked
          · rcases List.mem_cons.mp later with rfl | later
            · exact ranked
            · exact (le_of_lt (below event later)).trans ranked
        · cases kept
          refine ⟨before, after ++ [last], by simp, low, ?_⟩
          intro event member
          rcases List.mem_append.mp member with earlier | new
          · exact below event earlier
          · rw [List.mem_singleton.mp new]
            order
    · rintro ⟨before, after, split, low, below⟩
      rcases List.eq_nil_or_concat after with rfl | ⟨initial, final, rfl⟩
      · obtain ⟨rfl, same⟩ := List.append_inj' split rfl
        cases same
        cases found : newest rank events with
        | none => rfl
        | some previous =>
          obtain ⟨first, second, rfl, _, _⟩ := ih.mp found
          rw [newer, if_pos (low previous (by simp))]
      · rw [List.concat_eq_append, ← List.cons_append, ← List.append_assoc] at split
        obtain ⟨rfl, same⟩ := List.append_inj' split rfl
        cases same
        have found := ih.mpr ⟨before, initial, rfl, low, fun event member => below event (by simp [member])⟩
        have lower := below last (by simp)
        rw [found, newer, if_neg (by order)]

variable [DecidableEq α]

/-- Discharging drops exactly superseded events, in place. -/
theorem discharge_sublist (rank : α → β) (pushed : α) (events : List α) :
    (discharge rank pushed events).Sublist events := by
  induction events with
  | nil => exact .slnil
  | cons event rest ih =>
    rw [discharge]
    split_ifs
    · exact ih.cons_cons event
    · exact ih.cons event

/-- A settled push of the newest event leaves nothing owed. -/
theorem discharge_newest {pushed : α} {events : List α} (best : newest rank events = some pushed) :
    discharge rank pushed events = [] := by
  obtain ⟨before, after, rfl, low, below⟩ := newest_eq_some_iff.mp best
  have tail : discharge rank pushed after = [] := by
    clear best low
    induction after with
    | nil => rfl
    | cons event rest ih =>
      have lower := below event (by simp)
      rw [discharge, if_neg]
      swap
      · rintro (higher | ⟨same, _⟩) <;> order
      exact ih (fun other member => below other (by simp [member]))
  induction before with
  | nil => simp [discharge, tail]
  | cons event rest ih =>
    have bound := low event (by simp)
    rw [List.cons_append, discharge, if_neg]
    · exact ih (newest_eq_some_iff.mpr ⟨rest, after, rfl, fun other member => low other (by simp [member]), below⟩)
        (fun other member => low other (by simp [member]))
    · rintro (higher | ⟨_, absent⟩)
      · order
      · exact absent (by simp)

/-- A settled push of an older event leaves a newer newest event owed. -/
theorem newest_discharge {pushed best : α} {events : List α} (found : newest rank events = some best)
    (older : rank pushed < rank best) : newest rank (discharge rank pushed events) = some best := by
  obtain ⟨before, after, rfl, low, below⟩ := newest_eq_some_iff.mp found
  have split : ∀ front : List α, ∃ kept, discharge rank pushed (front ++ best :: after) =
      kept ++ best :: discharge rank pushed after ∧ kept.Sublist front := by
    intro front
    induction front with
    | nil => exact ⟨[], by simp [discharge, older], .slnil⟩
    | cons event rest ih =>
      obtain ⟨kept, equal, sub⟩ := ih
      rw [List.cons_append, discharge]
      split_ifs
      · exact ⟨event :: kept, by rw [equal]; rfl, sub.cons_cons event⟩
      · exact ⟨kept, equal, sub.cons event⟩
  obtain ⟨kept, equal, sub⟩ := split before
  exact newest_eq_some_iff.mpr ⟨kept, discharge rank pushed after, equal, fun event member => low event (sub.subset member),
    fun event member => below event ((discharge_sublist rank pushed after).subset member)⟩

end Spotter.Library.Newest
