import Mathlib.Order.Lattice
import Mathlib.Data.List.Induction

/-! # Last-writer-wins registers

A register accepts a write when its rank exceeds the rank it holds. Whether a write of exactly the
held rank is accepted again may depend on that rank. Whatever the order of arrival, the register
ends at the greatest rank, and the last accepted write has that rank.
-/

namespace Spotter.Library.LastWriter

variable {α β : Type*} [LinearOrder β] (rank : α → β) (again : β → Bool)

/-- The register takes a write of a higher rank, and one of its own rank where `again` allows it. -/
def accepts : Option β → α → Bool
  | none, _ => true
  | some held, item => decide (held < rank item) || (decide (held = rank item) && again held)

/-- The held rank and the writes accepted so far. -/
def absorb (state : Option β × List α) (item : α) : Option β × List α :=
  if accepts rank again state.1 item then (some (rank item), state.2 ++ [item]) else state

/-- The register after a sequence of writes. -/
def register (items : List α) : Option β × List α := items.foldl (absorb rank again) (none, [])

theorem register_append (items : List α) (item : α) :
    register rank again (items ++ [item]) = absorb rank again (register rank again items) item := by
  simp only [register, List.foldl_append, List.foldl_cons, List.foldl_nil]

/-- A refused write is no greater than what the register holds. -/
theorem rank_le_of_refused {held : β} {item : α} (refused : accepts rank again (some held) item = false) :
    rank item ≤ held := by
  simp only [accepts, Bool.or_eq_false_iff, decide_eq_false_iff_not, not_lt] at refused
  exact refused.1

theorem le_rank_of_accepted {held : β} {item : α} (accepted : accepts rank again (some held) item = true) :
    held ≤ rank item := by
  simp only [accepts, Bool.or_eq_true, decide_eq_true_eq, Bool.and_eq_true] at accepted
  rcases accepted with higher | ⟨same, _⟩
  · exact le_of_lt higher
  · exact le_of_eq same

/-- The held rank bounds every write, and the last accepted write attains it. -/
theorem register_spec (items : List α) : (items = [] ∧ register rank again items = (none, [])) ∨
    ∃ last ∈ items, (∀ item ∈ items, rank item ≤ rank last) ∧ (register rank again items).1 = some (rank last) ∧
      (register rank again items).2.getLast? = some last := by
  induction items using List.reverseRecOn with
  | nil => exact .inl ⟨rfl, rfl⟩
  | append_singleton items item ih =>
    refine .inr ?_
    rw [register_append]
    rcases ih with ⟨rfl, start⟩ | ⟨last, member, bound, held, tail⟩
    · refine ⟨item, by simp, by simp, ?_, ?_⟩ <;> simp [start, absorb, accepts]
    · cases decision : accepts rank again (some (rank last)) item with
      | true =>
        have above := le_rank_of_accepted rank again decision
        refine ⟨item, by simp, ?_, ?_, ?_⟩
        · intro other among
          rcases List.mem_append.mp among with earlier | new
          · exact (bound other earlier).trans above
          · rw [List.mem_singleton.mp new]
        · simp [absorb, held, decision]
        · simp [absorb, held, decision]
      | false =>
        refine ⟨last, by simp [member], ?_, ?_, ?_⟩
        · intro other among
          rcases List.mem_append.mp among with earlier | new
          · exact bound other earlier
          · rw [List.mem_singleton.mp new]
            exact rank_le_of_refused rank again decision
        · simp [absorb, held, decision]
        · simp [absorb, held, decision, tail]

/-- Arrival order does not matter: the register ends at the greatest rank, and its last accepted
write has that rank. -/
theorem register_greatest {items : List α} {greatest : α} (member : greatest ∈ items)
    (bound : ∀ item ∈ items, rank item ≤ rank greatest) :
    (register rank again items).1 = some (rank greatest) ∧
      ∃ last ∈ items, rank last = rank greatest ∧ (register rank again items).2.getLast? = some last := by
  rcases register_spec rank again items with ⟨rfl, _⟩ | ⟨last, among, above, held, tail⟩
  · cases member
  · have same : rank last = rank greatest := le_antisymm (bound last among) (above greatest member)
    exact ⟨by rw [held, same], last, among, same, tail⟩

end Spotter.Library.LastWriter
