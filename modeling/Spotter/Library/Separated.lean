import Mathlib.Data.List.TakeWhile

/-! # Text joined by a separator

A text that ends in a separator and a part without it can be taken apart again at its last
separator.
-/

namespace Spotter.Library

variable {α : Type*}

theorem takeWhile_reverse_separated [DecidableEq α] {separator : α} (front back : List α) (plain : separator ∉ back) :
    (front ++ separator :: back).reverse.takeWhile (fun c => decide (c ≠ separator)) = back.reverse := by
  have all : ∀ c ∈ back.reverse, decide (c ≠ separator) = true := by
    intro c member
    rw [decide_eq_true_eq]
    rintro rfl
    exact plain (List.mem_reverse.mp member)
  rw [List.reverse_append, List.reverse_cons, List.append_assoc, List.takeWhile_append_of_pos all]
  simp

/-- The last separator determines both parts. -/
theorem separated_inj [DecidableEq α] {separator : α} {front back front' back' : List α}
    (plain : separator ∉ back) (plain' : separator ∉ back')
    (same : front ++ separator :: back = front' ++ separator :: back') : front = front' ∧ back = back' := by
  have tails := congrArg (fun text => text.reverse.takeWhile fun c => decide (c ≠ separator)) same
  simp only [takeWhile_reverse_separated _ _ plain, takeWhile_reverse_separated _ _ plain'] at tails
  have backs : back = back' := List.reverse_inj.mp tails
  subst backs
  exact ⟨List.append_cancel_right same, rfl⟩

/-- Two texts joined by a one-character separator agree part by part. -/
theorem join_inj {separator : String} {c : Char} (single : separator.toList = [c]) {front back front' back' : String}
    (plain : c ∉ back.toList) (plain' : c ∉ back'.toList)
    (same : front ++ separator ++ back = front' ++ separator ++ back') : front = front' ∧ back = back' := by
  have lists := congrArg String.toList same
  simp only [String.toList_append, single, List.append_assoc, List.singleton_append] at lists
  obtain ⟨fronts, backs⟩ := separated_inj plain plain' lists
  exact ⟨String.toList_injective fronts, String.toList_injective backs⟩

end Spotter.Library
