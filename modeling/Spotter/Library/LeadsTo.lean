import Mathlib.Order.Lattice

/-! # Leads-to along an infinite run

A property of the times of a run leads to another one if every time of the first is followed by a time of the second. The
basic rule is the one of weak fairness: the first property stays until the second holds, and again and again there is a step
that turns the first into the second.
-/

namespace Spotter.Library

/-- From some time on, every time of the first property is followed by a time of the second. -/
def LeadsTo (start : ℕ) (P Q : ℕ → Prop) : Prop := ∀ n, start ≤ n → P n → ∃ m, n ≤ m ∧ Q m

namespace LeadsTo

variable {start : ℕ} {P Q R : ℕ → Prop}

theorem trans (first : LeadsTo start P Q) (second : LeadsTo start Q R) : LeadsTo start P R := by
  intro n late holds
  obtain ⟨m, after, reached⟩ := first n late holds
  obtain ⟨k, later, done⟩ := second m (late.trans after) reached
  exact ⟨k, after.trans later, done⟩

/-- The rule of weak fairness. -/
theorem of_again (stays : ∀ n, start ≤ n → P n → P (n + 1) ∨ Q (n + 1))
    (again : ∀ n, start ≤ n → ∃ m, n ≤ m ∧ (P m → Q (m + 1))) : LeadsTo start P Q := by
  intro n late holds
  obtain ⟨m, after, moves⟩ := again n late
  have until_then : ∀ k, n ≤ k → k ≤ m → P k ∨ ∃ j, n ≤ j ∧ Q j := by
    intro k
    induction k with
    | zero =>
      intro first _
      obtain rfl := Nat.le_zero.mp first
      exact .inl holds
    | succ k ih =>
      intro first last
      rcases Nat.lt_or_ge k n with before | after
      · obtain rfl : n = k + 1 := by omega
        exact .inl holds
      · rcases ih after (by omega) with still | done
        · rcases stays k (late.trans after) still with still | now
          · exact .inl still
          · exact .inr ⟨k + 1, by omega, now⟩
        · exact .inr done
  rcases until_then m after le_rfl with still | done
  · exact ⟨m + 1, by omega, moves still⟩
  · exact done

/-- A property that leads to itself at a lower rank, or to another one, leads to the other one. -/
theorem of_rank (rank : ℕ → ℕ)
    (falls : ∀ r, LeadsTo start (fun n => P n ∧ rank n = r) fun n => (P n ∧ rank n < r) ∨ Q n) : LeadsTo start P Q := by
  have below : ∀ r n, start ≤ n → P n → rank n < r → ∃ m, n ≤ m ∧ Q m := by
    intro r
    induction r with
    | zero => exact fun n _ _ impossible => absurd impossible (Nat.not_lt_zero _)
    | succ r ih =>
      intro n late holds bound
      obtain ⟨m, after, ⟨still, lower⟩ | done⟩ := falls (rank n) n late ⟨holds, rfl⟩
      · obtain ⟨k, later, done⟩ := ih m (late.trans after) still (by omega)
        exact ⟨k, after.trans later, done⟩
      · exact ⟨m, after, done⟩
  exact fun n late holds => below (rank n + 1) n late holds (Nat.lt_succ_self _)

end LeadsTo

end Spotter.Library
