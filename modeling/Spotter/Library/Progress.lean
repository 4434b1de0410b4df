import Mathlib.Algebra.BigOperators.Group.Finset.Basic
import Mathlib.Algebra.GroupWithZero.Nat
import Mathlib.Data.Finset.Max

/-! # Progress under fair schedules

Processes move one at a time and each move lowers a measure. If some process can move as long as the system is not done,
then a schedule that lets every process run again and again ends in a done state. Whoever takes locks in order
cannot wait in a circle.
-/

namespace Spotter.Library.Progress

section Schedules

variable {σ ι ε : Type*}

/-- Every process is scheduled again and again. -/
def Fair (schedule : ℕ → ι × ε) : Prop := ∀ i n, ∃ m, n ≤ m ∧ (schedule m).1 = i

/-- The state after some steps of a schedule. -/
def along (step : σ → ι → ε → σ) (schedule : ℕ → ι × ε) (start : σ) : ℕ → σ
  | 0 => start
  | n + 1 => step (along step schedule start n) (schedule n).1 (schedule n).2

/-- A system in which a process that cannot move stays where it is, every move lowers the measure, and some process can move
until the system is done. -/
structure Progresses (step : σ → ι → ε → σ) (enabled : σ → ι → Prop) (inv done : σ → Prop) (measure : σ → ℕ) : Prop where
  keeps : ∀ s i e, inv s → inv (step s i e)
  waits : ∀ s i e, ¬enabled s i → step s i e = s
  falls : ∀ s i e, inv s → enabled s i → measure (step s i e) < measure s
  live : ∀ s, inv s → ¬done s → ∃ i, enabled s i

variable {step : σ → ι → ε → σ} {enabled : σ → ι → Prop} {inv done : σ → Prop} {measure : σ → ℕ} {schedule : ℕ → ι × ε} {start : σ}

section

variable (progresses : Progresses step enabled inv done measure)

include progresses

theorem Progresses.inv_along (initial : inv start) (n : ℕ) :
    inv (along step schedule start n) := by
  induction n with
  | zero => exact initial
  | succ n ih => exact progresses.keeps _ _ _ ih

/-- From one time to a later one, nothing happened or the measure fell. -/
theorem Progresses.same_or_falls (initial : inv start) {n m : ℕ} (later : n ≤ m) :
    along step schedule start m = along step schedule start n ∨
      measure (along step schedule start m) < measure (along step schedule start n) := by
  induction m, later using Nat.le_induction with
  | base => exact .inl rfl
  | succ m _ ih =>
    have moved : along step schedule start (m + 1) = along step schedule start m ∨
        measure (along step schedule start (m + 1)) < measure (along step schedule start m) := by
      by_cases able : enabled (along step schedule start m) (schedule m).1
      · exact .inr (progresses.falls _ _ _ (progresses.inv_along initial m) able)
      · exact .inl (progresses.waits _ _ _ able)
    rcases moved with still | fell
    · rw [still]
      exact ih
    · rcases ih with same | below
      · rw [same] at fell
        exact .inr fell
      · exact .inr (fell.trans below)

/-- A fair schedule leads to a done state. -/
theorem Progresses.eventually_done (fair : Fair schedule) (initial : inv start) : ∃ n, done (along step schedule start n) := by
  have from_measure : ∀ bound n, measure (along step schedule start n) < bound → ∃ m, done (along step schedule start m) := by
    intro bound
    induction bound with
    | zero =>
      intro n below
      omega
    | succ bound ih =>
      intro n below
      by_cases isDone : done (along step schedule start n)
      · exact ⟨n, isDone⟩
      · obtain ⟨i, able⟩ := progresses.live _ (progresses.inv_along initial n) isDone
        obtain ⟨m, later, scheduled⟩ := fair i n
        rcases progresses.same_or_falls initial later with same | fell
        · -- Nothing happened until the process that can move is scheduled.
          have fell : measure (along step schedule start (m + 1)) < measure (along step schedule start m) := by
            apply progresses.falls _ _ _ (progresses.inv_along initial m)
            rw [same, scheduled]
            exact able
          rw [same] at fell
          exact ih (m + 1) (by omega)
        · exact ih m (by omega)
  exact from_measure _ 0 (Nat.lt_succ_self _)

end

end Schedules

section Measures

variable {α : Type*} {l : List α} {a b : α} {k : ℕ}

/-- One term of a sum is replaced. -/
theorem sum_map_set (f : α → ℕ) (found : l[k]? = some a) : ((l.set k b).map f).sum + f a = (l.map f).sum + f b := by
  induction l generalizing k with
  | nil => simp at found
  | cons head rest ih =>
    cases k with
    | zero =>
      obtain rfl : head = a := by simpa using found
      simp only [List.set_cons_zero, List.map_cons, List.sum_cons]
      omega
    | succ k =>
      have later := ih (k := k) (by simpa using found)
      simp only [List.set_cons_succ, List.map_cons, List.sum_cons]
      omega

theorem sum_map_set_lt (f : α → ℕ) (found : l[k]? = some a) (below : f b < f a) :
    ((l.set k b).map f).sum < (l.map f).sum := by
  have replaced := sum_map_set (b := b) f found
  omega

/-- One term of a sum over a finite type is replaced. -/
theorem sum_change {ι : Type*} [Fintype ι] [DecidableEq ι] {f g : ι → ℕ} (i : ι) (same : ∀ j, j ≠ i → g j = f j) :
    ∑ j, g j + f i = ∑ j, f j + g i := by
  have others : ∑ j ∈ Finset.univ.erase i, g j = ∑ j ∈ Finset.univ.erase i, f j :=
    Finset.sum_congr rfl fun j member => same j (Finset.ne_of_mem_erase member)
  rw [← Finset.add_sum_erase _ g (Finset.mem_univ i), ← Finset.add_sum_erase _ f (Finset.mem_univ i), others]
  omega

end Measures

section LockOrder

variable {ι κ : Type*} [LinearOrder κ]

/-- If everybody waits for a lock above those they have, the ones who wait for each other are none. -/
theorem no_circular_wait {waiting : Finset ι} {has : ι → κ → Prop} {awaited : ι → κ}
    (ordered : ∀ i ∈ waiting, ∀ key, has i key → key < awaited i)
    (blocked : ∀ i ∈ waiting, ∃ j ∈ waiting, has j (awaited i)) : waiting = ∅ := by
  rcases waiting.eq_empty_or_nonempty with none | some
  · exact none
  · obtain ⟨i, member, greatest⟩ := waiting.exists_max_image awaited some
    obtain ⟨j, other, taken⟩ := blocked i member
    have above := ordered j other _ taken
    exact absurd (greatest j other) (not_le.mpr above)

end LockOrder

end Spotter.Library.Progress
