import Mathlib.Data.List.Induction

/-! # Runs as histories

A run of a system whose transitions are functions is determined by its list of labels, which is
called its history; choices of the environment are part of the labels. A condition on a run speaks
about each step together with the history before it.
-/

namespace Spotter.Library.History

variable {α σ : Type*}

/-- Every step of the history satisfies a condition on the steps before it and itself. -/
def AllSteps (condition : List α → α → Prop) (history : List α) : Prop :=
  ∀ before step rest, history = before ++ step :: rest → condition before step

theorem allSteps_nil (condition : List α → α → Prop) : AllSteps condition [] := by
  intro before step rest split
  simp at split

variable {condition : List α → α → Prop} {history : List α}

theorem allSteps_append {step : α} :
    AllSteps condition (history ++ [step]) ↔ AllSteps condition history ∧ condition history step := by
  constructor
  · intro all
    refine ⟨?_, all history step [] rfl⟩
    rintro before earlier rest rfl
    exact all before earlier (rest ++ [step]) (by simp)
  · rintro ⟨earlier, last⟩ before current rest split
    rcases List.eq_nil_or_concat rest with rfl | ⟨initial, final, rfl⟩
    · obtain ⟨rfl, same⟩ := List.append_inj' split rfl
      cases same
      exact last
    · rw [List.concat_eq_append, ← List.cons_append, ← List.append_assoc] at split
      obtain ⟨rfl, _⟩ := List.append_inj' split rfl
      exact earlier before current initial rfl

theorem allSteps_cons {step : α} {rest : List α} :
    AllSteps condition (step :: rest) ↔ condition [] step ∧ AllSteps (fun before => condition (step :: before)) rest := by
  constructor
  · intro all
    refine ⟨all [] step rest rfl, ?_⟩
    rintro before later tail rfl
    exact all (step :: before) later tail rfl
  · rintro ⟨first, others⟩ before current tail split
    cases before with
    | nil =>
      cases split
      exact first
    | cons head before =>
      rw [List.cons_append, List.cons.injEq] at split
      obtain ⟨rfl, rfl⟩ := split
      exact others before current tail rfl

instance decidableAllSteps {condition : List α → α → Prop} [∀ before step, Decidable (condition before step)] :
    (history : List α) → Decidable (AllSteps condition history)
  | [] => isTrue (allSteps_nil condition)
  | step :: rest =>
    have : Decidable (AllSteps (fun before => condition (step :: before)) rest) := decidableAllSteps rest
    decidable_of_iff _ allSteps_cons.symm

/-- A property of histories holds of every run whose steps all meet a condition, once it holds at
the start and each such step preserves it. -/
theorem invariant (property : List α → Prop) (start : property [])
    (next : ∀ history step, condition history step → property history → property (history ++ [step]))
    (all : AllSteps condition history) : property history := by
  induction history using List.reverseRecOn with
  | nil => exact start
  | append_singleton earlier step ih =>
    obtain ⟨before, last⟩ := allSteps_append.mp all
    exact next earlier step last (ih before)

/-- What holds at the start and not at the end is lost at some step. -/
theorem exists_step_of_lost (property : List α → Prop) (start : property []) (lost : ¬property history) :
    ∃ before step rest, history = before ++ step :: rest ∧ property before ∧ ¬property (before ++ [step]) := by
  by_contra kept
  push Not at kept
  have all : AllSteps (fun before step => property before → property (before ++ [step])) history :=
    fun before step rest split => kept before step rest split
  exact lost (invariant property start (fun _ _ keeps => keeps) all)

end Spotter.Library.History
