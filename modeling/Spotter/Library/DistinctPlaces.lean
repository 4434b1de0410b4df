import Mathlib.Data.List.Nodup

/-! # Tasks that write distinct places

A list of tasks is done one after the other on a state that is read place by place. A task changes its own places only, and no
place belongs to two tasks. Then each task finds its places as they were at the start and leaves them as they are at the end,
so the order of the tasks does not matter.
-/

namespace Spotter.Library

variable {σ τ ι β : Type*} (read : σ → ι → β) (write : σ → τ → σ) (places : τ → List ι)

/-- A task changes its own places only. -/
def WritesOwnPlaces : Prop := ∀ s t i, i ∉ places t → read (write s t) i = read s i

variable {read write places}

/-- The places of no task keep their value. -/
theorem WritesOwnPlaces.foldl_apart (own : WritesOwnPlaces read write places) {tasks : List τ} (s : σ) {i : ι}
    (apart : i ∉ tasks.flatMap places) : read (tasks.foldl write s) i = read s i := by
  induction tasks generalizing s with
  | nil => rfl
  | cons t rest ih =>
    rw [List.flatMap_cons, List.mem_append, not_or] at apart
    rw [List.foldl_cons, ih (write s t) apart.2, own s t i apart.1]

/-- A task finds its places as they were at the start and leaves them as they are at the end. -/
theorem WritesOwnPlaces.foldl_mem (own : WritesOwnPlaces read write places) {tasks : List τ} (s : σ)
    (distinct : (tasks.flatMap places).Nodup) {t : τ} (member : t ∈ tasks) :
    ∃ found, (∀ i ∈ places t, read found i = read s i) ∧
      ∀ i ∈ places t, read (tasks.foldl write s) i = read (write found t) i := by
  induction tasks generalizing s with
  | nil => cases member
  | cons first rest ih =>
    rw [List.flatMap_cons, List.nodup_append] at distinct
    obtain ⟨_, later, apart⟩ := distinct
    rw [List.foldl_cons]
    rcases List.mem_cons.mp member with rfl | among
    · refine ⟨s, fun _ _ => rfl, fun i place => own.foldl_apart _ ?_⟩
      exact fun again => apart i place i again rfl
    · obtain ⟨found, before, behind⟩ := ih (write s first) later among
      refine ⟨found, fun i place => ?_, behind⟩
      rw [before i place]
      refine own s first i fun again => ?_
      exact apart i again i (List.mem_flatMap.mpr ⟨t, among, place⟩) rfl

section Single

variable {place : τ → ι} (own : WritesOwnPlaces read write fun t => [place t]) {tasks : List τ} (s : σ)

include own

theorem WritesOwnPlaces.foldl_single_apart {i : ι} (apart : i ∉ tasks.map place) : read (tasks.foldl write s) i = read s i := by
  rw [List.map_eq_flatMap] at apart
  exact own.foldl_apart s apart

/-- The case of one place for each task. -/
theorem WritesOwnPlaces.foldl_single (distinct : (tasks.map place).Nodup) {t : τ} (member : t ∈ tasks) :
    ∃ found, read found (place t) = read s (place t) ∧ read (tasks.foldl write s) (place t) = read (write found t) (place t) := by
  rw [List.map_eq_flatMap] at distinct
  obtain ⟨found, before, behind⟩ := own.foldl_mem s distinct member
  have here : place t ∈ [place t] := List.mem_singleton_self _
  exact ⟨found, before _ here, behind _ here⟩

end Single

end Spotter.Library
