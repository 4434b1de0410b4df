import Mathlib.Data.List.Induction
import Mathlib.Data.List.Nodup

/-! # Entries that occur again

The entries of a list that occur more than once, each at the place of its second occurrence.
-/

namespace Spotter.Library

variable {α : Type*} [DecidableEq α]

/-- An entry is taken where exactly one equal entry stands before it. -/
def secondOccurrences (entries : List α) : List α :=
  (List.range entries.length).filterMap fun i =>
    entries[i]?.filter fun entry => decide ((entries.take i).count entry = 1)

theorem secondOccurrences_append_singleton (entries : List α) (last : α) : secondOccurrences (entries ++ [last]) =
      secondOccurrences entries ++ if entries.count last = 1 then [last] else [] := by
  rw [secondOccurrences, List.length_append, List.length_singleton, List.range_succ, List.filterMap_append]
  congr 1
  · -- The places before the last one see the same entries before them.
    refine List.filterMap_congr fun i place => ?_
    have before : i < entries.length := List.mem_range.mp place
    rw [List.getElem?_append_left before, List.take_append_of_le_length (Nat.le_of_lt before)]
  · have place : (entries ++ [last])[entries.length]? = some last := List.getElem?_concat_length
    have before : (entries ++ [last]).take entries.length = entries := List.take_left
    rw [List.filterMap_cons, place, before]
    by_cases once : entries.count last = 1
    · simp [Option.filter, once]
    · simp [Option.filter, once]

theorem mem_secondOccurrences {entries : List α} {entry : α} : entry ∈ secondOccurrences entries ↔ 2 ≤ entries.count entry := by
  induction entries using List.reverseRecOn with
  | nil => simp [secondOccurrences]
  | append_singleton entries last ih =>
    rw [secondOccurrences_append_singleton, List.mem_append, ih, List.count_append, List.count_singleton]
    rcases eq_or_ne last entry with rfl | apart
    · rw [beq_self_eq_true, if_pos rfl]
      split_ifs with once
      · simp [once]
      · rw [or_iff_left List.not_mem_nil]
        omega
    · rw [if_neg fun same => apart (beq_iff_eq.mp same), Nat.add_zero, or_iff_left]
      split_ifs
      · exact fun added => apart (List.mem_singleton.mp added).symm
      · exact List.not_mem_nil

theorem nodup_secondOccurrences (entries : List α) : (secondOccurrences entries).Nodup := by
  induction entries using List.reverseRecOn with
  | nil => exact List.nodup_nil
  | append_singleton entries last ih =>
    rw [secondOccurrences_append_singleton]
    split_ifs with once
    · refine List.nodup_append.mpr ⟨ih, List.nodup_singleton last, ?_⟩
      rintro entry taken _ added rfl
      obtain rfl := List.mem_singleton.mp added
      have again := mem_secondOccurrences.mp taken
      omega
    · rwa [List.append_nil]

end Spotter.Library
