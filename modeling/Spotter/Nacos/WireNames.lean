import Mathlib.Data.String.Basic
import Spotter.Nacos.Wire

/-! # Names that survive sanitising

A wire scope is what stays of a text between unusable characters, with dashes in the place of the unusable ones inside.
-/

namespace Spotter.Nacos

variable {c : Char}

section Trim

variable {drop : Char → Bool} {text inner before after : List Char}

theorem trimBoth_split (drop : Char → Bool) (text : List Char) :
    ∃ before after, text = before ++ trimBoth drop text ++ after ∧ ∀ c ∈ before ++ after, drop c = true := by
  refine ⟨text.takeWhile drop, (text.dropWhile drop).rtakeWhile drop, ?_, ?_⟩
  · rw [trimBoth, List.append_assoc, List.rdropWhile_append_rtakeWhile, List.takeWhile_append_dropWhile]
  · intro c member
    rcases List.mem_append.mp member with front | back
    · exact List.mem_takeWhile_imp front
    · exact List.mem_rtakeWhile_imp back

/-- Neither end of a trimmed text would be dropped. -/
theorem trimBoth_ends (atEnd : (trimBoth drop text).head? = some c ∨ (trimBoth drop text).getLast? = some c) :
    drop c = false := by
  rw [trimBoth] at atEnd
  rcases atEnd with first | last
  · obtain ⟨rest, split⟩ := List.rdropWhile_prefix drop (text.dropWhile drop)
    have front : (text.dropWhile drop).head? = some c := by rw [← split, List.head?_append, first, Option.some_or]
    have stays := List.head?_dropWhile_not drop text
    rw [front] at stays
    simpa using stays
  · have nonempty : (text.dropWhile drop).rdropWhile drop ≠ [] := by
      intro empty
      rw [empty] at last
      cases last
    rw [List.getLast?_eq_some_getLast nonempty] at last
    cases last
    simpa using List.rdropWhile_last_not drop (text.dropWhile drop) nonempty

/-- Dropped characters around a text with ends that stay are exactly what is trimmed. -/
theorem trimBoth_of_split (dropped : ∀ c ∈ before ++ after, drop c = true)
    (ends : ∀ c, inner.head? = some c ∨ inner.getLast? = some c → drop c = false) :
    trimBoth drop (before ++ inner ++ after) = inner := by
  have front : ∀ c ∈ before, drop c = true := fun c member => dropped c (List.mem_append_left after member)
  have back : ∀ c ∈ after.reverse, drop c = true :=
    fun c member => dropped c (List.mem_append_right before (List.mem_reverse.mp member))
  rw [trimBoth, List.append_assoc, List.dropWhile_append_of_pos front]
  cases inner with
  | nil =>
    rw [List.nil_append, List.rdropWhile_eq_nil_iff]
    intro c member
    exact dropped c (List.mem_append_right before ((List.dropWhile_sublist drop).subset member))
  | cons first rest =>
    rw [List.cons_append, List.dropWhile_cons_of_neg (by simp [ends first (.inl rfl)]), ← List.cons_append, List.rdropWhile,
      List.reverse_append, List.dropWhile_append_of_pos back]
    refine List.rdropWhile_eq_self_iff.mpr ?_
    intro nonempty
    simp [ends _ (.inr (List.getLast?_eq_some_getLast nonempty))]

end Trim

/-- A character that a wire scope keeps and does not trim. -/
def Usable (c : Char) : Prop := wireSafe c = true ∧ c ≠ '-'

instance (c : Char) : Decidable (Usable c) := inferInstanceAs (Decidable (_ ∧ _))

/-- The text is the name, up to unusable characters around it and dashes in the place of those inside. -/
def Spells (value name : String) : Prop :=
  ∃ before inner after, value.toList = before ++ inner ++ after ∧ (∀ c ∈ before ++ after, ¬Usable c) ∧
    (inner.map fun c => if wireSafe c then c else '-') = name.toList

/-- No dash is at an end of the name. -/
def Undashed (name : String) : Prop := ∀ c, name.toList.head? = some c ∨ name.toList.getLast? = some c → c ≠ '-'

theorem not_isSpace_of_wireSafe (safe : wireSafe c = true) : isSpace c = false := by
  have code : (97 ≤ c.toNat ∧ c.toNat ≤ 122) ∨ (65 ≤ c.toNat ∧ c.toNat ≤ 90) ∨ (48 ≤ c.toNat ∧ c.toNat ≤ 57) ∨
      c.toNat = 45 ∨ c.toNat = 95 ∨ c.toNat = 46 := by
    simp only [wireSafe, decide_eq_true_eq] at safe
    rcases safe with ⟨low, high⟩ | ⟨low, high⟩ | ⟨low, high⟩ | rfl | rfl | rfl
    · exact .inl ⟨low, high⟩
    · exact .inr (.inl ⟨low, high⟩)
    · exact .inr (.inr (.inl ⟨low, high⟩))
    · exact .inr (.inr (.inr (.inl rfl)))
    · exact .inr (.inr (.inr (.inr (.inl rfl))))
    · exact .inr (.inr (.inr (.inr (.inr rfl))))
  simp only [isSpace, List.mem_cons, List.not_mem_nil, or_false, decide_eq_false_iff_not]
  omega

/-- Exactly the unusable characters become dashes. -/
theorem dash_iff : (if wireSafe c then c else '-') = '-' ↔ ¬Usable c := by
  unfold Usable
  split_ifs with safe
  · simp [safe]
  · simp [safe]

theorem spells_sanitizeWireScope (value : String) : Spells value (sanitizeWireScope value) := by
  obtain ⟨blanks, moreBlanks, split, blank⟩ := trimBoth_split isSpace value.toList
  obtain ⟨dashes, moreDashes, mapped, dash⟩ := trimBoth_split (fun c => decide (c = '-'))
    ((trimBoth isSpace value.toList).map fun c => if wireSafe c then c else '-')
  obtain ⟨front, after, inside, mappedFront, rfl⟩ := List.map_eq_append_iff.mp mapped
  obtain ⟨before, inner, rfl, rfl, mappedInner⟩ := List.map_eq_append_iff.mp mappedFront
  refine ⟨blanks ++ before, inner, after ++ moreBlanks, ?_, ?_, ?_⟩
  · rw [split, inside]
    simp only [List.append_assoc]
  · have space : ∀ c ∈ blanks ++ moreBlanks, ¬Usable c := by
      intro c member usable
      have isBlank := blank c member
      rw [not_isSpace_of_wireSafe usable.1] at isBlank
      cases isBlank
    have trimmed : ∀ c ∈ before ++ after, ¬Usable c := by
      intro c member
      refine dash_iff.mp (of_decide_eq_true (dash _ ?_))
      rw [← List.map_append]
      exact List.mem_map_of_mem member
    simp only [List.mem_append] at space trimmed ⊢
    rintro c ((atFront | among) | (among | atBack))
    · exact space c (.inl atFront)
    · exact trimmed c (.inl among)
    · exact trimmed c (.inr among)
    · exact space c (.inr atBack)
  · rw [mappedInner, sanitizeWireScope, String.toList_ofList]

theorem undashed_sanitizeWireScope (value : String) : Undashed (sanitizeWireScope value) := by
  intro c atEnd
  rw [sanitizeWireScope, String.toList_ofList] at atEnd
  exact of_decide_eq_false (trimBoth_ends atEnd)

variable {value name : String}

/-- Without dashes at its ends, the name that a text spells is what stays of the text between unusable characters. -/
theorem Spells.toList_eq (spells : Spells value name) (undashed : Undashed name) :
    name.toList = (trimBoth (fun c => decide (¬Usable c)) value.toList).map fun c => if wireSafe c then c else '-' := by
  obtain ⟨before, inner, after, split, unusable, mapped⟩ := spells
  rw [split, trimBoth_of_split (fun c member => decide_eq_true (unusable c member)), mapped]
  intro c atEnd
  rw [decide_eq_false_iff_not, not_not]
  by_contra dashed
  refine undashed '-' ?_ rfl
  rw [← mapped, List.head?_map, List.getLast?_map]
  rcases atEnd with first | last
  · exact .inl (by rw [first, Option.map_some, dash_iff.mpr dashed])
  · exact .inr (by rw [last, Option.map_some, dash_iff.mpr dashed])

/-- A wire scope is the undashed name that its text spells. -/
theorem sanitizeWireScope_eq_iff :
    sanitizeWireScope value = name ↔ Spells value name ∧ Undashed name := by
  constructor
  · rintro rfl
    exact ⟨spells_sanitizeWireScope value, undashed_sanitizeWireScope value⟩
  · rintro ⟨spells, undashed⟩
    refine String.toList_injective ?_
    rw [spells.toList_eq undashed, (spells_sanitizeWireScope value).toList_eq (undashed_sanitizeWireScope value)]

/-- The text has a usable character. -/
def Nameable (value : String) : Prop := ∃ c ∈ value.toList, Usable c

/-- A wire scope keeps a name for exactly the texts with a usable character. -/
theorem sanitizeWireScope_ne_iff : sanitizeWireScope value ≠ "" ↔ Nameable value := by
  have emptied : sanitizeWireScope value = "" ↔ ∀ c ∈ value.toList, ¬Usable c := by
    rw [sanitizeWireScope_eq_iff]
    constructor
    · rintro ⟨⟨before, inner, after, split, unusable, mapped⟩, _⟩
      cases List.map_eq_nil_iff.mp mapped
      rw [split, List.append_nil]
      exact unusable
    · intro unusable
      refine ⟨⟨value.toList, [], [], ?_, ?_, rfl⟩, ?_⟩
      · simp
      · simpa using unusable
      · rintro c (first | last)
        · cases first
        · cases last
  rw [ne_eq, emptied]
  simp only [Nameable, not_forall, not_not, exists_prop]

/-- A text spells itself if a wire scope keeps each of its characters. -/
theorem spells_self_iff : Spells name name ↔ ∀ c ∈ name.toList, wireSafe c = true := by
  constructor
  · rintro ⟨_, inner, _, _, _, mapped⟩ c member
    rw [← mapped] at member
    obtain ⟨original, _, rfl⟩ := List.mem_map.mp member
    split_ifs with safe
    · exact safe
    · decide
  · intro safe
    refine ⟨[], name.toList, [], ?_, ?_, ?_⟩
    · simp
    · simp
    · exact (List.map_congr_left fun c member => if_pos (safe c member)).trans (List.map_id _)

end Spotter.Nacos
