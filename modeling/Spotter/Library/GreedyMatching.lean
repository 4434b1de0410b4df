import Spotter.Library.FiniteMap

/-! # Greedy matching by key, with a fallback

Locals are matched with records one after the other. A local takes the record of its own key, if that is still in the
index, and otherwise the record it falls back on, whether that is still in the index or not; a matched record leaves the
index. If no record is the first choice of two locals, every order matches the same pairs; otherwise some order
matches a record twice.
-/

namespace Spotter.Library.GreedyMatching

variable {L R K : Type} [DecidableEq K] (localKey : L → K) (recordKey : R → K) (fallback : L → Option R) (index : FiniteMap K R)

/-- The record that a local is matched with. -/
def find (l : L) : Option R := (index.lookup (localKey l)).or (fallback l)

def remove : Option R → FiniteMap K R
  | some r => index.erase (recordKey r)
  | none => index

/-- The pairs matched in an order, and what is left of the index. -/
def run (index : FiniteMap K R) : List L → List (L × Option R) × FiniteMap K R
  | [] => ([], index)
  | l :: rest =>
    let found := find localKey fallback index l
    let later := run (remove recordKey index found) rest
    ((l, found) :: later.1, later.2)

/-- No record is matched with two locals. -/
def OneToOne (pairs : List (L × Option R)) : Prop :=
  ∀ l m r, (l, some r) ∈ pairs → (m, some r) ∈ pairs → l = m

/-- No record is the first choice of two locals. -/
def Unshared (locals : List L) : Prop :=
  ∀ l ∈ locals, ∀ m ∈ locals, ∀ r, find localKey fallback index l = some r → find localKey fallback index m = some r → l = m

/-- The index holds records under their keys, and a record is determined by its key. -/
structure Keyed (records : R → Prop) : Prop where
  own : ∀ k r, index.lookup k = some r → recordKey r = k ∧ records r
  fallen : ∀ l r, fallback l = some r → records r
  unique : ∀ r s, records r → records s → recordKey r = recordKey s → r = s

variable {localKey recordKey fallback} {index : FiniteMap K R} {records : R → Prop} {locals order : List L} {l m : L} {r : R}

section

variable (keyed : Keyed recordKey fallback index records)

include keyed

theorem Keyed.remove (found : Option R) :
    Keyed recordKey fallback (remove recordKey index found) records := by
  refine ⟨?_, keyed.fallen, keyed.unique⟩
  intro k s held
  cases found with
  | none => exact keyed.own k s held
  | some r => exact keyed.own k s (FiniteMap.lookup_erase_eq_some_iff.mp held).2

theorem Keyed.found (found : find localKey fallback index l = some r) :
    records r := by
  rcases Option.or_eq_some_iff.mp found with held | ⟨_, fallen⟩
  · exact (keyed.own _ r held).2
  · exact keyed.fallen l r fallen

/-- Matching one local changes no other local's record, unless the two share their first choice. -/
theorem find_remove (apart : ∀ r, find localKey fallback index l = some r → find localKey fallback index m ≠ some r) :
    find localKey fallback (remove recordKey index (find localKey fallback index l)) m = find localKey fallback index m := by
  cases taken : find localKey fallback index l with
  | none => rfl
  | some r =>
    simp only [remove, find, FiniteMap.lookup_erase_ite]
    split_ifs with same
    · cases held : index.lookup (localKey m) with
      | none => rfl
      | some s =>
        obtain ⟨own, known⟩ := keyed.own _ s held
        have equal : s = r := keyed.unique s r known (keyed.found taken) (own.trans same)
        refine absurd ?_ (apart r taken)
        rw [find, held, equal, Option.some_or]
    · rfl

/-- Without shared choices every local gets its first choice. -/
theorem run_pairs (distinct : order.Nodup) (unshared : Unshared localKey fallback index order) :
    (run localKey recordKey fallback index order).1 = order.map fun l => (l, find localKey fallback index l) := by
  induction order generalizing index with
  | nil => rfl
  | cons l rest ih =>
    rw [List.nodup_cons] at distinct
    have kept : ∀ m ∈ rest, find localKey fallback (remove recordKey index (find localKey fallback index l)) m =
        find localKey fallback index m := by
      intro m member
      refine find_remove keyed fun r own other => distinct.1 ?_
      rw [unshared l List.mem_cons_self m (List.mem_cons_of_mem l member) r own other]
      exact member
    have rest_unshared : Unshared localKey fallback (remove recordKey index (find localKey fallback index l)) rest := by
      intro m member n other r first second
      rw [kept m member] at first
      rw [kept n other] at second
      exact unshared m (List.mem_cons_of_mem l member) n (List.mem_cons_of_mem l other) r first second
    simp only [run, List.map_cons]
    rw [ih (keyed.remove _) distinct.2 rest_unshared, List.map_congr_left fun m member => congrArg (Prod.mk m) (kept m member)]

end

theorem perm_unshared (same : order.Perm locals) (unshared : Unshared localKey fallback index locals) :
    Unshared localKey fallback index order :=
  fun l member m other => unshared l (same.mem_iff.mp member) m (same.mem_iff.mp other)

/-- What is left of the index are the records that no matched pair holds. -/
theorem run_left (index : FiniteMap K R) (order : List L) (k : K) (s : R) :
    (run localKey recordKey fallback index order).2.lookup k = some s ↔
      k ∉ (run localKey recordKey fallback index order).1.filterMap (fun pair => pair.2.map recordKey) ∧ index.lookup k = some s := by
  induction order generalizing index with
  | nil => simp [run]
  | cons l rest ih =>
    simp only [run]
    generalize find localKey fallback index l = found
    rw [ih]
    cases found with
    | none => rfl
    | some r =>
      simp only [remove, FiniteMap.lookup_erase_ite, List.filterMap_cons, Option.map_some, List.mem_cons]
      by_cases same : k = recordKey r
      · simp [same]
      · simp [same]

/-- Without shared choices every order matches the same pairs and leaves the same records. -/
theorem run_order_free (keyed : Keyed recordKey fallback index records) (distinct : locals.Nodup)
    (unshared : Unshared localKey fallback index locals) (same : order.Perm locals) :
    (run localKey recordKey fallback index order).1.Perm (run localKey recordKey fallback index locals).1 ∧
      (run localKey recordKey fallback index order).2 = (run localKey recordKey fallback index locals).2 := by
  have pairs := run_pairs keyed (same.nodup_iff.mpr distinct) (perm_unshared same unshared)
  have expected := run_pairs keyed distinct unshared
  have perm : (run localKey recordKey fallback index order).1.Perm (run localKey recordKey fallback index locals).1 := by
    rw [pairs, expected]
    exact same.map _
  refine ⟨perm, ?_⟩
  refine Finmap.ext_lookup fun k => Option.ext fun s => ?_
  rw [run_left, run_left, (perm.filterMap _).mem_iff]

/-- Two locals that share their first choice are matched with the same record if the one whose own record it is comes first. -/
theorem run_shared (rest : List L) (first : find localKey fallback index l = some r) (second : find localKey fallback index m = some r)
    (unowned : index.lookup (localKey m) = none) :
    (l, some r) ∈ (run localKey recordKey fallback index (l :: m :: rest)).1 ∧
      (m, some r) ∈ (run localKey recordKey fallback index (l :: m :: rest)).1 := by
  have still : find localKey fallback (remove recordKey index (some r)) m = some r := by
    rw [find, unowned, Option.none_or] at second
    rw [find, remove, FiniteMap.lookup_erase_ite, unowned, ite_self, Option.none_or, second]
  simp only [run, first, still]
  exact ⟨List.mem_cons_self, List.mem_cons_of_mem _ List.mem_cons_self⟩

/-- Every order matches one to one exactly when no record is the first choice of two locals. -/
theorem oneToOne_iff (keyed : Keyed recordKey fallback index records) (distinct : (locals.map localKey).Nodup) :
    (∀ order : List L, order.Perm locals → OneToOne (run localKey recordKey fallback index order).1) ↔
      Unshared localKey fallback index locals := by
  have nodup : locals.Nodup := distinct.of_map
  constructor
  · intro every l member m other r first second
    by_contra apart
    -- At most one of the two locals owns the record; the order lets that one come first.
    have ordered : ∀ a b, a ∈ locals → b ∈ locals → a ≠ b → find localKey fallback index a = some r →
        find localKey fallback index b = some r → index.lookup (localKey b) = none → False := by
      intro a b among another different choice choice' unowned
      classical
      have perm : (a :: b :: (locals.erase a).erase b).Perm locals := by
        refine (List.Perm.cons a ?_).trans (List.perm_cons_erase among).symm
        exact (List.perm_cons_erase ((List.mem_erase_of_ne different.symm).mpr another)).symm
      obtain ⟨held, again⟩ := run_shared ((locals.erase a).erase b) choice choice' unowned
      exact different (every _ perm a b r held again)
    cases owned : index.lookup (localKey m) with
    | none => exact ordered l m member other apart first second owned
    | some s =>
      refine ordered m l other member (Ne.symm apart) second first ?_
      rw [find, owned, Option.some_or, Option.some_inj] at second
      subst second
      by_contra held
      obtain ⟨t, mine⟩ := Option.ne_none_iff_exists'.mp held
      have same : t = s := by
        rw [find, mine, Option.some_or, Option.some_inj] at first
        exact first
      subst same
      have keys : localKey l = localKey m := ((keyed.own _ _ mine).1.symm.trans (keyed.own _ _ owned).1)
      exact apart (List.inj_on_of_nodup_map distinct member other keys)
  · intro unshared order perm l m r first second
    rw [run_pairs keyed (perm.nodup_iff.mpr nodup) (perm_unshared perm unshared)] at first second
    obtain ⟨a, among, pair⟩ := List.mem_map.mp first
    obtain ⟨b, another, pair'⟩ := List.mem_map.mp second
    obtain ⟨rfl, choice⟩ := Prod.mk.inj pair
    obtain ⟨rfl, choice'⟩ := Prod.mk.inj pair'
    exact unshared a (perm.mem_iff.mp among) b (perm.mem_iff.mp another) r choice choice'

end Spotter.Library.GreedyMatching
