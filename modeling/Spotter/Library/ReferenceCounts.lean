import Spotter.Library.FiniteMap

/-! # Tables of reference-counted entries

A table makes an entry for a key on demand and forgets it when nobody refers to it any more. Entries are
numbered in the order in which they were made and a number is never used again, so a number stands for a
pointer. As long as a reference is held, every reference to its key is to the same entry.
-/

namespace Spotter.Library

/-- The entries of the keys in use, and the number of references to every entry ever made. -/
structure RefTable (K : Type*) where
  current : FiniteMap K ℕ := ∅
  refs : List ℕ := []

namespace RefTable

variable {K : Type*} [DecidableEq K] (table : RefTable K)

/-- One more reference to the entry of a key. -/
def acquireOne (key : K) : RefTable K × ℕ :=
  match table.current.lookup key with
  | some entry => ({ table with refs := table.refs.modify entry (· + 1) }, entry)
  | none => (⟨table.current.insert key table.refs.length, table.refs ++ [1]⟩, table.refs.length)

/-- References to the entries of several keys. -/
def acquire (table : RefTable K) : List K → RefTable K × List ℕ
  | [] => (table, [])
  | key :: rest =>
    let (next, entry) := table.acquireOne key
    let (last, entries) := next.acquire rest
    (last, entry :: entries)

/-- One reference less; the last one takes the entry out of the table, if it is still in it. -/
def releaseOne (reference : K × ℕ) : RefTable K :=
  let refs := table.refs.modify reference.2 (· - 1)
  { refs := refs
    current := if refs[reference.2]? = some 0 ∧ table.current.lookup reference.1 = some reference.2 then
        table.current.erase reference.1
      else table.current }

def release (references : List (K × ℕ)) : RefTable K := references.foldl releaseOne table

/-- The table counts exactly the references that are held, and finds each under its key. -/
structure Counts (held : Multiset (K × ℕ)) : Prop where
  current : ∀ reference ∈ held, table.current.lookup reference.1 = some reference.2
  counted : ∀ entry count, table.refs[entry]? = some count → count = held.countP fun reference => reference.2 = entry
  made : ∀ key entry, table.current.lookup key = some entry → entry < table.refs.length

variable {table : RefTable K} {held : Multiset (K × ℕ)}

theorem counts_empty : Counts ({} : RefTable K) 0 := by
  refine ⟨?_, ?_, ?_⟩
  · intro reference nowhere
    exact absurd nowhere (Multiset.notMem_zero reference)
  · intro entry count found
    rw [List.getElem?_nil] at found
    cases found
  · intro key entry found
    rw [Finmap.lookup_empty] at found
    cases found

/-- Two references to one key are to one entry. -/
theorem Counts.same_entry (counts : table.Counts held) {key : K} {entry entry' : ℕ} (member : (key, entry) ∈ held)
    (member' : (key, entry') ∈ held) : entry = entry' :=
  Option.some.inj ((counts.current _ member).symm.trans (counts.current _ member'))

/-- An entry that was not made yet has no references. -/
theorem Counts.fresh (counts : table.Counts held) :
    held.countP (fun reference => reference.2 = table.refs.length) = 0 := by
  rw [Multiset.countP_eq_zero]
  intro reference member same
  have bound := counts.made _ _ (counts.current reference member)
  omega

theorem Counts.acquireOne (counts : table.Counts held) (key : K) :
    (table.acquireOne key).1.Counts ((key, (table.acquireOne key).2) ::ₘ held) := by
  cases known : table.current.lookup key with
  | some entry =>
    simp only [RefTable.acquireOne, known]
    refine ⟨?_, ?_, ?_⟩
    · intro reference member
      rcases Multiset.mem_cons.mp member with rfl | earlier
      · exact known
      · exact counts.current reference earlier
    · intro other count found
      rw [List.getElem?_modify] at found
      obtain ⟨before, there, rfl⟩ := Option.map_eq_some_iff.mp found
      have counted := counts.counted other before there
      rw [Multiset.countP_cons]
      split_ifs with same
      · omega
      · simpa using counted
    · intro other entry found
      rw [List.length_modify]
      exact counts.made other entry found
  | none =>
    simp only [RefTable.acquireOne, known]
    refine ⟨?_, ?_, ?_⟩
    · intro reference member
      rw [FiniteMap.lookup_insert_ite]
      rcases Multiset.mem_cons.mp member with rfl | earlier
      · rw [if_pos rfl]
      · have present := counts.current reference earlier
        rw [if_neg, present]
        rintro rfl
        rw [known] at present
        cases present
    · intro other count found
      rw [Multiset.countP_cons]
      rcases Nat.lt_trichotomy other table.refs.length with below | here | above
      · rw [List.getElem?_append_left below] at found
        rw [if_neg (by omega), counts.counted other count found, add_zero]
      · subst here
        rw [List.getElem?_append_right le_rfl, Nat.sub_self] at found
        cases found
        rw [if_pos rfl, counts.fresh]
      · rw [List.getElem?_eq_none (by rw [List.length_append, List.length_singleton]; omega)] at found
        cases found
    · intro other entry found
      rw [List.length_append, List.length_singleton]
      rcases FiniteMap.lookup_insert_eq_some_iff.mp found with ⟨_, rfl⟩ | ⟨_, before⟩
      · omega
      · have bound := counts.made other entry before
        omega

theorem length_acquire (table : RefTable K) (keys : List K) : (table.acquire keys).2.length = keys.length := by
  induction keys generalizing table with
  | nil => rfl
  | cons key rest ih =>
    rw [acquire, List.length_cons, List.length_cons]
    exact congrArg (· + 1) (ih _)

theorem Counts.acquire (counts : table.Counts held) (keys : List K) :
    (table.acquire keys).1.Counts (↑(keys.zip (table.acquire keys).2) + held) := by
  induction keys generalizing table held with
  | nil =>
    rw [RefTable.acquire, List.zip_nil_left, Multiset.coe_nil, zero_add]
    exact counts
  | cons key rest ih =>
    have next := ih (counts.acquireOne key)
    rw [RefTable.acquire, List.zip_cons_cons, ← Multiset.cons_coe, Multiset.cons_add, ← Multiset.add_cons]
    exact next

theorem Counts.releaseOne {reference : K × ℕ} (counts : table.Counts (reference ::ₘ held)) :
    (table.releaseOne reference).Counts held := by
  have own := counts.current reference (Multiset.mem_cons_self _ _)
  have later : ∀ entry count, (table.refs.modify reference.2 (· - 1))[entry]? = some count →
      count = held.countP fun other => other.2 = entry := by
    intro entry count found
    rw [List.getElem?_modify] at found
    obtain ⟨before, there, rfl⟩ := Option.map_eq_some_iff.mp found
    have counted := counts.counted entry before there
    rw [Multiset.countP_cons] at counted
    split_ifs at counted ⊢ with same
    · omega
    · simpa using counted
  refine ⟨?_, later, ?_⟩
  · intro other member
    have present := counts.current other (Multiset.mem_cons_of_mem member)
    simp only [RefTable.releaseOne]
    split_ifs with last
    · -- Nobody refers to the entry that goes, so the other reference is to another key.
      rw [FiniteMap.lookup_erase_ite, if_neg, present]
      intro sameKey
      rw [sameKey, own] at present
      have none := later _ _ last.1
      rw [eq_comm, Multiset.countP_eq_zero] at none
      exact none other member (Option.some.inj present).symm
    · exact present
  · intro key entry found
    simp only [RefTable.releaseOne] at found ⊢
    rw [List.length_modify]
    split_ifs at found
    · exact counts.made key entry (FiniteMap.lookup_erase_eq_some_iff.mp found).2
    · exact counts.made key entry found

theorem Counts.release {references : List (K × ℕ)} (counts : table.Counts (↑references + held)) :
    (table.release references).Counts held := by
  induction references generalizing table with
  | nil =>
    rw [Multiset.coe_nil, zero_add] at counts
    exact counts
  | cons reference rest ih =>
    rw [← Multiset.cons_coe, Multiset.cons_add] at counts
    exact ih counts.releaseOne

/-- A table that nobody refers to may forget all its entries. -/
theorem Counts.clear (counts : table.Counts 0) : ({ table with current := ∅ } : RefTable K).Counts 0 := by
  refine ⟨?_, counts.counted, ?_⟩
  · intro reference nowhere
    exact absurd nowhere (Multiset.notMem_zero reference)
  · intro key entry found
    rw [Finmap.lookup_empty] at found
    cases found

/-! ## Entries of different keys -/

/-- Different keys have different entries. -/
def Distinct (table : RefTable K) : Prop :=
  ∀ key key' entry, table.current.lookup key = some entry → table.current.lookup key' = some entry → key = key'

theorem distinct_empty (refs : List ℕ) : Distinct ({ refs := refs } : RefTable K) := by
  intro key key' entry found
  rw [Finmap.lookup_empty] at found
  cases found

section

variable (distinct : table.Distinct)

include distinct

theorem Distinct.acquireOne (counts : table.Counts held) (key : K) :
    (table.acquireOne key).1.Distinct := by
  cases known : table.current.lookup key with
  | some entry =>
    simp only [RefTable.acquireOne, known]
    exact distinct
  | none =>
    simp only [RefTable.acquireOne, known]
    intro first second entry found found'
    -- The new entry has a number that no other key's entry has.
    rcases FiniteMap.lookup_insert_eq_some_iff.mp found with ⟨one, rfl⟩ | ⟨_, before⟩
    · rcases FiniteMap.lookup_insert_eq_some_iff.mp found' with ⟨two, _⟩ | ⟨_, before'⟩
      · rw [one, two]
      · exact absurd (counts.made second _ before') (Nat.lt_irrefl _)
    · rcases FiniteMap.lookup_insert_eq_some_iff.mp found' with ⟨_, rfl⟩ | ⟨_, before'⟩
      · exact absurd (counts.made first _ before) (Nat.lt_irrefl _)
      · exact distinct first second entry before before'

theorem Distinct.acquire (counts : table.Counts held) (keys : List K) :
    (table.acquire keys).1.Distinct := by
  induction keys generalizing table held with
  | nil => exact distinct
  | cons key rest ih => exact ih (distinct.acquireOne counts key) (counts.acquireOne key)

theorem Distinct.releaseOne (reference : K × ℕ) : (table.releaseOne reference).Distinct := by
  intro first second entry found found'
  simp only [RefTable.releaseOne] at found found'
  split_ifs at found found'
  · exact distinct first second entry (FiniteMap.lookup_erase_eq_some_iff.mp found).2
      (FiniteMap.lookup_erase_eq_some_iff.mp found').2
  · exact distinct first second entry found found'

theorem Distinct.release (references : List (K × ℕ)) : (table.release references).Distinct := by
  induction references generalizing table with
  | nil => exact distinct
  | cons reference rest ih => exact ih (distinct.releaseOne reference)

end

/-! ## References of several clients -/

section Clients

variable {C H : Type*} (share : C → List (H × ℕ)) {clients : List C} {client : C} {index : ℕ}

/-- The references that the clients hold together. -/
def heldBy (clients : List C) : Multiset (H × ℕ) := ↑(clients.flatMap share)

theorem mem_heldBy {reference : H × ℕ} (member : client ∈ clients) (own : reference ∈ share client) :
    reference ∈ heldBy share clients :=
  Multiset.mem_coe.mpr (List.mem_flatMap.mpr ⟨client, member, own⟩)

/-- A client that holds nothing can join. -/
theorem heldBy_append (idle : share client = []) : heldBy share (clients ++ [client]) = heldBy share clients := by
  rw [heldBy, List.flatMap_append, List.flatMap_singleton, idle, List.append_nil]
  rfl

theorem heldBy_eq_zero (idle : ∀ client ∈ clients, share client = []) : heldBy share clients = 0 := by
  rw [heldBy, List.flatMap_eq_nil_iff.mpr idle]
  rfl

theorem heldBy_cons (client : C) (clients : List C) :
    heldBy share (client :: clients) = ↑(share client) + heldBy share clients := by
  rw [heldBy, List.flatMap_cons, ← Multiset.coe_add]
  rfl

/-- What one client holds can be replaced. -/
theorem heldBy_set (found : clients[index]? = some client) : ∃ others, heldBy share clients = ↑(share client) + others ∧
      ∀ next, heldBy share (clients.set index next) = ↑(share next) + others := by
  induction clients generalizing index with
  | nil =>
    rw [List.getElem?_nil] at found
    cases found
  | cons head rest ih =>
    cases index with
    | zero =>
      cases found
      exact ⟨heldBy share rest, heldBy_cons share client rest, fun next => heldBy_cons share next rest⟩
    | succ index =>
      rw [List.getElem?_cons_succ] at found
      obtain ⟨others, before, after⟩ := ih found
      refine ⟨↑(share head) + others, ?_, fun next => ?_⟩
      · rw [heldBy_cons, before, add_left_comm]
      · rw [List.set_cons_succ, heldBy_cons, after, add_left_comm]

end Clients

end RefTable

end Spotter.Library
