import Spotter.Worker.ConcurrentSink

/-! # Who can be at the wrapped sink at the same time

The key locks are made on demand, counted and forgotten, so it is not their names that exclude each other
but the entries that a call found when it arrived. Every call that refers to a key refers to the same
entry, and therefore two calls that talk to the wrapped sink at the same time are incremental pushes of
different identities.
-/

namespace Spotter.Worker

open Library Domain Ports

variable {gate : Gate} {c d next : Call} {index : ℕ} {env : SinkEnv}

namespace Call

/-- What the call took along to the wrapped sink. -/
def ticket (c : Call) : Option Ticket :=
  match c.phase with
  | .calling ticket => some ticket
  | .acknowledged ticket => some ticket
  | _ => none

/-- The key locks fit the phase. -/
def Formed (c : Call) : Prop :=
  match c.phase with
  | .arriving => c.entries = [] ∧ c.locked = 0
  | .entered => c.entries = [] ∧ c.locked = 0
  | .locking => c.op.exclusive = false ∧ c.entries.length = c.op.keys.length ∧ c.locked ≤ c.entries.length
  | .calling _ => c.entries.length = c.op.keys.length ∧ c.locked = c.entries.length
  | .acknowledged _ => c.entries.length = c.op.keys.length ∧ c.locked = c.entries.length
  | .unlocking _ => True
  | .leaving _ => c.entries = [] ∧ c.locked = 0
  | .finished _ => c.entries = [] ∧ c.locked = 0

/-- The calls do not get in each other's way: they share the gate only as incremental pushes, and no key lock. -/
def Apart (c d : Call) : Prop :=
  (c.inGate = true → d.inGate = true → c.op.exclusive = false ∧ d.op.exclusive = false) ∧ ∀ entry ∈ c.holds, entry ∉ d.holds

theorem Apart.symm (apart : c.Apart d) : d.Apart c :=
  ⟨fun own other => (apart.1 other own).symm, fun entry own other => apart.2 entry other own⟩

theorem keys_of_exclusive {op : SinkOp} (exclusive : op.exclusive = true) : op.keys = [] := by
  cases op with
  | push trigger items => cases exclusive
  | pushAll trigger items => rfl
  | pushAllWithRevalidate trigger items revalidate => rfl
  | pushAllOperation operation => rfl
  | close => rfl

theorem references_of_entries (none : c.entries = []) : c.references = [] := by
  rw [references, none, List.zip_nil_right]

/-- A call outside the gate refers to no key locks. -/
theorem Formed.references_of_outside (formed : c.Formed) (outside : c.inGate = false) : c.references = [] := by
  cases phase : c.phase with
  | arriving | finished err =>
    simp only [Formed, phase] at formed
    exact references_of_entries formed.1
  | entered | locking | calling ticket | acknowledged ticket | unlocking err | leaving err => simp [inGate, phase] at outside

/-- At the wrapped sink a call has the gate and all its key locks. -/
theorem Formed.of_ticket {ticket : Ticket} (formed : c.Formed) (taken : c.ticket = some ticket) :
    c.inGate = true ∧ c.entries.length = c.op.keys.length ∧ c.holds = c.entries := by
  cases phase : c.phase with
  | calling own | acknowledged own =>
    simp only [Formed, phase] at formed
    refine ⟨by simp only [inGate, phase], formed.1, ?_⟩
    rw [holds, formed.2, List.take_length]
  | arriving | entered | locking | unlocking err | leaving err | finished err => simp [Call.ticket, phase] at taken

end Call

namespace Gate

/-- What the locks keep true of the calls. -/
structure Locked (gate : Gate) : Prop where
  formed : ∀ c ∈ gate.calls, c.Formed
  counts : gate.keyLocks.Counts (RefTable.heldBy Call.references gate.calls)
  apart : ∀ (i j : ℕ) (c d : Call), gate.calls[i]? = some c → gate.calls[j]? = some d → i ≠ j → c.Apart d

variable {i : ℕ}

/-- At the wrapped sink there are only incremental pushes of different identities, or a single call. -/
theorem Locked.identities (locked : gate.Locked) {j : ℕ} {own other : Ticket} (found : gate.calls[i]? = some c)
    (found' : gate.calls[j]? = some d) (distinct : i ≠ j) (taken : c.ticket = some own) (taken' : d.ticket = some other) :
    c.op.exclusive = false ∧ d.op.exclusive = false ∧ ∀ key ∈ c.op.keys, key ∉ d.op.keys := by
  have member := List.mem_of_getElem? found
  have member' := List.mem_of_getElem? found'
  obtain ⟨inside, length, all⟩ := (locked.formed c member).of_ticket taken
  obtain ⟨inside', length', all'⟩ := (locked.formed d member').of_ticket taken'
  have apart := locked.apart i j c d found found' distinct
  obtain ⟨shared, shared'⟩ := apart.1 inside inside'
  refine ⟨shared, shared', ?_⟩
  -- Both calls refer to the entry of a common key, and both would have it.
  have entry : ∀ (e : Call) (key : String), key ∈ e.op.keys → e.entries.length = e.op.keys.length →
      ∃ number, (key, number) ∈ e.references ∧ number ∈ e.entries := by
    intro e key listed same
    obtain ⟨position, bound, rfl⟩ := List.mem_iff_getElem.mp listed
    have bound' : position < e.entries.length := by omega
    refine ⟨e.entries[position], ?_, List.getElem_mem bound'⟩
    apply List.mem_iff_getElem.mpr
    refine ⟨position, ?_, List.getElem_zip⟩
    rw [Call.references, List.length_zip]
    omega
  intro key listed listed'
  obtain ⟨number, reference, had⟩ := entry c key listed length
  obtain ⟨number', reference', had'⟩ := entry d key listed' length'
  have same := locked.counts.same_entry (RefTable.mem_heldBy _ member reference) (RefTable.mem_heldBy _ member' reference')
  subst same
  exact apart.2 number (all ▸ had) (all' ▸ had')

/-! ## The locks along a run -/

theorem getElem?_set_cases {calls : List Call} {e : Call} (found : (calls.set index next)[i]? = some e) :
    (index = i ∧ e = next) ∨ (index ≠ i ∧ calls[i]? = some e) := by
  rw [List.getElem?_set] at found
  split_ifs at found with here inside
  · exact .inl ⟨here, (Option.some.inj found).symm⟩
  · exact .inr ⟨here, found⟩

variable {after : Gate}

section

variable (locked : gate.Locked)

include locked

/-- One call is replaced. -/
theorem Locked.replace (calls : after.calls = gate.calls.set index next)
    (formed : next.Formed) (counts : after.keyLocks.Counts (RefTable.heldBy Call.references (gate.calls.set index next)))
    (apart : ∀ (j : ℕ) (d : Call), gate.calls[j]? = some d → index ≠ j → next.Apart d) : after.Locked := by
  refine ⟨?_, calls ▸ counts, ?_⟩
  · intro e member
    rw [calls] at member
    rcases List.mem_or_eq_of_mem_set member with earlier | rfl
    · exact locked.formed e earlier
    · exact formed
  · intro i j e f found found' distinct
    rw [calls] at found found'
    rcases getElem?_set_cases found with ⟨rfl, rfl⟩ | ⟨away, before⟩
    · rcases getElem?_set_cases found' with ⟨rfl, rfl⟩ | ⟨away', before'⟩
      · exact absurd rfl distinct
      · exact apart j f before' away'
    · rcases getElem?_set_cases found' with ⟨rfl, rfl⟩ | ⟨_, before'⟩
      · exact (apart i e before away).symm
      · exact locked.apart i j e f before before' distinct

section

variable (found : gate.calls[index]? = some c)

include found

/-- A call that keeps its references does not change what is counted. -/
theorem Locked.counts_set (same : next.references = c.references) :
    gate.keyLocks.Counts (RefTable.heldBy Call.references (gate.calls.set index next)) := by
  obtain ⟨others, before, after⟩ := RefTable.heldBy_set Call.references found
  have counts := locked.counts
  rw [before] at counts
  rw [after, same]
  exact counts

/-- An exclusive call in the gate is alone, so nobody refers to a key lock. -/
theorem Locked.alone (inside : c.inGate = true) (exclusive : c.op.exclusive = true) (own : next.references = []) :
    RefTable.heldBy Call.references (gate.calls.set index next) = 0 := by
  apply RefTable.heldBy_eq_zero
  intro e member
  obtain ⟨position, there⟩ := List.mem_iff_getElem?.mp member
  rw [List.getElem?_set] at there
  split_ifs at there with here bound
  · cases there
    exact own
  · apply (locked.formed e (List.mem_of_getElem? there)).references_of_outside
    by_contra busy
    have shared := ((locked.apart index position c e found there here).1 inside (by simpa using busy)).1
    rw [exclusive] at shared
    cases shared

theorem Locked.keyLocksAfter (ready : c.Ready) (same : next.references = c.references) :
    (gate.keyLocksAfter c.op).Counts (RefTable.heldBy Call.references (gate.calls.set index next)) := by
  have kept := locked.counts_set found same
  cases op : c.op with
  | push trigger items => exact kept
  | pushAll trigger items => exact kept
  | pushAllWithRevalidate trigger items revalidate => exact kept
  | pushAllOperation operation => exact kept
  | close =>
    rw [Gate.keyLocksAfter]
    split_ifs
    · exact kept
    · -- Closing drops the table while nobody refers to it.
      have exclusive : c.op.exclusive = true := by
        rw [op]
        rfl
      have entered : c.phase = .entered := by
        rcases ready with ⟨phase, _⟩ | ⟨phase, _⟩
        · exact phase
        · have formed := locked.formed c (List.mem_of_getElem? found)
          simp only [Call.Formed, phase, exclusive] at formed
          exact absurd formed.1 (by decide)
      have inside : c.inGate = true := by simp only [Call.inGate, entered]
      have none : c.references = [] := by
        rw [Call.references, Call.keys_of_exclusive exclusive, List.zip_nil_left]
      have zero := locked.alone found inside exclusive (same.trans none)
      rw [zero] at kept ⊢
      exact kept.clear

/-- A call that has its locks goes on with them. -/
theorem Locked.judged (ready : c.Ready) :
    c.inGate = true ∧ c.entries.length = c.op.keys.length ∧ c.locked = c.entries.length := by
  have formed := locked.formed c (List.mem_of_getElem? found)
  rcases ready with ⟨phase, exclusive⟩ | ⟨phase, all⟩
  · simp only [Call.Formed, phase] at formed
    refine ⟨by simp only [Call.inGate, phase], ?_, ?_⟩
    · rw [formed.1, Call.keys_of_exclusive exclusive]
      rfl
    · rw [formed.1, formed.2]
      rfl
  · simp only [Call.Formed, phase] at formed
    exact ⟨by simp only [Call.inGate, phase], formed.2.1, by omega⟩

/-- A call that takes nothing more goes on. -/
theorem Locked.goes_on (calls : after.calls = gate.calls.set index next) (formed : next.Formed)
    (counts : after.keyLocks.Counts (RefTable.heldBy Call.references (gate.calls.set index next))) (op : next.op = c.op)
    (inside : next.inGate = true → c.inGate = true) (holds : ∀ entry ∈ next.holds, entry ∈ c.holds) : after.Locked := by
  apply locked.replace calls formed counts
  intro j d there distinct
  obtain ⟨apart, unheld⟩ := locked.apart index j c d found there distinct
  refine ⟨?_, fun entry own => unheld entry (holds entry own)⟩
  intro own other
  rw [op]
  exact apart (inside own) other

theorem Locked.advance
    (advances : gate.Advances c env after next) : ({ after with calls := gate.calls.set index next } : Gate).Locked := by
  have formed := locked.formed c (List.mem_of_getElem? found)
  have apart := fun j d there distinct => locked.apart index j c d found there distinct
  cases advances with
  | waits => exact locked.replace rfl formed (locked.counts_set found rfl) apart
  | enters phase admitted =>
    simp only [Call.Formed, phase] at formed
    refine locked.replace rfl formed (locked.counts_set found rfl) ?_
    intro j d there distinct
    refine ⟨?_, (apart j d there distinct).2⟩
    intro _ busy
    have room := List.all_eq_true.mp admitted d (List.mem_of_getElem? there)
    simpa [busy] using room
  | refers phase shared =>
    simp only [Call.Formed, phase] at formed
    refine locked.goes_on found rfl ⟨shared, RefTable.length_acquire _ _, ?_⟩ ?_ rfl ?_ ?_
    · change c.locked ≤ _
      rw [formed.2]
      exact Nat.zero_le _
    · obtain ⟨others, before, after⟩ := RefTable.heldBy_set Call.references found
      have counts := locked.counts
      rw [before, Call.references_of_entries formed.1, Multiset.coe_nil, zero_add] at counts
      rw [after]
      exact counts.acquire c.op.keys
    · intro _
      simp only [Call.inGate, phase]
    · intro entry held
      simp only [Call.holds, formed.2, List.take_zero] at held
      exact absurd held List.not_mem_nil
  | locks phase entry due free =>
    simp only [Call.Formed, phase] at formed
    have bound : c.locked < c.entries.length := (List.getElem?_eq_some_iff.mp due).1
    refine locked.replace rfl ⟨formed.1, formed.2.1, bound⟩ (locked.counts_set found rfl) ?_
    intro j d there distinct
    refine ⟨?_, ?_⟩
    · intro _ busy
      exact (apart j d there distinct).1 (by simp only [Call.inGate, phase]) busy
    · intro number held
      simp only [Call.holds, List.take_add_one, due, Option.toList_some, List.mem_append, List.mem_singleton] at held
      rcases held with earlier | rfl
      · exact (apart j d there distinct).2 number earlier
      · exact of_decide_eq_true (List.all_eq_true.mp free d (List.mem_of_getElem? there))
  | answered ready err verdict =>
    obtain ⟨inside, _, _⟩ := locked.judged found ready
    exact locked.goes_on found rfl trivial (locked.keyLocksAfter found ready rfl) rfl (fun _ => inside) fun _ => id
  | forwarded ready ticket verdict =>
    obtain ⟨inside, length, all⟩ := locked.judged found ready
    exact locked.goes_on found rfl ⟨length, all⟩ (locked.keyLocksAfter found ready rfl) rfl (fun _ => inside) fun _ => id
  | failed ticket phase err =>
    refine locked.goes_on found rfl trivial (locked.counts_set found rfl) rfl ?_ fun _ => id
    intro _
    simp only [Call.inGate, phase]
  | acknowledged ticket phase =>
    simp only [Call.Formed, phase] at formed
    refine locked.goes_on found rfl formed (locked.counts_set found rfl) rfl ?_ fun _ => id
    intro _
    simp only [Call.inGate, phase]
  | records ticket phase =>
    refine locked.goes_on found rfl trivial (locked.counts_set found rfl) rfl ?_ fun _ => id
    intro _
    simp only [Call.inGate, phase]
  | unlocks err phase some =>
    refine locked.goes_on found rfl trivial (locked.counts_set found rfl) rfl ?_ ?_
    · intro _
      simp only [Call.inGate, phase]
    · intro entry held
      exact List.take_subset_take_left c.entries (Nat.sub_le _ _) held
  | releases err phase none =>
    refine locked.goes_on found rfl ⟨rfl, none⟩ ?_ rfl ?_ ?_
    · obtain ⟨others, before, after⟩ := RefTable.heldBy_set Call.references found
      have counts := locked.counts
      have nothing : ({ c with phase := .leaving err, entries := [] } : Call).references = [] := Call.references_of_entries rfl
      rw [before] at counts
      rw [after, nothing, Multiset.coe_nil, zero_add]
      exact counts.release
    · intro _
      simp only [Call.inGate, phase]
    · intro entry held
      exact absurd held (by simp [Call.holds])
  | leaves err phase =>
    simp only [Call.Formed, phase] at formed
    refine locked.goes_on found rfl formed (locked.counts_set found rfl) rfl ?_ fun _ => id
    intro outside
    cases outside

end

theorem Locked.move (index : ℕ) (env : SinkEnv) : (gate.move index env).Locked := by
  rcases gate.move_advances index env with same | ⟨c, after, next, found, advances, moved⟩
  · rw [same]
    exact locked
  · rw [moved]
    exact locked.advance found advances

end

/-- A call that just arrived is the last one, and has nothing yet. -/
theorem getElem?_arrive {op : SinkOp} {e : Call} (found : (gate.arrive op).calls[i]? = some e) :
    gate.calls[i]? = some e ∨ (i = gate.calls.length ∧ e = { op := op }) := by
  rw [arrive, List.getElem?_append] at found
  split_ifs at found with earlier
  · exact .inl found
  · obtain ⟨bound, own⟩ := List.getElem?_eq_some_iff.mp found
    rw [List.length_singleton] at bound
    refine .inr ⟨by omega, ?_⟩
    simpa using own.symm

theorem Locked.arrive (locked : gate.Locked) (op : SinkOp) : (gate.arrive op).Locked := by
  have outside : ({ op := op } : Call).inGate = false := rfl
  have apart : ∀ e : Call, ({ op := op } : Call).Apart e := by
    intro e
    refine ⟨fun inside => absurd inside (by simp [outside]), ?_⟩
    intro entry held
    exact absurd held List.not_mem_nil
  refine ⟨?_, ?_, ?_⟩
  · intro e member
    rcases List.mem_append.mp member with earlier | last
    · exact locked.formed e earlier
    · rw [List.mem_singleton.mp last]
      exact ⟨rfl, rfl⟩
  · rw [Gate.arrive, RefTable.heldBy_append Call.references (Call.references_of_entries rfl)]
    exact locked.counts
  · intro i j e f found found' distinct
    rcases getElem?_arrive found with before | ⟨last, rfl⟩
    · rcases getElem?_arrive found' with before' | ⟨_, rfl⟩
      · exact locked.apart i j e f before before' distinct
      · exact (apart e).symm
    · exact apart f

/-- Nobody is on a fresh gate. -/
theorem locked_start (sink : OrderedSink) : ({ sink := sink } : Gate).Locked := by
  refine ⟨List.forall_mem_nil _, RefTable.counts_empty, ?_⟩
  intro i j c d found
  rw [List.getElem?_nil] at found
  cases found

end Gate

end Spotter.Worker
