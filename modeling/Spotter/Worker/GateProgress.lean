import Mathlib.Algebra.Order.BigOperators.Group.Finset
import Mathlib.Data.Nat.Pairing
import Spotter.Library.Progress
import Spotter.Worker.WriteGate

/-! # Every call on the gate returns

The gate is taken before the key locks and before a provider's lock, the key locks in the order of the identities, and
nothing else is asked for by somebody who has a provider's lock. So somebody can always move, and since every move brings a
call or a section nearer to its end, all of them end under every fair schedule.
-/

namespace Spotter.Worker

open Library Domain Ports

/-! ## The moves that are left -/

/-- A bound on the moves that are left to a call. -/
def Call.remaining (c : Call) : ℕ :=
  match c.phase with
  | .arriving => 2 * c.op.keys.length + 7
  | .entered => 2 * c.op.keys.length + 6
  | .locking => 2 * c.entries.length - c.locked + 5
  | .calling _ => c.locked + 4
  | .acknowledged _ => c.locked + 3
  | .unlocking _ => c.locked + 2
  | .leaving _ => 1
  | .finished _ => 0

def RevalidatePhase.remaining : RevalidatePhase → ℕ
  | .unused => 2
  | .reading => 1
  | .done => 0

/-- The moves that are left to a section, its calls included. -/
def ProviderSection.remaining (s : ProviderSection) : ℕ :=
  (match s.phase with
    | .waiting => 2
    | .reading => 1
    | .dispatching => 0) +
    (s.dispatches.map fun dispatch => 2 * dispatch.1.keys.length + 10).sum

/-- The moves that are left to all goroutines. -/
def WriteGate.remaining (w : WriteGate) : ℕ :=
  (w.gate.calls.map Call.remaining).sum + ∑ i ∈ Finset.range w.gate.calls.length, (w.revalidations i).remaining +
    (w.sections.map ProviderSection.remaining).sum

namespace Gate

variable {gate : Gate} {c : Call} {env : SinkEnv}

theorem judge_remaining (gate : Gate) (c : Call) (env : SinkEnv) : (gate.judge c env).2.remaining ≤ c.locked + 4 := by
  cases verdict : (gate.sink.enter (c.op, env)).2 with
  | answer err | forward ticket => simp [judge, Call.remaining, verdict]

/-- A call that is given the lock it asks for comes nearer to its end. -/
theorem advance_remaining (formed : c.Formed) (unfinished : c.result = none)
    (admitted : c.phase = .arriving → gate.admits c = true)
    (unlocked : c.phase = .locking → ∀ entry, c.entries[c.locked]? = some entry → gate.free entry = true) :
    (gate.advance c env).2.remaining < c.remaining := by
  cases phase : c.phase with
  | arriving => simp [advance, Call.remaining, phase, admitted phase]
  | entered =>
    simp only [Call.Formed, phase] at formed
    simp only [advance, phase]
    split_ifs
    · have judged := gate.judge_remaining c env
      simp only [Call.remaining, phase] at judged ⊢
      omega
    · simp only [Call.remaining, phase, RefTable.length_acquire]
      omega
  | locking =>
    simp only [Call.Formed, phase] at formed
    simp only [advance, phase]
    cases due : c.entries[c.locked]? with
    | none =>
      have all : c.entries.length ≤ c.locked := List.getElem?_eq_none_iff.mp due
      have judged := gate.judge_remaining c env
      simp only [Call.remaining, phase] at judged ⊢
      omega
    | some entry =>
      have bound : c.locked < c.entries.length := (List.getElem?_eq_some_iff.mp due).1
      simp only [unlocked phase entry due, ↓reduceIte, Call.remaining, phase]
      omega
  | calling ticket =>
    simp only [advance, phase]
    cases env.inner ticket.call with
    | none | some err => simp [Call.remaining, phase]
  | acknowledged ticket => simp [advance, Call.remaining, phase]
  | unlocking err =>
    simp only [advance, phase]
    split_ifs with none
    · simp [Call.remaining, phase]
    · simp only [Call.remaining, phase]
      omega
  | leaving err => simp [advance, Call.remaining, phase]
  | finished err => simp [Call.result, phase] at unfinished

end Gate

namespace WriteGate

variable {mutexes : Mutexes} {w : WriteGate} {i j : ℕ} {c : Call} {s : ProviderSection} {env : SinkEnv} {g : Goroutine}

/-- One revalidation goes on. -/
theorem revalidations_lt (next : RevalidatePhase) (bound : i < w.gate.calls.length)
    (below : next.remaining < (w.revalidations i).remaining) :
    ∑ k ∈ Finset.range w.gate.calls.length, (Function.update w.revalidations i next k).remaining <
      ∑ k ∈ Finset.range w.gate.calls.length, (w.revalidations k).remaining := by
  apply Finset.sum_lt_sum
  · intro k _
    rcases eq_or_ne k i with rfl | other
    · rw [Function.update_self]
      exact below.le
    · rw [Function.update_of_ne other]
  · refine ⟨i, Finset.mem_range.mpr bound, ?_⟩
    rw [Function.update_self]
    exact below

/-- A call that can move exists, and revalidates or has not returned. -/
theorem unfinished_call (unfinished : w.finished (.call i) = false) :
    ∃ c, w.gate.calls[i]? = some c ∧ (w.revalidations i = .reading ∨ c.result = none) := by
  cases found : w.gate.calls[i]? with
  | none => simp [finished, found] at unfinished
  | some c =>
    refine ⟨c, rfl, ?_⟩
    by_cases reading : w.revalidations i = .reading
    · exact .inl reading
    · exact .inr (by simpa [finished, found, reading] using unfinished)

/-- Only a call that has not revalidated yet asks for a provider's lock. -/
theorem revalidation_of_request {p : ℕ} (request : w.request (.call i) = some (.provider p)) : w.revalidations i = .unused := by
  simp only [WriteGate.request] at request
  split_ifs at request
  obtain ⟨c, _, asked⟩ := Option.bind_eq_some_iff.mp request
  cases phase : c.phase with
  | entered =>
    simp only [callRequest, phase] at asked
    split_ifs at asked with due
    simp only [revalidates, Bool.and_eq_true, decide_eq_true_eq] at due
    exact due.2
  | _ => simp [callRequest, phase] at asked

theorem request_call (found : w.gate.calls[i]? = some c) (quiet : w.revalidations i ≠ .reading) :
    w.request (.call i) = w.callRequest i c := by
  rw [request, if_neg quiet, found, Option.bind_some]

/-- A call's own step at the gate. -/
theorem move_remaining (sound : w.gate.Sound) (enabled : w.Enabled mutexes (.call i)) (found : w.gate.calls[i]? = some c)
    (quiet : w.revalidations i ≠ .reading) (unfinished : c.result = none) (env : SinkEnv) :
    ((w.gate.move i env).calls.map Call.remaining).sum < (w.gate.calls.map Call.remaining).sum ∧
      (w.gate.move i env).calls.length = w.gate.calls.length := by
  simp only [Gate.move, found, List.length_set, and_true]
  apply Progress.sum_map_set_lt _ found
  apply Gate.advance_remaining (sound.locked.formed c (List.mem_of_getElem? found)) unfinished
  · intro arriving
    have granted := enabled.2 .gate (by simp [request_call found quiet, callRequest, arriving])
    simpa [available, found] using granted.1
  · intro locking entry due
    have granted := enabled.2 (.key entry) (by simp [request_call found quiet, callRequest, locking, due])
    simpa [available, held] using granted.1

theorem callStep_remaining (sound : w.gate.Sound) (enabled : w.Enabled mutexes (.call i)) :
    (w.callStep i env).remaining < w.remaining := by
  obtain ⟨c, found, busy⟩ := unfinished_call enabled.1
  have bound : i < w.gate.calls.length := (List.getElem?_eq_some_iff.mp found).1
  unfold callStep
  split_ifs with reading
  · have fell := revalidations_lt .done bound (by rw [reading]; decide)
    simp only [remaining]
    omega
  · split
    · rename_i p request
      have unused := revalidation_of_request request
      have fell := revalidations_lt .reading bound (by rw [unused]; decide)
      simp only [remaining]
      omega
    · obtain ⟨fell, same⟩ := move_remaining sound enabled found reading (busy.resolve_left reading) env
      simp only [remaining, same]
      omega

theorem setSection_remaining (found : w.sections[j]? = some s) {next : ProviderSection} (below : next.remaining < s.remaining) :
    (w.setSection j next).remaining < w.remaining := by
  have fell := Progress.sum_map_set_lt _ found below
  simp only [remaining, setSection]
  omega

/-- A call that arrives has all its moves left. -/
theorem arrive_remaining (op : SinkOp) (p : ℕ) : (w.arrive op p).remaining = w.remaining + 2 * op.keys.length + 9 := by
  have others : ∀ k ∈ Finset.range w.gate.calls.length,
      (Function.update w.revalidations w.gate.calls.length .unused k).remaining = (w.revalidations k).remaining := by
    intro k inside
    have below := Finset.mem_range.mp inside
    rw [Function.update_of_ne (by omega)]
  simp only [remaining, arrive, Gate.arrive, List.map_append, List.sum_append, List.map_singleton, List.sum_singleton,
    List.length_append, List.length_singleton, Finset.sum_range_succ, Finset.sum_congr rfl others, Function.update_self]
  simp only [Call.remaining, RevalidatePhase.remaining]
  omega

theorem providerStep_remaining (enabled : w.Enabled mutexes (.provider j)) : (w.providerStep j).remaining < w.remaining := by
  have unfinished := enabled.1
  cases found : w.sections[j]? with
  | none => simp [finished, found] at unfinished
  | some s =>
    cases phase : s.phase with
    | waiting | reading =>
      simp only [providerStep, found, phase]
      exact setSection_remaining found (by simp [ProviderSection.remaining, phase])
    | dispatching =>
      cases dispatches : s.dispatches with
      | nil => simp [finished, found, phase, dispatches] at unfinished
      | cons dispatch rest =>
        obtain ⟨op, p⟩ := dispatch
        have replaced := Progress.sum_map_set (b := { s with dispatches := rest }) ProviderSection.remaining found
        simp only [providerStep, found, phase, dispatches, arrive_remaining]
        simp only [ProviderSection.remaining, phase, dispatches, List.map_cons, List.sum_cons] at replaced
        simp only [remaining, setSection]
        omega

/-- Every move of a goroutine lowers what is left. -/
theorem run_remaining (sound : w.gate.Sound) (enabled : w.Enabled mutexes g) : (w.run mutexes g env).remaining < w.remaining := by
  simp only [run, if_pos enabled]
  cases g with
  | call i => exact callStep_remaining sound enabled
  | provider j => exact providerStep_remaining enabled

/-! ## Somebody can move -/

theorem enabled_of_free (unfinished : w.finished g = false) (free : w.request g = none) : w.Enabled mutexes g := by
  refine ⟨unfinished, ?_⟩
  intro lock asked
  rw [free] at asked
  cases asked

variable {lock : Lock}

/-- Whoever asks for a lock has not finished. -/
theorem unfinished_of_request (request : w.request g = some lock) : w.finished g = false := by
  cases g with
  | call i =>
    simp only [WriteGate.request] at request
    split_ifs at request
    obtain ⟨c, found, asked⟩ := Option.bind_eq_some_iff.mp request
    cases phase : c.phase with
    | finished err => simp [callRequest, phase] at asked
    | _ =>
      simp [finished, found, Call.result, phase]
  | provider j =>
    cases found : w.sections[j]? with
    | none => simp [WriteGate.request, found] at request
    | some s =>
      simp only [WriteGate.request, found] at request
      split_ifs at request with waiting
      simp [finished, found, waiting]

/-- A lock that nobody has is available to everybody who asks for it. -/
theorem available_of_unheld (free : w.held lock = false) (request : w.request g = some lock) : w.available g lock = true := by
  cases lock with
  | gate =>
    cases g with
    | call i =>
      simp only [WriteGate.request] at request
      split_ifs at request
      obtain ⟨c, found, _⟩ := Option.bind_eq_some_iff.mp request
      have nobody : ∀ other ∈ w.gate.calls, other.inGate = false := by simpa [held] using free
      simp only [available, found, Option.any_some, Gate.admits, List.all_eq_true]
      intro other member
      simp [nobody other member]
    | provider j =>
      simp only [WriteGate.request] at request
      split at request
      · cases request
      · split_ifs at request
        cases request
  | key entry | provider p => simp [available, free]

theorem enabled_of_unheld (free : w.held lock = false) (request : w.request g = some lock) : ∃ g, w.Enabled mutexes g := by
  obtain ⟨winner, asks, granted⟩ := mutexes.conserving w lock free ⟨g, request⟩
  refine ⟨winner, unfinished_of_request asks, ?_⟩
  intro other same
  rw [asks] at same
  cases same
  exact ⟨available_of_unheld free asks, granted⟩

/-- Whoever has a provider's lock lets it go without asking for anything. -/
theorem enabled_of_provider {p : ℕ} (request : w.request g = some (.provider p)) : ∃ g, w.Enabled mutexes g := by
  cases busy : w.held (.provider p) with
  | false => exact enabled_of_unheld busy request
  | true =>
    simp only [held, Bool.or_eq_true, List.any_eq_true, List.mem_range, decide_eq_true_eq] at busy
    rcases busy with ⟨i, bound, reading, _⟩ | ⟨s, member, reading, _⟩
    · refine ⟨.call i, enabled_of_free ?_ (by simp [WriteGate.request, reading])⟩
      simp [finished, List.getElem?_eq_getElem bound, reading]
    · obtain ⟨j, found⟩ := List.mem_iff_getElem?.mp member
      refine ⟨.provider j, enabled_of_free ?_ (by simp [WriteGate.request, found, reading])⟩
      simp [finished, found, reading]

/-! ## The order of the key locks -/

/-- The identities of a push are in strict order. -/
theorem keys_sorted (op : SinkOp) : op.keys.Pairwise (· < ·) := by
  cases op with
  | push trigger items =>
    have sorted : (identityKeys items).Pairwise (· ≤ ·) := List.pairwise_insertionSort _ _
    have nodup : (identityKeys items).Nodup := (List.perm_insertionSort _ _).nodup_iff.mpr (List.nodup_dedup _)
    exact (sorted.and nodup).imp fun both => lt_of_le_of_ne both.1 both.2
  | _ => exact List.Pairwise.nil

variable {key : String}

theorem key_lt {op : SinkOp} {q r : ℕ} {key' : String} (earlier : q < r) (first : op.keys[q]? = some key)
    (second : op.keys[r]? = some key') : key < key' := by
  obtain ⟨inside, rfl⟩ := List.getElem?_eq_some_iff.mp first
  obtain ⟨inside', rfl⟩ := List.getElem?_eq_some_iff.mp second
  exact List.pairwise_iff_getElem.mp (keys_sorted op) q r inside inside' earlier

variable {entry : ℕ}

theorem reference_of_getElem {q : ℕ} (listed : c.op.keys[q]? = some key) (referred : c.entries[q]? = some entry) :
    (key, entry) ∈ c.references := by
  apply List.mem_of_getElem? (i := q)
  rw [Call.references, List.getElem?_zip_eq_some]
  exact ⟨listed, referred⟩

/-- The call waits for its next key lock. -/
def Queued (w : WriteGate) (k : ℕ) (d : Call) (key : String) : Prop :=
  w.gate.calls[k]? = some d ∧ d.phase = .locking ∧ d.locked < d.entries.length ∧ d.op.keys[d.locked]? = some key

/-- The call has the key lock of an identity. -/
def Takes (w : WriteGate) (k : ℕ) (key : String) : Prop :=
  ∃ d q, w.gate.calls[k]? = some d ∧ q < d.locked ∧ d.op.keys[q]? = some key

/-- A call in the gate that needs no lock can move. -/
theorem enabled_of_callRequest (found : w.gate.calls[i]? = some c) (unfinished : c.result = none) (free : w.callRequest i c = none) :
    w.Enabled mutexes (.call i) := by
  apply enabled_of_free
  · simp [finished, found, unfinished]
  · simp [WriteGate.request, found, free]

/-- Somebody who has a key lock takes the next one or can move. -/
theorem queued_or_enabled (mutexes : Mutexes) (sound : w.gate.Sound) (found : w.gate.calls[i]? = some c)
    (taken : entry ∈ c.holds) : (∃ key, w.Queued i c key) ∨ w.Enabled mutexes (.call i) := by
  have formed := sound.locked.formed c (List.mem_of_getElem? found)
  have some : c.locked ≠ 0 := by
    intro none
    simp [Call.holds, none] at taken
  cases phase : c.phase with
  | locking =>
    simp only [Call.Formed, phase] at formed
    by_cases all : c.entries.length ≤ c.locked
    · refine .inr (enabled_of_callRequest found (by simp [Call.result, phase]) ?_)
      simp [callRequest, phase, List.getElem?_eq_none all]
    · have bound : c.locked < c.op.keys.length := by omega
      exact .inl ⟨_, found, phase, by omega, List.getElem?_eq_getElem bound⟩
  | calling _ | acknowledged _ | unlocking _ =>
    refine .inr (enabled_of_callRequest found (by simp [Call.result, phase]) ?_)
    simp [callRequest, phase]
  | _ =>
    simp only [Call.Formed, phase] at formed
    exact absurd formed.2 some

section

variable (sound : w.gate.Sound)

include sound

/-- A call that nobody lets go on waits for another one that waits. -/
theorem blocked_by_queued (nobody : ∀ g, ¬w.Enabled mutexes g) (queued : w.Queued i c key) :
    ∃ m, (∃ d key', w.Queued m d key') ∧ w.Takes m key := by
  obtain ⟨found, phase, bound, listed⟩ := queued
  have due := List.getElem?_eq_getElem bound
  have quiet : w.revalidations i ≠ .reading := by
    intro reading
    apply nobody (.call i)
    exact enabled_of_free (by simp [finished, found, reading]) (by simp [WriteGate.request, reading])
  have request : w.request (.call i) = some (.key c.entries[c.locked]) := by
    simp [request_call found quiet, callRequest, phase, due]
  have taken : w.held (.key c.entries[c.locked]) = true := by
    by_contra free
    obtain ⟨g, enabled⟩ : ∃ g, w.Enabled mutexes g := enabled_of_unheld (by simpa using free) request
    exact nobody g enabled
  obtain ⟨d, member, holding⟩ : ∃ d ∈ w.gate.calls, c.entries[c.locked] ∈ d.holds := by simpa [held, Gate.free] using taken
  obtain ⟨m, found'⟩ := List.mem_iff_getElem?.mp member
  rcases queued_or_enabled mutexes sound found' holding with ⟨key', waits⟩ | enabled
  · refine ⟨m, ⟨d, key', waits⟩, d, ?_⟩
    obtain ⟨q, below, same⟩ := List.mem_take_iff_getElem.mp holding
    have formed := sound.locked.formed d member
    simp only [Call.Formed, waits.2.1] at formed
    have inside : q < d.op.keys.length := by omega
    have reference := reference_of_getElem listed due
    have reference' := reference_of_getElem (List.getElem?_eq_getElem inside) (List.getElem?_eq_some_iff.mpr ⟨by omega, same⟩)
    -- A key lock that two calls refer to is of one identity.
    have own := sound.locked.counts.current _ (RefTable.mem_heldBy _ (List.mem_of_getElem? found) reference)
    have own' := sound.locked.counts.current _ (RefTable.mem_heldBy _ member reference')
    refine ⟨q, found', by omega, ?_⟩
    exact (List.getElem?_eq_getElem inside).trans (congrArg some (sound.distinct _ _ _ own' own))
  · exact absurd enabled (nobody _)

/-- The calls that wait for key locks do not wait in a circle. -/
theorem enabled_of_queued (queued : w.Queued i c key) : ∃ g, w.Enabled mutexes g := by
  classical
  by_contra none
  have nobody : ∀ g, ¬w.Enabled mutexes g := fun g enabled => none ⟨g, enabled⟩
  let waiting := (Finset.range w.gate.calls.length).filter fun k => ∃ d key, w.Queued k d key
  let awaited : ℕ → String := fun k => (w.gate.calls[k]?.bind fun d => d.op.keys[d.locked]?).getD ""
  have awaits : ∀ k d key, w.Queued k d key → awaited k = key := by
    rintro k d key ⟨found, _, _, listed⟩
    simp [awaited, found, listed]
  have member : ∀ k d key, w.Queued k d key → k ∈ waiting := by
    intro k d key queued
    have bound := (List.getElem?_eq_some_iff.mp queued.1).1
    exact Finset.mem_filter.mpr ⟨Finset.mem_range.mpr bound, d, key, queued⟩
  have ordered : ∀ k ∈ waiting, ∀ key, w.Takes k key → key < awaited k := by
    rintro k inside key ⟨d, q, found, earlier, listed⟩
    obtain ⟨d', next, queued⟩ := (Finset.mem_filter.mp inside).2
    cases Option.some.inj (found.symm.trans queued.1)
    rw [awaits k d next queued]
    exact key_lt earlier listed queued.2.2.2
  have blocked : ∀ k ∈ waiting, ∃ m ∈ waiting, w.Takes m (awaited k) := by
    intro k inside
    obtain ⟨d, next, queued⟩ := (Finset.mem_filter.mp inside).2
    obtain ⟨m, ⟨d', key', queued'⟩, takes⟩ := blocked_by_queued sound nobody queued
    rw [awaits k d next queued]
    exact ⟨m, member m d' key' queued', takes⟩
  have empty := Progress.no_circular_wait ordered blocked
  exact absurd (member i c key queued) (by simp [empty])

/-- Somebody can move as long as a call has the gate. -/
theorem enabled_of_inGate (found : w.gate.calls[i]? = some c) (inside : c.inGate = true) :
    ∃ g, w.Enabled mutexes g := by
  have formed := sound.locked.formed c (List.mem_of_getElem? found)
  have free : w.callRequest i c = none → c.result = none → ∃ g, w.Enabled mutexes g :=
    fun free unfinished => ⟨.call i, enabled_of_callRequest found unfinished free⟩
  cases phase : c.phase with
  | arriving | finished err => simp [Call.inGate, phase] at inside
  | entered =>
    by_cases due : w.revalidates i c = true
    · have unused : w.revalidations i = .unused := by
        simp only [revalidates, Bool.and_eq_true, decide_eq_true_eq] at due
        exact due.2
      refine enabled_of_provider (g := .call i) (p := w.lockOf i) ?_
      rw [request_call found (by rw [unused]; exact RevalidatePhase.noConfusion), callRequest, phase]
      simp [due]
    · exact free (by simp [callRequest, phase, due]) (by simp [Call.result, phase])
  | locking =>
    simp only [Call.Formed, phase] at formed
    by_cases all : c.entries.length ≤ c.locked
    · exact free (by simp [callRequest, phase, List.getElem?_eq_none all]) (by simp [Call.result, phase])
    · have bound : c.locked < c.op.keys.length := by omega
      exact enabled_of_queued sound ⟨found, phase, by omega, List.getElem?_eq_getElem bound⟩
  | _ =>
    exact free (by simp [callRequest, phase]) (by simp [Call.result, phase])

/-- Somebody can move until everybody has finished. -/
theorem enabled_of_unfinished (unfinished : w.finished g = false) : ∃ g, w.Enabled mutexes g := by
  by_contra none
  have nobody : ∀ g, ¬w.Enabled mutexes g := fun g enabled => none ⟨g, enabled⟩
  cases requested : w.request g with
  | none => exact nobody g (enabled_of_free unfinished requested)
  | some lock =>
    cases lock with
    | provider p => exact none (enabled_of_provider requested)
    | key entry =>
      cases busy : w.held (.key entry) with
      | false => exact none (enabled_of_unheld busy requested)
      | true =>
        obtain ⟨d, member, taken⟩ : ∃ d ∈ w.gate.calls, entry ∈ d.holds := by simpa [held, Gate.free] using busy
        obtain ⟨m, found⟩ := List.mem_iff_getElem?.mp member
        rcases queued_or_enabled mutexes sound found taken with ⟨key, queued⟩ | enabled
        · exact none (enabled_of_queued sound queued)
        · exact nobody _ enabled
    | gate =>
      cases busy : w.held .gate with
      | false => exact none (enabled_of_unheld busy requested)
      | true =>
        obtain ⟨d, member, inside⟩ : ∃ d ∈ w.gate.calls, d.inGate = true := by simpa [held] using busy
        obtain ⟨m, found⟩ := List.mem_iff_getElem?.mp member
        exact none (enabled_of_inGate sound found inside)

end

theorem progresses (mutexes : Mutexes) :
    Progress.Progresses (run mutexes) (Enabled mutexes) (fun w => w.gate.Sound) (fun w => ∀ g, w.finished g = true) remaining where
  keeps _ g env sound := run_sound sound g env
  waits w g env blocked := by
    unfold run
    rw [if_neg blocked]
  falls _ _ _ sound enabled := run_remaining sound enabled
  live w sound unfinished := by
    rw [not_forall] at unfinished
    obtain ⟨g, open_⟩ := unfinished
    exact enabled_of_unfinished sound (by simpa using open_)

/-- Every key lock that a call has or waits for is the one that its identity finds in the table. -/
theorem current_of_entry (sound : w.gate.Sound) (member : c ∈ w.gate.calls) (referred : entry ∈ c.entries) :
    ∃ key ∈ c.op.keys, (key, entry) ∈ c.references ∧ w.gate.keyLocks.current.lookup key = some entry := by
  obtain ⟨q, found⟩ := List.mem_iff_getElem?.mp referred
  have bound := (List.getElem?_eq_some_iff.mp found).1
  have length : c.entries.length = c.op.keys.length := by
    rcases (sound.shaped c member).entries with none | all
    · rw [none] at bound
      exact absurd bound (Nat.not_lt_zero q)
    · exact all
  have inside : q < c.op.keys.length := by omega
  have reference := reference_of_getElem (List.getElem?_eq_getElem inside) found
  exact ⟨_, List.getElem_mem inside, reference, sound.locked.counts.current _ (RefTable.mem_heldBy _ member reference)⟩

/-- At the wrapped sink there are pushes of different identities or a single call; an identity has one lock as long as a call
has it or waits for it; and under every fair schedule every call returns. -/
theorem writes_exclusive_and_return (mutexes : Mutexes) (sink : OrderedSink) (history : List GateEvent) :
    (∀ (i j : ℕ) (c d : Call) (own other : Ticket), (after mutexes sink history).gate.calls[i]? = some c →
      (after mutexes sink history).gate.calls[j]? = some d → i ≠ j → c.phase = .calling own → d.phase = .calling other →
      c.op.exclusive = false ∧ d.op.exclusive = false ∧ ∀ key ∈ c.op.keys, key ∉ d.op.keys) ∧
    (∀ c ∈ (after mutexes sink history).gate.calls, ∀ entry ∈ c.entries, ∃ key ∈ c.op.keys, (key, entry) ∈ c.references ∧
      (after mutexes sink history).gate.keyLocks.current.lookup key = some entry ∧
      ∀ d ∈ (after mutexes sink history).gate.calls, ∀ entry', (key, entry') ∈ d.references → entry' = entry) ∧
    (∀ schedule, Progress.Fair schedule → ∃ n,
      ∀ c ∈ (Progress.along (run mutexes) schedule (after mutexes sink history) n).gate.calls, ∃ err, c.phase = .finished err) := by
  have sound : (after mutexes sink history).gate.Sound := after_sound sink history
  refine ⟨?_, ?_, ?_⟩
  · intro i j c d own other found found' distinct atSink atSink'
    exact sound.locked.identities found found' distinct (by rw [Call.ticket, atSink]) (by rw [Call.ticket, atSink'])
  · intro c member entry referred
    obtain ⟨key, listed, reference, current⟩ := current_of_entry sound member referred
    refine ⟨key, listed, reference, current, ?_⟩
    intro d member' entry' reference'
    exact sound.locked.counts.same_entry (RefTable.mem_heldBy _ member' reference') (RefTable.mem_heldBy _ member reference)
  · intro schedule fair
    obtain ⟨n, finished⟩ := (progresses mutexes).eventually_done fair sound
    refine ⟨n, ?_⟩
    intro c member
    obtain ⟨i, found⟩ := List.mem_iff_getElem?.mp member
    have returned : c.result.isSome = true := by
      have ended := finished (.call i)
      simp only [WriteGate.finished, found, Bool.and_eq_true] at ended
      exact ended.2
    cases phase : c.phase with
    | finished err => exact ⟨err, rfl⟩
    | _ => simp [Call.result, phase] at returned

/-! ## Mutexes of the language and a fair schedule -/

/-- The goroutine is a call that takes the gate exclusively. -/
def writes (w : WriteGate) : Goroutine → Bool
  | .call i => w.gate.calls[i]?.any fun c => c.op.exclusive
  | .provider _ => false

/-- A writer waits for the gate. -/
def writerWaits (w : WriteGate) : Bool :=
  (List.range w.gate.calls.length).any fun k => decide (w.request (.call k) = some .gate) && w.writes (.call k)

/-- A writer that waits for the gate keeps new readers out, as it does at the language's read-write mutex. -/
def writersFirst : Mutexes where
  grants w g := decide (w.request g ≠ some .gate) || w.writes g || !w.writerWaits
  conserving := by
    rintro w lock _ ⟨g, request⟩
    cases waits : w.writerWaits with
    | false => exact ⟨g, request, Bool.or_true _⟩
    | true =>
      cases lock with
      | gate =>
        simp only [writerWaits, List.any_eq_true, Bool.and_eq_true, decide_eq_true_eq] at waits
        obtain ⟨k, _, asks, writes⟩ := waits
        exact ⟨.call k, asks, by simp [writes]⟩
      | key entry => exact ⟨g, request, by simp [request]⟩
      | provider p => exact ⟨g, request, by simp [request]⟩

/-- The goroutines in turn, each of them again and again. -/
def roundRobin (env : SinkEnv) (n : ℕ) : Goroutine × SinkEnv :=
  (if n.unpair.2 % 2 = 0 then .call (n.unpair.2 / 2) else .provider (n.unpair.2 / 2), env)

theorem roundRobin_fair (env : SinkEnv) : Progress.Fair (roundRobin env) := by
  intro g n
  cases g with
  | call i =>
    refine ⟨Nat.pair n (2 * i), Nat.left_le_pair n _, ?_⟩
    simp [roundRobin]
  | provider j =>
    refine ⟨Nat.pair n (2 * j + 1), Nat.left_le_pair n _, ?_⟩
    have half : (2 * j + 1) / 2 = j := by omega
    simp [roundRobin, Nat.add_mod, half]

/-- Two pushes of one identity, a full push that revalidates, a section of its provider that pushes the identity again, and the
close of the sink. -/
def crowd : List GateEvent :=
  [.arrive (.push 1 [some { instanceId := "a" }]) 0, .arrive (.push 2 [some { instanceId := "a" }, some { instanceId := "b" }]) 0,
    .arrive (.pushAllOperation { scope := "k8s", revalidate := true }) 7,
    .begin 7 [(.push 3 [some { instanceId := "a" }], 0)], .arrive .close 0]

/-- All calls of the crowd return. -/
theorem crowd_returns : (after writersFirst { typed := true } crowd).gate.calls.length = 4 ∧
      ∃ n, ∀ c ∈ (Progress.along (run writersFirst) (roundRobin .acknowledging) (after writersFirst { typed := true } crowd) n).gate.calls,
        ∃ err, c.phase = .finished err :=
  ⟨rfl, (writes_exclusive_and_return writersFirst { typed := true } crowd).2.2 _ (roundRobin_fair _)⟩

end WriteGate

end Spotter.Worker
