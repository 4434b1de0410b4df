import Spotter.Worker.MutualExclusion

/-! # The write gate and the providers' locks

A full push revalidates its snapshot while it has the gate: it takes the lock of the provider that sent the snapshot, reads
the source, and lets the lock go. The providers take the same locks in sections of their own and call the gate only
after such a section, when they have let the lock go. The goroutines here are the calls on the gate and the providers'
sections.

How a free lock is handed to one of those who wait for it is left open. A lock that nobody has is given to somebody who asks
for it; who that is may depend on everything that happened before. The inner mutexes of the gate guard single steps.
-/

namespace Spotter.Worker

open Library Domain Ports

/-- The call has a Revalidate function. -/
def SinkOp.revalidate : SinkOp → Bool
  | .pushAllWithRevalidate _ _ revalidate => revalidate
  | .pushAllOperation operation => operation.revalidate
  | _ => false

/-- How far a call's revalidation is; while it reads, it has the provider's lock. -/
inductive RevalidatePhase where
  | unused
  | reading
  | done
deriving DecidableEq

inductive SectionPhase where
  | waiting
  | reading
  | dispatching
deriving DecidableEq

/-- A section under a provider's lock, and the calls that its goroutine makes afterwards, each with the provider whose lock
its Revalidate takes. -/
structure ProviderSection where
  provider : ℕ
  dispatches : List (SinkOp × ℕ)
  phase : SectionPhase := .waiting

inductive Goroutine where
  | call (index : ℕ)
  | provider (index : ℕ)
deriving DecidableEq

/-- The locks that a goroutine may have to wait for. -/
inductive Lock where
  | gate
  | key (entry : ℕ)
  | provider (index : ℕ)
deriving DecidableEq

/-- A gate with the revalidations of its calls and the sections of the providers; `log` records who moved. -/
structure WriteGate where
  gate : Gate
  lockOf : ℕ → ℕ := fun _ => 0
  revalidations : ℕ → RevalidatePhase := fun _ => .unused
  sections : List ProviderSection := []
  log : List Goroutine := []

namespace WriteGate

variable (w : WriteGate)

/-- The call is about to revalidate; a closed gate answers without. -/
def revalidates (i : ℕ) (c : Call) : Bool :=
  c.op.revalidate && !w.gate.sink.closed && decide (w.revalidations i = .unused)

/-- The lock that a call needs for its next step. -/
def callRequest (i : ℕ) (c : Call) : Option Lock :=
  match c.phase with
  | .arriving => some .gate
  | .entered => if w.revalidates i c then some (.provider (w.lockOf i)) else none
  | .locking => c.entries[c.locked]?.map .key
  | _ => none

/-- The lock that a goroutine needs for its next step; one that reads the source goes on without another. -/
def request : Goroutine → Option Lock
  | .call i => if w.revalidations i = .reading then none else w.gate.calls[i]?.bind (w.callRequest i)
  | .provider j =>
    match w.sections[j]? with
    | none => none
    | some s => if s.phase = .waiting then some (.provider s.provider) else none

/-- Somebody has the lock. -/
def held : Lock → Bool
  | .gate => w.gate.calls.any Call.inGate
  | .key entry => !w.gate.free entry
  | .provider p =>
    (List.range w.gate.calls.length).any (fun i => decide (w.revalidations i = .reading ∧ w.lockOf i = p)) ||
      w.sections.any fun s => decide (s.phase = .reading ∧ s.provider = p)

/-- The lock can be given to the goroutine; the gate is shared by incremental pushes. -/
def available (g : Goroutine) : Lock → Bool
  | .gate =>
    match g with
    | .call i => (w.gate.calls[i]?).any w.gate.admits
    | .provider _ => false
  | lock => !w.held lock

/-- The goroutine has nothing left to do. -/
def finished : Goroutine → Bool
  | .call i =>
    match w.gate.calls[i]? with
    | none => true
    | some c => decide (w.revalidations i ≠ .reading) && c.result.isSome
  | .provider j =>
    match w.sections[j]? with
    | none => true
    | some s => decide (s.phase = .dispatching) && s.dispatches.isEmpty

/-- A call arrives, with the provider whose lock its Revalidate takes. -/
def arrive (op : SinkOp) (provider : ℕ) : WriteGate :=
  { w with
    gate := w.gate.arrive op
    lockOf := Function.update w.lockOf w.gate.calls.length provider
    revalidations := Function.update w.revalidations w.gate.calls.length .unused }

def setSection (j : ℕ) (s : ProviderSection) : WriteGate := { w with sections := w.sections.set j s }

/-- A call moves: a revalidation ends or begins, and otherwise the call goes on at the gate. -/
def callStep (i : ℕ) (env : SinkEnv) : WriteGate :=
  if w.revalidations i = .reading then { w with revalidations := Function.update w.revalidations i .done }
  else
    match w.request (.call i) with
    | some (.provider _) => { w with revalidations := Function.update w.revalidations i .reading }
    | _ => { w with gate := w.gate.move i env }

/-- A provider's goroutine moves: it takes its lock, lets it go, and makes its calls. -/
def providerStep (j : ℕ) : WriteGate :=
  match w.sections[j]? with
  | none => w
  | some s =>
    match s.phase with
    | .waiting => w.setSection j { s with phase := .reading }
    | .reading => w.setSection j { s with phase := .dispatching }
    | .dispatching =>
      match s.dispatches with
      | [] => w
      | (op, provider) :: rest => (w.setSection j { s with dispatches := rest }).arrive op provider

end WriteGate

/-- How locks are handed on: one that nobody has goes to somebody who asks for it. -/
structure Mutexes where
  grants : WriteGate → Goroutine → Bool
  conserving : ∀ (w : WriteGate) (lock : Lock), w.held lock = false → (∃ g, w.request g = some lock) →
    ∃ g, w.request g = some lock ∧ grants w g = true

/-- What happens at a gate: a call arrives, a provider begins a section, or a goroutine runs. -/
inductive GateEvent where
  | arrive (op : SinkOp) (provider : ℕ)
  | begin (provider : ℕ) (dispatches : List (SinkOp × ℕ))
  | run (g : Goroutine) (env : SinkEnv)

namespace WriteGate

variable (mutexes : Mutexes) (w : WriteGate)

/-- The goroutine can move. -/
def Enabled (g : Goroutine) : Prop :=
  w.finished g = false ∧ ∀ lock, w.request g = some lock → w.available g lock = true ∧ mutexes.grants w g = true

instance (g : Goroutine) : Decidable (w.Enabled mutexes g) :=
  match requested : w.request g with
  | none => decidable_of_iff (w.finished g = false) (by simp [Enabled, requested])
  | some lock =>
    decidable_of_iff (w.finished g = false ∧ w.available g lock = true ∧ mutexes.grants w g = true)
      (by simp [Enabled, requested])

/-- A goroutine runs. One that is at the wrapped sink runs when the wrapped sink has returned. -/
def run (g : Goroutine) (env : SinkEnv) : WriteGate :=
  if w.Enabled mutexes g then
    let moved := match g with
      | .call i => w.callStep i env
      | .provider j => w.providerStep j
    { moved with log := w.log ++ [g] }
  else w

def step : GateEvent → WriteGate
  | .arrive op provider => w.arrive op provider
  | .begin provider dispatches => { w with sections := w.sections ++ [{ provider := provider, dispatches := dispatches }] }
  | .run g env => w.run mutexes g env

/-- The gate after a history, from a fresh gate on. -/
def after (sink : OrderedSink) (history : List GateEvent) : WriteGate := history.foldl (step mutexes) { gate := { sink := sink } }

end WriteGate

/-! ## Key locks and their keys -/

/-- The call refers to the key locks of all its identities or of none. -/
structure Call.Shaped (c : Call) : Prop where
  entries : c.entries = [] ∨ c.entries.length = c.op.keys.length
  locked : c.locked ≤ c.entries.length

namespace Gate

variable {gate : Gate} {c next : Call} {index : ℕ} {env : SinkEnv}

/-- What the gate keeps true of its calls and key locks. -/
structure Sound (gate : Gate) : Prop where
  locked : gate.Locked
  distinct : gate.keyLocks.Distinct
  shaped : ∀ c ∈ gate.calls, c.Shaped

theorem sound_start (sink : OrderedSink) : Sound { sink := sink } :=
  ⟨locked_start sink, RefTable.distinct_empty [], List.forall_mem_nil _⟩

theorem Sound.arrive (sound : gate.Sound) (op : SinkOp) : (gate.arrive op).Sound := by
  refine ⟨sound.locked.arrive op, sound.distinct, ?_⟩
  intro c member
  rcases List.mem_append.mp member with earlier | last
  · exact sound.shaped c earlier
  · rw [List.mem_singleton.mp last]
    exact ⟨.inl rfl, Nat.le_refl 0⟩

theorem Advances.shaped {after : Gate} (advances : gate.Advances c env after next) (formed : c.Formed) (shaped : c.Shaped) :
    next.Shaped := by
  cases advances with
  | refers phase =>
    simp only [Call.Formed, phase] at formed
    refine ⟨.inr (RefTable.length_acquire _ _), ?_⟩
    change c.locked ≤ _
    rw [formed.2]
    exact Nat.zero_le _
  | locks phase entry due =>
    obtain ⟨bound, _⟩ := List.getElem?_eq_some_iff.mp due
    exact ⟨shaped.entries, bound⟩
  | unlocks err phase some => exact ⟨shaped.entries, (Nat.sub_le _ _).trans shaped.locked⟩
  | releases err phase none => exact ⟨.inl rfl, Nat.le_of_eq none⟩
  | _ =>
    exact ⟨shaped.entries, shaped.locked⟩

theorem keyLocksAfter_distinct (distinct : gate.keyLocks.Distinct) (op : SinkOp) : (gate.keyLocksAfter op).Distinct := by
  cases op with
  | close =>
    rw [keyLocksAfter]
    split_ifs
    · exact distinct
    · exact RefTable.distinct_empty _
  | _ => exact distinct

theorem Advances.distinct {after : Gate} (advances : gate.Advances c env after next) (locked : gate.Locked)
    (distinct : gate.keyLocks.Distinct) : after.keyLocks.Distinct := by
  cases advances with
  | refers => exact distinct.acquire locked.counts _
  | answered | forwarded => exact keyLocksAfter_distinct distinct _
  | releases => exact distinct.release _
  | _ => exact distinct

theorem Sound.move (sound : gate.Sound) (index : ℕ) (env : SinkEnv) : (gate.move index env).Sound := by
  refine ⟨sound.locked.move index env, ?_, ?_⟩
  all_goals rcases gate.move_advances index env with same | ⟨c, after, next, found, advances, moved⟩
  · rw [same]
    exact sound.distinct
  · rw [moved]
    exact advances.distinct sound.locked sound.distinct
  · rw [same]
    exact sound.shaped
  · rw [moved]
    intro e member
    have present := List.mem_of_getElem? found
    rcases List.mem_or_eq_of_mem_set member with earlier | rfl
    · exact sound.shaped e earlier
    · exact advances.shaped (sound.locked.formed c present) (sound.shaped c present)

end Gate

namespace WriteGate

variable {mutexes : Mutexes} {w : WriteGate}

theorem callStep_sound (sound : w.gate.Sound) (i : ℕ) (env : SinkEnv) : (w.callStep i env).gate.Sound := by
  unfold callStep
  split_ifs
  · exact sound
  · split
    · exact sound
    · exact sound.move i env

theorem providerStep_sound (sound : w.gate.Sound) (j : ℕ) : (w.providerStep j).gate.Sound := by
  unfold providerStep
  split
  · exact sound
  · split
    · exact sound
    · exact sound
    · split
      · exact sound
      · exact sound.arrive _

theorem run_sound (sound : w.gate.Sound) (g : Goroutine) (env : SinkEnv) : (w.run mutexes g env).gate.Sound := by
  unfold run
  split_ifs
  · cases g with
    | call i => exact callStep_sound sound i env
    | provider j => exact providerStep_sound sound j
  · exact sound

theorem after_sound (sink : OrderedSink) (history : List GateEvent) : (after mutexes sink history).gate.Sound := by
  induction history using List.reverseRecOn with
  | nil => exact Gate.sound_start sink
  | append_singleton earlier event ih =>
    simp only [after, List.foldl_concat] at ih ⊢
    cases event with
    | arrive op provider => exact ih.arrive op
    | begin provider dispatches => exact ih
    | run g env => exact run_sound ih g env

end WriteGate

end Spotter.Worker
