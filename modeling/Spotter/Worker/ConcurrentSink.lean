import Mathlib.Data.List.Sort
import Mathlib.Data.String.Basic
import Spotter.Library.ReferenceCounts
import Spotter.Worker.Ledger

/-! # The ordered sink under concurrent calls

Providers, full pushes and the retry worker call a sink's gate at the same time. A call takes the gate,
shared or exclusively, and an incremental push then takes the locks of its identities. Under its locks a
call reads the ledger, calls the wrapped sink, and records the acknowledgement in the ledger as it is by
then; afterwards it lets everything go. Each of these is a step, and the steps of different calls
interleave freely.

Of the language's mutexes it is only assumed that one is given to a call while no conflicting call has
it; fairness and the preference of writers would leave fewer schedules. The critical sections of the two
inner mutexes are single steps.
-/

namespace Spotter.Worker

open Library Domain Ports

/-! ## A call in two halves -/

/-- What a call that passed the gate takes along to the wrapped sink. -/
structure Ticket where
  request : Request
  admission : Admission
  call : InnerCall

inductive Verdict where
  | answer (err : Option GoError)
  | forward (ticket : Ticket)

namespace OrderedSink

/-- `runLocked` up to the call of the wrapped sink. -/
def check (s : OrderedSink) (request : Request) : Verdict :=
  if s.closed then .answer (some sinkClosed)
  else match filterItems s.latest request.mode request.trigger {} request.items with
    | .error err => .answer (some err)
    | .ok admission =>
      if request.mode.full && !request.mode.trustedComplete && s.omitsLive admission.seen then
        .answer (some .staleFullPush)
      else if request.mode.full && admission.stale then .answer (some .staleFullPush)
      else if admission.filtered.isEmpty && !request.items.isEmpty then .answer none
      else .forward ⟨request, admission, s.innerCall request.trigger admission.filtered request.mode request.operation⟩

/-- What a call does under its locks up to the call of the wrapped sink. -/
def enter (s : OrderedSink) : SinkStep → OrderedSink × Verdict
  | (.push trigger items, _) => (s, s.check ⟨trigger, items, ⟨false, false, false⟩, none⟩)
  | (.pushAll trigger items, _) => (s, s.check ⟨trigger, items, ⟨true, false, false⟩, none⟩)
  | (.pushAllWithRevalidate trigger items revalidate, env) =>
    if s.closed then (s, .answer (some sinkClosed))
    else if revalidate then
      if env.answer.ok then (s, s.check ⟨trigger, env.answer.instances, ⟨true, true, true⟩, none⟩)
      else (s, .answer none)
    else (s, s.check ⟨trigger, items, ⟨true, true, false⟩, none⟩)
  | (.pushAllOperation operation, env) =>
    if s.closed then (s, .answer (some sinkClosed))
    else match resolve operation env with
      | none => (s, .answer none)
      | some resolved =>
        if unconfirmedEmpty resolved then (s, .answer none)
        else
          let gate := s.marked resolved.scope resolved.batchID
          (gate, gate.check ⟨resolved.trigger, resolved.instances,
            ⟨true, destructiveAuthorized resolved, operation.revalidate⟩, some resolved⟩)
  | (.close, _) => (s.close, .answer none)

/-- The end of `runLocked` after the wrapped sink acknowledged the call. -/
def acknowledge (s : OrderedSink) (ticket : Ticket) : OrderedSink :=
  s.commit ticket.request.mode ticket.request.operation ticket.admission

end OrderedSink

/-! ## Calls under way -/

/-- A write that the wrapped sink acknowledged. -/
structure Write where
  identity : String
  revision : ℤ
deriving DecidableEq

/-- What the wrapped sink is asked to write. -/
def Ticket.writes (ticket : Ticket) : List Write :=
  ticket.call.items.map fun item => ⟨identityKey item, effectiveRevision ticket.request.trigger item⟩

/-- The identities of a push, sorted and without repetition. -/
def identityKeys (items : Instances) : List String := (keysOf items).dedup.insertionSort (· ≤ ·)

/-- Everything but an incremental push takes the gate exclusively. -/
def SinkOp.exclusive : SinkOp → Bool
  | .push _ _ => false
  | _ => true

/-- The identities whose locks a call takes. -/
def SinkOp.keys : SinkOp → List String
  | .push _ items => identityKeys items
  | _ => []

/-- How far a call is. -/
inductive CallPhase where
  | arriving
  /-- The call has the gate. -/
  | entered
  /-- The call refers to its key locks and takes one after the other. -/
  | locking
  | calling (ticket : Ticket)
  | acknowledged (ticket : Ticket)
  | unlocking (err : Option GoError)
  /-- The call has no key locks any more. -/
  | leaving (err : Option GoError)
  | finished (err : Option GoError)

/-- A call with the key locks it refers to and the number of those it has taken. -/
structure Call where
  op : SinkOp
  phase : CallPhase := .arriving
  entries : List ℕ := []
  locked : ℕ := 0

variable (c : Call)

namespace Call

/-- The call has the gate. -/
def inGate : Bool :=
  match c.phase with
  | .arriving => false
  | .finished _ => false
  | _ => true

/-- The key locks that the call has. -/
def holds : List ℕ := c.entries.take c.locked

def references : List (String × ℕ) := c.op.keys.zip c.entries

/-- What the call returned. -/
def result : Option (Option GoError) :=
  match c.phase with
  | .finished err => some err
  | _ => none

end Call

/-- A gate with the calls on it, and what the wrapped sink acknowledged so far. -/
structure Gate where
  sink : OrderedSink
  keyLocks : RefTable String := {}
  calls : List Call := []
  written : List Write := []

variable (gate : Gate)

namespace Gate

/-- The gate can be given to a call. -/
def admits : Bool :=
  gate.calls.all fun other => !other.inGate || (!c.op.exclusive && !other.op.exclusive)

/-- Nobody has the key lock. -/
def free (entry : ℕ) : Bool := gate.calls.all fun other => decide (entry ∉ other.holds)

/-- The key locks after a call ran; closing an open gate drops them. -/
def keyLocksAfter : SinkOp → RefTable String
  | .close => if gate.sink.closed then gate.keyLocks else { gate.keyLocks with current := ∅ }
  | _ => gate.keyLocks

/-- The call has its locks and runs up to the call of the wrapped sink. -/
def judge (env : SinkEnv) : Gate × Call :=
  let (sink, verdict) := gate.sink.enter (c.op, env)
  ({ gate with sink := sink, keyLocks := gate.keyLocksAfter c.op },
    { c with
      phase := match verdict with
        | .answer err => .unlocking err
        | .forward ticket => .calling ticket })

/-- The next step of a call; a call that has to wait stays where it is. -/
def advance (env : SinkEnv) : Gate × Call :=
  match c.phase with
  | .arriving => (gate, if gate.admits c then { c with phase := .entered } else c)
  | .entered =>
    if c.op.exclusive then gate.judge c env
    else
      let (keyLocks, entries) := gate.keyLocks.acquire c.op.keys
      ({ gate with keyLocks := keyLocks }, { c with phase := .locking, entries := entries })
  | .locking =>
    match c.entries[c.locked]? with
    | some entry => (gate, if gate.free entry then { c with locked := c.locked + 1 } else c)
    | none => gate.judge c env
  | .calling ticket =>
    match env.inner ticket.call with
    | some err => (gate, { c with phase := .unlocking (some err) })
    | none => ({ gate with written := gate.written ++ ticket.writes }, { c with phase := .acknowledged ticket })
  | .acknowledged ticket => ({ gate with sink := gate.sink.acknowledge ticket }, { c with phase := .unlocking none })
  | .unlocking err =>
    if c.locked = 0 then
      ({ gate with keyLocks := gate.keyLocks.release c.references }, { c with phase := .leaving err, entries := [] })
    else (gate, { c with locked := c.locked - 1 })
  | .leaving err => (gate, { c with phase := .finished err })
  | .finished _ => (gate, c)

/-- A call moves. -/
def move (index : ℕ) (env : SinkEnv) : Gate :=
  match gate.calls[index]? with
  | none => gate
  | some c => { (gate.advance c env).1 with calls := gate.calls.set index (gate.advance c env).2 }

/-- A call arrives. -/
def arrive (op : SinkOp) : Gate := { gate with calls := gate.calls ++ [{ op := op }] }

end Gate

/-! ## What a step can do -/

/-- The call has all the locks it needs. -/
def Call.Ready : Prop :=
  (c.phase = .entered ∧ c.op.exclusive = true) ∨ (c.phase = .locking ∧ c.entries.length ≤ c.locked)

/-- The steps of a call, with what they change of the gate. -/
inductive Gate.Advances (gate : Gate) (c : Call) (env : SinkEnv) : Gate → Call → Prop
  | waits : Advances gate c env gate c
  | enters (phase : c.phase = .arriving) (admitted : gate.admits c = true) :
      Advances gate c env gate { c with phase := .entered }
  | refers (phase : c.phase = .entered) (shared : c.op.exclusive = false) :
      Advances gate c env { gate with keyLocks := (gate.keyLocks.acquire c.op.keys).1 }
        { c with phase := .locking, entries := (gate.keyLocks.acquire c.op.keys).2 }
  | locks (phase : c.phase = .locking) (entry : ℕ) (due : c.entries[c.locked]? = some entry) (free : gate.free entry = true) :
      Advances gate c env gate { c with phase := .locking, locked := c.locked + 1 }
  | answered (ready : c.Ready) (err : Option GoError) (verdict : (gate.sink.enter (c.op, env)).2 = .answer err) :
      Advances gate c env { gate with sink := (gate.sink.enter (c.op, env)).1, keyLocks := gate.keyLocksAfter c.op }
        { c with phase := .unlocking err }
  | forwarded (ready : c.Ready) (ticket : Ticket) (verdict : (gate.sink.enter (c.op, env)).2 = .forward ticket) :
      Advances gate c env { gate with sink := (gate.sink.enter (c.op, env)).1, keyLocks := gate.keyLocksAfter c.op }
        { c with phase := .calling ticket }
  | failed (ticket : Ticket) (phase : c.phase = .calling ticket) (err : GoError) :
      Advances gate c env gate { c with phase := .unlocking (some err) }
  | acknowledged (ticket : Ticket) (phase : c.phase = .calling ticket) :
      Advances gate c env { gate with written := gate.written ++ ticket.writes } { c with phase := .acknowledged ticket }
  | records (ticket : Ticket) (phase : c.phase = .acknowledged ticket) :
      Advances gate c env { gate with sink := gate.sink.acknowledge ticket } { c with phase := .unlocking none }
  | unlocks (err : Option GoError) (phase : c.phase = .unlocking err) (some : c.locked ≠ 0) :
      Advances gate c env gate { c with phase := .unlocking err, locked := c.locked - 1 }
  | releases (err : Option GoError) (phase : c.phase = .unlocking err) (none : c.locked = 0) :
      Advances gate c env { gate with keyLocks := gate.keyLocks.release c.references }
        { c with phase := .leaving err, entries := [] }
  | leaves (err : Option GoError) (phase : c.phase = .leaving err) : Advances gate c env gate { c with phase := .finished err }

namespace Gate

variable {gate : Gate} {c : Call} {env : SinkEnv}

theorem judge_advances (ready : c.Ready) : gate.Advances c env (gate.judge c env).1 (gate.judge c env).2 := by
  cases verdict : (gate.sink.enter (c.op, env)).2 with
  | answer err =>
    simp only [judge, verdict]
    exact .answered ready err verdict
  | forward ticket =>
    simp only [judge, verdict]
    exact .forwarded ready ticket verdict

theorem advance_advances (gate : Gate) (c : Call) (env : SinkEnv) :
    gate.Advances c env (gate.advance c env).1 (gate.advance c env).2 := by
  cases phase : c.phase with
  | arriving =>
    simp only [advance, phase]
    split_ifs with admitted
    · exact .enters phase admitted
    · exact .waits
  | entered =>
    simp only [advance, phase]
    split_ifs with exclusive
    · exact judge_advances (.inl ⟨phase, exclusive⟩)
    · exact .refers phase (by simpa using exclusive)
  | locking =>
    simp only [advance, phase]
    cases due : c.entries[c.locked]? with
    | none => exact judge_advances (.inr ⟨phase, List.getElem?_eq_none_iff.mp due⟩)
    | some entry =>
      dsimp only
      split_ifs with free
      · exact .locks phase entry due free
      · exact .waits
  | calling ticket =>
    simp only [advance, phase]
    cases env.inner ticket.call with
    | none => exact .acknowledged ticket phase
    | some err => exact .failed ticket phase err
  | acknowledged ticket =>
    simp only [advance, phase]
    exact .records ticket phase
  | unlocking err =>
    simp only [advance, phase]
    split_ifs with none
    · exact .releases err phase none
    · exact .unlocks err phase none
  | leaving err =>
    simp only [advance, phase]
    exact .leaves err phase
  | finished err =>
    simp only [advance, phase]
    exact .waits

/-- A move does nothing or advances one call. -/
theorem move_advances (gate : Gate) (index : ℕ) (env : SinkEnv) : gate.move index env = gate ∨
      ∃ c next moved, gate.calls[index]? = some c ∧ gate.Advances c env next moved ∧
        gate.move index env = { next with calls := gate.calls.set index moved } := by
  cases found : gate.calls[index]? with
  | none =>
    left
    simp only [move, found]
  | some c =>
    right
    refine ⟨c, _, _, rfl, advance_advances gate c env, ?_⟩
    simp only [move, found]

theorem Advances.op {after : Gate} {next : Call} (advances : gate.Advances c env after next) : next.op = c.op := by
  cases advances <;> rfl

/-- A call keeps its place and what was asked of it; another one's move leaves it alone. -/
theorem move_call {i : ℕ} (index : ℕ) (env : SinkEnv) (found : gate.calls[i]? = some c) :
    ∃ next, (gate.move index env).calls[i]? = some next ∧ next.op = c.op ∧ (index ≠ i → next = c) := by
  rcases gate.move_advances index env with same | ⟨d, after, next, there, advances, moved⟩
  · rw [same]
    exact ⟨c, found, rfl, fun _ => rfl⟩
  · rw [moved]
    rcases eq_or_ne index i with rfl | here
    · cases Option.some.inj (there.symm.trans found)
      have bound := (List.getElem?_eq_some_iff.mp found).1
      exact ⟨next, List.getElem?_set_self bound, advances.op, fun away => absurd rfl away⟩
    · exact ⟨c, (List.getElem?_set_ne here).trans found, rfl, fun _ => rfl⟩

theorem arrive_call {i : ℕ} (op : SinkOp) (found : gate.calls[i]? = some c) : (gate.arrive op).calls[i]? = some c :=
  (List.getElem?_append_left (List.getElem?_eq_some_iff.mp found).1).trans found

end Gate

end Spotter.Worker
