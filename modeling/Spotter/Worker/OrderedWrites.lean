import Spotter.Worker.InFlight
import Spotter.Worker.RetryNewest

/-! # Ordered writes through direct, full and retry paths

Everything that is written to a named sink goes through its gate: what the providers push, full
operations, and what the retry loop pushes again. The loop is a single one and waits for the call of an
entry before it goes on, so at most one entry is under way. The replay of a full entry is a full call like
any other, and its outcome concerns only full entries. Additions to the queue come from everywhere.
-/

namespace Spotter.Worker

open Library Domain Ports

/-- The gate of a named sink, the retry queue, and the entry that the retry loop waits for with its call. -/
structure RetrySystem (Ptr : Type) where
  gate : Gate
  service : UnsyncedService Ptr
  retrying : Option (RetryKey × ℕ) := none

inductive SystemStep (Ptr : Type) where
  /-- A direct push, a full operation or its replay, or the end of the gate arrives. -/
  | call (op : SinkOp)
  | move (index : ℕ) (env : SinkEnv)
  | queue (action : QueueAction Ptr)
  /-- The retry loop pushes an entry of its batch to the named sink. -/
  | retry (key : RetryKey)
  /-- The call returned to the retry loop. -/
  | settle

/-- The retry loop does nothing else while it waits, and pushes to the named sink only through the gate. -/
def QueueAction.allowed {Ptr : Type} (name : String) (idle : Bool) : QueueAction Ptr → Bool
  | .add _ _ _ => true
  | .addFullWithMeta _ _ => true
  | .beginCycle => idle
  | .dropGhostSinkKeys => idle
  | .retryPush key _ => idle && decide (key.sink ≠ name)
  | .retryFull _ _ => idle

/-- The step is one of the given call. -/
def SystemStep.moves {Ptr : Type} (index : ℕ) : SystemStep Ptr → Bool
  | .move moved _ => moved == index
  | _ => false

/-- The call that pushes an entry again. -/
def PendingPush.op {Ptr : Type} (deref : Ptr → Instance) (pending : PendingPush Ptr) : SinkOp :=
  .push pending.trigger [some (deref pending.item)]

theorem PendingPush.single_op {Ptr : Type} (deref : Ptr → Instance) (pending : PendingPush Ptr) : (pending.op deref).Single := by
  simp [PendingPush.op, SinkOp.Single, keysOf]

namespace RetrySystem

variable {Ptr : Type} [DecidableEq Ptr] (deref : Ptr → Instance)
  (fullBatchID : FullBatchID) (name : String)

def step (sys : RetrySystem Ptr) : SystemStep Ptr → RetrySystem Ptr
  | .call op => { sys with gate := sys.gate.arrive op }
  | .move index env => { sys with gate := sys.gate.move index env }
  | .queue action =>
    if action.allowed name sys.retrying.isNone then
      { sys with service := sys.service.step deref fullBatchID action }
    else sys
  | .retry key =>
    match sys.retrying, sys.service.batch.pushes.lookup key with
    | none, some pending =>
      if key.sink = name then
        { sys with gate := sys.gate.arrive (pending.op deref), retrying := some (key, sys.gate.calls.length) }
      else sys
    | _, _ => sys
  | .settle =>
    match sys.retrying with
    | none => sys
    | some (key, index) =>
      match (sys.gate.calls[index]?).bind Call.result with
      | none => sys
      | some err => { sys with service := sys.service.retryPush key err, retrying := none }

/-- A new gate and an empty queue. -/
def start (typed : Bool) (sinkNames : List String) : RetrySystem Ptr where
  gate := { sink := { typed := typed } }
  service := { sinkNames := sinkNames }

/-- The system after a history, in any interleaving. -/
def after (typed : Bool) (sinkNames : List String) (history : List (SystemStep Ptr)) : RetrySystem Ptr :=
  history.foldl (step deref fullBatchID name) (start typed sinkNames)

theorem after_append (typed : Bool) (sinkNames : List String) (history : List (SystemStep Ptr)) (next : SystemStep Ptr) :
    after deref fullBatchID name typed sinkNames (history ++ [next]) =
      (after deref fullBatchID name typed sinkNames history).step deref fullBatchID name next := by
  simp only [after, List.foldl_concat]

/-- The loop waits for the call of an entry of its batch. -/
def Waits (sys : RetrySystem Ptr) (key : RetryKey) (pending : PendingPush Ptr) (index : ℕ) : Prop :=
  sys.retrying = some (key, index) ∧ sys.service.batch.pushes.lookup key = some pending

/-- The ledger judges an entry stale. -/
def Stale (sys : RetrySystem Ptr) (pending : PendingPush Ptr) : Prop :=
  ∃ old, sys.gate.sink.latest.lookup (identityKey (deref pending.item)) = some old ∧
    old.staleRevision (effectiveRevision pending.trigger (deref pending.item)) = true

/-- What holds of the gate, the queue and the retry under way. -/
structure Sound (sinkNames : List String) (sys : RetrySystem Ptr) : Prop where
  ordered : sys.gate.Ordered
  names : sys.service.sinkNames = sinkNames
  ahead : ∀ key, key.sink = name → sys.service.Ahead deref key
  retried : ∀ key index, sys.retrying = some (key, index) → key.sink = name ∧ ∃ pending, sys.Waits key pending index ∧
    ∃ c, sys.gate.calls[index]? = some c ∧ c.op = pending.op deref

/-! ## One step -/

/-- A call is left alone by everything but its own moves. -/
theorem step_call {sys : RetrySystem Ptr} {index : ℕ} {c : Call} (found : sys.gate.calls[index]? = some c) (next : SystemStep Ptr) :
    ∃ d, (sys.step deref fullBatchID name next).gate.calls[index]? = some d ∧ d.op = c.op ∧
      (next.moves index = false → d = c) := by
  cases next with
  | call op => exact ⟨c, Gate.arrive_call op found, rfl, fun _ => rfl⟩
  | move moved env =>
    obtain ⟨d, there, op, same⟩ := Gate.move_call moved env found
    refine ⟨d, there, op, ?_⟩
    intro other
    exact same (by simpa [SystemStep.moves] using other)
  | queue action =>
    refine ⟨c, ?_, rfl, fun _ => rfl⟩
    simp only [RetrySystem.step]
    split_ifs <;> exact found
  | retry key =>
    refine ⟨c, ?_, rfl, fun _ => rfl⟩
    simp only [RetrySystem.step]
    split
    · split_ifs
      · exact Gate.arrive_call _ found
      · exact found
    · exact found
  | settle =>
    refine ⟨c, ?_, rfl, fun _ => rfl⟩
    simp only [RetrySystem.step]
    split
    · exact found
    · split <;> exact found

variable {deref fullBatchID name} {sinkNames : List String} {sys : RetrySystem Ptr}

/-- While the loop waits nothing changes its batch. -/
theorem allowed_batch {action : QueueAction Ptr} (allowed : action.allowed name false = true) (service : UnsyncedService Ptr) :
    (service.step deref fullBatchID action).batch = service.batch := by
  cases action with
  | add trigger instances sinks => rfl
  | addFullWithMeta pending sinks => exact (service.addFullWithMeta_pushes pending sinks).2.1
  | beginCycle | dropGhostSinkKeys | retryPush key err | retryFull key err => cases allowed

/-- The loop goes on waiting for the same entry until its call returned. -/
theorem Waits.step {key : RetryKey} {pending : PendingPush Ptr} {index : ℕ} (waits : sys.Waits key pending index)
    {next : SystemStep Ptr} (still : next ≠ .settle) : (sys.step deref fullBatchID name next).Waits key pending index := by
  obtain ⟨retrying, copied⟩ := waits
  cases next with
  | call op | move moved env => exact ⟨retrying, copied⟩
  | queue action =>
    simp only [RetrySystem.step, retrying, Option.isNone_some]
    split_ifs with allowed
    · refine ⟨rfl, ?_⟩
      rw [allowed_batch allowed]
      exact copied
    · exact ⟨retrying, copied⟩
  | retry other =>
    simp only [RetrySystem.step, retrying]
    exact ⟨retrying, copied⟩
  | settle => exact absurd rfl still

/-- The retry under way goes on while its call has not returned. -/
theorem Sound.retried_step (sound : sys.Sound deref name sinkNames) (fullBatchID : FullBatchID)
    (next : SystemStep Ptr) (still : next ≠ .settle) {key : RetryKey} {index : ℕ} (retrying : sys.retrying = some (key, index)) :
    key.sink = name ∧ ∃ pending, (sys.step deref fullBatchID name next).Waits key pending index ∧
      ∃ c, (sys.step deref fullBatchID name next).gate.calls[index]? = some c ∧ c.op = pending.op deref := by
  obtain ⟨here, pending, waits, c, found, op⟩ := sound.retried key index retrying
  obtain ⟨d, there, same, _⟩ := step_call deref fullBatchID name found next
  exact ⟨here, pending, waits.step still, d, there, same.trans op⟩

/-- Every step keeps the system sound and the ledger moving forward. -/
theorem Sound.step (sound : sys.Sound deref name sinkNames) (registered : name ∈ sinkNames) (next : SystemStep Ptr)
    (single : ∀ op, next = .call op → op.Single) :
    (sys.step deref fullBatchID name next).Sound deref name sinkNames ∧
      sys.gate.sink.Onward (sys.step deref fullBatchID name next).gate.sink := by
  have same : sys.gate.sink.Onward sys.gate.sink := .of_same rfl rfl
  cases next with
  | call op =>
    refine ⟨⟨sound.ordered.arrive (single op rfl), sound.names, sound.ahead, ?_⟩, same⟩
    intro key index retrying
    exact sound.retried_step fullBatchID _ (by rintro ⟨⟩) retrying
  | move moved env =>
    obtain ⟨ordered, onward⟩ := sound.ordered.move moved env
    refine ⟨⟨ordered, sound.names, sound.ahead, ?_⟩, onward⟩
    intro key index retrying
    exact sound.retried_step fullBatchID _ (by rintro ⟨⟩) retrying
  | queue action =>
    have going : ∀ key index, sys.retrying = some (key, index) → _ := fun key index retrying =>
      sound.retried_step fullBatchID (.queue action) (by rintro ⟨⟩) retrying
    simp only [RetrySystem.step] at going ⊢
    split_ifs at going ⊢
    · refine ⟨⟨sound.ordered, ?_, ?_, going⟩, same⟩
      · rw [UnsyncedService.step_sinkNames]
        exact sound.names
      · intro key here
        refine (sound.ahead key here).step fullBatchID ?_ action
        rw [sound.names, here]
        exact registered
    · exact ⟨sound, same⟩
  | retry key =>
    simp only [RetrySystem.step]
    cases retrying : sys.retrying with
    | some waiting => exact ⟨sound, same⟩
    | none =>
      cases copied : sys.service.batch.pushes.lookup key with
      | none => exact ⟨sound, same⟩
      | some pending =>
        dsimp only
        split_ifs with here
        · refine ⟨⟨sound.ordered.arrive (pending.single_op deref), sound.names, sound.ahead, ?_⟩, same⟩
          rintro _ _ ⟨⟩
          refine ⟨here, pending, ⟨rfl, copied⟩, { op := pending.op deref }, ?_, rfl⟩
          exact List.getElem?_concat_length
        · exact ⟨sound, same⟩
  | settle =>
    simp only [RetrySystem.step]
    cases retrying : sys.retrying with
    | none => exact ⟨sound, same⟩
    | some waiting =>
      obtain ⟨key, index⟩ := waiting
      dsimp only
      cases (sys.gate.calls[index]?).bind Call.result with
      | none => exact ⟨sound, same⟩
      | some err =>
        refine ⟨⟨sound.ordered, ?_, ?_, ?_⟩, same⟩
        · exact (sys.service.retryPush_fulls key err).2.2.trans sound.names
        · exact fun other here => (sound.ahead other here).retryPush key err
        · intro other place nothing
          cases nothing

end RetrySystem

namespace RetrySystem.Sound

variable {Ptr : Type} {deref : Ptr → Instance} {name : String} {sinkNames : List String} {sys : RetrySystem Ptr}
  {key : RetryKey} {pending : PendingPush Ptr} {index : ℕ} {c : Call}

/-- The call that the loop waits for pushes its entry. -/
theorem op_of_waits (sound : sys.Sound deref name sinkNames) (waits : sys.Waits key pending index)
    (found : sys.gate.calls[index]? = some c) : c.op = .push pending.trigger [some (deref pending.item)] := by
  obtain ⟨_, other, ⟨_, copied⟩, d, there, op⟩ := sound.retried key index waits.1
  cases Option.some.inj (copied.symm.trans waits.2)
  cases Option.some.inj (there.symm.trans found)
  exact op

/-- A stale entry is not at the wrapped sink. -/
theorem untaken (sound : sys.Sound deref name sinkNames) (waits : sys.Waits key pending index)
    (stale : sys.Stale deref pending) (found : sys.gate.calls[index]? = some c) : c.ticket = none := by
  have op := sound.op_of_waits waits found
  obtain ⟨old, recorded, judged⟩ := stale
  cases taken : c.ticket with
  | none => rfl
  | some ticket =>
    have fits := sound.ordered.fits index c found ticket taken
    obtain ⟨item, sole, accepted⟩ := fits.sent _ _ op (List.cons_ne_nil _ _)
    cases List.mem_singleton.mp sole
    have shared : c.op.exclusive = false := by
      rw [op]
      rfl
    have fresh := (fits.current _ _ accepted old recorded).2 shared
    cases judged.symm.trans fresh

end RetrySystem.Sound

/-! ## A call on its way back -/

/-- The call returns nil after at most so many more of its own moves. -/
def Call.Returning (c : Call) (left : ℕ) : Prop :=
  match c.phase with
  | .unlocking none => c.locked + 2 ≤ left
  | .leaving none => 1 ≤ left
  | .finished none => True
  | _ => False

namespace Call.Returning

variable {gate : Gate} {c : Call} {left : ℕ}

theorem phase_cases (returning : c.Returning left) :
    (c.phase = .unlocking none ∧ c.locked + 2 ≤ left) ∨ (c.phase = .leaving none ∧ 1 ≤ left) ∨ c.phase = .finished none := by
  unfold Returning at returning
  split at returning
  · exact .inl ⟨by assumption, returning⟩
  · exact .inr (.inl ⟨by assumption, returning⟩)
  · exact .inr (.inr (by assumption))
  · exact returning.elim

theorem ticket_eq_none (returning : c.Returning left) : c.ticket = none := by
  rcases returning.phase_cases with ⟨phase, _⟩ | ⟨phase, _⟩ | phase
  · simp only [Call.ticket, phase]
  · simp only [Call.ticket, phase]
  · simp only [Call.ticket, phase]

/-- Without moves left the call returned. -/
theorem result_eq (returning : c.Returning 0) : c.result = some none := by
  rcases returning.phase_cases with ⟨_, within⟩ | ⟨_, within⟩ | phase
  · omega
  · omega
  · simp only [Call.result, phase]

/-- An own move brings the call closer to its end. -/
theorem advance (returning : c.Returning left) (env : SinkEnv) : (gate.advance c env).2.Returning (left - 1) := by
  rcases returning.phase_cases with ⟨phase, within⟩ | ⟨phase, within⟩ | phase
  · simp only [Gate.advance, phase]
    split_ifs with unlocked
    · change 1 ≤ left - 1
      omega
    · change c.locked - 1 + 2 ≤ left - 1
      omega
  · simp only [Gate.advance, phase]
    trivial
  · simp only [Gate.advance, phase, Returning]

end Call.Returning

/-- A single stale item is answered at the gate, and its call unlocks one key, releases it and leaves. -/
theorem Gate.Ordered.turns_back {gate : Gate} {index : ℕ} {c : Call} {trigger : ℤ} {item : Instance} {old : IdentityRevision}
    (ordered : gate.Ordered) (found : gate.calls[index]? = some c) (op : c.op = .push trigger [some item]) (ready : c.Ready)
    (recorded : gate.sink.latest.lookup (identityKey item) = some old)
    (stale : old.staleRevision (effectiveRevision trigger item) = true) (env : SinkEnv) :
    (gate.advance c env).2.Returning 3 := by
  obtain ⟨_, length, all⟩ := ordered.locked.judged found ready
  have one : c.locked = 1 := by
    rw [all, length, op]
    rfl
  have opened : gate.sink.closed = false := by
    by_contra shut
    rw [ordered.emptied (Bool.eq_true_of_not_eq_false shut), Finmap.lookup_empty] at recorded
    cases recorded
  have answered : (gate.judge c env).2 = { c with phase := .unlocking none } := by
    simp only [Gate.judge, op, enter_stale opened recorded stale]
  have judged : (gate.advance c env).2 = { c with phase := .unlocking none } := by
    rcases ready with ⟨_, exclusive⟩ | ⟨locking, done⟩
    · rw [op] at exclusive
      cases exclusive
    · have none := List.getElem?_eq_none_iff.mpr done
      simp only [Gate.advance, locking, none]
      exact answered
  rw [judged]
  change c.locked + 2 ≤ 3
  omega

/-! ## Whole runs -/

namespace RetrySystem

variable {Ptr : Type} (deref : Ptr → Instance) {name : String} {sinkNames : List String} (typed : Bool)

theorem sound_start : (start typed sinkNames : RetrySystem Ptr).Sound deref name sinkNames where
  ordered := Gate.ordered_start typed
  names := rfl
  ahead := by
    intro key here attempted copied
    cases copied
  retried := by
    intro key index nothing
    cases nothing

variable [DecidableEq Ptr] (fullBatchID : FullBatchID)

theorem sound_after (registered : name ∈ sinkNames) (history : List (SystemStep Ptr))
    (single : ∀ op, .call op ∈ history → op.Single) :
    (after deref fullBatchID name typed sinkNames history).Sound deref name sinkNames := by
  induction history using List.reverseRecOn with
  | nil => exact sound_start deref typed
  | append_singleton earlier next ih =>
    rw [after_append]
    have sound := ih fun op member => single op (List.mem_append_left _ member)
    refine (sound.step registered next ?_).1
    rintro op rfl
    exact single op (List.mem_append_right _ (List.mem_singleton_self _))

/-- Along a run the ledger moves forward. -/
theorem onward_after (registered : name ∈ sinkNames) (before rest : List (SystemStep Ptr))
    (single : ∀ op, .call op ∈ before ++ rest → op.Single) :
    (after deref fullBatchID name typed sinkNames before).gate.sink.Onward
      (after deref fullBatchID name typed sinkNames (before ++ rest)).gate.sink := by
  induction rest using List.reverseRecOn with
  | nil =>
    rw [List.append_nil]
    exact .of_same rfl rfl
  | append_singleton earlier next ih =>
    rw [← List.append_assoc] at single ⊢
    rw [after_append]
    have calls : ∀ op, .call op ∈ before ++ earlier → op.Single := fun op member => single op (List.mem_append_left _ member)
    refine (ih calls).trans ((sound_after deref typed fullBatchID registered _ calls).step registered next ?_).2
    rintro op rfl
    exact single op (List.mem_append_right _ (List.mem_singleton_self _))

variable {deref fullBatchID} (name) {sys : RetrySystem Ptr} {key : RetryKey} {pending : PendingPush Ptr} {index : ℕ}

/-- A call on its way back is not stopped by the others. -/
theorem step_returning {c : Call} {left : ℕ} (found : sys.gate.calls[index]? = some c) (returning : c.Returning left)
    (next : SystemStep Ptr) :
    ∃ d, (sys.step deref fullBatchID name next).gate.calls[index]? = some d ∧
      d.Returning (left - if next.moves index then 1 else 0) := by
  cases own : next.moves index with
  | false =>
    obtain ⟨d, there, _, same⟩ := step_call deref fullBatchID name found next
    refine ⟨d, there, ?_⟩
    rw [same own]
    exact returning
  | true =>
    cases next with
    | move moved env =>
      obtain rfl : moved = index := by simpa [SystemStep.moves] using own
      have bound := (List.getElem?_eq_some_iff.mp found).1
      refine ⟨(sys.gate.advance c env).2, ?_, returning.advance env⟩
      simp only [RetrySystem.step, Gate.move, found]
      exact List.getElem?_set_self bound
    | call op => cases own
    | queue action => cases own
    | retry other => cases own
    | settle => cases own

theorem after_returning {c : Call} {left : ℕ} {before : List (SystemStep Ptr)}
    (waits : (after deref fullBatchID name typed sinkNames before).Waits key pending index)
    (found : (after deref fullBatchID name typed sinkNames before).gate.calls[index]? = some c)
    (returning : c.Returning left) (rest : List (SystemStep Ptr)) (unsettled : .settle ∉ rest) :
    (after deref fullBatchID name typed sinkNames (before ++ rest)).Waits key pending index ∧
      ∃ d, (after deref fullBatchID name typed sinkNames (before ++ rest)).gate.calls[index]? = some d ∧
        d.Returning (left - rest.countP (·.moves index)) := by
  induction rest using List.reverseRecOn with
  | nil =>
    rw [List.append_nil]
    exact ⟨waits, c, found, returning⟩
  | append_singleton earlier next ih =>
    rw [← List.append_assoc, after_append]
    obtain ⟨still, d, there, closer⟩ := ih fun settled => unsettled (List.mem_append_left _ settled)
    refine ⟨still.step ?_, ?_⟩
    · rintro rfl
      exact unsettled (List.mem_append_right _ (List.mem_singleton_self _))
    · obtain ⟨e, place, returns⟩ := step_returning name there closer next
      refine ⟨e, place, ?_⟩
      rw [List.countP_append, List.countP_singleton, Nat.sub_add_eq]
      exact returns

end RetrySystem

/-- In every interleaving of direct pushes with at most one item per identity, full operations and retry cycles:
the revisions that the named sink acknowledges of an identity never decrease; the ledger's revision of an identity never
decreases until the gate is closed; while the loop waits for an entry that the ledger judges stale, the entry's call is not
at the wrapped sink; and once such a call has its locks, whatever else happens, it stays away from the wrapped sink,
returns nil after three more of its own moves, and then the entry is gone from the queue or replaced by a higher revision. -/
theorem writes_ordered_on_every_path {Ptr : Type} [DecidableEq Ptr] (deref : Ptr → Instance)
    (fullBatchID : FullBatchID) (name : String) (typed : Bool) (sinkNames : List String)
    (registered : name ∈ sinkNames) (history : List (SystemStep Ptr)) (single : ∀ op, .call op ∈ history → op.Single) :
    let run := RetrySystem.after deref fullBatchID name typed sinkNames
    ((run history).gate.written.Pairwise fun earlier later =>
        earlier.identity = later.identity → earlier.revision ≤ later.revision) ∧
      (∀ before rest, history = before ++ rest → (run history).gate.sink.closed = false →
        ∀ key old, (run before).gate.sink.latest.lookup key = some old →
          ∃ new, (run history).gate.sink.latest.lookup key = some new ∧ old.revision ≤ new.revision) ∧
      (∀ key pending index c, (run history).Waits key pending index → (run history).Stale deref pending →
        (run history).gate.calls[index]? = some c → c.ticket = none) ∧
      ∀ before rest env key pending index c, history = before ++ .move index env :: rest → .settle ∉ rest →
        (run before).Waits key pending index → (run before).gate.calls[index]? = some c → c.Ready →
        (run before).Stale deref pending →
        (∃ d, (run history).gate.calls[index]? = some d ∧ d.ticket = none) ∧ (3 ≤ rest.countP (·.moves index) →
            (run (history ++ [.settle])).retrying = none ∧
              ∀ current, (run (history ++ [.settle])).service.store.pushes.lookup key = some current →
                (deref pending.item).reversion < (deref current.item).reversion) := by
  intro run
  have sound := RetrySystem.sound_after deref typed fullBatchID registered history single
  refine ⟨sound.ordered.sorted, ?_, ?_, ?_⟩
  · rintro before rest rfl opened key old found
    exact (RetrySystem.onward_after deref typed fullBatchID registered before rest single).raised opened key old found
  · intro key pending index c waits stale found
    exact sound.untaken waits stale found
  · rintro before rest env key pending index c rfl unsettled waits found ready stale
    have earlier := RetrySystem.sound_after deref typed fullBatchID registered before
      fun op member => single op (List.mem_append_left _ member)
    obtain ⟨old, recorded, judged⟩ := stale
    have turned := earlier.ordered.turns_back found (earlier.op_of_waits waits found) ready recorded judged env
    have moved : (run (before ++ [.move index env])).gate.calls[index]? =
        some ((run before).gate.advance c env).2 := by
      have bound := (List.getElem?_eq_some_iff.mp found).1
      simp only [run, RetrySystem.after_append, RetrySystem.step, Gate.move]
      rw [found]
      exact List.getElem?_set_self bound
    have waiting : (run (before ++ [.move index env])).Waits key pending index := by
      simp only [run, RetrySystem.after_append]
      exact waits.step (by rintro ⟨⟩)
    obtain ⟨still, d, there, returning⟩ := RetrySystem.after_returning name typed waiting moved turned rest unsettled
    rw [List.append_assoc, List.singleton_append] at still there
    refine ⟨⟨d, there, returning.ticket_eq_none⟩, ?_⟩
    intro enough
    have returned : d.result = some none := by
      rw [Nat.sub_eq_zero_of_le enough] at returning
      exact returning.result_eq
    have settled : run (before ++ .move index env :: rest ++ [.settle]) =
        { run (before ++ .move index env :: rest) with
          service := (run (before ++ .move index env :: rest)).service.retryPush key none
          retrying := none } := by
      simp only [run, RetrySystem.after_append, RetrySystem.step]
      rw [still.1]
      dsimp only
      rw [there, Option.bind_some, returned]
    rw [settled]
    obtain ⟨here, _⟩ := sound.retried key index still.1
    refine ⟨rfl, (sound.ahead key here).settled still.2 ?_ rfl⟩
    rw [sound.names, here]
    exact registered

/-- A registration waits in the queue while the pod's update is pushed directly; then the loop pushes the registration. -/
def overtakenRetry : List (SystemStep ℕ) :=
  [SystemStep.queue (.add 1 [some 0] ["nacos"]), SystemStep.queue .beginCycle, SystemStep.call (.push 2 [some (podEvent 2)])] ++
    List.replicate 9 (SystemStep.move 0 .acknowledging) ++
    [SystemStep.retry ⟨"k8s/prod/uid-a", "nacos"⟩] ++
    List.replicate 3 (SystemStep.move 1 .acknowledging)

/-- The overtaken registration is turned back: only the update is written, and the queue is empty afterwards. -/
theorem overtaken_retry_turns_back :
    let run := RetrySystem.after podEvent (fun _ _ => "") "nacos" true ["atlas", "nacos"]
    let history := overtakenRetry ++ SystemStep.move 1 .acknowledging :: List.replicate 3 (.move 1 .acknowledging)
    (run history).gate.written = [⟨"k8s/prod/uid-a", 8⟩] ∧ (run (history ++ [.settle])).retrying = none ∧
      (run (history ++ [.settle])).service.store.pushes.lookup ⟨"k8s/prod/uid-a", "nacos"⟩ = none := by
  intro run history
  have single : ∀ op, SystemStep.call op ∈ history → op.Single := by
    intro op member
    simp [history, overtakenRetry] at member
    subst member
    simp [SinkOp.Single, keysOf]
  have waits : (run overtakenRetry).Waits ⟨"k8s/prod/uid-a", "nacos"⟩ ⟨1, 0⟩ 1 := ⟨by decide +kernel, rfl⟩
  have found : (run overtakenRetry).gate.calls[1]? =
      some { op := .push 1 [some (podEvent 0)], phase := .locking, entries := [1], locked := 1 } := rfl
  have stale : (run overtakenRetry).Stale podEvent ⟨1, 0⟩ := ⟨⟨8, false⟩, by decide +kernel, by decide +kernel⟩
  obtain ⟨_, _, _, turned⟩ := writes_ordered_on_every_path podEvent (fun _ _ => "") "nacos" true ["atlas", "nacos"]
    (by decide) history single
  obtain ⟨_, removed⟩ := turned overtakenRetry _ _ _ _ 1 _ rfl (by simp) waits found (.inr ⟨rfl, le_rfl⟩) stale
  exact ⟨by decide +kernel, (removed (by decide)).1, by decide +kernel⟩

end Spotter.Worker
