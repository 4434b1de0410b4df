import Mathlib.Algebra.Order.BigOperators.Group.Finset
import Spotter.Library.Progress
import Spotter.Nacos.Batches
import Spotter.Nacos.ErrorTrees

/-! # Switching off the server's health checks

A write has a permit of the limiter while it runs. A register under the admin-managed policy has the health checks of its
pair switched off: the first call claims the pair and sends the update, the calls that find the pair claimed wait for
its attempt, and they all keep their permits meanwhile. Everything between two locks or around an outside call is one
step, and an outside call returns when its goroutine is scheduled, with any answer.
-/

namespace Spotter.Nacos

open Library Ports

/-- The limit of the permits, the health policy, and whether `errors.As` finds a `ClusterAdminError` in an error. -/
structure SetupConfig where
  pushConcurrency : ℕ
  positive : 0 < pushConcurrency
  adminManaged : Bool := true
  isClusterAdminError : GoError → Bool := fun _ => false

/-- What a goroutine does under its permit: `register` with either transport, an item of a batch, the `deregisterInstance` of
an offline instance, a `deregister` of the prune, or nothing, where `pushOne` skips the instance. -/
inductive WritePath where
  | sdkRegister
  | httpRegister
  | batchItem
  | deregisterInstance
  | deregister
  | skip
deriving DecidableEq

inductive SetupPhase where
  /-- Before `wireScanMu` is taken. -/
  | recovering
  /-- The catalog is read under `wireScanMu`. -/
  | scanning
  | acquiring
  /-- In `cond.Wait`. -/
  | asleep
  /-- Before the first lock of `ensureClusterHealthCheckDisabled`. -/
  | ensuring
  | updating (attempt : ℕ)
  /-- Before the second lock, with the answer of `UpdateCluster`. -/
  | settling (attempt : ℕ) (err : Option GoError)
  | waiting (attempt : ℕ)
  | writing
  | releasing (err : Option GoError)
  | returned (err : Option GoError)
  /-- A nil attempt was followed. -/
  | crashed

def SetupPhase.woken : SetupPhase → SetupPhase
  | .asleep => .acquiring
  | phase => phase

structure SetupCall where
  path : WritePath
  key : ClusterKey
  /-- The catalog is read for instances with a source identity only, and not if the metadata was refused before. -/
  sourceAware : Bool := true
  phase : SetupPhase

namespace SetupCall

/-- Where a goroutine begins: an item of a batch recovers its ownership before it asks for a permit. -/
def first : WritePath → SetupPhase
  | .batchItem => .recovering
  | _ => .acquiring

variable (call : SetupCall)

def afterAcquire : SetupPhase :=
  match call.path with
  | .sdkRegister | .httpRegister | .deregisterInstance => .recovering
  | .batchItem => .ensuring
  | .deregister => .writing
  | .skip => .releasing none

/-- After the ownership is recovered and the wire identity claimed, or one of them failed. -/
def afterRecover : Option GoError → SetupPhase
  | none =>
    match call.path with
    | .sdkRegister => .ensuring
    | .batchItem => .acquiring
    | .httpRegister | .deregisterInstance | .deregister => .writing
    | .skip => .releasing none
  | some err =>
    match call.path with
    | .batchItem => .returned (some err)
    | _ => .releasing (some err)

/-- A register over HTTP only logs an error of the setup. -/
def afterEnsure (err : Option GoError) : SetupPhase :=
  match call.path, err with
  | .httpRegister, _ => .releasing none
  | _, none => .writing
  | .sdkRegister, some err => .releasing (some (.wrapped "nacos: register %s blocked by cluster health-check setup: %w" err))
  | _, some err => .releasing (some err)

def afterWrite (err : Option GoError) : SetupPhase :=
  match call.path, err with
  | .httpRegister, none => .ensuring
  | _, err => .releasing err

/-- The goroutine has a permit. -/
def holdsPermit : Bool :=
  match call.phase with
  | .recovering | .scanning => decide (call.path ≠ .batchItem)
  | .acquiring | .asleep | .returned _ | .crashed => false
  | _ => true

/-- The goroutine claimed its pair with this attempt. -/
def Leads (attempt : ℕ) : Prop := call.phase = .updating attempt ∨ ∃ err, call.phase = .settling attempt err

end SetupCall

/-- A `healthCheckAttempt`: it is closed with its error. The pair is the one that it was made for. -/
structure HealthCheckAttempt where
  key : ClusterKey
  err : Option GoError := none
  closed : Bool := false

structure Setup (ι : Type) where
  calls : ι → SetupCall
  active : ℕ := 0
  wireScanHeld : Bool := false
  healthCheckDone : ClusterKey → Bool := fun _ => false
  healthCheckClaims : ClusterKey → Bool := fun _ => false
  healthCheckWait : ClusterKey → Option ℕ := fun _ => none
  attempts : ℕ → Option HealthCheckAttempt := fun _ => none
  issued : ℕ := 0

namespace Setup

variable {ι : Type} [DecidableEq ι] (config : SetupConfig) (s : Setup ι)

def goto (i : ι) (phase : SetupPhase) : Setup ι :=
  { s with calls := Function.update s.calls i { s.calls i with phase := phase } }

/-- `acquire`: one look at the active count under the limiter's lock. -/
def acquire (i : ι) : Setup ι :=
  if config.pushConcurrency ≤ s.active then s.goto i .asleep
  else { s.goto i (s.calls i).afterAcquire with active := s.active + 1 }

/-- `release`: the broadcast wakes everybody who sleeps. -/
def release (i : ι) (err : Option GoError) : Setup ι :=
  let left := s.goto i (.returned err)
  { left with
    active := s.active - 1
    calls := fun j => { left.calls j with phase := (left.calls j).phase.woken } }

/-- `ensureClusterHealthCheckDisabled` up to the outside call or the wait. -/
def ensure (i : ι) : Setup ι :=
  let call := s.calls i
  if config.adminManaged = false then s.goto i (call.afterEnsure none)
  else if s.healthCheckDone call.key then s.goto i (call.afterEnsure none)
  else if s.healthCheckClaims call.key then
    match s.healthCheckWait call.key with
    | some attempt => s.goto i (.waiting attempt)
    | none => s.goto i .crashed
  else
    { s.goto i (.updating s.issued) with
      healthCheckClaims := Function.update s.healthCheckClaims call.key true
      healthCheckWait := Function.update s.healthCheckWait call.key (some s.issued)
      attempts := Function.update s.attempts s.issued (some { key := call.key })
      issued := s.issued + 1 }

/-- An error of `UpdateCluster` becomes a `ClusterAdminError`. -/
def adminError (err : GoError) : GoError :=
  if config.isClusterAdminError err then err else clusterAdminError (some err)

/-- `ensureClusterHealthCheckDisabled` after the outside call. -/
def settle (i : ι) (attempt : ℕ) (err : Option GoError) : Setup ι :=
  let call := s.calls i
  { s.goto i (call.afterEnsure err) with
    healthCheckDone := if err = none then Function.update s.healthCheckDone call.key true else s.healthCheckDone
    healthCheckClaims := Function.update s.healthCheckClaims call.key false
    healthCheckWait := Function.update s.healthCheckWait call.key none
    attempts := Function.update s.attempts attempt (some { key := call.key, err := err, closed := true }) }

/-- One step of a goroutine; the answer is that of the outside call it is in. -/
def step (i : ι) (answer : Option GoError) : Setup ι :=
  let call := s.calls i
  match call.phase with
  | .recovering =>
    if call.sourceAware = false then s.goto i (call.afterRecover answer)
    else if s.wireScanHeld then s
    else { s.goto i .scanning with wireScanHeld := true }
  | .scanning => { s.goto i (call.afterRecover answer) with wireScanHeld := false }
  | .acquiring => s.acquire config i
  | .ensuring => s.ensure config i
  | .updating attempt => s.goto i (.settling attempt (answer.map (adminError config)))
  | .settling attempt err => s.settle i attempt err
  | .waiting attempt =>
    match s.attempts attempt with
    | some { err := err, closed := true, .. } => s.goto i (call.afterEnsure err)
    | _ => s
  | .writing => s.goto i (call.afterWrite answer)
  | .releasing err => s.release i err
  | .asleep | .returned _ | .crashed => s

/-- The goroutine can go on. -/
def Enabled (i : ι) : Prop :=
  match (s.calls i).phase with
  | .recovering => (s.calls i).sourceAware = true → s.wireScanHeld = false
  | .waiting attempt => ∃ found, s.attempts attempt = some found ∧ found.closed = true
  | .asleep | .returned _ | .crashed => False
  | _ => True

/-- What one step can do. -/
inductive Moves (config : SetupConfig) (s : Setup ι) (i : ι) (answer : Option GoError) : Setup ι → Prop
  | blocked (stuck : ¬s.Enabled i) : Moves config s i answer s
  | lock (phase : (s.calls i).phase = .recovering) (free : s.wireScanHeld = false) :
      Moves config s i answer { s.goto i .scanning with wireScanHeld := true }
  | recover (phase : (s.calls i).phase = .recovering) (unaware : (s.calls i).sourceAware = false) :
      Moves config s i answer (s.goto i ((s.calls i).afterRecover answer))
  | unlock (phase : (s.calls i).phase = .scanning) :
      Moves config s i answer { s.goto i ((s.calls i).afterRecover answer) with wireScanHeld := false }
  | sleep (phase : (s.calls i).phase = .acquiring) (full : config.pushConcurrency ≤ s.active) :
      Moves config s i answer (s.goto i .asleep)
  | acquire (phase : (s.calls i).phase = .acquiring) (free : s.active < config.pushConcurrency) :
      Moves config s i answer { s.goto i (s.calls i).afterAcquire with active := s.active + 1 }
  | skip (phase : (s.calls i).phase = .ensuring) : Moves config s i answer (s.goto i ((s.calls i).afterEnsure none))
  | wait {attempt : ℕ} (phase : (s.calls i).phase = .ensuring) (claimed : s.healthCheckClaims (s.calls i).key = true)
      (found : s.healthCheckWait (s.calls i).key = some attempt) : Moves config s i answer (s.goto i (.waiting attempt))
  | crash (phase : (s.calls i).phase = .ensuring) (claimed : s.healthCheckClaims (s.calls i).key = true)
      (missing : s.healthCheckWait (s.calls i).key = none) : Moves config s i answer (s.goto i .crashed)
  | claim (phase : (s.calls i).phase = .ensuring) (managed : config.adminManaged = true)
      (undone : s.healthCheckDone (s.calls i).key = false) (unclaimed : s.healthCheckClaims (s.calls i).key = false) :
      Moves config s i answer
        { s.goto i (.updating s.issued) with
          healthCheckClaims := Function.update s.healthCheckClaims (s.calls i).key true
          healthCheckWait := Function.update s.healthCheckWait (s.calls i).key (some s.issued)
          attempts := Function.update s.attempts s.issued (some { key := (s.calls i).key })
          issued := s.issued + 1 }
  | answer {attempt : ℕ} (phase : (s.calls i).phase = .updating attempt) :
      Moves config s i answer (s.goto i (.settling attempt (answer.map (adminError config))))
  | settle {attempt : ℕ} {err : Option GoError} (phase : (s.calls i).phase = .settling attempt err) :
      Moves config s i answer (s.settle i attempt err)
  | get {attempt : ℕ} {found : HealthCheckAttempt} (phase : (s.calls i).phase = .waiting attempt)
      (held : s.attempts attempt = some found) (closed : found.closed = true) :
      Moves config s i answer (s.goto i ((s.calls i).afterEnsure found.err))
  | write (phase : (s.calls i).phase = .writing) : Moves config s i answer (s.goto i ((s.calls i).afterWrite answer))
  | release {err : Option GoError} (phase : (s.calls i).phase = .releasing err) : Moves config s i answer (s.release i err)

theorem step_moves (i : ι) (answer : Option GoError) :
    Moves config s i answer (s.step config i answer) := by
  cases phase : (s.calls i).phase with
  | recovering =>
    simp only [step, phase]
    split_ifs with unaware held
    · exact .recover phase unaware
    · refine .blocked ?_
      simp only [Enabled, phase, held]
      simp [unaware]
    · exact .lock phase (Bool.not_eq_true _ ▸ held)
  | scanning =>
    simp only [step, phase]
    exact .unlock phase
  | acquiring =>
    simp only [step, phase, acquire]
    split_ifs with full
    · exact .sleep phase full
    · exact .acquire phase (Nat.lt_of_not_le full)
  | asleep =>
    simp only [step, phase]
    exact .blocked (by simp [Enabled, phase])
  | ensuring =>
    simp only [step, phase, ensure]
    split_ifs with unmanaged done claimed
    · exact .skip phase
    · exact .skip phase
    · cases found : s.healthCheckWait (s.calls i).key with
      | some attempt => exact .wait phase claimed found
      | none => exact .crash phase claimed found
    · exact .claim phase (by simpa using unmanaged) (by simpa using done) (by simpa using claimed)
  | updating attempt =>
    simp only [step, phase]
    exact .answer phase
  | settling attempt err =>
    simp only [step, phase]
    exact .settle phase
  | waiting attempt =>
    simp only [step, phase]
    split
    · next key err held => exact .get phase held rfl
    · next closed =>
      refine .blocked ?_
      simp only [Enabled, phase]
      rintro ⟨⟨key, err, isClosed⟩, held, rfl⟩
      exact closed key err held
  | writing =>
    simp only [step, phase]
    exact .write phase
  | releasing err =>
    simp only [step, phase]
    exact .release phase
  | returned err | crashed =>
    simp only [step, phase]
    exact .blocked (by simp [Enabled, phase])

/-- A goroutine that cannot go on stays where it is. -/
theorem Moves.eq_of_stuck {config : SetupConfig} {s t : Setup ι} {i : ι} {answer : Option GoError}
    (moves : Moves config s i answer t) (stuck : ¬s.Enabled i) : t = s := by
  cases moves with
  | blocked => rfl
  | lock phase free => exact absurd (by simp [Enabled, phase, free]) stuck
  | recover phase unaware => exact absurd (by simp [Enabled, phase, unaware]) stuck
  | get phase held closed => exact absurd (by simp [Enabled, phase, held, closed]) stuck
  | unlock phase | sleep phase | acquire phase | skip phase | wait phase | crash phase | claim phase | answer phase
  | settle phase | write phase | release phase => exact absurd (by simp [Enabled, phase]) stuck

end Setup

end Spotter.Nacos
