import Mathlib.Algebra.BigOperators.Group.Finset.Piecewise
import Spotter.Nacos.HealthCheckSetup

/-! # The setup runs once and never blocks

The permits are counted by the phases, the scan lock has somebody who reads the catalog, and a claimed pair has exactly one
goroutine that leads its attempt. Whoever waits for an attempt has its leader to wait for, and a leader waits for nobody
but the server, so some goroutine can always go on.
-/

namespace Spotter.Nacos.Setup

open Library Ports

variable {ι : Type} [DecidableEq ι] {config : SetupConfig} {s t : Setup ι} {i j : ι} {answer : Option GoError} {attempt : ℕ}

section Frames

@[simp] theorem goto_key (s : Setup ι) (i j : ι) (phase : SetupPhase) : ((s.goto i phase).calls j).key = (s.calls j).key := by
  rcases eq_or_ne j i with rfl | same
  · simp [goto]
  · simp [goto, same]

@[simp] theorem goto_path (s : Setup ι) (i j : ι) (phase : SetupPhase) :
    ((s.goto i phase).calls j).path = (s.calls j).path := by
  rcases eq_or_ne j i with rfl | same
  · simp [goto]
  · simp [goto, same]

@[simp] theorem goto_phase (s : Setup ι) (i : ι) (phase : SetupPhase) : ((s.goto i phase).calls i).phase = phase := by
  simp [goto]

theorem goto_other (s : Setup ι) (phase : SetupPhase) (other : j ≠ i) : (s.goto i phase).calls j = s.calls j := by
  simp [goto, other]

@[simp] theorem goto_healthCheckDone (s : Setup ι) (i : ι) (phase : SetupPhase) :
    (s.goto i phase).healthCheckDone = s.healthCheckDone := rfl

@[simp] theorem release_key (s : Setup ι) (i j : ι) (err : Option GoError) :
    ((s.release i err).calls j).key = (s.calls j).key := by
  simp [release]

@[simp] theorem release_path (s : Setup ι) (i j : ι) (err : Option GoError) :
    ((s.release i err).calls j).path = (s.calls j).path := by
  simp [release]

@[simp] theorem release_phase (s : Setup ι) (i j : ι) (err : Option GoError) :
    ((s.release i err).calls j).phase = ((s.goto i (.returned err)).calls j).phase.woken := rfl

@[simp] theorem settle_calls (s : Setup ι) (i : ι) (attempt : ℕ) (err : Option GoError) :
    (s.settle i attempt err).calls = (s.goto i ((s.calls i).afterEnsure err)).calls := rfl

/-- A step leaves the pair of every call as it is. -/
theorem Moves.key (moves : Moves config s i answer t) (j : ι) : (t.calls j).key = (s.calls j).key := by
  cases moves <;> simp

/-- The others stay where they are, unless they are woken. -/
theorem Moves.others (moves : Moves config s i answer t) (other : j ≠ i) :
    (t.calls j).phase = (s.calls j).phase ∨ (s.calls j).phase = .asleep ∧ (t.calls j).phase = .acquiring := by
  cases moves with
  | release phase =>
    rw [release_phase, goto_other _ _ other]
    cases (s.calls j).phase <;> simp [SetupPhase.woken]
  | blocked => exact .inl rfl
  | settle => exact .inl (by rw [settle_calls, goto_other _ _ other])
  | _ => exact .inl (congrArg SetupCall.phase (goto_other _ _ other))

end Frames

variable (call : SetupCall)

section Plain

/-- A goroutine there neither sleeps nor has to do with an attempt. -/
def Plain : SetupPhase → Prop
  | .asleep | .updating _ | .settling _ _ | .waiting _ | .crashed => False
  | _ => True

theorem plain_afterRecover (answer : Option GoError) : Plain (call.afterRecover answer) := by
  cases path : call.path <;> cases answer <;> simp [Plain, SetupCall.afterRecover, path]

theorem plain_afterAcquire : Plain call.afterAcquire := by
  cases path : call.path <;> simp [Plain, SetupCall.afterAcquire, path]

theorem plain_afterEnsure (err : Option GoError) : Plain (call.afterEnsure err) := by
  cases path : call.path <;> cases err <;> simp [Plain, SetupCall.afterEnsure, path]

theorem plain_afterWrite (err : Option GoError) : Plain (call.afterWrite err) := by
  cases path : call.path <;> cases err <;> simp [Plain, SetupCall.afterWrite, path]

theorem Plain.not_leads {call : SetupCall} (plain : Plain call.phase) (attempt : ℕ) : ¬call.Leads attempt := by
  rintro (updating | ⟨err, settling⟩)
  · exact (updating ▸ plain).elim
  · exact (settling ▸ plain).elim

end Plain

variable {phase : SetupPhase} {err : Option GoError}

section Permits

/-- Recovering the ownership keeps the permit where there is one. -/
theorem holdsPermit_afterRecover (phase : (s.calls i).phase = .recovering ∨ (s.calls i).phase = .scanning)
    (answer : Option GoError) :
    ((s.goto i ((s.calls i).afterRecover answer)).calls i).holdsPermit = (s.calls i).holdsPermit := by
  rcases phase with phase | phase <;> cases path : (s.calls i).path <;> cases answer <;>
    simp [SetupCall.holdsPermit, SetupCall.afterRecover, phase, path]

theorem holdsPermit_afterAcquire (s : Setup ι) (i : ι) :
    ((s.goto i (s.calls i).afterAcquire).calls i).holdsPermit = true := by
  cases path : (s.calls i).path <;> simp [SetupCall.holdsPermit, SetupCall.afterAcquire, path]

theorem holdsPermit_afterEnsure (s : Setup ι) (i : ι) (err : Option GoError) :
    ((s.goto i ((s.calls i).afterEnsure err)).calls i).holdsPermit = true := by
  cases path : (s.calls i).path <;> cases err <;> simp [SetupCall.holdsPermit, SetupCall.afterEnsure, path]

theorem holdsPermit_afterWrite (s : Setup ι) (i : ι) (err : Option GoError) :
    ((s.goto i ((s.calls i).afterWrite err)).calls i).holdsPermit = true := by
  cases path : (s.calls i).path <;> cases err <;> simp [SetupCall.holdsPermit, SetupCall.afterWrite, path]

variable [Fintype ι]

/-- How many goroutines have a permit. -/
def held (s : Setup ι) : ℕ := (Finset.univ.filter fun i => (s.calls i).holdsPermit = true).card

/-- The limiter counts the goroutines with a permit, and nobody sleeps while there is one left. -/
structure Counted (config : SetupConfig) (s : Setup ι) : Prop where
  active : s.active = s.held
  bounded : s.active ≤ config.pushConcurrency
  full : ∀ i, (s.calls i).phase = .asleep → config.pushConcurrency ≤ s.active

theorem held_goto (s : Setup ι) (i : ι) (phase : SetupPhase) :
    (s.goto i phase).held + (if (s.calls i).holdsPermit = true then 1 else 0) =
      s.held + if ((s.goto i phase).calls i).holdsPermit = true then 1 else 0 := by
  have same : ∀ j, j ≠ i → (if ((s.goto i phase).calls j).holdsPermit = true then 1 else 0) =
      if (s.calls j).holdsPermit = true then 1 else 0 := by
    intro j other
    rw [goto_other _ _ other]
  simp only [held, Finset.card_filter]
  exact Progress.sum_change i same

theorem held_release (s : Setup ι) (i : ι) (err : Option GoError) : (s.release i err).held = (s.goto i (.returned err)).held := by
  have woken : ∀ j, ((s.release i err).calls j).holdsPermit = ((s.goto i (.returned err)).calls j).holdsPermit := by
    intro j
    simp only [SetupCall.holdsPermit, release_phase, release_path, goto_path]
    cases ((s.goto i (.returned err)).calls j).phase <;> rfl
  simp only [held, woken]

section

variable (counted : Counted config s)

include counted

/-- A goroutine goes on that neither gets nor gives back a permit. -/
theorem Counted.goto (calls : t.calls = (s.goto i phase).calls)
    (active : t.active = s.active) (same : ((s.goto i phase).calls i).holdsPermit = (s.calls i).holdsPermit)
    (awake : phase = .asleep → config.pushConcurrency ≤ s.active) : Counted config t where
  active := by
    have held := held_goto s i phase
    rw [same] at held
    have held' : t.held = (s.goto i phase).held := by simp only [Setup.held, calls]
    have counted := counted.active
    omega
  bounded := active ▸ counted.bounded
  full := by
    intro j asleep
    rw [active]
    rw [calls] at asleep
    rcases eq_or_ne j i with rfl | here
    · exact awake (by simpa using asleep)
    · rw [goto_other _ _ here] at asleep
      exact counted.full j asleep

theorem Counted.acquire (phase : (s.calls i).phase = .acquiring) (free : s.active < config.pushConcurrency) :
    Counted config { s.goto i (s.calls i).afterAcquire with active := s.active + 1 } where
  active := by
    have held := held_goto s i (s.calls i).afterAcquire
    have none : (s.calls i).holdsPermit = false := by simp [SetupCall.holdsPermit, phase]
    rw [holdsPermit_afterAcquire, none, if_neg Bool.false_ne_true, if_pos rfl, Nat.add_zero, ← counted.active] at held
    exact held.symm
  bounded := free
  full := by
    intro j asleep
    rcases eq_or_ne j i with rfl | here
    · cases path : (s.calls j).path <;> simp [SetupCall.afterAcquire, path] at asleep
    · change ((s.goto i _).calls j).phase = _ at asleep
      rw [goto_other _ _ here] at asleep
      exact Nat.le_succ_of_le (counted.full j asleep)

/-- After a release everybody is awake. -/
theorem Counted.release (phase : (s.calls i).phase = .releasing err) : Counted config (s.release i err) where
  active := by
    have held := held_goto s i (.returned err)
    have one : (s.calls i).holdsPermit = true := by simp [SetupCall.holdsPermit, phase]
    have none : ((s.goto i (.returned err)).calls i).holdsPermit = false := by simp [SetupCall.holdsPermit]
    rw [one, none, if_pos rfl, if_neg Bool.false_ne_true, Nat.add_zero, ← counted.active] at held
    rw [held_release]
    change s.active - 1 = _
    omega
  bounded := (Nat.sub_le _ _).trans counted.bounded
  full := by
    intro j asleep
    rw [release_phase] at asleep
    cases before : ((s.goto i (.returned err)).calls j).phase <;> simp [SetupPhase.woken, before] at asleep

/-- The permits stay counted, as long as nobody crashes with one. -/
theorem Counted.step (alive : ∀ j, (t.calls j).phase ≠ .crashed) (moves : Moves config s i answer t) : Counted config t := by
  have plain : ∀ {phase}, Plain phase → phase = .asleep → config.pushConcurrency ≤ s.active := by
    rintro phase plain rfl
    exact plain.elim
  cases moves with
  | blocked => exact counted
  | lock phase => exact counted.goto rfl rfl (by simp [SetupCall.holdsPermit, phase]) (plain trivial)
  | recover phase => exact counted.goto rfl rfl (holdsPermit_afterRecover (.inl phase) answer) (plain (plain_afterRecover _ _))
  | unlock phase => exact counted.goto rfl rfl (holdsPermit_afterRecover (.inr phase) answer) (plain (plain_afterRecover _ _))
  | sleep phase full => exact counted.goto rfl rfl (by simp [SetupCall.holdsPermit, phase]) fun _ => full
  | acquire phase free => exact counted.acquire phase free
  | release phase => exact counted.release phase
  | skip phase | settle phase | get phase =>
    have holds : (s.calls i).holdsPermit = true := by simp [SetupCall.holdsPermit, phase]
    exact counted.goto rfl rfl ((holdsPermit_afterEnsure s i _).trans holds.symm) (plain (plain_afterEnsure _ _))
  | wait phase | claim phase | answer phase =>
    exact counted.goto rfl rfl (by simp [SetupCall.holdsPermit, phase]) (by simp)
  | write phase =>
    have holds : (s.calls i).holdsPermit = true := by simp [SetupCall.holdsPermit, phase]
    exact counted.goto rfl rfl ((holdsPermit_afterWrite s i _).trans holds.symm) (plain (plain_afterWrite _ _))
  | crash => exact absurd (goto_phase s i _) (alive i)

end

end Permits

section Scan

/-- The lock of the scan is held by somebody who reads the catalog. -/
def Scanned (s : Setup ι) : Prop := s.wireScanHeld = true → ∃ i, (s.calls i).phase = .scanning

theorem Scanned.step (scanned : s.Scanned) (moves : Moves config s i answer t) : t.Scanned := by
  intro held
  have kept : ∀ {j}, j ≠ i → (s.calls j).phase = .scanning → (t.calls j).phase = .scanning := by
    intro j other reads
    rcases moves.others other with same | ⟨asleep, _⟩
    · exact same.trans reads
    · rw [reads] at asleep
      cases asleep
  cases moves with
  | blocked => exact scanned held
  | lock => exact ⟨i, goto_phase s i _⟩
  | unlock => cases held
  | recover phase | sleep phase | acquire phase | skip phase | wait phase | crash phase | claim phase | answer phase
  | settle phase | get phase | write phase | release phase =>
    obtain ⟨j, reads⟩ := scanned held
    have other : j ≠ i := by
      rintro rfl
      rw [phase] at reads
      cases reads
    exact ⟨j, kept other reads⟩

end Scan

section Claims

theorem leads_inj {call : SetupCall} {a b : ℕ} (first : call.Leads a) (second : call.Leads b) : a = b := by
  rcases first with first | ⟨_, first⟩ <;> rcases second with second | ⟨_, second⟩ <;> simp_all

/-- An attempt of the pair that is closed, or has a leader who will close it. -/
def Awaited (s : Setup ι) (key : ClusterKey) (attempt : ℕ) : Prop :=
  ∃ found, s.attempts attempt = some found ∧ found.key = key ∧ (found.closed = true ∨ ∃ j, (s.calls j).Leads attempt)

/-- The pair is claimed for an open attempt. -/
structure Underway (config : SetupConfig) (s : Setup ι) (key : ClusterKey) (attempt : ℕ) : Prop where
  managed : config.adminManaged = true
  undone : s.healthCheckDone key = false
  claimed : s.healthCheckClaims key = true
  waited : s.healthCheckWait key = some attempt
  opened : s.attempts attempt = some { key := key }

/-- A claimed pair has one goroutine that leads its attempt, and who waits for an attempt waits for its leader until it is
closed. -/
structure Claimed (config : SetupConfig) (s : Setup ι) : Prop where
  leader : ∀ {i attempt}, (s.calls i).Leads attempt → Underway config s (s.calls i).key attempt
  claimed : ∀ {key}, s.healthCheckClaims key = true →
    ∃ i attempt, (s.calls i).key = key ∧ (s.calls i).Leads attempt ∧ s.healthCheckWait key = some attempt
  unique : ∀ {i j attempt}, (s.calls i).Leads attempt → (s.calls j).Leads attempt → i = j
  waiter : ∀ {i attempt}, (s.calls i).phase = .waiting attempt → s.Awaited (s.calls i).key attempt
  issued : ∀ {attempt found}, s.attempts attempt = some found → attempt < s.issued
  alive : ∀ i, (s.calls i).phase ≠ .crashed

omit [DecidableEq ι] in
/-- Two leaders of one pair are the same. -/
theorem Claimed.one_leader (claims : Claimed config s) {a b : ℕ} (first : (s.calls i).Leads a) (second : (s.calls j).Leads b)
    (same : (s.calls i).key = (s.calls j).key) : i = j := by
  have waited := (claims.leader first).waited
  rw [same] at waited
  cases (claims.leader second).waited.symm.trans waited
  exact claims.unique first second

/-- What the pairs and their attempts do not notice. -/
structure Undisturbed (s t : Setup ι) : Prop where
  done : t.healthCheckDone = s.healthCheckDone
  claims : t.healthCheckClaims = s.healthCheckClaims
  wait : t.healthCheckWait = s.healthCheckWait
  attempts : t.attempts = s.attempts
  issued : t.issued = s.issued
  key : ∀ j, (t.calls j).key = (s.calls j).key
  leads : ∀ j attempt, (t.calls j).Leads attempt ↔ (s.calls j).Leads attempt
  waits : ∀ j attempt, (t.calls j).phase = .waiting attempt →
    (s.calls j).phase = .waiting attempt ∨ s.Awaited (s.calls j).key attempt
  crashes : ∀ j, (t.calls j).phase = .crashed → (s.calls j).phase = .crashed

omit [DecidableEq ι] in
theorem Claimed.undisturbed (claims : Claimed config s) (same : Undisturbed s t) : Claimed config t where
  leader := by
    intro i attempt leads
    obtain ⟨managed, undone, claimed, waited, opened⟩ := claims.leader ((same.leads i attempt).mp leads)
    rw [same.key i]
    exact ⟨managed, same.done ▸ undone, same.claims ▸ claimed, same.wait ▸ waited, same.attempts ▸ opened⟩
  claimed := by
    intro key claimed
    rw [same.claims] at claimed
    obtain ⟨i, attempt, isKey, leads, waited⟩ := claims.claimed claimed
    exact ⟨i, attempt, (same.key i).trans isKey, (same.leads i attempt).mpr leads, same.wait ▸ waited⟩
  unique := by
    intro i j attempt first second
    exact claims.unique ((same.leads i attempt).mp first) ((same.leads j attempt).mp second)
  waiter := by
    intro i attempt waits
    obtain ⟨found, held, isKey, closed⟩ := (same.waits i attempt waits).elim claims.waiter id
    exact ⟨found, same.attempts ▸ held, isKey.trans (same.key i).symm, closed.imp_right fun ⟨j, leads⟩ =>
      ⟨j, (same.leads j attempt).mpr leads⟩⟩
  issued := by
    intro attempt found held
    rw [same.issued]
    exact claims.issued (same.attempts ▸ held)
  alive := fun j crashed => claims.alive j (same.crashes j crashed)

omit [DecidableEq ι] in
/-- The pairs do not notice the limiter and the lock of the scan. -/
theorem Undisturbed.locks (same : Undisturbed s t) (active : ℕ) (held : Bool) :
    Undisturbed s { t with active := active, wireScanHeld := held } :=
  { same with }

theorem undisturbed_goto (leads : ∀ attempt, ((s.goto i phase).calls i).Leads attempt ↔ (s.calls i).Leads attempt)
    (waits : ∀ attempt, phase = .waiting attempt → s.Awaited (s.calls i).key attempt) (alive : phase ≠ .crashed) :
    Undisturbed s (s.goto i phase) where
  done := rfl
  claims := rfl
  wait := rfl
  attempts := rfl
  issued := rfl
  key := fun j => goto_key s i j phase
  leads := by
    intro j attempt
    rcases eq_or_ne j i with rfl | here
    · exact leads attempt
    · rw [goto_other _ _ here]
  waits := by
    intro j attempt waiting
    rcases eq_or_ne j i with rfl | here
    · rw [goto_phase] at waiting
      exact .inr (waits attempt waiting)
    · rw [goto_other _ _ here] at waiting
      exact .inl waiting
  crashes := by
    intro j crashed
    rcases eq_or_ne j i with rfl | here
    · rw [goto_phase] at crashed
      exact absurd crashed alive
    · rwa [goto_other _ _ here] at crashed

theorem undisturbed_plain (quiet : ∀ attempt, ¬(s.calls i).Leads attempt) (plain : Plain phase) :
    Undisturbed s (s.goto i phase) := by
  refine undisturbed_goto ?_ ?_ ?_
  · intro attempt
    rw [iff_false_right (quiet attempt)]
    exact Plain.not_leads ((goto_phase s i _).symm ▸ plain) attempt
  · rintro attempt rfl
    exact plain.elim
  · rintro rfl
    exact plain.elim

theorem woken_eq_iff {target : SetupPhase} (awake : target ≠ .asleep) (inside : target ≠ .acquiring) :
    phase.woken = target ↔ phase = target := by
  cases phase <;> simp [SetupPhase.woken, awake.symm, inside.symm]

/-- Nobody who sleeps has to do with an attempt. -/
theorem undisturbed_release (phase : (s.calls i).phase = .releasing err) :
    Undisturbed s (s.release i err) := by
  have left : Undisturbed s (s.goto i (.returned err)) := undisturbed_plain (by simp [SetupCall.Leads, phase]) trivial
  refine { left with key := fun j => release_key s i j err, leads := ?_, waits := ?_, crashes := ?_ }
  · intro j attempt
    rw [← left.leads j attempt]
    simp only [SetupCall.Leads, release_phase]
    rw [woken_eq_iff (by simp) (by simp), exists_congr fun _ => woken_eq_iff (by simp) (by simp)]
  · intro j attempt waiting
    rw [release_phase, woken_eq_iff (by simp) (by simp)] at waiting
    exact left.waits j attempt waiting
  · intro j crashed
    rw [release_phase, woken_eq_iff (by simp) (by simp)] at crashed
    exact left.crashes j crashed

section

variable (claims : Claimed config s)

include claims

/-- A goroutine claims or frees its pair. Whoever else leads an attempt leads it for another pair, and does not notice. -/
theorem Claimed.turn (calls : t.calls = (s.goto i phase).calls)
    (alone : ∀ {j attempt}, j ≠ i → (s.calls j).Leads attempt → (s.calls j).key ≠ (s.calls i).key)
    (pairs : ∀ key, key ≠ (s.calls i).key → t.healthCheckDone key = s.healthCheckDone key ∧
      t.healthCheckClaims key = s.healthCheckClaims key ∧ t.healthCheckWait key = s.healthCheckWait key)
    (attempts : ∀ {j attempt}, j ≠ i → (s.calls j).Leads attempt → t.attempts attempt = s.attempts attempt)
    (leader : ∀ {attempt}, (t.calls i).Leads attempt → Underway config t (s.calls i).key attempt)
    (claimed : t.healthCheckClaims (s.calls i).key = true →
      ∃ attempt, (t.calls i).Leads attempt ∧ t.healthCheckWait (s.calls i).key = some attempt)
    (waiter : ∀ {j attempt}, (s.calls j).phase = .waiting attempt → t.Awaited (s.calls j).key attempt)
    (issued : ∀ {attempt found}, t.attempts attempt = some found → attempt < t.issued)
    (active : ∀ attempt, phase ≠ .waiting attempt) (alive : phase ≠ .crashed) : Claimed config t := by
  have same : ∀ {j}, j ≠ i → t.calls j = s.calls j := by
    intro j other
    rw [calls, goto_other _ _ other]
  have key : ∀ j, (t.calls j).key = (s.calls j).key := by
    intro j
    rw [calls, goto_key]
  have others : ∀ {j attempt}, j ≠ i → (t.calls j).Leads attempt → Underway config t (s.calls j).key attempt := by
    intro j attempt other leads
    rw [same other] at leads
    obtain ⟨managed, undone, claimed, waited, opened⟩ := claims.leader leads
    obtain ⟨sameDone, sameClaims, sameWait⟩ := pairs _ (alone other leads)
    exact ⟨managed, sameDone.trans undone, sameClaims.trans claimed, sameWait.trans waited, (attempts other leads).trans opened⟩
  have apart : ∀ {j attempt}, j ≠ i → (t.calls j).Leads attempt → ¬(t.calls i).Leads attempt := by
    intro j attempt other leads own
    have pair := (others other leads).opened.symm.trans (leader own).opened
    exact alone other (same other ▸ leads) (congrArg HealthCheckAttempt.key (Option.some.inj pair))
  refine ⟨?_, ?_, ?_, ?_, issued, ?_⟩
  · intro j attempt leads
    rw [key]
    rcases eq_or_ne j i with rfl | other
    · exact leader leads
    · exact others other leads
  · intro pair held
    rcases eq_or_ne pair (s.calls i).key with rfl | other
    · obtain ⟨attempt, leads, waited⟩ := claimed held
      exact ⟨i, attempt, key i, leads, waited⟩
    · obtain ⟨_, sameClaims, sameWait⟩ := pairs pair other
      obtain ⟨j, attempt, rfl, leads, waited⟩ := claims.claimed (sameClaims.symm.trans held)
      have differs : j ≠ i := fun here => other (by rw [here])
      exact ⟨j, attempt, key j, (same differs).symm ▸ leads, sameWait.trans waited⟩
  · intro j k attempt first second
    rcases eq_or_ne j i with rfl | firstOther
    · by_contra differs
      exact apart (Ne.symm differs) second first
    · rcases eq_or_ne k i with rfl | secondOther
      · exact absurd second (apart firstOther first)
      · exact claims.unique (same firstOther ▸ first) (same secondOther ▸ second)
  · intro j attempt waits
    rcases eq_or_ne j i with rfl | other
    · rw [calls, goto_phase] at waits
      exact absurd waits (active attempt)
    · rw [same other] at waits ⊢
      exact waiter waits
  · intro j
    rcases eq_or_ne j i with rfl | other
    · rwa [calls, goto_phase]
    · rw [same other]
      exact claims.alive j

/-- A goroutine claims a free pair. -/
theorem Claimed.claim (managed : config.adminManaged = true)
    (undone : s.healthCheckDone (s.calls i).key = false) (unclaimed : s.healthCheckClaims (s.calls i).key = false) :
    Claimed config
      { s.goto i (.updating s.issued) with
        healthCheckClaims := Function.update s.healthCheckClaims (s.calls i).key true
        healthCheckWait := Function.update s.healthCheckWait (s.calls i).key (some s.issued)
        attempts := Function.update s.attempts s.issued (some { key := (s.calls i).key })
        issued := s.issued + 1 } := by
  have alone : ∀ {j attempt}, (s.calls j).Leads attempt → (s.calls j).key ≠ (s.calls i).key := by
    intro j attempt leads same
    cases unclaimed.symm.trans (same ▸ (claims.leader leads).claimed)
  refine claims.turn rfl (fun _ => alone) (fun key other => ?_) ?_ ?_ ?_ ?_ ?_ (by simp) (by simp)
  · simp [other]
  · intro j attempt _ leads
    exact Function.update_of_ne (claims.issued (claims.leader leads).opened).ne _ _
  · intro attempt leads
    obtain rfl : attempt = s.issued := by simpa [SetupCall.Leads, eq_comm] using leads
    exact ⟨managed, undone, by simp, by simp, by simp⟩
  · exact fun _ => ⟨s.issued, by simp [SetupCall.Leads], by simp⟩
  · intro j attempt waits
    obtain ⟨found, held, isKey, closed⟩ := claims.waiter waits
    refine ⟨found, (Function.update_of_ne (claims.issued held).ne _ _).trans held, isKey, closed.imp_right ?_⟩
    rintro ⟨k, leads⟩
    have differs : k ≠ i := fun here => alone leads (by rw [here])
    exact ⟨k, by simpa [goto_other _ _ differs] using leads⟩
  · intro attempt found held
    rcases eq_or_ne attempt s.issued with rfl | older
    · simp
    · exact Nat.lt_succ_of_lt (claims.issued (by simpa [older] using held))

/-- A leader closes its attempt and frees the pair. -/
theorem Claimed.settle (phase : (s.calls i).phase = .settling attempt err) :
    Claimed config (s.settle i attempt err) := by
  have leads : (s.calls i).Leads attempt := .inr ⟨err, phase⟩
  have held := (claims.leader leads).opened
  have plain := plain_afterEnsure (s.calls i) err
  have quiet : ∀ other, ¬((s.settle i attempt err).calls i).Leads other := Plain.not_leads ((goto_phase s i _).symm ▸ plain)
  refine claims.turn (settle_calls s i attempt err) ?_ (fun key other => ?_) ?_ ?_ ?_ ?_ ?_ ?_ ?_
  · exact fun other leads' same => other (claims.one_leader leads' leads same)
  · by_cases succeeded : err = none <;> simp [Setup.settle, succeeded, other]
  · intro j other differs leads'
    refine Function.update_of_ne ?_ _ _
    rintro rfl
    exact differs (claims.unique leads' leads)
  · exact fun own => absurd own (quiet _)
  · simp [Setup.settle]
  · intro j other waits
    obtain ⟨found, heldOther, isKey, closed⟩ := claims.waiter waits
    rcases eq_or_ne other attempt with rfl | older
    · cases held.symm.trans heldOther
      exact ⟨{ key := (s.calls i).key, err := err, closed := true }, by simp [Setup.settle], isKey, .inl rfl⟩
    · refine ⟨found, by simpa [Setup.settle, older] using heldOther, isKey, closed.imp_right ?_⟩
      rintro ⟨k, leads'⟩
      have differs : k ≠ i := by
        rintro rfl
        exact older (leads_inj leads' leads)
      exact ⟨k, by rwa [settle_calls, goto_other _ _ differs]⟩
  · intro other found heldOther
    rcases eq_or_ne other attempt with rfl | older
    · exact claims.issued held
    · exact claims.issued (by simpa [Setup.settle, older] using heldOther)
  · rintro other waits
    exact (waits ▸ plain).elim
  · intro crashed
    exact (crashed ▸ plain).elim

omit [DecidableEq ι] in
/-- A pair that is found claimed has an attempt with a leader. -/
theorem Claimed.awaited {key : ClusterKey} (claimed : s.healthCheckClaims key = true) :
    ∃ attempt, s.healthCheckWait key = some attempt ∧ s.Awaited key attempt := by
  obtain ⟨j, attempt, isKey, leads, waited⟩ := claims.claimed claimed
  exact ⟨attempt, waited, _, (claims.leader leads).opened, isKey, .inr ⟨j, leads⟩⟩

theorem Claimed.step (moves : Moves config s i answer t) : Claimed config t := by
  cases moves with
  | blocked => exact claims
  | claim phase managed undone unclaimed => exact claims.claim managed undone unclaimed
  | settle phase => exact claims.settle phase
  | crash phase claimed missing =>
    obtain ⟨_, waited, _⟩ := claims.awaited claimed
    rw [missing] at waited
    cases waited
  | @wait attempt phase claimed found =>
    refine claims.undisturbed (undisturbed_goto (by simp [SetupCall.Leads, phase]) ?_ (by simp))
    rintro _ ⟨⟩
    obtain ⟨_, waited, awaited⟩ := claims.awaited claimed
    rw [found] at waited
    cases waited
    exact awaited
  | lock phase =>
    have same : Undisturbed s (s.goto i .scanning) := undisturbed_plain (by simp [SetupCall.Leads, phase]) trivial
    exact claims.undisturbed (same.locks _ _)
  | recover phase =>
    exact claims.undisturbed (undisturbed_plain (by simp [SetupCall.Leads, phase]) (plain_afterRecover _ _))
  | unlock phase =>
    have same : Undisturbed s (s.goto i ((s.calls i).afterRecover answer)) :=
      undisturbed_plain (by simp [SetupCall.Leads, phase]) (plain_afterRecover _ _)
    exact claims.undisturbed (same.locks _ _)
  | sleep phase => exact claims.undisturbed (undisturbed_goto (by simp [SetupCall.Leads, phase]) (by simp) (by simp))
  | acquire phase =>
    have same : Undisturbed s (s.goto i (s.calls i).afterAcquire) :=
      undisturbed_plain (by simp [SetupCall.Leads, phase]) (plain_afterAcquire _)
    exact claims.undisturbed (same.locks _ _)
  | skip phase | get phase =>
    exact claims.undisturbed (undisturbed_plain (by simp [SetupCall.Leads, phase]) (plain_afterEnsure _ _))
  | answer phase =>
    exact claims.undisturbed (undisturbed_goto (by simp [SetupCall.Leads, phase]) (by simp) (by simp))
  | write phase =>
    exact claims.undisturbed (undisturbed_plain (by simp [SetupCall.Leads, phase]) (plain_afterWrite _ _))
  | release phase => exact claims.undisturbed (undisturbed_release phase)

end

end Claims

section Measure

/-- How far a goroutine is from its return. -/
def rank : ℕ :=
  match call.phase with
  | .returned _ | .crashed => 0
  | .releasing _ => 1
  | .writing => if call.path = .httpRegister then 6 else 2
  | .settling _ _ | .waiting _ => 3
  | .updating _ => 4
  | .ensuring => 5
  | .scanning => 7
  | .recovering => 8
  | .acquiring | .asleep => if call.path = .batchItem then 6 else 9

def awake : SetupPhase → ℕ
  | .acquiring => 1
  | _ => 0

/-- A release wakes everybody, so that one rank weighs more than all the wakings. -/
def weight (size : ℕ) (call : SetupCall) : ℕ := (size + 1) * rank call + awake call.phase

theorem awake_le_one (phase : SetupPhase) : awake phase ≤ 1 := by
  cases phase <;> simp [awake]

theorem weight_lt {size : ℕ} (nonempty : 0 < size) {before after : SetupCall} (lower : rank after < rank before) :
    weight size after < weight size before := by
  have atMost := awake_le_one after.phase
  have scaled : (size + 1) * (rank after + 1) ≤ (size + 1) * rank before := Nat.mul_le_mul_left _ lower
  rw [Nat.mul_succ] at scaled
  simp only [weight]
  omega

theorem weight_woken (size : ℕ) (call : SetupCall) : weight size { call with phase := call.phase.woken } ≤ weight size call + 1 := by
  have same : rank { call with phase := call.phase.woken } = rank call := by
    cases phase : call.phase <;> simp [rank, SetupPhase.woken, phase]
  have atMost := awake_le_one call.phase.woken
  simp only [weight, same]
  omega

theorem rank_afterAcquire (phase : (s.calls i).phase = .acquiring) :
    rank ((s.goto i (s.calls i).afterAcquire).calls i) < rank (s.calls i) := by
  cases path : (s.calls i).path <;> simp [rank, SetupCall.afterAcquire, phase, path]

theorem rank_afterRecover (s : Setup ι) (i : ι) (answer : Option GoError) :
    rank ((s.goto i ((s.calls i).afterRecover answer)).calls i) ≤ 6 := by
  cases path : (s.calls i).path <;> cases answer <;> simp [rank, SetupCall.afterRecover, path]

theorem rank_afterEnsure (s : Setup ι) (i : ι) (err : Option GoError) :
    rank ((s.goto i ((s.calls i).afterEnsure err)).calls i) ≤ 2 := by
  cases path : (s.calls i).path <;> cases err <;> simp [rank, SetupCall.afterEnsure, path]

theorem rank_afterWrite (phase : (s.calls i).phase = .writing) (err : Option GoError) :
    rank ((s.goto i ((s.calls i).afterWrite err)).calls i) < rank (s.calls i) := by
  cases path : (s.calls i).path <;> cases err <;> simp [rank, SetupCall.afterWrite, phase, path]

variable [Fintype ι]

def measure (s : Setup ι) : ℕ := ∑ i, weight (Fintype.card ι) (s.calls i)

theorem measure_goto (s : Setup ι) (i : ι) (phase : SetupPhase) : (s.goto i phase).measure + weight (Fintype.card ι) (s.calls i) =
      s.measure + weight (Fintype.card ι) ((s.goto i phase).calls i) := by
  have same : ∀ j, j ≠ i → weight (Fintype.card ι) ((s.goto i phase).calls j) = weight (Fintype.card ι) (s.calls j) := by
    intro j other
    rw [goto_other _ _ other]
  exact Progress.sum_change i same

/-- A goroutine comes closer to its return. -/
theorem measure_lt (calls : t.calls = (s.goto i phase).calls)
    (lower : rank ((s.goto i phase).calls i) < rank (s.calls i)) : t.measure < s.measure := by
  have nonempty : 0 < Fintype.card ι := Fintype.card_pos_iff.mpr ⟨i⟩
  have falls := weight_lt nonempty lower
  have changed := measure_goto s i phase
  have same : t.measure = (s.goto i phase).measure := by simp only [measure, calls]
  omega

theorem measure_sleep (phase : (s.calls i).phase = .acquiring) : (s.goto i .asleep).measure < s.measure := by
  have changed := measure_goto s i .asleep
  have before : weight (Fintype.card ι) (s.calls i) = weight (Fintype.card ι) ((s.goto i .asleep).calls i) + 1 := by
    simp [weight, rank, awake, phase]
  omega

theorem measure_release (phase : (s.calls i).phase = .releasing err) :
    (s.release i err).measure < s.measure := by
  have woken : (s.release i err).measure ≤ (s.goto i (.returned err)).measure + Fintype.card ι := by
    calc (s.release i err).measure
        ≤ ∑ j, (weight (Fintype.card ι) ((s.goto i (.returned err)).calls j) + 1) := Finset.sum_le_sum fun j _ => weight_woken _ _
      _ = (s.goto i (.returned err)).measure + Fintype.card ι := by
          rw [Finset.sum_add_distrib, ← Finset.card_eq_sum_ones, Finset.card_univ, measure]
  have changed := measure_goto s i (.returned err)
  have before : weight (Fintype.card ι) (s.calls i) = Fintype.card ι + 1 := by simp [weight, rank, awake, phase]
  have after : weight (Fintype.card ι) ((s.goto i (.returned err)).calls i) = 0 := by simp [weight, rank, awake]
  omega

/-- A goroutine that can go on comes closer to its return. -/
theorem Moves.falls (moves : Moves config s i answer t) (enabled : s.Enabled i) : t.measure < s.measure := by
  cases moves with
  | blocked stuck => exact absurd enabled stuck
  | sleep phase => exact measure_sleep phase
  | release phase => exact measure_release phase
  | acquire phase => exact measure_lt rfl (rank_afterAcquire phase)
  | write phase => exact measure_lt rfl (rank_afterWrite phase answer)
  | recover phase | unlock phase =>
    refine measure_lt rfl (Nat.lt_of_le_of_lt (rank_afterRecover s i answer) ?_)
    simp [rank, phase]
  | skip phase | settle phase | get phase =>
    refine measure_lt rfl (Nat.lt_of_le_of_lt (rank_afterEnsure s i _) ?_)
    simp [rank, phase]
  | lock phase | wait phase | crash phase | claim phase | answer phase => exact measure_lt rfl (by simp [rank, phase])

end Measure

section Progress

variable [Fintype ι]

/-- What holds while the goroutines run. -/
structure Sound (config : SetupConfig) (s : Setup ι) : Prop where
  counted : s.Counted config
  scanned : s.Scanned
  claims : s.Claimed config

theorem Sound.step (sound : s.Sound config) (moves : Moves config s i answer t) : t.Sound config :=
  have claims := sound.claims.step moves
  ⟨sound.counted.step claims.alive moves, sound.scanned.step moves, claims⟩

def Returned (s : Setup ι) : Prop := ∀ i, ∃ err, (s.calls i).phase = .returned err

omit [DecidableEq ι] in
/-- Somebody can go on until all have returned. Nobody waits for a permit in the end: who has one does not wait for another. -/
theorem Sound.live (sound : s.Sound config) (running : ¬s.Returned) : ∃ i, s.Enabled i := by
  by_contra none
  have stuck : ∀ i, ¬s.Enabled i := not_exists.mp none
  have free : s.wireScanHeld = false := by
    by_contra held
    obtain ⟨j, reads⟩ := sound.scanned (by simpa using held)
    exact stuck j (by simp [Enabled, reads])
  have noLeader : ∀ j attempt, ¬(s.calls j).Leads attempt := by
    rintro j attempt (updating | ⟨err, settling⟩)
    · exact stuck j (by simp [Enabled, updating])
    · exact stuck j (by simp [Enabled, settling])
  have ended : ∀ j, (∃ err, (s.calls j).phase = .returned err) ∨ (s.calls j).phase = .asleep := by
    intro j
    cases phase : (s.calls j).phase with
    | returned err => exact .inl ⟨err, rfl⟩
    | asleep => exact .inr rfl
    | crashed => exact absurd phase (sound.claims.alive j)
    | recovering => exact absurd (by simp [Enabled, phase, free]) (stuck j)
    | waiting attempt =>
      obtain ⟨found, held, _, closed | ⟨leader, leads⟩⟩ := sound.claims.waiter phase
      · exact absurd (by simp [Enabled, phase, held, closed]) (stuck j)
      · exact absurd leads (noLeader leader attempt)
    | _ => exact absurd (by simp [Enabled, phase]) (stuck j)
  have idle : s.active = 0 := by
    rw [sound.counted.active, held, Finset.card_eq_zero, Finset.filter_eq_empty_iff]
    intro j _
    rcases ended j with ⟨err, phase⟩ | phase <;> simp [SetupCall.holdsPermit, phase]
  apply running
  intro j
  rcases ended j with returned | asleep
  · exact returned
  · have full := sound.counted.full j asleep
    have positive := config.positive
    omega

theorem progresses (config : SetupConfig) :
    Progress.Progresses (Setup.step config) Enabled (Sound config) Returned (measure : Setup ι → ℕ) where
  keeps := fun s i answer sound => sound.step (step_moves config s i answer)
  waits := fun s i answer stuck => (step_moves config s i answer).eq_of_stuck stuck
  falls := fun s i answer _ enabled => (step_moves config s i answer).falls enabled
  live := fun _ sound running => sound.live running

/-- A sink between two pushes: nobody has begun, and some pairs may be done. -/
structure Fresh (s : Setup ι) : Prop where
  phase : ∀ i, (s.calls i).phase = SetupCall.first (s.calls i).path
  active : s.active = 0
  scan : s.wireScanHeld = false
  claims : ∀ key, s.healthCheckClaims key = false
  attempts : ∀ attempt, s.attempts attempt = none

end Progress

end Spotter.Nacos.Setup
