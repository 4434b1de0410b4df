import Spotter.Nacos.HealthCheckProgress

/-! # Whole runs of the health-check setup

Along every schedule an attempt is closed with the one answer that its `UpdateCluster` got, and everybody who waited for the
attempt goes on with that answer. After a success the pair is never updated again, and after a failure the next goroutine
that asks for the setup of the pair claims it anew.
-/

namespace Spotter.Nacos.Setup

open Library Ports

variable {ι : Type} [DecidableEq ι] {config : SetupConfig} {s t : Setup ι} {i j : ι} {answer : Option GoError} {attempt : ℕ}

section Steps

theorem plain_goto (s : Setup ι) (i : ι) {phase : SetupPhase} (plain : Plain phase) : Plain ((s.goto i phase).calls i).phase := by
  rw [goto_phase]
  exact plain

section

variable (moves : Moves config s i answer t)

include moves

/-- What a step makes of its own goroutine: it leads nothing, or claims with a new attempt, or has the answer. -/
theorem Moves.own : t = s ∨ (∀ other, ¬(t.calls i).Leads other) ∨ (t.calls i).phase = .updating s.issued ∨
      ∃ other, (s.calls i).phase = .updating other ∧ (t.calls i).phase = .settling other (answer.map (adminError config)) := by
  cases moves with
  | blocked => exact .inl rfl
  | claim => exact .inr (.inr (.inl (goto_phase s i _)))
  | answer phase => exact .inr (.inr (.inr ⟨_, phase, goto_phase s i _⟩))
  | recover | unlock => exact .inr (.inl (Plain.not_leads (plain_goto s i (plain_afterRecover _ _))))
  | acquire => exact .inr (.inl (Plain.not_leads (plain_goto s i (plain_afterAcquire _))))
  | skip | settle | get => exact .inr (.inl (Plain.not_leads (plain_goto s i (plain_afterEnsure _ _))))
  | write => exact .inr (.inl (Plain.not_leads (plain_goto s i (plain_afterWrite _ _))))
  | release => exact .inr (.inl fun other => by simp [SetupCall.Leads, SetupPhase.woken])
  | _ => exact .inr (.inl fun other => by simp [SetupCall.Leads])

/-- How a goroutine comes to lead an attempt. -/
theorem Moves.leads (now : (t.calls j).Leads attempt) :
    (t.calls j).phase = (s.calls j).phase ∨ (attempt = s.issued ∧ (t.calls j).phase = .updating attempt) ∨
      (j = i ∧ (s.calls i).phase = .updating attempt ∧ (t.calls j).phase = .settling attempt (answer.map (adminError config))) := by
  rcases eq_or_ne j i with rfl | here
  · rcases moves.own with rfl | none | claims | ⟨other, updating, settling⟩
    · exact .inl rfl
    · exact absurd now (none attempt)
    · obtain rfl := leads_inj now (.inl claims)
      exact .inr (.inl ⟨rfl, claims⟩)
    · obtain rfl := leads_inj now (.inr ⟨_, settling⟩)
      exact .inr (.inr ⟨rfl, updating, settling⟩)
  · refine .inl ((moves.others here).resolve_right ?_)
    rintro ⟨_, woken⟩
    rcases now with updating | ⟨_, settling⟩
    · rw [woken] at updating
      cases updating
    · rw [woken] at settling
      cases settling

/-- An attempt is closed by the goroutine that settles it. -/
theorem Moves.closes {found : HealthCheckAttempt} (held : t.attempts attempt = some found) (closed : found.closed = true) :
    s.attempts attempt = some found ∨ ((s.calls i).phase = .settling attempt found.err ∧ found.key = (s.calls i).key) := by
  cases moves with
  | claim =>
    change Function.update s.attempts s.issued _ attempt = _ at held
    rcases eq_or_ne attempt (s.issued) with rfl | here
    · rw [Function.update_self] at held
      cases held
      cases closed
    · rw [Function.update_of_ne here] at held
      exact .inl held
  | @settle own err phase =>
    rcases eq_or_ne attempt own with rfl | here
    · obtain rfl : { key := (s.calls i).key, err := err, closed := true } = found := by simpa [Setup.settle] using held
      exact .inr ⟨phase, rfl⟩
    · exact .inl (by simpa [Setup.settle, here] using held)
  | _ => exact .inl held

theorem Moves.issued_le : s.issued ≤ t.issued := by
  cases moves with
  | claim => exact Nat.le_succ _
  | _ =>
    exact Nat.le_refl _

end

theorem step_updating (phase : (s.calls i).phase = .updating attempt) :
    ((s.step config i answer).calls i).phase = .settling attempt (answer.map (adminError config)) := by
  simp only [step, phase, goto_phase]

/-- The setup of the pair succeeded, and the goroutine that has the answer is yet to record it at most. -/
def Succeeded (s : Setup ι) (key : ClusterKey) : Prop :=
  s.healthCheckDone key = true ∨ ∃ i attempt, (s.calls i).key = key ∧ (s.calls i).phase = .settling attempt none

theorem Moves.done (moves : Moves config s i answer t) {key : ClusterKey} (done : s.healthCheckDone key = true) :
    t.healthCheckDone key = true := by
  cases moves with
  | @settle own err phase =>
    by_cases success : err = none
    · by_cases here : key = (s.calls i).key
      · simp [Setup.settle, success, here]
      · simpa [Setup.settle, success, here] using done
    · simpa [Setup.settle, success] using done
  | _ => exact done

theorem Succeeded.step {key : ClusterKey} (succeeded : s.Succeeded key) (config : SetupConfig) (i : ι) (answer : Option GoError) :
    (s.step config i answer).Succeeded key := by
  have moves := step_moves config s i answer
  rcases succeeded with done | ⟨j, attempt, isKey, settling⟩
  · exact .inl (moves.done done)
  · rcases eq_or_ne j i with rfl | here
    · refine .inl ?_
      simp only [Setup.step, settling, Setup.settle, if_true, ← isKey, Function.update_self]
    · refine .inr ⟨j, attempt, (moves.key j).trans isKey, ?_⟩
      rcases moves.others here with same | ⟨asleep, _⟩
      · exact same.trans settling
      · rw [settling] at asleep
        cases asleep

omit [DecidableEq ι] in
/-- Nobody updates a pair whose setup succeeded. -/
theorem Claimed.not_updating (claims : Claimed config s) {key : ClusterKey} (succeeded : s.Succeeded key)
    (isKey : (s.calls j).key = key) (attempt : ℕ) : (s.calls j).phase ≠ .updating attempt := by
  intro updating
  rcases succeeded with done | ⟨i, other, sameKey, settling⟩
  · obtain ⟨_, undone, _⟩ := claims.leader (.inl updating)
    rw [isKey, done] at undone
    cases undone
  · obtain rfl := claims.one_leader (.inl updating) (.inr ⟨_, settling⟩) (isKey.trans sameKey.symm)
    rw [updating] at settling
    cases settling

/-- A goroutine that asks for the setup of a free pair claims it. -/
theorem step_claims (phase : (s.calls i).phase = .ensuring) (managed : config.adminManaged = true)
    (undone : s.healthCheckDone (s.calls i).key = false) (unclaimed : s.healthCheckClaims (s.calls i).key = false) :
    ((s.step config i answer).calls i).phase = .updating s.issued := by
  simp [step, ensure, phase, managed, undone, unclaimed]

/-- A goroutine that asks for the setup of a pair that is not done updates it, or waits for the one that does. -/
theorem Claimed.asks (claims : Claimed config s) (managed : config.adminManaged = true) (phase : (s.calls i).phase = .ensuring)
    (undone : s.healthCheckDone (s.calls i).key = false) (answer : Option GoError) :
    ((s.step config i answer).calls i).phase = .updating s.issued ∨
      ∃ j attempt, (s.calls j).key = (s.calls i).key ∧ (s.calls j).Leads attempt ∧
        ((s.step config i answer).calls i).phase = .waiting attempt := by
  cases claimed : s.healthCheckClaims (s.calls i).key with
  | false => exact .inl (step_claims phase managed undone claimed)
  | true =>
    obtain ⟨j, attempt, same, leads, waits⟩ := claims.claimed claimed
    refine .inr ⟨j, attempt, same, leads, ?_⟩
    simp [Setup.step, ensure, phase, managed, undone, claimed, waits]

/-- A goroutine that records a failure leaves the pair unclaimed and not done. -/
theorem failure_frees {err : GoError} (claims : Claimed config s) (settling : (s.calls i).phase = .settling attempt (some err))
    (answer : Option GoError) :
    config.adminManaged = true ∧ (s.step config i answer).healthCheckClaims (s.calls i).key = false ∧
      (s.step config i answer).healthCheckWait (s.calls i).key = none ∧
      (s.step config i answer).healthCheckDone (s.calls i).key = false := by
  obtain ⟨managed, undone, _⟩ := claims.leader (.inr ⟨_, settling⟩)
  refine ⟨managed, ?_, ?_, ?_⟩
  · simp only [step, settling, Setup.settle, Function.update_self]
  · simp only [step, settling, Setup.settle, Function.update_self]
  · simpa [step, settling, Setup.settle] using undone

end Steps

section

variable (config : SetupConfig) (schedule : ℕ → ι × Option GoError) (start : Setup ι) (n : ℕ)

/-- The state after some steps of a schedule. -/
def run : Setup ι :=
  Progress.along (step config) schedule start n

theorem run_moves :
    Moves config (run config schedule start n) (schedule n).1 (schedule n).2 (run config schedule start (n + 1)) :=
  step_moves config _ _ _

theorem run_key (i : ι) :
    ((run config schedule start n).calls i).key = (start.calls i).key := by
  induction n with
  | zero => rfl
  | succ n ih => exact ((run_moves config schedule start n).key i).trans ih

/-- Before the given time the goroutine had the answer to this attempt's update. -/
def Answered (i : ι) (attempt : ℕ) (err : Option GoError) : Prop :=
  ∃ m < n, (schedule m).1 = i ∧ ((run config schedule start m).calls i).phase = .updating attempt ∧
    err = (schedule m).2.map (adminError config)

end

section Runs

variable {schedule : ℕ → ι × Option GoError} {start : Setup ι} {n m : ℕ}

theorem Answered.succ {err : Option GoError} (answered : Answered config schedule start n i attempt err) :
    Answered config schedule start (n + 1) i attempt err := by
  obtain ⟨m, earlier, rest⟩ := answered
  exact ⟨m, Nat.lt_succ_of_lt earlier, rest⟩

omit [DecidableEq ι] in
/-- At the start nobody is asleep or has to do with an attempt. -/
theorem Fresh.plain (fresh : start.Fresh) (i : ι) : Plain (start.calls i).phase := by
  rw [fresh.phase i]
  cases (start.calls i).path <;> trivial

theorem settling_answered (fresh : start.Fresh) {err : Option GoError}
    (settling : ((run config schedule start n).calls i).phase = .settling attempt err) :
    Answered config schedule start n i attempt err := by
  induction n with
  | zero =>
    have plain := fresh.plain i
    change (start.calls i).phase = _ at settling
    rw [settling] at plain
    exact plain.elim
  | succ n ih =>
    rcases (run_moves config schedule start n).leads (.inr ⟨err, settling⟩) with same | ⟨_, updating⟩ | ⟨rfl, updating, settled⟩
    · exact (ih (same.symm.trans settling)).succ
    · rw [settling] at updating
      cases updating
    · rw [settling] at settled
      cases settled
      exact ⟨n, Nat.lt_succ_self n, rfl, updating, rfl⟩

/-- A closed attempt has the answer that a goroutine of its pair got. -/
theorem closed_answered (fresh : start.Fresh) {found : HealthCheckAttempt}
    (held : (run config schedule start n).attempts attempt = some found) (closed : found.closed = true) :
    ∃ i, (start.calls i).key = found.key ∧ Answered config schedule start n i attempt found.err := by
  induction n with
  | zero =>
    have none := fresh.attempts attempt
    change start.attempts attempt = _ at held
    rw [held] at none
    cases none
  | succ n ih =>
    rcases (run_moves config schedule start n).closes held closed with before | ⟨settling, isKey⟩
    · obtain ⟨i, isKey, answered⟩ := ih before
      exact ⟨i, isKey, answered.succ⟩
    · refine ⟨(schedule n).1, ?_, (settling_answered fresh settling).succ⟩
      rw [isKey, run_key]

variable [Fintype ι]

section

variable (fresh : start.Fresh)

include fresh

omit [DecidableEq ι] in
theorem Fresh.sound : start.Sound config where
  counted := by
    have none : start.held = 0 := by
      rw [held, Finset.card_eq_zero, Finset.filter_eq_empty_iff]
      intro i _
      cases path : (start.calls i).path <;> simp [SetupCall.holdsPermit, fresh.phase i, SetupCall.first, path]
    refine ⟨fresh.active.trans none.symm, fresh.active ▸ Nat.zero_le _, ?_⟩
    intro i asleep
    exact (asleep ▸ fresh.plain i).elim
  scanned := by
    intro taken
    rw [fresh.scan] at taken
    cases taken
  claims := by
    have nobody : ∀ i attempt, ¬(start.calls i).Leads attempt := fun i => Plain.not_leads (fresh.plain i)
    refine ⟨fun leads => absurd leads (nobody _ _), ?_, fun leads => absurd leads (nobody _ _), ?_, ?_, ?_⟩
    · intro key claimed
      rw [fresh.claims key] at claimed
      cases claimed
    · intro i attempt waiting
      exact (waiting ▸ fresh.plain i).elim
    · intro attempt found held
      rw [fresh.attempts attempt] at held
      cases held
    · intro i crashed
      exact (crashed ▸ fresh.plain i).elim

theorem Fresh.sound_run (config : SetupConfig) (schedule : ℕ → ι × Option GoError) (n : ℕ) :
    (run config schedule start n).Sound config :=
  (progresses config).inv_along fresh.sound n

/-- An attempt whose update has been answered is not updated again. -/
theorem not_updating_after
    (updating : ((run config schedule start m).calls (schedule m).1).phase = .updating attempt) (later : m < n) (j : ι) :
    ((run config schedule start n).calls j).phase ≠ .updating attempt := by
  have claims := (fresh.sound_run config schedule m).claims
  obtain ⟨_, _, _, _, held⟩ := claims.leader (.inl updating)
  have old := claims.issued held
  have both : attempt < (run config schedule start n).issued ∧ ∀ j, ((run config schedule start n).calls j).phase ≠ .updating attempt := by
    induction n, later using Nat.le_induction with
    | base =>
      have settled : ((run config schedule start (m + 1)).calls (schedule m).1).phase =
          .settling attempt ((schedule m).2.map (adminError config)) := step_updating updating
      refine ⟨Nat.lt_of_lt_of_le old (run_moves config schedule start m).issued_le, ?_⟩
      intro j again
      obtain rfl := (fresh.sound_run config schedule (m + 1)).claims.unique (.inl again) (.inr ⟨_, settled⟩)
      cases settled.symm.trans again
    | succ n _ ih =>
      have moves := run_moves config schedule start n
      refine ⟨Nat.lt_of_lt_of_le ih.1 moves.issued_le, ?_⟩
      intro j again
      rcases moves.leads (.inl again) with same | ⟨new, _⟩ | ⟨_, _, settling⟩
      · exact ih.2 j (same.symm.trans again)
      · exact ih.1.ne new
      · cases settling.symm.trans again
  exact both.2 j

/-- After a success nobody updates the pair any more. -/
theorem not_updating_after_success (answered : schedule m = (i, none))
    (updating : ((run config schedule start m).calls i).phase = .updating attempt) (later : m < n)
    (same : (start.calls j).key = (start.calls i).key) (other : ℕ) :
    ((run config schedule start n).calls j).phase ≠ .updating other := by
  have succeeded : (run config schedule start n).Succeeded (start.calls i).key := by
    induction n, later using Nat.le_induction with
    | base =>
      refine .inr ⟨i, attempt, run_key config schedule start (m + 1) i, ?_⟩
      change ((Setup.step config (run config schedule start m) (schedule m).1 (schedule m).2).calls i).phase = _
      rw [answered]
      exact step_updating updating
    | succ n _ ih => exact ih.step config (schedule n).1 (schedule n).2
  refine (fresh.sound_run config schedule n).claims.not_updating succeeded ?_ other
  rw [run_key, same]

/-- Whoever no longer waits for an attempt has gone on with the one answer that the attempt got. -/
theorem waiter_answered (waiting : ((run config schedule start n).calls i).phase = .waiting attempt)
    (ended : ((run config schedule start (n + 1)).calls i).phase ≠ .waiting attempt) :
    ∃ j err, (start.calls j).key = (start.calls i).key ∧ Answered config schedule start n j attempt err ∧
      ((run config schedule start (n + 1)).calls i).phase = ((run config schedule start n).calls i).afterEnsure err := by
  have moves := run_moves config schedule start n
  have scheduled : i = (schedule n).1 := by
    by_contra other
    rcases moves.others other with same | ⟨asleep, _⟩
    · exact ended (same.trans waiting)
    · cases waiting.symm.trans asleep
  rw [← scheduled] at moves
  obtain ⟨known, heldKnown, isKey, _⟩ := (fresh.sound_run config schedule n).claims.waiter waiting
  generalize next : run config schedule start (n + 1) = after at moves ended ⊢
  cases moves with
  | get phase held closed =>
    cases waiting.symm.trans phase
    cases heldKnown.symm.trans held
    obtain ⟨j, same, answered⟩ := closed_answered fresh held closed
    refine ⟨j, known.err, ?_, answered, goto_phase _ i _⟩
    rw [same, isKey, run_key]
  | blocked => exact absurd waiting ended
  | lock phase | recover phase | unlock phase | sleep phase | acquire phase | skip phase | wait phase | crash phase | claim phase
  | answer phase | settle phase | write phase | release phase => cases waiting.symm.trans phase

end

/-- For every number of concurrent writes, every schedule and every answer of the server: no more permits are held than the
limit, at most one goroutine updates a pair, after a success none ever does again, a waiter goes on with the result of the
attempt it waited for, which is answered once, a failure leaves the pair free for the next one, a goroutine that asks for the
setup of a pair that is not done updates it or waits for the one that does, and under a fair schedule every call returns. -/
theorem setup_once_and_returns (config : SetupConfig) (schedule : ℕ → ι × Option GoError) (start : Setup ι) (fresh : start.Fresh) :
    let after := run config schedule start
    (∀ n, (after n).held ≤ config.pushConcurrency) ∧
    (∀ n i j attempt other, ((after n).calls i).key = ((after n).calls j).key → ((after n).calls i).phase = .updating attempt →
      ((after n).calls j).phase = .updating other → i = j) ∧
    (∀ n i attempt, schedule n = (i, none) → ((after n).calls i).phase = .updating attempt → ∀ m j other, n < m →
      ((after m).calls j).key = ((after n).calls i).key → ((after m).calls j).phase ≠ .updating other) ∧
    (∀ n i attempt, ((after n).calls i).phase = .waiting attempt → ((after (n + 1)).calls i).phase ≠ .waiting attempt →
      ∃ m < n, ∃ j answer, schedule m = (j, answer) ∧ ((after m).calls j).phase = .updating attempt ∧
        ((after m).calls j).key = ((after n).calls i).key ∧
        ((after (n + 1)).calls i).phase = ((after n).calls i).afterEnsure (answer.map (adminError config)) ∧
        ∀ k, ((after k).calls (schedule k).1).phase = .updating attempt → k = m) ∧
    (∀ n i attempt err, (schedule n).1 = i → ((after n).calls i).phase = .settling attempt (some err) →
      (after (n + 1)).healthCheckClaims ((after n).calls i).key = false ∧
      (after (n + 1)).healthCheckWait ((after n).calls i).key = none ∧
      (after (n + 1)).healthCheckDone ((after n).calls i).key = false ∧
      ∀ j answer, ((after (n + 1)).calls j).key = ((after n).calls i).key → ((after (n + 1)).calls j).phase = .ensuring →
        (((after (n + 1)).step config j answer).calls j).phase = .updating (after (n + 1)).issued) ∧
    (∀ n i answer, config.adminManaged = true → ((after n).calls i).phase = .ensuring →
      (after n).healthCheckDone ((after n).calls i).key = false →
      (((after n).step config i answer).calls i).phase = .updating (after n).issued ∨
        ∃ j attempt, ((after n).calls j).key = ((after n).calls i).key ∧ ((after n).calls j).Leads attempt ∧
          (((after n).step config i answer).calls i).phase = .waiting attempt) ∧
    (Progress.Fair schedule → ∃ n, ∀ i, ∃ err, ((after n).calls i).phase = .returned err) := by
  intro after
  have sound : ∀ n, (after n).Sound config := fresh.sound_run config schedule
  have key : ∀ n i, ((after n).calls i).key = (start.calls i).key := run_key config schedule start
  refine ⟨?_, ?_, ?_, ?_, ?_, ?_, ?_⟩
  · intro n
    rw [← (sound n).counted.active]
    exact (sound n).counted.bounded
  · intro n i j attempt other same first second
    exact (sound n).claims.one_leader (.inl first) (.inl second) same
  · intro n i attempt answered updating m j other later same
    rw [key, key] at same
    exact not_updating_after_success fresh answered updating later same other
  · intro n i attempt waiting ended
    obtain ⟨j, err, same, ⟨m, earlier, rfl, updating, rfl⟩, result⟩ := waiter_answered fresh waiting ended
    refine ⟨m, earlier, (schedule m).1, (schedule m).2, rfl, updating, ?_, result, ?_⟩
    · rw [key, key, same]
    · intro k again
      rcases Nat.lt_trichotomy k m with before | same | behind
      · exact absurd updating (not_updating_after fresh again before _)
      · exact same
      · exact absurd again (not_updating_after fresh updating behind _)
  · rintro n i attempt err rfl settling
    obtain ⟨managed, unclaimed, unwaited, undone⟩ := failure_frees (sound n).claims settling (schedule n).2
    refine ⟨unclaimed, unwaited, undone, ?_⟩
    intro j answer same ensuring
    exact step_claims ensuring managed (same ▸ undone) (same ▸ unclaimed)
  · intro n i answer managed ensuring undone
    exact (sound n).claims.asks managed ensuring undone answer
  · intro fair
    exact (progresses config).eventually_done fair fresh.sound

end Runs

/-! ### Two writes of one pair and one permit -/

def onePermit : SetupConfig where
  pushConcurrency := 1
  positive := Nat.one_pos

def pairWrites : Setup (Fin 2) where
  calls
    | 0 => { path := .sdkRegister, key := ⟨"orders", "k8s"⟩, phase := .acquiring }
    | 1 => { path := .batchItem, key := ⟨"orders", "k8s"⟩, phase := .recovering }

/-- The two take turns and the server answers without an error. -/
def takeTurns (n : ℕ) : Fin 2 × Option GoError := (Fin.ofNat 2 n, none)

theorem takeTurns_fair : Progress.Fair takeTurns := by
  intro i n
  refine ⟨2 * n + i, by omega, ?_⟩
  ext
  simp only [takeTurns, Fin.ofNat]
  omega

theorem pairWrites_return : pairWrites.Fresh ∧ Progress.Fair takeTurns ∧
    ∃ n, ∀ i, ∃ err, ((run onePermit takeTurns pairWrites n).calls i).phase = .returned err := by
  have fresh : pairWrites.Fresh := ⟨Fin.forall_fin_two.mpr ⟨rfl, rfl⟩, rfl, rfl, fun _ => rfl, fun _ => rfl⟩
  exact ⟨fresh, takeTurns_fair, (setup_once_and_returns onePermit takeTurns pairWrites fresh).2.2.2.2.2.2 takeTurns_fair⟩

end Spotter.Nacos.Setup
