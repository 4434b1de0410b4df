import Spotter.Internal.OpenSets

/-! # Runs without failures

In a run in which no startup fails and no provider returns unless its set is cancelled, a leading server has
a startup that has not been overtaken: it waits for its turn, or what it builds or runs is not cancelled.
-/

namespace Spotter.Internal

/-- Phases before the startup has a context. -/
def StartupPhase.early : StartupPhase → Bool
  | .unspawned | .waiting | .stopping | .cancelling | .entering => true
  | _ => false

/-- The startup that a call is about. -/
def Call.target : Call → Option ℕ
  | .returned => none
  | .calling cancel => some cancel.target
  | .closing i => some i

theorem Call.target_of_tends {call : Call} {k : ℕ} (tends : call.tends = some k) : call.target = some k := by
  cases call with
  | returned => cases tends
  | calling cancel =>
    cases cancel with
    | wcancel i => cases tends
    | cleanup i => exact tends
  | closing i => exact tends

theorem Call.of_target {cancel : Option CancelFunc} {k : ℕ} (target : (Call.of cancel).target = some k) :
    ∃ function, cancel = some function ∧ function.target = k := by
  cases cancel with
  | none => cases target
  | some function => exact ⟨function, rfl, Option.some.inj target⟩

/-- A startup without a context is not cancelled and has no providers, and what it clears is its own. -/
structure Startup.Fresh (startup : Startup) (k : ℕ) : Prop where
  uncancelled : startup.phase.early = true → startup.cancelled = false
  pending : ∀ generation cancel, startup.phase = .clearing generation (some cancel) → cancel.target = k
  provided : startup.providers ≠ [] → startup.phase.early = false

/-- A startup that runs has a set, and only providers of cancelled sets return. -/
structure Startup.Steady (startup : Startup) : Prop where
  provided : ∀ generation, startup.phase = .running generation → startup.committed = true ∧ startup.providers ≠ []
  returned : ∀ provider ∈ startup.providers, provider ≠ .running → startup.cancelled = true

namespace Server

variable {startups : ℕ → Startup}

/-- A call cancels the startup that it is about only. -/
theorem CallMove.cancelled_elsewhere {s : Server} {g : Goroutine} {k : ℕ} {call : Call} (move : CallMove s g startups call)
    (elsewhere : (s.calls g).target ≠ some k) : (startups k).cancelled = (s.startups k).cancelled := by
  have other : ∀ i, (s.calls g).target = some i → k ≠ i := by
    rintro i target rfl
    exact elsewhere target
  cases move with
  | cancels i called | begins i called | closes i called => simp [other i (by rw [called]; rfl)]
  | waits | late => rfl

/-- A startup's cancel functions are nowhere before it has a context. -/
structure Fresh (s : Server) : Prop where
  records : ∀ k, (s.startups k).Fresh k
  registered : ∀ cancel, s.stopProviderFunc = some cancel → (s.startups cancel.target).phase.early = false
  called : ∀ g k, (s.calls g).target = some k → (s.startups k).phase.early = false

variable {s t : Server} {g : Goroutine} {i k : ℕ} {result : StartupResult} {effect : StartupEffect} {event : ServerStep}
  {startup : Startup}

/-- No startup goes back, and every function that is registered or called was so before or belongs to a startup with a
context. -/
theorem Fresh.next (fresh : s.Fresh) (records : ∀ k, (t.startups k).Fresh k)
    (advances : ∀ k, (s.startups k).phase.early = false → (t.startups k).phase.early = false)
    (registered : ∀ cancel, t.stopProviderFunc = some cancel →
      s.stopProviderFunc = some cancel ∨ (t.startups cancel.target).phase.early = false)
    (called : ∀ g k, (t.calls g).target = some k → (s.calls g).target = some k ∨ (t.startups k).phase.early = false) :
    t.Fresh := by
  refine ⟨records, ?_, ?_⟩
  · intro cancel now
    exact (registered cancel now).elim (fun before => advances _ (fresh.registered cancel before)) id
  · intro g k target
    exact (called g k target).elim (fun before => advances k (fresh.called g k before)) id

theorem update_entered (own : (startups i).phase.early = false → startup.phase.early = false) (k : ℕ) :
    (startups k).phase.early = false → (Function.update startups i startup k).phase.early = false :=
  update_keeps (fun old new => old.phase.early = false → new.phase.early = false) (fun _ => id) own k

theorem called_update {call : Call} {entered : ℕ → Prop} (opened : ∀ k, call.target = some k → entered k) (other : Goroutine) (k : ℕ)
    (target : (Function.update s.calls g call other).target = some k) : (s.calls other).target = some k ∨ entered k := by
  rcases eq_or_ne other g with rfl | different
  · rw [Function.update_self] at target
    exact .inr (opened k target)
  · rw [Function.update_of_ne different] at target
    exact .inl target

theorem Fresh.taken (fresh : s.Fresh) (k : ℕ) (target : (Call.of s.stopProviderFunc).target = some k) :
    (s.startups k).phase.early = false := by
  obtain ⟨cancel, registered, rfl⟩ := Call.of_target target
  exact fresh.registered cancel registered

theorem Fresh.call {call : Call} (fresh : s.Fresh) (move : CallMove s g startups call) :
    Fresh { s with startups := startups, calls := Function.update s.calls g call } := by
  have phases : ∀ k, (startups k).phase = (s.startups k).phase := fun k => (move.cleaned k).phase
  have late : ∀ k, (s.startups k).phase.early = false → (startups k).phase.early = false := by
    intro k entered
    rw [phases, entered]
  refine fresh.next ?_ late (fun _ => .inl) (called_update fun k target => late k (fresh.called g k ?_))
  · intro k
    have own := fresh.records k
    refine ⟨?_, ?_, ?_⟩
    · intro early
      rw [phases] at early
      -- The call is of a startup with a context, so it cancels another one.
      have elsewhere : (s.calls g).target ≠ some k := by
        intro target
        cases (fresh.called g k target).symm.trans early
      exact (move.cancelled_elsewhere elsewhere).trans (own.uncancelled early)
    · rw [phases]
      exact own.pending
    · rw [phases, (move.cleaned k).providers]
      exact own.provided
  · cases move with
    | begins i called | waits i called =>
      rw [called]
      exact target
    | cancels | late | closes => cases target

section

variable (move : StartupMove s i result effect)

include move

/-- Every function a startup's step leaves about is its own, or was there before. -/
theorem StartupMove.target (fresh : s.Fresh) : (∀ cancel, effect.registered = some cancel →
      s.stopProviderFunc = some cancel ∨ cancel.target = i ∧ effect.startup.phase.early = false) ∧
    ∀ k, effect.call.target = some k → (s.startups k).phase.early = false ∨ k = i ∧ effect.startup.phase.early = false := by
  cases move with
  | takes =>
    refine ⟨?_, fun k target => .inl (fresh.taken k target)⟩
    intro cancel now
    cases now
  | enters | commits =>
    refine ⟨?_, ?_⟩
    · intro cancel now
      cases now
      exact .inr ⟨rfl, rfl⟩
    · intro k target
      cases target
  | refused | rejected | returns =>
    refine ⟨fun cancel now => .inl now, ?_⟩
    intro k target
    cases target
    exact .inr ⟨rfl, rfl⟩
  | fails _ cancel _ _ own =>
    refine ⟨fun cancel now => .inl now, ?_⟩
    intro k target
    cases target
    exact .inr ⟨own, rfl⟩
  | clears generation cancel registered phase cleared =>
    refine ⟨?_, ?_⟩
    · intro cancel now
      rcases cleared with none_ | same
      · cases none_.symm.trans now
      · exact .inl (same.symm.trans now)
    · intro k target
      obtain ⟨function, rfl, rfl⟩ := Call.of_target target
      exact .inr ⟨(fresh.records i).pending generation function phase, rfl⟩
  | _ =>
    refine ⟨fun cancel now => .inl now, ?_⟩
    intro k target
    cases target

/-- A startup that has a context does not go back to before it. -/
theorem StartupMove.advances (entered : (s.startups i).phase.early = false) :
    effect.startup.phase.early = false := by
  cases move with
  | stays => exact entered
  | acquires phase | takes phase | proceeds phase =>
    rw [phase] at entered
    cases entered
  | _ => rfl

theorem StartupMove.fresh (own : (s.startups i).Fresh i) : effect.startup.Fresh i := by
  refine ⟨?_, ?_, ?_⟩
  · intro early
    rw [move.kept.1]
    refine own.uncancelled (Bool.of_not_eq_false fun entered => ?_)
    cases (move.advances entered).symm.trans early
  · intro generation cancel phase
    cases move with
    | stays => exact own.pending generation cancel phase
    | gives =>
      cases phase
      rfl
    | _ => cases phase
  · intro some_
    have late := fun unchanged : effect.startup.providers = (s.startups i).providers =>
      move.advances (own.provided (unchanged ▸ some_))
    cases move with
    | commits => rfl
    | _ => exact late rfl

end

section

variable (fresh : s.Fresh)

include fresh

theorem Fresh.update (own : startup.Fresh i) (k : ℕ) : (Function.update s.startups i startup k).Fresh k :=
  (Function.forall_update_iff s.startups fun k t => t.Fresh k).mpr ⟨own, fun k _ => fresh.records k⟩ k

theorem Fresh.advanced (move : StartupMove s i result effect) : (s.advance i effect).Fresh := by
  obtain ⟨registers, calls⟩ := move.target fresh
  refine fresh.next (fresh.update (move.fresh (fresh.records i))) (update_entered move.advances) ?_ (called_update ?_)
  · intro cancel now
    refine (registers cancel now).imp_right ?_
    rintro ⟨rfl, entered⟩
    simpa [advance] using entered
  · intro k target
    rcases calls k target with before | ⟨rfl, entered⟩
    · exact update_entered move.advances k before
    · simpa [advance] using entered

theorem Fresh.spawned (locked : s.Locked) :
    Fresh { s.setPhase s.spawned .waiting with main := .idle, spawned := s.spawned + 1 } := by
  have own := fresh.records s.spawned
  have early : (s.startups s.spawned).phase.early = true := by
    rw [locked.unspawned s.spawned (Nat.le_refl _)]
    rfl
  refine fresh.next (fresh.update ⟨fun _ => own.uncancelled early, ?_, ?_⟩) (update_entered ?_) (fun _ => .inl) (fun _ _ => .inl)
  · exact fun _ _ => StartupPhase.noConfusion
  · exact fun some_ => Bool.noConfusion (early.symm.trans (own.provided some_))
  · exact fun entered => Bool.noConfusion (early.symm.trans entered)

theorem Fresh.entered {j : ℕ} {phase : ProviderPhase} (found : (s.startups i).providers[j]? = some phase) :
    (s.startups i).phase.early = false := by
  refine (fresh.records i).provided ?_
  intro none_
  rw [none_] at found
  cases found

theorem Fresh.provider (entered : (s.startups i).phase.early = false) (providers : List ProviderPhase) :
    Fresh (s.setStartup i { s.startups i with providers := providers }) := by
  have own := fresh.records i
  exact fresh.next (fresh.update ⟨own.uncancelled, own.pending, fun _ => entered⟩) (update_entered id) (fun _ => .inl)
    (fun _ _ => .inl)

theorem Fresh.step (locked : s.Locked) (move : ServerMove s event t) : t.Fresh := by
  cases move with
  | idles => exact fresh
  | stops => exact fresh.next fresh.records (fun _ => id) (fun _ => .inl) (called_update fresh.taken)
  | drops =>
    refine fresh.next fresh.records (fun _ => id) ?_ (called_update fresh.taken)
    intro cancel now
    cases now
  | calls open_ move => exact fresh.call move
  | spawns => exact fresh.spawned locked
  | advances quiet move => exact fresh.advanced move
  | @returning i j _ _ found =>
    have entered := fresh.entered found
    have moved := fresh.provider entered ((s.startups i).providers.set j .returning)
    refine moved.next moved.records (fun _ => id) (fun _ => .inl) (called_update fun k target => ?_)
    cases target
    simpa [setStartup, setCall, CancelFunc.target] using entered
  | returned found => exact fresh.provider (fresh.entered found) _
  | _ =>
    exact fresh.next fresh.records (fun _ => id) (fun _ => .inl) (fun _ _ => .inl)

end

/-! ## Startups that were not overtaken -/

/-- The startup waits for its turn, or what it builds or runs is current and not cancelled. -/
inductive Hopeful (s : Server) (i : ℕ) : Prop where
  | waiting (phase : (s.startups i).phase = .waiting)
  | stopping (phase : (s.startups i).phase = .stopping)
  | cancelling (phase : (s.startups i).phase = .cancelling)
  | entering (phase : (s.startups i).phase = .entering)
  | starting (phase : (s.startups i).phase = .starting s.startupGeneration) (live : (s.startups i).cancelled = false)
  | committing (others : ℕ) (phase : (s.startups i).phase = .committing s.startupGeneration others)
      (live : (s.startups i).cancelled = false)
  | running (generation : ℕ) (phase : (s.startups i).phase = .running generation) (live : (s.startups i).cancelled = false)

/-- Hope looks at the startup's phase, at the generation once the startup has the lock, and at its context. -/
theorem Hopeful.transfer (hopeful : s.Hopeful k) (phase : (t.startups k).phase = (s.startups k).phase)
    (generation : (s.startups k).phase.holds = true → t.startupGeneration = s.startupGeneration)
    (live : (s.startups k).phase.holds = true → (s.startups k).phase.awaits = false → (s.startups k).cancelled = false →
      (t.startups k).cancelled = false) : t.Hopeful k := by
  cases hopeful with
  | waiting before => exact .waiting (phase.trans before)
  | stopping before => exact .stopping (phase.trans before)
  | cancelling before => exact .cancelling (phase.trans before)
  | entering before => exact .entering (phase.trans before)
  | starting before alive =>
    rw [before] at phase generation live
    exact .starting (by rw [phase, generation rfl]) (live rfl rfl alive)
  | committing others before alive =>
    rw [before] at phase generation live
    exact .committing others (by rw [phase, generation rfl]) (live rfl rfl alive)
  | running older before alive =>
    rw [before] at phase live
    exact .running older phase (live rfl rfl alive)

/-- A step in which no startup fails and no provider returns, unless the set is cancelled. -/
def Healthy (s : Server) : ServerStep → Prop
  | .run (.startup i) result => (s.startups i).cancelled = true ∨ ∃ others, result = .ready others
  | .run (.provider i j) _ => (s.startups i).providers[j]? = some .running → (s.startups i).cancelled = true
  | _ => True

/-- In a run of healthy steps, only providers of cancelled sets return, and a leading server has a startup that was not
overtaken. -/
structure Steady (s : Server) : Prop where
  records : ∀ i, (s.startups i).Steady
  called : ∀ i j, s.calls (.provider i j) ≠ .returned → (s.startups i).cancelled = true ∧ (s.calls (.provider i j)).tends = some i
  hope : s.isLeader = true → s.main = .spawning ∨ ∃ i, s.Hopeful i

/-- A step in which no provider opens a call and no context is cancelled. -/
theorem Steady.next (steady : s.Steady) (records : ∀ i, (t.startups i).Steady)
    (cancelled : ∀ i, (t.startups i).cancelled = (s.startups i).cancelled)
    (calls : ∀ i j, t.calls (.provider i j) = s.calls (.provider i j))
    (hope : t.isLeader = true → t.main = .spawning ∨ ∃ i, t.Hopeful i) : t.Steady := by
  refine ⟨records, ?_, hope⟩
  intro i j
  rw [cancelled, calls]
  exact steady.called i j

/-- Startups, calls of providers, generation, flag and main loop are all the invariant looks at. -/
theorem Steady.congr (steady : s.Steady) (startups : t.startups = s.startups)
    (calls : ∀ i j, t.calls (.provider i j) = s.calls (.provider i j)) (hope : t.isLeader = true → t.main = .spawning ∨
      s.isLeader = true ∧ t.main = s.main ∧ t.startupGeneration = s.startupGeneration) : t.Steady := by
  refine steady.next (by rw [startups]; exact steady.records) (fun i => by rw [startups]) calls ?_
  intro leads
  rcases hope leads with spawning | ⟨led, main, generation⟩
  · exact .inl spawning
  · refine (steady.hope led).imp main.trans (.imp fun i hopeful => hopeful.transfer (by rw [startups]) (fun _ => generation) ?_)
    rw [startups]
    exact fun _ _ live => live

/-- While the server leads, no call but a provider's of a cancelled set can concern the startup that builds or runs. -/
theorem Steady.call_elsewhere (steady : s.Steady) (sound : s.Sound) (leads : s.isLeader = true)
    (held : (s.startups k).phase.holds = true) (busy : (s.startups k).phase.awaits = false)
    (live : (s.startups k).cancelled = false) (open_ : s.calls g ≠ .returned) : (s.calls g).target ≠ some k := by
  cases g with
  | main =>
    obtain ⟨ending, cancelling⟩ := sound.led.mainCall open_
    cases (sound.led.not_leader (by rw [cancelling]; rfl)).symm.trans leads
  | stopper =>
    have stopped := sound.led.stopCalled (by rw [sound.led.stopperCall open_]; exact StopPhase.noConfusion)
    cases (sound.led.leader leads).1.symm.trans stopped
  | startup i =>
    have awaits := sound.locked.awaits i open_
    have holds : (s.startups i).phase.holds = true := by
      cases phase : (s.startups i).phase <;> simp_all [StartupPhase.awaits, StartupPhase.holds]
    cases ((sound.locked.holder k).mp held).symm.trans ((sound.locked.holder i).mp holds)
    cases busy.symm.trans awaits
  | provider i j =>
    obtain ⟨cancelled, tends⟩ := steady.called i j open_
    intro target
    obtain rfl : i = k := Option.some.inj ((Call.target_of_tends tends).symm.trans target)
    cases live.symm.trans cancelled

theorem Hopeful.call {call : Call} (hopeful : s.Hopeful k) (move : CallMove s g startups call) (steady : s.Steady)
    (sound : s.Sound) (leads : s.isLeader = true) (open_ : s.calls g ≠ .returned) :
    Hopeful { s with startups := startups, calls := Function.update s.calls g call } k := by
  refine hopeful.transfer (move.cleaned k).phase (fun _ => rfl) ?_
  intro held busy live
  have elsewhere := steady.call_elsewhere sound leads held busy live open_
  exact (move.cancelled_elsewhere elsewhere).trans live

theorem Steady.call {call : Call} (steady : s.Steady) (sound : s.Sound) (open_ : s.calls g ≠ .returned)
    (move : CallMove s g startups call) : Steady { s with startups := startups, calls := Function.update s.calls g call } := by
  refine ⟨?_, ?_, ?_⟩
  · intro i
    have own := steady.records i
    have cleaned := move.cleaned i
    refine ⟨?_, ?_⟩
    · simp only [cleaned.phase, cleaned.committed, cleaned.providers]
      exact own.provided
    · simp only [cleaned.providers]
      exact fun provider member notRunning => cleaned.cancelled (own.returned provider member notRunning)
  · intro i j called
    rcases eq_or_ne (Goroutine.provider i j) g with rfl | different
    · obtain ⟨cancelled, tends⟩ := steady.called i j open_
      simp only [Function.update_self] at called ⊢
      refine ⟨(move.cleaned i).cancelled cancelled, ?_⟩
      cases move with
      | begins other before | waits other before =>
        rw [before] at tends
        exact tends
      | cancels | late | closes => exact absurd rfl called
    · simp only [Function.update_of_ne different] at called ⊢
      exact (steady.called i j called).imp_left (move.cleaned i).cancelled
  · exact fun leads => (steady.hope leads).imp_right (.imp fun i hopeful => hopeful.call move steady sound leads open_)

/-- A startup that was not overtaken stays so when another one runs. -/
theorem Hopeful.other (hopeful : s.Hopeful k) (move : StartupMove s i result effect) (locked : s.Locked) (other : k ≠ i) :
    (s.advance i effect).Hopeful k := by
  have same : (s.advance i effect).startups k = s.startups k := Function.update_of_ne other _ _
  have exclusive : (s.startups k).phase.holds = true → effect.generation = s.startupGeneration := by
    intro held
    have free : (s.startups i).phase.holds = false := by
      rw [← Bool.not_eq_true]
      intro also
      exact other (Option.some.inj (((locked.holder k).mp held).symm.trans ((locked.holder i).mp also)))
    cases move with
    | takes phase | enters phase =>
      rw [phase] at free
      cases free
    | _ => rfl
  refine hopeful.transfer (by rw [same]) exclusive ?_
  rw [same]
  exact fun _ _ live => live

/-- A startup that was not overtaken goes on so in a healthy step of its own. -/
theorem Hopeful.own (hopeful : s.Hopeful i) (move : StartupMove s i result effect) (steady : s.Steady) (fresh : s.Fresh)
    (leads : s.isLeader = true) (running : s.stopped = false)
    (healthy : (s.startups i).cancelled = true ∨ ∃ others, result = .ready others) : (s.advance i effect).Hopeful i := by
  have early := (fresh.records i).uncancelled
  have same : (s.advance i effect).startups i = effect.startup := Function.update_self _ _ _
  cases hopeful with
  | waiting before =>
    cases move with
    | stays => exact .waiting (by rw [same, before])
    | acquires => exact .stopping (by rw [same])
    | _ => simp_all
  | stopping before =>
    cases move with
    | takes => exact .cancelling (by rw [same])
    | _ => simp_all [StartupPhase.holds]
  | cancelling before =>
    cases move with
    | proceeds => exact .entering (by rw [same])
    | _ => simp_all [StartupPhase.holds]
  | entering before =>
    cases move with
    | enters => exact .starting (by rw [same]; rfl) (by rw [same]; exact early (by rw [before]; rfl))
    | _ => simp_all [StartupPhase.holds]
  | starting before live =>
    cases move with
    | builds current others phase =>
      rw [before] at phase
      cases phase
      exact .committing others (by rw [same]; rfl) (by rw [same]; exact live)
    | _ => simp_all [StartupPhase.holds]
  | committing others before live =>
    cases move with
    | commits current more => exact .running current (by rw [same]) (by rw [same]; exact live)
    | _ => simp_all [StartupPhase.holds]
  | running older before live =>
    cases move with
    | stays => exact .running older (by rw [same, before]) (by rw [same, live])
    | returns current phase all =>
      -- A provider of a set that is not cancelled has not returned.
      obtain ⟨provider, member⟩ := List.exists_mem_of_ne_nil _ ((steady.records i).provided older before).2
      have cancelled := (steady.records i).returned provider member (by rw [all provider member]; exact ProviderPhase.noConfusion)
      cases live.symm.trans cancelled
    | _ => simp_all

section

variable (steady : s.Steady)

include steady

theorem Steady.update (own : startup.Steady) (k : ℕ) : (Function.update s.startups i startup k).Steady :=
  (Function.forall_update_iff s.startups fun _ t => t.Steady).mpr ⟨own, fun k _ => steady.records k⟩ k

theorem Steady.advanced (sound : s.Sound) (fresh : s.Fresh) (move : StartupMove s i result effect)
    (healthy : (s.startups i).cancelled = true ∨ ∃ others, result = .ready others) : (s.advance i effect).Steady := by
  have own := steady.records i
  refine steady.next (steady.update ⟨?_, ?_⟩) (update_component Startup.cancelled move.kept.1) (fun _ _ => rfl) ?_
  · have before := own.provided
    cases move <;> simp_all
  · cases move with
    | commits => simp
    | _ => exact own.returned
  · intro leads
    refine (steady.hope leads).imp_right (.imp fun k hopeful => ?_)
    rcases eq_or_ne k i with rfl | other
    · exact hopeful.own move steady fresh leads (sound.led.leader leads).1 healthy
    · exact hopeful.other move sound.locked other

theorem Steady.spawned :
    Steady { s.setPhase s.spawned .waiting with main := .idle, spawned := s.spawned + 1 } := by
  refine steady.next (steady.update ⟨?_, (steady.records s.spawned).returned⟩) (update_component Startup.cancelled rfl)
    (fun _ _ => rfl) ?_
  · exact fun _ => StartupPhase.noConfusion
  · exact fun _ => .inr ⟨s.spawned, .waiting (by simp [setPhase, setStartup])⟩

/-- A provider of a cancelled set changes its phase. -/
theorem Steady.provider (cancelled : (s.startups i).cancelled = true) (j : ℕ) (next : ProviderPhase) :
    Steady (s.setStartup i { s.startups i with providers := (s.startups i).providers.set j next }) := by
  refine steady.next (steady.update ⟨?_, fun _ _ _ => cancelled⟩) (update_component Startup.cancelled rfl) (fun _ _ => rfl) ?_
  · intro generation phase
    obtain ⟨committed, some_⟩ := (steady.records i).provided generation phase
    exact ⟨committed, by simpa using some_⟩
  · intro leads
    refine (steady.hope leads).imp_right (.imp fun k hopeful => ?_)
    refine hopeful.transfer ?_ (fun _ => rfl) fun _ _ live => Eq.trans ?_ live
    · refine update_component Startup.phase ?_ k
      rfl
    · refine update_component Startup.cancelled ?_ k
      rfl

/-- A provider of a cancelled set returns, and runs the set's cleanup. -/
theorem Steady.returning {j : ℕ} (cancelled : (s.startups i).cancelled = true) :
    Steady ((s.setStartup i { s.startups i with providers := (s.startups i).providers.set j .returning }).setCall (.provider i j)
      (.calling (.cleanup i))) := by
  have moved := steady.provider cancelled j .returning
  refine ⟨moved.records, ?_, ?_⟩
  · intro k other called
    rcases eq_or_ne (Goroutine.provider k other) (.provider i j) with same | different
    · cases same
      exact ⟨by simpa [setStartup, setCall] using cancelled, by simp [setCall, Call.tends]⟩
    · have before : s.calls (.provider k other) ≠ .returned := by simpa [setCall, setStartup, different] using called
      simpa [setCall, setStartup, different] using moved.called k other before
  · intro leads
    exact (moved.hope leads).imp_right (.imp fun k hopeful => hopeful.transfer rfl (fun _ => rfl) fun _ _ live => live)

end

/-! ## Every run of healthy steps -/

theorem Steady.step (steady : s.Steady) (sound : s.Sound) (fresh : s.Fresh) (healthy : s.Healthy event)
    (move : ServerMove s event t) : t.Steady := by
  have same : t.isLeader = s.isLeader → t.main = s.main → t.startupGeneration = s.startupGeneration →
      t.isLeader = true → t.main = .spawning ∨ s.isLeader = true ∧ t.main = s.main ∧ t.startupGeneration = s.startupGeneration :=
    fun isLeader main generation leads => .inr ⟨isLeader.symm.trans leads, main, generation⟩
  cases move with
  | idles => exact steady
  | changes isLeader =>
    refine steady.congr rfl (fun _ _ => rfl) fun leads => .inl ?_
    have now : isLeader = true := leads
    simp [now]
  | signals | stops => exact steady.congr rfl (fun _ _ => rfl) (fun leads => Bool.noConfusion leads)
  | calls open_ move => exact steady.call sound open_ move
  | spawns => exact steady.spawned
  | drops ending quiet main | rests ending quiet main =>
    refine steady.congr rfl (fun _ _ => rfl) ?_
    intro leads
    cases (sound.led.not_leader (by rw [main]; rfl)).symm.trans leads
  | advances quiet move => exact steady.advanced sound fresh move healthy
  | returning quiet found => exact steady.returning (healthy found)
  | @returned i j _ found =>
    refine steady.provider ((steady.records i).returned .returning (List.mem_of_getElem? found) ?_) j .returned
    exact ProviderPhase.noConfusion
  | _ => exact steady.congr rfl (fun _ _ => rfl) (same rfl rfl rfl)

theorem fresh_start : Fresh {} := by
  refine ⟨fun _ => ⟨fun _ => rfl, fun _ _ => StartupPhase.noConfusion, fun some_ => absurd rfl some_⟩, ?_, ?_⟩
  · intro cancel registered
    cases registered
  · intro g k target
    cases target

theorem steady_start : Steady {} := by
  refine ⟨fun _ => ⟨fun _ => StartupPhase.noConfusion, List.forall_mem_nil _⟩, fun _ _ called => absurd rfl called, ?_⟩
  exact fun leads => Bool.noConfusion leads

end Server

end Spotter.Internal
