import Spotter.Nacos.Isolation
import Spotter.Nacos.OwnerRecords

/-! # Whose host a session replaces or removes

In a session whose calls keep registrations and removals of one composite id apart, and whose composite
ids tell hosts apart, the owner table protects hosts: a register replaces only hosts of its own owner
scope, and a late offline push removes only hosts of its own owner scope.
-/

namespace Spotter.Nacos

open Library Domain Ports

variable {config : Config} {world next : World} {registered : HostKey → Option Instance} {threads threads' : List Thread}
  {pushed : Set Instance} {keys : Set HostKey} {p q : InstanceParams} {ins : Instance} {run : PushRun} {session : Session}
  {label : SessionStep}

/-! ## From call to call -/

/-- When every thread has finished, new threads may start. -/
theorem Guarded.restart (guarded : Guarded config pushed keys world threads registered)
    (ended : ∀ t ∈ threads, t.result.isSome = true) (orderly : Orderly config threads')
    (listed : ∀ t ∈ threads', Listed config pushed keys t.job) (waiting : ∀ t ∈ threads', t.phase = .waiting)
    (catalog : next.catalog = world.catalog) (owners : next.ownership.wireOwners = world.ownership.wireOwners)
    (scanned : next.ownership.wireScanned = world.ownership.wireScanned) :
    Guarded config pushed keys next threads' registered := by
  refine ⟨orderly, listed, ?_, ?_, ?_, ?_, ?_⟩
  · intro t member
    rw [waiting t member]
    exact trivial
  · rw [catalog]
    exact guarded.owned
  · rw [catalog]
    exact guarded.made
  · rw [catalog, owners]
    intro p present last own
    refine .inl ((guarded.recorded p present last own).resolve_right ?_)
    rintro ⟨u, member, _, claimed, _, answered, _⟩
    obtain ⟨err, finished⟩ := result_isSome (ended u member)
    cases answered.symm.trans finished
  · rw [catalog, owners, scanned]
    exact guarded.found

theorem orderly_perItem : Orderly config.perItem threads ↔ Orderly config threads :=
  ⟨fun orderly => ⟨orderly.order, orderly.owner, orderly.apart⟩, fun orderly => ⟨orderly.order, orderly.owner, orderly.apart⟩⟩

/-- The per-item path differs in the texts of errors only. -/
theorem guarded_perItem : Guarded config.perItem pushed keys world threads registered ↔
    Guarded config pushed keys world threads registered := by
  constructor
  · exact fun guarded => ⟨orderly_perItem.mp guarded.orderly, guarded.listed, guarded.fits, guarded.owned, guarded.made,
      guarded.recorded, guarded.found⟩
  · exact fun guarded => ⟨orderly_perItem.mpr guarded.orderly, guarded.listed, guarded.fits, guarded.owned, guarded.made,
      guarded.recorded, guarded.found⟩

theorem Call.ended_finished {call : Call} (ended : call.ended = true) : ∀ t ∈ call.threads, t.result.isSome = true := by
  cases call with
  | push world threads => exact List.all_eq_true.mp ended
  | full run =>
    cases stage : run.stage with
    | applying threads | sweeping applied listed threads => simp [Call.ended, stage] at ended
    | returned err =>
      intro t member
      simp [Call.threads, Stage.threads, stage] at member

/-- The jobs of a call's items are about its instances. -/
theorem listed_item {instances : Instances} {operation : BatchOperation} (item : Item instances operation ins)
    (within : ∀ ins, some ins ∈ instances → ins ∈ pushed) (targets : ∀ ins ∈ pushed, instanceTarget config ins ∈ keys) :
    Listed config pushed keys (itemJob operation ins) := by
  refine ⟨?_, ?_⟩
  · intro other writes
    rw [← (itemJob_writes operation ins).unique writes]
    exact within ins item.1
  · intro key removal
    rw [(removal_itemJob removal).2]
    exact ⟨targets ins (within ins item.1), rfl⟩

/-- What a session's calls are like: their instances are among the given ones, a `Push` keeps registrations and
removals of one composite id apart, and a failed call of the server has no effect. -/
def SessionStep.Admissible (config : Config) (pushed : Set Instance) : SessionStep → Prop
  | .push instances => (∀ ins, some ins ∈ instances → ins ∈ pushed) ∧ Apart config instances
  | .pushAll instances => ∀ ins, some ins ∈ instances → ins ∈ pushed
  | .work (.move _ answer) => answer.Faithful
  | .work _ => True

/-- The invariant of a session. -/
def Session.Guarded (config : Config) (pushed : Set Instance) (keys : Set HostKey) (session : Session) : Prop :=
  Nacos.Guarded config pushed keys session.call.world session.call.threads session.registered

theorem Guarded.pushAll (guarded : Guarded config pushed keys world threads registered)
    (ended : ∀ t ∈ threads, t.result.isSome = true) {instances : Instances}
    (within : ∀ ins, some ins ∈ instances → ins ∈ pushed) (targets : ∀ ins ∈ pushed, instanceTarget config ins ∈ keys) :
    Guarded config pushed keys (PushRun.start config world instances).world
      (PushRun.start config world instances).stage.threads registered := by
  cases valid : world.ownership.validateWireIdentitySet config.group instances with
  | some err =>
    have stage : (PushRun.start config world instances).stage = .returned (some err) := by
      simp only [PushRun.start, valid]
    rw [stage]
    exact guarded.restart ended (orderly_sweeps []) (List.forall_mem_nil _)
      (List.forall_mem_nil _) rfl rfl rfl
  | none =>
    have stage : (PushRun.start config world instances).stage = .applying (batchThreads instances) := by
      simp only [PushRun.start, valid]
    rw [stage]
    refine guarded.restart ended (orderly_pushAll valid) ?_ ?_ rfl rfl rfl
    · intro t member
      obtain ⟨ins, operation, item, job, _⟩ := mem_batchThreads member
      rw [job]
      exact listed_item item within targets
    · intro t member
      obtain ⟨_, _, _, _, _, waiting⟩ := mem_batchThreads member
      exact waiting

/-- The prune that follows the writes removes owned hosts of the session's keys. -/
theorem Guarded.discover (guarded : Guarded config pushed keys run.world threads registered) {reads : PruneReads}
    (all : allFinished threads = true) :
    Guarded config pushed keys (run.discover config threads reads).world (run.discover config threads reads).stage.threads
      registered := by
  cases plan : (prunePlan config run.world.catalog run.world.ownership reads (run.pruneInput threads)).2 with
  | error err =>
    have stage : (run.discover config threads reads).stage.threads = [] := by
      simp only [PushRun.discover, plan, Stage.threads]
    rw [stage]
    exact guarded.restart (List.all_eq_true.mp all) (orderly_sweeps []) (List.forall_mem_nil _)
      (List.forall_mem_nil _) rfl rfl rfl
  | ok planned =>
    have stage : (run.discover config threads reads).stage.threads = planned.1.map sweepThread := by
      simp only [PushRun.discover, plan, Stage.threads]
    rw [stage]
    refine guarded.restart (List.all_eq_true.mp all) (orderly_sweeps planned.1) ?_ ?_ rfl rfl rfl
    · intro t member
      obtain ⟨task, among, rfl⟩ := List.mem_map.mp member
      refine ⟨?_, ?_⟩
      · rintro ins (writes | writes)
        · cases writes
        · cases writes
      · intro key removal
        cases removal
        obtain ⟨_, _, p, registered, target, owned, _⟩ := prunePlan_sound plan among
        exact ⟨target ▸ guarded.owned p registered owned, rfl⟩
    · intro t member
      obtain ⟨task, _, rfl⟩ := List.mem_map.mp member
      rfl

section Steps

variable (group : effectiveGroup config.group = config.group) (ids : Set.InjOn HostKey.compositeID keys)
  (targets : ∀ ins ∈ pushed, instanceTarget config ins ∈ keys)

include group ids targets

/-- A step of a full push keeps the invariant. -/
theorem Guarded.runStep (guarded : Guarded config pushed keys run.world run.stage.threads registered) (work : PushStep)
    (admissible : (SessionStep.work work).Admissible config pushed) :
    Guarded config pushed keys (run.step config work).world (run.step config work).stage.threads
      (noteRegistered config registered (acknowledged run.stage.threads work)) := by
  have steps := run.step_steps config work
  generalize run.step config work = next at steps ⊢
  cases steps with
  | rests label idle =>
    have silent : acknowledged run.stage.threads work = none := by
      cases work with
      | move index answer =>
        obtain ⟨err, stage⟩ := idle index answer rfl
        rw [stage]
        rfl
      | discover reads => rfl
      | leave => rfl
    rw [silent]
    exact guarded
  | applies threads stage index answer =>
    rw [stage] at guarded ⊢
    exact guarded.move index group ids targets admissible
  | discovers threads stage all reads =>
    rw [stage] at guarded
    exact guarded.discover all
  | sweeps applied listed threads stage index answer =>
    rw [stage] at guarded ⊢
    exact guarded.move index group ids targets admissible
  | leaves applied listed threads stage all =>
    rw [stage] at guarded
    exact guarded.restart (List.all_eq_true.mp all) (orderly_sweeps []) (List.forall_mem_nil _)
      (List.forall_mem_nil _) rfl rfl rfl

theorem Session.Guarded.step (guarded : session.Guarded config pushed keys) (admissible : label.Admissible config pushed) :
    (session.step config label).Guarded config pushed keys := by
  cases label with
  | push instances =>
    simp only [Session.Guarded, Session.step, Call.step]
    split_ifs with ended
    · refine Nacos.Guarded.restart guarded (Call.ended_finished ended) (orderly_push admissible.2) ?_ ?_ rfl rfl rfl
      · intro t member
        obtain ⟨ins, operation, item, job, _⟩ := mem_pushThreads member
        rw [job]
        exact listed_item item admissible.1 targets
      · intro t member
        obtain ⟨_, _, _, _, waiting⟩ := mem_pushThreads member
        exact waiting
    · exact guarded
  | pushAll instances =>
    simp only [Session.Guarded, Session.step, Call.step]
    split_ifs with ended
    · exact Nacos.Guarded.pushAll guarded (Call.ended_finished ended) admissible targets
    · exact guarded
  | work work =>
    obtain ⟨call, registered⟩ := session
    cases call with
    | full run => exact Nacos.Guarded.runStep group ids targets guarded work admissible
    | push world threads =>
      cases work with
      | move index answer =>
        have moved := Nacos.Guarded.move (guarded_perItem.mpr guarded) index group ids targets admissible
        exact guarded_perItem.mp moved
      | discover reads | leave => exact guarded

end Steps

/-- The keys that a session on a catalog may address. -/
def addressed (config : Config) (catalog : Catalog) (pushed : Set Instance) : Set HostKey :=
  { key | (∃ ins ∈ pushed, instanceTarget config ins = key) ∨ ∃ p ∈ catalog.entries, p.Owned ∧ p.key = key }

/-- The invariant holds in every state of a session of a new sink. -/
theorem guarded_after {catalog : Catalog} (group : effectiveGroup config.group = config.group)
    (ids : Set.InjOn HostKey.compositeID (addressed config catalog pushed)) (history : List SessionStep)
    (admissible : ∀ step ∈ history, step.Admissible config pushed) :
    ((Session.fresh catalog).after config history).Guarded config pushed (addressed config catalog pushed) := by
  induction history using List.reverseRecOn with
  | nil =>
    refine ⟨orderly_sweeps [], ?_, ?_, ?_, ?_, ?_, ?_⟩
    · exact List.forall_mem_nil _
    · exact List.forall_mem_nil _
    · exact fun p present owned => .inr ⟨p, present, owned, rfl⟩
    · exact fun _ _ _ noted => absurd noted.symm (Option.some_ne_none _)
    · exact fun _ _ _ noted => absurd noted.symm (Option.some_ne_none _)
    · exact fun _ _ _ _ _ scanned => absurd scanned (Finset.notMem_empty _)
  | append_singleton earlier label ih =>
    rw [Session.after_append]
    refine (ih fun step member => admissible step (List.mem_append_left _ member)).step group ids ?_ ?_
    · exact fun ins member => .inl ⟨ins, member, rfl⟩
    · exact admissible label (List.mem_append_right _ List.mem_cons_self)

/-! ## What a step does -/

/-- The threads of the call that a step starts. -/
def SessionStep.starts : SessionStep → List Thread
  | .push instances => pushThreads instances
  | .pushAll instances => batchThreads instances
  | .work _ => []

/-- A step that is no move leaves hosts and records alone; the threads stay, are those of a new call or deregister no
instance. -/
def Session.Rests (session next : Session) (label : SessionStep) : Prop :=
  next.call.world.catalog = session.call.world.catalog ∧ next.registered = session.registered ∧
    ((session.call.ended = true ∧ next.call.threads = label.starts) ∨ next.call.threads = session.call.threads ∨
      ∀ t ∈ next.call.threads, t.job.deregistered = none)

/-- A move of a thread, in a `Push` on the per-item path. -/
def Session.Moves (config : Config) (session next : Session) (label : SessionStep) : Prop :=
  ∃ index answer moving, label = .work (.move index answer) ∧ (moving = config ∨ moving = config.perItem) ∧
    next.call.world = (moveThread moving session.call.world session.call.threads index answer).1 ∧
    next.call.threads = (moveThread moving session.call.world session.call.threads index answer).2 ∧
    next.registered = noteRegistered config session.registered (acknowledged session.call.threads (.move index answer))

theorem Session.step_cases (config : Config) (session : Session) (label : SessionStep) :
    session.Rests (session.step config label) label ∨ session.Moves config (session.step config label) label := by
  obtain ⟨call, registered⟩ := session
  cases label with
  | push instances =>
    refine .inl ?_
    simp only [Session.Rests, Session.step, Call.step]
    split_ifs with ended
    · exact ⟨rfl, trivial, .inl ⟨ended, rfl⟩⟩
    · exact ⟨rfl, trivial, .inr (.inl rfl)⟩
  | pushAll instances =>
    refine .inl ?_
    simp only [Session.Rests, Session.step, Call.step]
    split_ifs with ended
    · refine ⟨rfl, trivial, ?_⟩
      simp only [Call.threads, PushRun.start]
      cases call.world.ownership.validateWireIdentitySet config.group instances with
      | some err => exact .inr (.inr (List.forall_mem_nil _))
      | none => exact .inl ⟨ended, rfl⟩
    · exact ⟨rfl, trivial, .inr (.inl rfl)⟩
  | work work =>
    cases call with
    | push world threads =>
      cases work with
      | move index answer => exact .inr ⟨index, answer, config.perItem, rfl, .inr rfl, rfl, rfl, rfl⟩
      | discover reads | leave => exact .inl ⟨rfl, rfl, .inr (.inl rfl)⟩
    | full run =>
      have steps := run.step_steps config work
      simp only [Session.Rests, Session.Moves, Session.step, Call.step, Call.work, Call.world, Call.threads]
      generalize run.step config work = next at steps ⊢
      cases steps with
      | rests label idle =>
        refine .inl ⟨rfl, ?_, .inr (.inl rfl)⟩
        cases work with
        | move index answer =>
          obtain ⟨err, stage⟩ := idle index answer rfl
          rw [stage]
          rfl
        | discover reads | leave => rfl
      | applies threads stage index answer =>
        rw [stage]
        exact .inr ⟨index, answer, config, rfl, .inl rfl, rfl, rfl, rfl⟩
      | discovers threads stage all reads =>
        refine .inl ⟨rfl, rfl, .inr (.inr ?_)⟩
        simp only [PushRun.discover]
        cases (prunePlan config run.world.catalog run.world.ownership reads (run.pruneInput threads)).2 with
        | error err => exact List.forall_mem_nil _
        | ok planned =>
          intro t member
          obtain ⟨task, _, rfl⟩ := List.mem_map.mp member
          rfl
      | sweeps applied listed threads stage index answer =>
        rw [stage]
        exact .inr ⟨index, answer, config, rfl, .inl rfl, rfl, rfl, rfl⟩
      | leaves => exact .inl ⟨rfl, rfl, .inr (.inr (List.forall_mem_nil _))⟩

/-- A step of a session changes the catalog only by the call of an admitted thread. -/
theorem step_catalog (config : Config) (session : Session) (label : SessionStep) :
    (session.step config label).call.world.catalog = session.call.world.catalog ∨
      ∃ index answer t claimed, label = .work (.move index answer) ∧ session.call.threads[index]? = some t ∧
        t.phase = .admitted claimed ∧
        ((∃ ins, t.job = .register ins ∧ (session.step config label).call.world.catalog =
            session.call.world.catalog.register (registerParams config.lib config.group ins)) ∨
          ∃ key, t.job.removal config = some key ∧
            (session.step config label).call.world.catalog = session.call.world.catalog.deregister key) := by
  rcases session.step_cases config label with ⟨same, _⟩ | ⟨index, answer, moving, rfl, which, world, _⟩
  · exact .inl same
  · rw [world]
    rcases moveThread_catalog moving session.call.world session.call.threads index answer with
      same | ⟨t, claimed, here, sending, effect⟩
    · exact .inl same
    · refine .inr ⟨index, answer, t, claimed, rfl, here, sending, ?_⟩
      rcases which with rfl | rfl
      · exact effect
      · exact effect

/-- A written host says the owner scope of its instance. -/
theorem hostOwner_registerParams (aware : SourceAware ins) (roundTrips : config.lib.toPayloadCodec.RoundTrips ins) :
    hostOwner config (registerParams config.lib config.group ins) = wireOwnerScope ins := by
  have read : reconstruct config.lib ins.appCode (registerParams config.lib config.group ins).host =
      restore ins.appCode (registerParams config.lib config.group ins).host (canonical ins) :=
    reconstruct_of_metadataOf rfl roundTrips
  have scope : hostOwner config (registerParams config.lib config.group ins) =
      wireOwnerScope (reconstruct config.lib ins.appCode (registerParams config.lib config.group ins).host) := rfl
  rw [scope, read]
  change (if ins.sourceCluster ≠ "" then _ else _) = if ins.sourceCluster ≠ "" then _ else _
  split_ifs with named
  · rfl
  · have sourced : ins.sourceKey ≠ "" := aware.resolve_right named
    rw [identityKey, identityKey, if_pos sourced]
    exact congrArg _ (if_pos sourced)

/-! ## Registers -/

/-- Restart-safe ownership: a host that takes the place of an owned host is a registration of the same owner scope. -/
theorem register_keeps_owner_scope (pushed : Set Instance) (catalog : Catalog) (history : List SessionStep) (label : SessionStep)
    (group : effectiveGroup config.group = config.group)
    (aware : ∀ ins ∈ pushed, SourceAware ins) (roundTrips : ∀ ins ∈ pushed, config.lib.toPayloadCodec.RoundTrips ins)
    (ids : Set.InjOn HostKey.compositeID (addressed config catalog pushed))
    (admissible : ∀ step ∈ history ++ [label], step.Admissible config pushed)
    (present : p ∈ ((Session.fresh catalog).after config history).call.world.catalog.entries) (owned : p.Owned)
    (present' : q ∈ ((Session.fresh catalog).after config (history ++ [label])).call.world.catalog.entries)
    (key : q.key = p.key) :
    q = p ∨ ∃ ins ∈ pushed, q = registerParams config.lib config.group ins ∧
      wireOwnerScope ins = sourceOwnerScopeFromHost config.lib p.serviceName p.host := by
  have guarded := guarded_after group ids history fun step member => admissible step (List.mem_append_left _ member)
  rw [Session.after_append] at present'
  have unchanged : q ∈ ((Session.fresh catalog).after config history).call.world.catalog.entries → q = p :=
    fun before => List.inj_on_of_nodup_map (SortedStore.keys_nodup _) before present key
  rcases step_catalog config ((Session.fresh catalog).after config history) label with
    same | ⟨index, answer, t, claimed, _, here, sending, ⟨ins, register, written⟩ | ⟨removed, _, gone⟩⟩
  · rw [same] at present'
    exact .inl (unchanged present')
  · rw [written] at present'
    rcases Catalog.mem_register.mp present' with rfl | ⟨before, _⟩
    · have member := List.mem_of_getElem? here
      have fits := guarded.fits t member
      rw [sending] at fits
      have listed := (guarded.listed t member).1 ins (.inl register)
      refine .inr ⟨ins, listed, rfl, ?_⟩
      cases noted : ((Session.fresh catalog).after config history).registered p.key with
      | none => exact (fits.2 ins register (aware ins listed) p present key.symm noted owned).symm
      | some last =>
          obtain ⟨made, listed'⟩ := guarded.made p present last noted
          have scope := fits.1 ins (.inl register) p present key.symm last noted
          rw [← scope, ← hostOwner_registerParams (aware last listed') (roundTrips last listed'), ← made]
          rfl
    · exact .inl (unchanged before)
  · rw [gone] at present'
    exact .inl (unchanged (Catalog.mem_deregister.mp present').1)

/-! ### A pod that is replaced at its address -/

/-- The old pod is gone and the new one has its address; the third one is another cluster's pod with that address. -/
def stoppedPod : Instance :=
  { instanceId := "cart-0", appCode := "cart", provider := "k8s", sourceKey := "uid-1", sourceCluster := "east"
    cluster := "blue", ip := "10.0.0.9", status := instanceStatusOffline, reversion := 1 }

def startedPod : Instance :=
  { stoppedPod with instanceId := "cart-1", sourceKey := "uid-2", status := instanceStatusOnline, reversion := 2 }

def foreignPod : Instance := { startedPod with instanceId := "cart-2", sourceKey := "uid-3", sourceCluster := "west" }

def cartConfig : Config := tableConfig [stoppedPod, startedPod, foreignPod]

/-- One `Push` brings the old pod's removal and the new pod's registration: the removal is acknowledged, the new pod
is registered and recorded, and then the removal forgets the owner. The next `Push` is the other cluster's. -/
def forgottenHistory : List SessionStep :=
  [SessionStep.push [some stoppedPod, some startedPod]] ++ List.replicate 4 (SessionStep.work (.move 0 .done)) ++
    List.replicate 4 (SessionStep.work (.move 1 .done)) ++
    [SessionStep.work (.move 0 .done), SessionStep.push [some foreignPod], SessionStep.work (.move 0 .done),
      SessionStep.work (.move 0 .done)]

/-- The other cluster's pod replaces the new pod. -/
theorem forgotten_owner_is_replaced :
    let session := (Session.fresh {}).after cartConfig forgottenHistory
    session.call.world.catalog.entries = [registerParams cartConfig.lib cartConfig.group startedPod] ∧
      (session.step cartConfig (.work (.move 0 .done))).call.world.catalog.entries =
        [registerParams cartConfig.lib cartConfig.group foreignPod] ∧
      wireOwnerScope foreignPod ≠ sourceOwnerScopeFromHost cartConfig.lib "cart"
        (registerParams cartConfig.lib cartConfig.group startedPod).host := by
  decide +kernel

/-- A `Push` of one item whose server calls all succeed. -/
theorem admissible_single (config : Config) (member : ins ∈ pushed) (count : ℕ) :
    ∀ step ∈ SessionStep.push [some ins] :: List.replicate count (.work (.move 0 .done)), step.Admissible config pushed := by
  intro step among
  rcases List.mem_cons.mp among with rfl | later
  · refine ⟨?_, ?_⟩
    · intro other only
      cases List.mem_singleton.mp only
      exact member
    · intro first second operation operation' item item' _
      cases List.mem_singleton.mp item.1
      cases List.mem_singleton.mp item'.1
      exact ⟨rfl, Option.some.inj (item.2.symm.trans item'.2)⟩
  · rw [List.eq_of_mem_replicate later]
    rfl

/-- The old pod as it was registered by an earlier process. -/
def runningPod : Instance := { stoppedPod with status := instanceStatusOnline }

def restartHistory : List SessionStep := [SessionStep.push [some startedPod]] ++ List.replicate 3 (SessionStep.work (.move 0 .done))

theorem cart_addressed {key : HostKey}
    (among : key ∈ addressed cartConfig (registeredWorld cartConfig [runningPod]).catalog {startedPod}) :
    key = instanceTarget cartConfig startedPod := by
  rcases among with ⟨ins, rfl, rfl⟩ | ⟨p, present, _, rfl⟩
  · rfl
  · obtain ⟨ins, member, rfl⟩ := mem_registeredWorld present
    cases List.mem_singleton.mp member
    decide

/-- A new process replaces the old pod's host by the new pod of the same cluster. -/
theorem register_keeps_owner_scope_restart :
    let old := registerParams cartConfig.lib cartConfig.group runningPod
    let new := registerParams cartConfig.lib cartConfig.group startedPod
    new = old ∨ ∃ ins ∈ ({startedPod} : Set Instance), new = registerParams cartConfig.lib cartConfig.group ins ∧
      wireOwnerScope ins = sourceOwnerScopeFromHost cartConfig.lib old.serviceName old.host := by
  refine register_keeps_owner_scope {startedPod} (registeredWorld cartConfig [runningPod]).catalog restartHistory
    (.work (.move 0 .done)) rfl ?_ ?_ ?_ ?_ ?_ (by decide +kernel) ?_ (by decide)
  · rintro ins rfl
    exact .inr (by decide)
  · rintro ins rfl
    decide +kernel
  · intro first member second member' _
    rw [cart_addressed member, cart_addressed member']
  · exact admissible_single cartConfig (Set.mem_singleton startedPod) 4
  · decide +kernel
  · decide +kernel

/-! ## Late deletes -/

theorem deregistered_eq_some {job : Job} (offline : job.deregistered = some ins) : job = .deregister ins := by
  cases job with
  | register other => cases offline
  | deregister other =>
    cases offline
    rfl
  | sweep task => cases offline

/-- The deregistrations under way come in time: the host at the address, if the instance's owner scope registered it last,
was registered for the same identity, and so is every host that an earlier batch registers there. -/
def InTime (config : Config) (catalog : Catalog) (threads : List Thread) (registered : HostKey → Option Instance) : Prop :=
  ∀ t ∈ threads, ∀ ins ∈ t.job.deregistered, t.result.isSome = false →
    (∀ p ∈ catalog.entries, p.key = instanceTarget config ins → ∀ last ∈ registered p.key,
      wireOwnerScope last = wireOwnerScope ins → identityKey ins = identityKey last) ∧
    ∀ u ∈ threads, ∀ other ∈ u.job.registered, instanceTarget config other = instanceTarget config ins →
      u.batch < t.batch → identityKey ins = identityKey other

instance (config : Config) (catalog : Catalog) (threads : List Thread) (registered : HostKey → Option Instance) :
    Decidable (InTime config catalog threads registered) :=
  inferInstanceAs (Decidable (∀ _ ∈ _, _))

/-- A move keeps the deregistrations in time: whatever it registers at their address is of an earlier batch. -/
theorem InTime.move (inTime : InTime config world.catalog threads registered) (orderly : Orderly config threads) {index : ℕ}
    {answer : Answer} (faithful : answer.Faithful) :
    InTime config (moveThread config world threads index answer).1.catalog (moveThread config world threads index answer).2
      (noteRegistered config registered (acknowledged threads (.move index answer))) := by
  rcases moveThread_acts config world threads index answer with ⟨same, blocked⟩ | ⟨v, next, phase, here, open_, acts, moved⟩
  · rw [same, acknowledged_none]
    · exact inTime
    · intro t ins found acked
      cases (acknowledges_eq_some acked).1.symm.trans (blocked t found)
  rw [moved]
  have member : v ∈ threads := List.mem_of_getElem? here
  have plans : ∀ u ∈ threads.set index { v with phase := phase }, ∃ made ∈ threads, made.job = u.job ∧ made.batch = u.batch ∧
      (u.result.isSome = false → made.result.isSome = false) := by
    intro u among
    rcases List.mem_or_eq_of_mem_set among with before | rfl
    · exact ⟨u, before, rfl, rfl, id⟩
    · refine ⟨v, member, rfl, rfl, fun running => Bool.eq_false_iff.mpr fun done => ?_⟩
      obtain ⟨err, finished⟩ := result_isSome done
      simp [Thread.result, acts.finished finished] at running
  intro u among ins offline running
  obtain ⟨t, listed, job, batch, unfinished⟩ := plans u among
  rw [← job] at offline
  obtain ⟨present, earlier⟩ := inTime t listed ins offline (unfinished running)
  refine ⟨?_, ?_⟩
  · intro p registered' key last noted scope
    by_cases writes : ∃ other claimed, v.job = .register other ∧ v.phase = .admitted claimed ∧ answer = .done
    · obtain ⟨other, claimed, register, sending, rfl⟩ := writes
      rw [noteRegistered_write here open_ register sending] at noted
      by_cases target : p.key = instanceTarget config other
      · -- The register has just been acknowledged, so the deregistration is of a later batch.
        rw [target, noteRegistered_self] at noted
        cases noted
        have removal : t.job.removal config = some (instanceTarget config last) := by
          rw [deregistered_eq_some offline, ← target, key]
          rfl
        obtain ⟨pair, differs⟩ := orderly.apart t listed v member last removal register
        rcases Nat.lt_or_gt_of_ne differs with before | after
        · have begun : v.phase ≠ .waiting := by
            rw [sending]
            exact Phase.noConfusion
          have done := orderly.order t listed v member pair before begun
          rw [unfinished running] at done
          cases done
        · exact earlier v member last (register ▸ rfl) (target.symm.trans key) after
      · rw [noteRegistered_of_ne target] at noted
        refine present p ?_ key last noted scope
        rcases acts.catalog with same | ⟨ins', _, register', _, _, put⟩ | ⟨_, _, _, _, _, removed⟩
        · rwa [same] at registered'
        · cases register.symm.trans register'
          rw [put] at registered'
          rcases Catalog.mem_register.mp registered' with rfl | ⟨before, _⟩
          · exact absurd rfl target
          · exact before
        · rw [removed] at registered'
          exact (Catalog.mem_deregister.mp registered').1
    · rw [noteRegistered_quiet config registered answer here
        fun other claimed register sending done => writes ⟨other, claimed, register, sending, done⟩] at noted
      refine present p ?_ key last noted scope
      rcases acts.catalog with same | ⟨other, claimed, register, sending, applies, _⟩ | ⟨_, _, _, _, _, removed⟩
      · rwa [same] at registered'
      · exact absurd ⟨other, claimed, register, sending, faithful.done applies⟩ writes
      · rw [removed] at registered'
        exact (Catalog.mem_deregister.mp registered').1
  · intro w among' other register target before
    obtain ⟨made, listed', job', batch', _⟩ := plans w among'
    exact earlier made listed' other (job' ▸ register) target (by rwa [batch', batch])

def Session.InTime (config : Config) (session : Session) : Prop :=
  Nacos.InTime config session.call.world.catalog session.call.threads session.registered

/-- A call is made in time. -/
def Session.Timely (config : Config) (session : Session) (label : SessionStep) : Prop :=
  session.call.ended = true → Nacos.InTime config session.call.world.catalog label.starts session.registered

instance (config : Config) (session : Session) (label : SessionStep) : Decidable (session.Timely config label) :=
  inferInstanceAs (Decidable (_ → _))

/-- Calls that are made in time keep every deregistration in time. -/
theorem inTime_after {catalog : Catalog} (group : effectiveGroup config.group = config.group)
    (ids : Set.InjOn HostKey.compositeID (addressed config catalog pushed)) (history : List SessionStep)
    (admissible : ∀ step ∈ history, step.Admissible config pushed)
    (timely : History.AllSteps (fun before label => ((Session.fresh catalog).after config before).Timely config label) history) :
    ((Session.fresh catalog).after config history).InTime config := by
  induction history using List.reverseRecOn with
  | nil => exact List.forall_mem_nil _
  | append_singleton earlier label ih =>
    obtain ⟨before, last⟩ := History.allSteps_append.mp timely
    have allowed : ∀ step ∈ earlier, step.Admissible config pushed :=
      fun step member => admissible step (List.mem_append_left _ member)
    have inTime := ih allowed before
    have guarded := guarded_after group ids earlier allowed
    rw [Session.after_append]
    generalize (Session.fresh catalog).after config earlier = session at *
    rcases session.step_cases config label with ⟨same, noted, started | stays | nothing⟩ |
      ⟨index, answer, moving, rfl, which, world, threads, noted⟩
    · rw [Session.InTime, same, noted, started.2]
      exact last started.1
    · rw [Session.InTime, same, noted, stays]
      exact inTime
    · intro t member ins offline
      rw [nothing t member] at offline
      cases offline
    · have faithful : answer.Faithful := admissible _ (List.mem_append_right _ List.mem_cons_self)
      rw [Session.InTime, world, threads, noted]
      rcases which with rfl | rfl
      · exact Nacos.InTime.move inTime guarded.orderly faithful
      · have perItem : Nacos.InTime config.perItem session.call.world.catalog session.call.threads session.registered := inTime
        exact perItem.move (orderly_perItem.mpr guarded.orderly) faithful

/-- In a session whose calls are made in time, an offline push of an instance removes only hosts whose last acknowledged
registration was made for the same identity. -/
theorem late_delete_spares_other_identity (pushed : Set Instance) (catalog : Catalog) (history : List SessionStep) (index : ℕ)
    (answer : Answer) (group : effectiveGroup config.group = config.group)
    (timely : History.AllSteps (fun before label => ((Session.fresh catalog).after config before).Timely config label) history)
    (ids : Set.InjOn HostKey.compositeID (addressed config catalog pushed))
    (admissible : ∀ step ∈ history ++ [.work (.move index answer)], step.Admissible config pushed)
    {offline last : Instance}
    (offlinePush : ((Session.fresh catalog).after config history).call.threads[index]?.bind (fun t => t.job.deregistered) =
      some offline)
    (present : p ∈ ((Session.fresh catalog).after config history).call.world.catalog.entries)
    (removed : p ∉ ((Session.fresh catalog).after config (history ++ [.work (.move index answer)])).call.world.catalog.entries)
    (noted : ((Session.fresh catalog).after config history).registered p.key = some last) :
    identityKey offline = identityKey last := by
  obtain ⟨t, thread, named⟩ := Option.bind_eq_some_iff.mp offlinePush
  have job := deregistered_eq_some named
  have allowed : ∀ step ∈ history, step.Admissible config pushed :=
    fun step member => admissible step (List.mem_append_left _ member)
  have guarded := guarded_after group ids history allowed
  have inTime := inTime_after group ids history allowed timely
  rw [Session.after_append] at removed
  rcases step_catalog config ((Session.fresh catalog).after config history) (.work (.move index answer)) with
    same | ⟨index', answer', u, claimed, moves, here, sending, effect⟩
  · rw [same] at removed
    exact absurd present removed
  · cases moves
    cases here.symm.trans thread
    rcases effect with ⟨ins, register, _⟩ | ⟨key, removal, gone⟩
    · cases register.symm.trans job
    · rw [job] at removal
      cases removal
      have target : p.key = instanceTarget config offline := by
        by_contra apart
        rw [gone] at removed
        exact removed (Catalog.mem_deregister.mpr ⟨present, apart⟩)
      have member := List.mem_of_getElem? thread
      have fits := guarded.fits t member
      rw [sending] at fits
      have scope := fits.1 offline (.inr job) p present target last noted
      have running : t.result.isSome = false := by
        rw [Thread.result, sending]
        rfl
      exact (inTime t member offline named running).1 p present target last noted scope

/-! ### The old pod's removal comes late -/

/-- The old pod is registered, the new one takes its address over, and then the old one's removal arrives. -/
def lateHistory : List SessionStep :=
  SessionStep.push [some runningPod] :: List.replicate 5 (SessionStep.work (.move 0 .done)) ++
    SessionStep.push [some startedPod] :: List.replicate 4 (SessionStep.work (.move 0 .done)) ++
    SessionStep.push [some stoppedPod] :: List.replicate 2 (SessionStep.work (.move 0 .done))

/-- The removal for the old pod takes the new pod's host away. -/
theorem late_delete_removes_new_pod :
    let session := (Session.fresh {}).after cartConfig lateHistory
    let host := registerParams cartConfig.lib cartConfig.group startedPod
    session.call.threads[0]?.bind (fun t => t.job.deregistered) = some stoppedPod ∧
      session.call.world.catalog.entries = [host] ∧ session.registered host.key = some startedPod ∧
      (session.step cartConfig (.work (.move 0 .done))).call.world.catalog.entries = [] ∧
      identityKey stoppedPod ≠ identityKey startedPod := by
  decide +kernel

/-- The new pod when it has stopped as well. -/
def endedPod : Instance := { startedPod with status := instanceStatusOffline, reversion := 3 }

/-- The old pod is registered and removed, then the new one takes its address and is removed in its turn. -/
def reusedHistory : List SessionStep :=
  SessionStep.push [some runningPod] :: List.replicate 5 (SessionStep.work (.move 0 .done)) ++
    SessionStep.push [some stoppedPod] :: List.replicate 4 (SessionStep.work (.move 0 .done)) ++
    SessionStep.push [some startedPod] :: List.replicate 4 (SessionStep.work (.move 0 .done)) ++
    SessionStep.push [some endedPod] :: List.replicate 2 (SessionStep.work (.move 0 .done))

/-- The last removal takes the host of the new pod, and it is the new pod's. -/
theorem late_delete_after_reuse :
    let session := (Session.fresh {}).after cartConfig reusedHistory
    let host := registerParams cartConfig.lib cartConfig.group startedPod
    session.call.world.catalog.entries = [host] ∧
      (session.step cartConfig (.work (.move 0 .done))).call.world.catalog.entries = [] ∧
      identityKey runningPod ≠ identityKey startedPod ∧ identityKey endedPod = identityKey startedPod := by
  refine ⟨by decide +kernel, by decide +kernel, by decide, ?_⟩
  let pods : Set Instance := {runningPod, stoppedPod, startedPod, endedPod}
  have only : ∀ key ∈ addressed cartConfig {} pods, key = instanceTarget cartConfig runningPod := by
    rintro key (⟨ins, rfl | rfl | rfl | rfl, rfl⟩ | ⟨p, absent, _⟩)
    all_goals first | rfl | exact absurd absent List.not_mem_nil
  have timely : History.AllSteps (fun before label => ((Session.fresh {}).after cartConfig before).Timely cartConfig label)
      reusedHistory := by decide +kernel
  have present : registerParams cartConfig.lib cartConfig.group startedPod ∈
      ((Session.fresh {}).after cartConfig reusedHistory).call.world.catalog.entries := by decide +kernel
  refine late_delete_spares_other_identity pods {} reusedHistory 0 .done rfl timely ?_ ?_ (by decide +kernel) present
    (by decide +kernel) (by decide +kernel)
  · intro first member second member' _
    rw [only first member, only second member']
  · intro step member
    have split : reusedHistory ++ [.work (.move 0 .done)] =
        (.push [some runningPod] :: List.replicate 5 (.work (.move 0 .done))) ++
          ((.push [some stoppedPod] :: List.replicate 4 (.work (.move 0 .done))) ++
            ((.push [some startedPod] :: List.replicate 4 (.work (.move 0 .done))) ++
              (.push [some endedPod] :: List.replicate 3 (.work (.move 0 .done))))) := rfl
    simp only [split, List.mem_append] at member
    rcases member with first | second | third | fourth
    · exact admissible_single cartConfig (.inl rfl) 5 step first
    · exact admissible_single cartConfig (.inr (.inl rfl)) 4 step second
    · exact admissible_single cartConfig (.inr (.inr (.inl rfl))) 4 step third
    · exact admissible_single cartConfig (.inr (.inr (.inr rfl))) 3 step fourth

end Spotter.Nacos
