import Spotter.Nacos.Isolation

/-! # Two instances at one address

A recreated pod may get the address of the old one while the snapshot still has both. Their items are
written by threads of their own, and only batches of a pair wait for each other: the newest instance is
sure to be the one that stays if its batch comes after the batches of the others.
-/

namespace Spotter.Nacos

open Library Domain Ports

/-- The instance has the highest revision among the snapshot's instances of its composite id. -/
structure NewestOf (config : Config) (snapshot : Instances) (newest : Instance) : Prop where
  member : some newest ∈ snapshot
  highest : ∀ ins, some ins ∈ snapshot → ins ≠ newest →
    compositeIDWithGroup ins config.group = compositeIDWithGroup newest config.group → ins.reversion < newest.reversion

/-- The older instances of the composite id are in earlier batches of the newest one's pair. -/
def OlderBatchesFirst (config : Config) (snapshot : Instances) (newest : Instance) : Prop :=
  ∀ t ∈ batchThreads snapshot, ∀ ins ∈ t.job.registered, ins.reversion < newest.reversion →
    compositeIDWithGroup ins config.group = compositeIDWithGroup newest config.group →
    ∀ last ∈ batchThreads snapshot, last.job.registered = some newest → t.scope = last.scope ∧ t.batch < last.batch

instance (config : Config) (snapshot : Instances) (newest : Instance) :
    Decidable (OlderBatchesFirst config snapshot newest) :=
  inferInstanceAs (Decidable (∀ _ ∈ _, _))

variable {config : Config} {world : World} {snapshot : Instances} {newest : Instance} {threads : List Thread}
  {index : ℕ} {answer : Answer}

/-- While the items are written: an acknowledged write of the newest instance is in the catalog. -/
structure TakesOver (config : Config) (snapshot : Instances) (newest : Instance) (world : World)
    (threads : List Thread) : Prop where
  plan : threads.map Thread.plan = (batchThreads snapshot).map Thread.plan
  order : InOrder threads
  present : ∀ last ∈ threads, last.job = .register newest → last.phase.Acknowledged → newest.ip ≠ "" →
    registerParams config.lib config.group newest ∈ world.catalog.entries

theorem takesOver_start : TakesOver config snapshot newest world (batchThreads snapshot) := by
  have waiting : ∀ t ∈ batchThreads snapshot, t.phase = .waiting := by
    intro t member
    obtain ⟨_, _, _, _, _, phase⟩ := mem_batchThreads member
    exact phase
  refine ⟨rfl, inOrder_of_waiting waiting, ?_⟩
  intro last member _ done
  rw [waiting last member] at done
  exact done.elim

/-- A thread under way has the plan of a thread of the snapshot. -/
theorem planned (plan : threads.map Thread.plan = (batchThreads snapshot).map Thread.plan) {t : Thread} (member : t ∈ threads) :
    ∃ made ∈ batchThreads snapshot, made.job = t.job ∧ made.scope = t.scope ∧ made.batch = t.batch := by
  have among : t.plan ∈ (batchThreads snapshot).map Thread.plan := plan ▸ List.mem_map_of_mem member
  obtain ⟨made, listed, same⟩ := List.mem_map.mp among
  exact ⟨made, listed, plan_eq same⟩

/-- The older instance's thread is in an earlier batch of the newest one's pair. -/
theorem earlier_batch (newestOf : NewestOf config snapshot newest) (ordered : OlderBatchesFirst config snapshot newest)
    (plan : threads.map Thread.plan = (batchThreads snapshot).map Thread.plan) {t last : Thread} {ins : Instance}
    (member : t ∈ threads) (member' : last ∈ threads) (job : t.job = .register ins) (job' : last.job = .register newest)
    (other : ins ≠ newest) (target : instanceTarget config ins = instanceTarget config newest) :
    t.scope = last.scope ∧ t.batch < last.batch := by
  obtain ⟨made, listed, sameJob, scope, batch⟩ := planned plan member
  obtain ⟨made', listed', sameJob', scope', batch'⟩ := planned plan member'
  have id : compositeIDWithGroup ins config.group = compositeIDWithGroup newest config.group := by
    rw [← instanceTarget_compositeID, ← instanceTarget_compositeID, target]
  have inSnapshot : some ins ∈ snapshot := by
    obtain ⟨owner, operation, item, own, _, _⟩ := mem_batchThreads listed
    rw [sameJob, job] at own
    cases operation with
    | register =>
      cases own
      exact item.1
    | deregister => cases own
  have earlier := ordered made listed ins (by rw [sameJob, job]; rfl) (newestOf.highest ins inSnapshot other id) id
    made' listed' (by rw [sameJob', job']; rfl)
  rw [scope, scope', batch, batch'] at earlier
  exact earlier

section

variable (registers : ∀ ins, some ins ∈ snapshot → persistentBatchOperation ins.status = some .register)

include registers

/-- In a snapshot of registrations no thread removes a host. -/
theorem no_removal
    (plan : threads.map Thread.plan = (batchThreads snapshot).map Thread.plan) {t : Thread} (member : t ∈ threads) :
    t.job.removal config = none := by
  obtain ⟨made, listed, sameJob, _, _⟩ := planned plan member
  obtain ⟨ins, operation, item, job, _, _⟩ := mem_batchThreads listed
  cases Option.some.inj (item.2.symm.trans (registers ins item.1))
  rw [← sameJob, job]
  rfl

theorem TakesOver.move (newestOf : NewestOf config snapshot newest) (ordered : OlderBatchesFirst config snapshot newest)
    (takes : TakesOver config snapshot newest world threads) :
    TakesOver config snapshot newest (moveThread config world threads index answer).1
      (moveThread config world threads index answer).2 := by
  have plan := takes.plan
  rw [← moveThread_map Thread.plan fun _ _ => rfl] at plan
  rcases moveThread_acts config world threads index answer with ⟨same, _⟩ | ⟨t, next, phase, found, open_, acts, moved⟩
  · rw [same]
    exact takes
  have member : t ∈ threads := List.mem_of_getElem? found
  have order := takes.order.move config world index answer
  rw [moved] at plan order ⊢
  refine ⟨plan, order, ?_⟩
  · intro last among job done address
    rcases acts.catalog with same | ⟨ins, claimed, own, sent, _, written⟩ | ⟨key, _, removal, _⟩
    · rcases List.mem_or_eq_of_mem_set among with before | rfl
      · rw [same]
        exact takes.present last before job done address
      · simp only at job done
        rw [job] at acts
        rcases acts.effect (.inl rfl) with ⟨_, quiet⟩ | ⟨_, ⟨_, written⟩ | ⟨other, _⟩⟩
        · rw [same]
          exact takes.present t member job ((quiet done).resolve_right address) address
        · rw [written]
          exact Catalog.mem_register.mpr (.inl rfl)
        · cases other
    · rw [written]
      by_cases newer : ins = newest
      · rw [newer]
        exact Catalog.mem_register.mpr (.inl rfl)
      · rcases List.mem_or_eq_of_mem_set among with before | rfl
        · refine Catalog.mem_register.mpr (.inr ⟨takes.present last before job done address, ?_⟩)
          intro target
          have begun : last.phase ≠ .waiting := by
            intro waiting
            rw [waiting] at done
            exact done.elim
          -- The older instance's thread sends although its batch has finished.
          obtain ⟨scope, batch⟩ := earlier_batch newestOf ordered takes.plan member before own job newer target.symm
          obtain ⟨err, finished⟩ := result_isSome (takes.order t member last before scope batch begun)
          cases sent.symm.trans finished
        · cases own.symm.trans job
          exact absurd rfl newer
    · rw [no_removal registers takes.plan member] at removal
      cases removal

/-- The newest instance's registration is written last at its address, and the prune wants it. -/
theorem newest_registered (world : World) (history : List PushStep)
    (newestOf : NewestOf config snapshot newest) (address : newest.ip ≠ "")
    (ordered : OlderBatchesFirst config snapshot newest)
    (returned : ((PushRun.start config world snapshot).after config history).stage = .returned none) :
    registerParams config.lib config.group newest ∈
      ((PushRun.start config world snapshot).after config history).world.catalog.entries := by
  have moves : MoveInvariant config (TakesOver config snapshot newest) :=
    fun world threads index answer takes => takes.move registers newestOf ordered
  have begins : Traced config (TakesOver config snapshot newest) (PushRun.start config world snapshot) :=
    traced_start takesOver_start
  have traced := traced_after moves begins history
  rw [Traced, returned] at traced
  obtain ⟨mid, writers, tasks, discovered, clean, cleared⟩ := traced
  have present : registerParams config.lib config.group newest ∈ mid.catalog.entries := by
    obtain ⟨made, listed, job, _⟩ := item_thread ⟨newestOf.member, registers newest newestOf.member⟩
    have among : made.plan ∈ writers.map Thread.plan := discovered.held.plan ▸ List.mem_map_of_mem listed
    obtain ⟨last, member, same⟩ := List.mem_map.mp among
    have own : last.job = .register newest := (congrArg Prod.fst same).trans job
    refine discovered.held.present last member own (acknowledged_of_clean discovered.finished member ?_) address
    rw [clean]
    exact List.not_mem_nil
  refine (cleared _).mpr ⟨present, ?_⟩
  intro task planned target
  obtain ⟨reads, plan⟩ := discovered.planned
  obtain ⟨_, _, q, registered, key, _, unwanted⟩ := prunePlan_sound plan planned
  have pair : clusterKeyOf newest = task.key := congrArg HostKey.pair target
  rw [clean, (after_fixed config _ history).1, (after_fixed config _ history).2] at unwanted
  refine unwanted ((mem_wanted_item List.not_mem_nil).mpr
    ⟨newest, ⟨newestOf.member, registers newest newestOf.member⟩, pair, ?_⟩)
  rw [key, ← target]
  rfl

end

/-- If the older instances of a composite id are in earlier batches of the pair, a full push that returns nil leaves the
newest instance's registration at their address. -/
theorem pushAll_newest_takes_over (world : World) (history : List PushStep)
    (registers : ∀ ins, some ins ∈ snapshot → persistentBatchOperation ins.status = some .register)
    (newestOf : NewestOf config snapshot newest) (address : newest.ip ≠ "")
    (ordered : OlderBatchesFirst config snapshot newest)
    (returned : ((PushRun.start config world snapshot).after config history).stage = .returned none) (p : InstanceParams) :
    p ∈ ((PushRun.start config world snapshot).after config history).world.catalog.entries ∧
        p.key = instanceTarget config newest ↔
      p = registerParams config.lib config.group newest := by
  have present := newest_registered registers world history newestOf address ordered returned
  constructor
  · rintro ⟨registered, key⟩
    exact List.inj_on_of_nodup_map (SortedStore.keys_nodup _) registered present key
  · rintro rfl
    exact ⟨present, rfl⟩

/-! ### A recreated pod with the old pod's address -/

def oldPod : Instance :=
  { instanceId := "orders-0", appCode := "orders", provider := "k8s", sourceKey := "uid-1", sourceCluster := "east"
    cluster := "blue", ip := "10.0.0.8", status := instanceStatusOnline, reversion := 1 }

def recreatedPod : Instance := { oldPod with instanceId := "orders-1", sourceKey := "uid-2", reversion := 2 }

def reuseConfig : Config := tableConfig [oldPod, recreatedPod]

/-- Both items are in one batch; the old pod's write comes last. -/
def reuseHistory : List PushStep :=
  List.replicate 5 (PushStep.move 1 .done) ++ List.replicate 5 (PushStep.move 0 .done) ++ [PushStep.discover {}, PushStep.leave]

def reuseRun : PushRun :=
  (PushRun.start reuseConfig { catalog := {} } [some oldPod, some recreatedPod]).after reuseConfig reuseHistory

/-- The full push returns nil and the old pod's registration stays. -/
theorem reused_address_keeps_old_payload : reuseRun.stage = .returned none ∧
      reuseRun.world.catalog.entries = [registerParams reuseConfig.lib reuseConfig.group oldPod] ∧
      compositeIDWithGroup oldPod reuseConfig.group = compositeIDWithGroup recreatedPod reuseConfig.group ∧
      oldPod.reversion < recreatedPod.reversion ∧
      compressedCanonicalPayload reuseConfig.lib.toPayloadCodec oldPod ≠
        compressedCanonicalPayload reuseConfig.lib.toPayloadCodec recreatedPod := by
  decide +kernel

/-- A pod without an address in the same pair. -/
def pendingPod : Instance := { oldPod with instanceId := "orders-2", sourceKey := "uid-3", ip := "" }

/-- The old pod and enough others to fill a batch come first. -/
def longSnapshot : Instances :=
  some oldPod :: List.replicate 99 (some pendingPod) ++ [some recreatedPod]

def longHistory : List PushStep :=
  List.replicate 5 (PushStep.move 0 .done) ++ (List.range 99).map (fun index => PushStep.move (index + 1) .done) ++
    List.replicate 5 (PushStep.move 100 .done) ++ [PushStep.discover {}, PushStep.leave]

theorem longSnapshot_newest : NewestOf reuseConfig longSnapshot recreatedPod := by
  refine ⟨by decide, ?_⟩
  have all : ∀ item ∈ longSnapshot, ∀ ins ∈ item, ins ≠ recreatedPod →
      compositeIDWithGroup ins reuseConfig.group = compositeIDWithGroup recreatedPod reuseConfig.group →
      ins.reversion < recreatedPod.reversion := by decide +kernel
  exact fun ins member => all (some ins) member ins rfl

/-- In the next batch the recreated pod takes the address over. -/
theorem recreatedPod_takes_over : registerParams reuseConfig.lib reuseConfig.group recreatedPod ∈
      ((PushRun.start reuseConfig { catalog := {} } longSnapshot).after reuseConfig longHistory).world.catalog.entries := by
  have registers : ∀ item ∈ longSnapshot, ∀ ins ∈ item, persistentBatchOperation ins.status = some .register := by
    decide +kernel
  have takes := pushAll_newest_takes_over { catalog := {} } longHistory (fun ins member => registers (some ins) member ins rfl)
    longSnapshot_newest (by decide) (by decide +kernel) (by decide +kernel)
    (registerParams reuseConfig.lib reuseConfig.group recreatedPod)
  exact (takes.mpr rfl).1

end Spotter.Nacos
