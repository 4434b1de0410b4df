import Spotter.Nacos.PushAll

/-! # What one step of a thread can do

The step function is inverted once: a step stays, refuses, reads owners, records them, claims, checks,
sends, releases or forgets. The results about ownership are proved by cases on this relation, and what
each operation does to the recorded owner of an id is stated as an equation on look-ups.
-/

namespace Spotter.Nacos

open Library Domain Ports

/-- The job writes the instance under its own address. -/
def Job.Writes (job : Job) (ins : Instance) : Prop := job = .register ins ∨ job = .deregister ins

variable {job : Job}

theorem Job.Writes.unique {ins other : Instance} (writes : job.Writes ins) (writes' : job.Writes other) : ins = other := by
  rcases writes with rfl | rfl
  · rcases writes' with same | same
    · cases same
      rfl
    · cases same
  · rcases writes' with same | same
    · cases same
    · cases same
      rfl

/-- The host key that a job removes. -/
def Job.removal (config : Config) : Job → Option HostKey
  | .register _ => none
  | .deregister ins => some (instanceTarget config ins)
  | .sweep task => some (task.target config)

/-- The instance that a job registers. -/
def Job.registered : Job → Option Instance
  | .register ins => some ins
  | _ => none

/-- The instance that a job deregisters. -/
def Job.deregistered : Job → Option Instance
  | .deregister ins => some ins
  | _ => none

/-- The text under which an acknowledged removal forgets its owner. -/
def forgottenID (config : Config) (key : HostKey) : String :=
  compositeText key.ip key.port key.cluster config.group key.service

/-- The steps of a thread: job, world and phase before, world and phase after. -/
inductive Acts (config : Config) (answer : Answer) : Job → World → Phase → World → Phase → Prop
  | stay {job : Job} {world : World} {phase : Phase} (resting : ∀ claimed, phase ≠ .admitted claimed) :
      Acts config answer job world phase world phase
  /-- A thread ends before it sends anything; without an error only if its instance has no address. -/
  | refuse {job : Job} {world : World} {phase : Phase} {err : Option GoError}
      (early : phase = .waiting ∨ phase = .recovered) (silent : err = none → ∀ ins, job.Writes ins → ins.ip = "") :
      Acts config answer job world phase world (.finished err)
  | recover {job : Job} {world : World} {ins : Instance} (writes : job.Writes ins)
      (known : (ins.sourceKey = "" ∧ ins.sourceCluster = "") ∨ clusterKeyOf ins ∈ world.ownership.wireScanned) :
      Acts config answer job world .waiting world .recovered
  | scan {job : Job} {world : World} {ins : Instance} {owners : List (String × String)} (writes : job.Writes ins)
      (free : world.scanLocked = false) (unknown : clusterKeyOf ins ∉ world.ownership.wireScanned)
      (found : scanOwners config.lib config.group ins.appCode []
        (world.catalog.selectAll (effectiveGroup config.group) ins.appCode (clusterOf ins)) = .ok owners) :
      Acts config answer job world .waiting { world with scanLocked := true } (.scanning owners)
  | record {job : Job} {world : World} {ins : Instance} {owners : List (String × String)} {ownership : Ownership}
      (writes : job.Writes ins) (merged : world.ownership.recordScan (clusterKeyOf ins) owners = (ownership, none)) :
      Acts config answer job world (.scanning owners) { world with ownership := ownership, scanLocked := false } .recovered
  | collide {job : Job} {world : World} {ins : Instance} {owners : List (String × String)} {ownership : Ownership}
      {err : GoError} (writes : job.Writes ins)
      (merged : world.ownership.recordScan (clusterKeyOf ins) owners = (ownership, some err)) :
      Acts config answer job world (.scanning owners) { world with ownership := ownership, scanLocked := false }
        (.finished (some err))
  | claim {world : World} {ins : Instance} {ownership : Ownership} {claimed : Bool}
      (granted : world.ownership.claimWireIdentity config.group ins = .ok (ownership, claimed)) :
      Acts config answer (.register ins) world .recovered { world with ownership := ownership } (.admitted claimed)
  | check {world : World} {ins : Instance} (free : world.ownership.deregisterConflict config.group ins = none) :
      Acts config answer (.deregister ins) world .recovered world (.admitted false)
  | start {world : World} (task : PruneTask) : Acts config answer (.sweep task) world .waiting world (.admitted false)
  | write {world : World} (ins : Instance) (claimed : Bool) :
      Acts config answer (.register ins) world (.admitted claimed)
        { world with
          catalog := if answer.applies then world.catalog.register (registerParams config.lib config.group ins)
            else world.catalog }
        (.answered claimed (registerError config ins answer))
  | remove {job : Job} {world : World} {key : HostKey} (claimed : Bool) (removal : job.removal config = some key) :
      Acts config answer job world (.admitted claimed)
        { world with catalog := if answer.applies then world.catalog.deregister key else world.catalog }
        (.answered claimed (deregisterError key answer))
  | release {world : World} (ins : Instance) (claimed : Bool) (err : Option GoError) :
      Acts config answer (.register ins) world (.answered claimed err)
        { world with ownership := world.ownership.releaseWireIdentity config.group ins claimed err.isNone } (.finished err)
  | forget {job : Job} {world : World} {key : HostKey} (claimed : Bool) (removal : job.removal config = some key) :
      Acts config answer job world (.answered claimed none)
        { world with ownership := world.ownership.forget (forgottenID config key) } (.finished none)
  | fail {job : Job} {world : World} {key : HostKey} (claimed : Bool) (err : GoError)
      (removal : job.removal config = some key) : Acts config answer job world (.answered claimed (some err)) world (.finished (some err))

variable {config : Config} {world : World} {answer : Answer} {ins : Instance}

variable {phase : Phase}

theorem Acts.refuse_error {err : GoError} (early : phase = .waiting ∨ phase = .recovered) :
    Acts config answer job world phase world (.finished (some err)) :=
  .refuse early fun silent => absurd silent (Option.some_ne_none err)

theorem recoverWireOwnership_acts (writes : job.Writes ins) :
    Acts config answer job world .waiting (recoverWireOwnership config world ins answer).1
      (recoverWireOwnership config world ins answer).2 := by
  simp only [recoverWireOwnership]
  split_ifs with sourceless locked scanned
  · exact .recover writes (.inl sourceless)
  · exact .stay fun _ => Phase.noConfusion
  · exact .recover writes (.inr scanned)
  · cases failure : answer.err with
    | some err => exact .refuse_error (.inl rfl)
    | none =>
      cases found : scanOwners config.lib config.group (clusterKeyOf ins).service []
          (world.catalog.selectAll (effectiveGroup config.group) (clusterKeyOf ins).service (clusterKeyOf ins).cluster) with
      | error err => exact .refuse_error (.inl rfl)
      | ok owners => exact .scan writes (Bool.eq_false_iff.mpr locked) scanned found

/-- A register and a deregister record the owners of their pair alike. -/
theorem record_acts (writes : job.Writes ins) (owners : List (String × String)) :
    Acts config answer job world (.scanning owners) (job.record world owners).1 (job.record world owners).2 := by
  have alike : job.record world owners = (Job.register ins).record world owners := by
    rcases writes with rfl | rfl
    · rfl
    · rfl
  rw [alike]
  simp only [Job.record]
  cases merged : world.ownership.recordScan (clusterKeyOf ins) owners with
  | mk ownership failure =>
    cases failure with
    | some err => exact .collide writes merged
    | none => exact .record writes merged

/-- Every step is one of the relation's. -/
theorem act_acts (config : Config) (world : World) (job : Job) (phase : Phase) (answer : Answer) :
    Acts config answer job world phase (job.act config world phase answer).1 (job.act config world phase answer).2 := by
  cases phase with
  | waiting =>
    cases job with
    | register ins =>
      simp only [Job.act, Job.begin]
      split_ifs with empty
      · refine .refuse (.inl rfl) ?_
        rintro _ other (same | same)
        · cases same
          exact empty
        · cases same
      · cases oversized : validateMetadataSize (metadataOf config.lib ins) with
        | some err => exact .refuse_error (.inl rfl)
        | none => exact recoverWireOwnership_acts (.inl rfl)
    | deregister ins =>
      simp only [Job.act, Job.begin]
      split_ifs with empty
      · refine .refuse (.inl rfl) ?_
        rintro _ other (same | same)
        · cases same
        · cases same
          exact empty
      · exact recoverWireOwnership_acts (.inr rfl)
    | sweep task => exact .start task
  | scanning owners =>
    cases job with
    | register ins => exact record_acts (.inl rfl) owners
    | deregister ins => exact record_acts (.inr rfl) owners
    | sweep task => exact .stay fun _ => Phase.noConfusion
  | recovered =>
    cases job with
    | register ins =>
      simp only [Job.act, Job.enter]
      cases granted : world.ownership.claimWireIdentity config.group ins with
      | error err => exact .refuse_error (.inr rfl)
      | ok result => exact .claim granted
    | deregister ins =>
      simp only [Job.act, Job.enter]
      cases free : world.ownership.deregisterConflict config.group ins with
      | some err => exact .refuse_error (.inr rfl)
      | none => exact .check free
    | sweep task => exact .stay fun _ => Phase.noConfusion
  | admitted claimed =>
    cases job with
    | register ins => exact .write ins claimed
    | deregister ins | sweep task => exact .remove claimed rfl
  | answered claimed err =>
    have item : ∀ {job : Job} {key : HostKey}, job.removal config = some key →
        Acts config answer job world (.answered claimed err)
          { world with ownership := if err.isNone then world.ownership.forget (forgottenID config key) else world.ownership }
          (.finished err) := by
      intro job key removal
      cases err with
      | none => exact .forget claimed removal
      | some err => exact .fail claimed err removal
    cases job with
    | register ins => exact .release ins claimed err
    | deregister ins | sweep task => exact item rfl
  | finished err => exact .stay fun _ => Phase.noConfusion

/-- A move changes nothing or takes one step of a thread whose earlier batches have finished. -/
theorem moveThread_acts (config : Config) (world : World) (threads : List Thread) (index : ℕ) (answer : Answer) :
    (moveThread config world threads index answer = (world, threads) ∧ ∀ t, threads[index]? = some t → ready threads t = false) ∨
      ∃ t next phase, threads[index]? = some t ∧ ready threads t = true ∧ Acts config answer t.job world t.phase next phase ∧
        moveThread config world threads index answer = (next, threads.set index { t with phase := phase }) := by
  rcases Option.eq_none_or_eq_some threads[index]? with absent | ⟨t, found⟩
  · refine .inl ⟨by simp only [moveThread, absent], ?_⟩
    intro t found
    rw [absent] at found
    cases found
  · by_cases open_ : ready threads t = true
    · refine .inr ⟨t, _, _, found, open_, act_acts config world t.job t.phase answer, ?_⟩
      simp only [moveThread, found, open_, ↓reduceIte]
    · refine .inl ⟨by simp only [moveThread, found, open_, Bool.false_eq_true, ↓reduceIte], ?_⟩
      intro u same
      rw [found] at same
      cases same
      exact Bool.eq_false_iff.mpr open_

/-- A thread of an updated list is the new one or stands elsewhere. -/
theorem mem_set_cases {α : Type*} {l : List α} {index : ℕ} {a b : α} (member : b ∈ l.set index a) :
    b = a ∨ ∃ position, position ≠ index ∧ l[position]? = some b := by
  obtain ⟨position, bound, rfl⟩ := List.mem_iff_getElem.mp member
  rw [List.length_set] at bound
  rw [List.getElem_set]
  split_ifs with here
  · exact .inl rfl
  · exact .inr ⟨position, Ne.symm here, List.getElem?_eq_getElem bound⟩

/-- What does not change of a thread. -/
def Thread.plan (t : Thread) : Job × ClusterKey × ℕ := (t.job, t.scope, t.batch)

theorem plan_eq {t u : Thread} (same : t.plan = u.plan) : t.job = u.job ∧ t.scope = u.scope ∧ t.batch = u.batch := by
  obtain ⟨job, rest⟩ := Prod.mk.inj same
  obtain ⟨scope, batch⟩ := Prod.mk.inj rest
  exact ⟨job, scope, batch⟩

theorem result_isSome {t : Thread} (done : t.result.isSome = true) : ∃ err, t.phase = .finished err := by
  cases phase : t.phase with
  | finished err => exact ⟨err, rfl⟩
  | waiting | scanning owners | recovered | admitted claimed | answered claimed err => simp [Thread.result, phase] at done

variable {phase' : Phase}

/-- A finished thread stays finished. -/
theorem Acts.finished {next : World} (acts : Acts config answer job world phase next phase') {err : Option GoError}
    (done : phase = .finished err) : phase' = .finished err := by
  subst done
  cases acts with
  | stay => rfl
  | refuse early => rcases early with same | same <;> cases same

/-- When a thread has begun, the earlier batches of its pair have finished. -/
def InOrder (threads : List Thread) : Prop :=
  ∀ t ∈ threads, ∀ u ∈ threads, t.scope = u.scope → t.batch < u.batch → u.phase ≠ .waiting → t.result.isSome = true

theorem inOrder_of_waiting {threads : List Thread} (waiting : ∀ t ∈ threads, t.phase = .waiting) : InOrder threads :=
  fun _ _ u member _ _ begun => absurd (waiting u member) begun

theorem InOrder.move {threads : List Thread} (order : InOrder threads) (config : Config) (world : World) (index : ℕ)
    (answer : Answer) : InOrder (moveThread config world threads index answer).2 := by
  rcases moveThread_acts config world threads index answer with ⟨same, _⟩ | ⟨t, next, phase, found, open_, acts, moved⟩
  · rw [same]
    exact order
  have member : t ∈ threads := List.mem_of_getElem? found
  rw [moved]
  intro first among last among' scope batch begun
  have earlier : ∀ first ∈ threads, first.scope = last.scope → first.batch < last.batch → first.result.isSome = true := by
    intro first among scope batch
    rcases List.mem_or_eq_of_mem_set among' with before | rfl
    · exact order first among last before scope batch begun
    · exact of_decide_eq_true (List.all_eq_true.mp open_ first among) scope batch
  rcases List.mem_or_eq_of_mem_set among with before | rfl
  · exact earlier first before scope batch
  · obtain ⟨err, finished⟩ := result_isSome (earlier t member scope batch)
    simp only [Thread.result, acts.finished finished, Option.isSome_some]

/-- The catalog changes only when an admitted thread sends and the server applies the call. -/
theorem Acts.catalog {next : World} (acts : Acts config answer job world phase next phase') : next.catalog = world.catalog ∨
      (∃ ins claimed, job = .register ins ∧ phase = .admitted claimed ∧ answer.applies = true ∧
        next.catalog = world.catalog.register (registerParams config.lib config.group ins)) ∨
      ∃ key claimed, job.removal config = some key ∧ phase = .admitted claimed ∧ answer.applies = true ∧
        next.catalog = world.catalog.deregister key := by
  cases acts with
  | write ins claimed =>
    cases applies : answer.applies with
    | true => exact .inr (.inl ⟨ins, claimed, rfl, rfl, rfl, rfl⟩)
    | false => exact .inl rfl
  | @remove _ _ key claimed removal =>
    cases applies : answer.applies with
    | true => exact .inr (.inr ⟨key, claimed, removal, rfl, rfl, rfl⟩)
    | false => exact .inl rfl
  | stay | refuse early silent | recover writes known | scan writes free unknown found | record writes merged
  | collide writes merged | claim granted | check free | start task | release ins claimed err | forget claimed removal
  | fail claimed err removal => exact .inl rfl

/-- What a move does to the catalog. -/
theorem moveThread_catalog (config : Config) (world : World) (threads : List Thread) (index : ℕ) (answer : Answer) :
    (moveThread config world threads index answer).1.catalog = world.catalog ∨
      ∃ t claimed, threads[index]? = some t ∧ t.phase = .admitted claimed ∧
        ((∃ ins, t.job = .register ins ∧ (moveThread config world threads index answer).1.catalog =
            world.catalog.register (registerParams config.lib config.group ins)) ∨
          ∃ key, t.job.removal config = some key ∧
            (moveThread config world threads index answer).1.catalog = world.catalog.deregister key) := by
  rcases moveThread_acts config world threads index answer with ⟨same, _⟩ | ⟨t, next, phase, here, _, acts, moved⟩
  · rw [same]
    exact .inl rfl
  · rw [moved]
    rcases acts.catalog with same | ⟨ins, claimed, register, sending, _, written⟩ | ⟨key, claimed, removal, sending, _, removed⟩
    · exact .inl same
    · exact .inr ⟨t, claimed, here, sending, .inl ⟨ins, register, written⟩⟩
    · exact .inr ⟨t, claimed, here, sending, .inr ⟨key, removal, removed⟩⟩

/-- A step of a register or a deregister leaves the catalog alone or writes; an acknowledgement comes with the write
unless the instance has no address. -/
theorem Acts.effect {next : World} (acts : Acts config answer job world phase next phase') (writes : job.Writes ins) :
    (next.catalog = world.catalog ∧ (phase'.Acknowledged → phase.Acknowledged ∨ ins.ip = "")) ∨ (phase.Begun ∧
        ((job = .register ins ∧ next.catalog = world.catalog.register (registerParams config.lib config.group ins)) ∨
          (job = .deregister ins ∧ next.catalog = world.catalog.deregister (instanceTarget config ins)))) := by
  cases acts with
  | stay => exact .inl ⟨rfl, .inl⟩
  | refuse early silent => exact .inl ⟨rfl, fun done => .inr (silent done ins writes)⟩
  | recover _ known | scan _ free unknown found | record _ merged | claim granted | check free | start task =>
    exact .inl ⟨rfl, False.elim⟩
  | collide _ merged => exact .inl ⟨rfl, fun done => absurd done (Option.some_ne_none _)⟩
  | write other claimed =>
    obtain rfl : other = ins := by
      rcases writes with same | same
      · exact Job.register.inj same
      · cases same
    by_cases applies : answer.applies = true
    · exact .inr ⟨trivial, .inl ⟨rfl, if_pos applies⟩⟩
    · exact .inl ⟨if_neg applies, fun done => absurd (acknowledged_registerError done) applies⟩
  | remove claimed removal =>
    rcases writes with rfl | rfl
    · cases removal
    · cases removal
      by_cases applies : answer.applies = true
      · exact .inr ⟨trivial, .inr ⟨rfl, if_pos applies⟩⟩
      · exact .inl ⟨if_neg applies, fun done => absurd (acknowledged_deregisterError done) applies⟩
  | release other claimed err | forget claimed removal | fail claimed err removal => exact .inl ⟨rfl, .inl⟩

/-! ## The recorded owners -/

namespace StringMap

variable (m : StringMap) (key query value : String)

@[simp] theorem value_insert : StringMap.value (m.insert key value) query = if query = key then value else m.value query := by
  simp only [StringMap.value, FiniteMap.lookup_insert_ite]
  split_ifs <;> rfl

@[simp] theorem value_erase : StringMap.value (m.erase key) query = if query = key then "" else m.value query := by
  simp only [StringMap.value, FiniteMap.lookup_erase_ite]
  split_ifs <;> rfl

end StringMap

theorem wireOwnerScope_ne_empty (ins : Instance) : wireOwnerScope ins ≠ "" := by
  intro empty
  have chars := congrArg String.toList empty
  simp only [wireOwnerScope] at chars
  split_ifs at chars
  · simp at chars
  · simp at chars

variable {wireID : String}

theorem collision_eq_none {existing incoming : String} (free : collision wireID existing incoming = none) :
    existing = "" ∨ existing = incoming := by
  simp only [collision] at free
  split_ifs at free with taken
  rcases not_and_or.mp taken with absent | same
  · exact .inl (not_not.mp absent)
  · exact .inr (not_not.mp same)

namespace Ownership

variable {o next : Ownership} {group : String} {claimed success : Bool} {owners : List (String × String)} {id : String}

/-- What a granted claim says and does. -/
theorem claim_granted (granted : o.claimWireIdentity group ins = .ok (next, claimed)) :
    (o.wireOwners.value (compositeIDWithGroup ins group) = "" ∨
      o.wireOwners.value (compositeIDWithGroup ins group) = wireOwnerScope ins) ∧
    (o.wireClaims.value (compositeIDWithGroup ins group) = "" ∨
      o.wireClaims.value (compositeIDWithGroup ins group) = wireOwnerScope ins) ∧
    next.wireOwners = o.wireOwners ∧ next.wireScanned = o.wireScanned ∧
    ∀ id, next.wireClaims.value id =
      if id = compositeIDWithGroup ins group then wireOwnerScope ins else o.wireClaims.value id := by
  simp only [claimWireIdentity] at granted
  split at granted
  · cases granted
  · next free =>
    obtain ⟨owner, claim⟩ := Option.or_eq_none_iff.mp free
    have ownerFree := collision_eq_none owner
    have claimFree := collision_eq_none claim
    split_ifs at granted with absent
    · cases granted
      exact ⟨ownerFree, claimFree, rfl, rfl, fun id => StringMap.value_insert ..⟩
    · cases granted
      refine ⟨ownerFree, claimFree, rfl, rfl, fun id => ?_⟩
      split_ifs with same
      · rw [same]
        exact claimFree.resolve_left absent
      · rfl

theorem release_owners : (o.releaseWireIdentity group ins claimed success).wireOwners.value id =
    if success = true ∧ id = compositeIDWithGroup ins group then wireOwnerScope ins else o.wireOwners.value id := by
  cases success with
  | true | false => simp [releaseWireIdentity]

/-- A release deletes at most the claim of its own scope. -/
theorem release_claims : (o.releaseWireIdentity group ins claimed success).wireClaims.value id = o.wireClaims.value id ∨
    (id = compositeIDWithGroup ins group ∧ (claimed || success) = true ∧ o.wireClaims.value id = wireOwnerScope ins) := by
  simp only [releaseWireIdentity]
  split_ifs with own
  · by_cases same : id = compositeIDWithGroup ins group
    · exact .inr ⟨same, own.2, by rw [same]; exact own.1⟩
    · exact .inl (by rw [StringMap.value_erase, if_neg same])
  · exact .inl rfl

theorem forget_owners : (o.forget wireID).wireOwners.value id =
    if id = wireID then "" else o.wireOwners.value id := by
  simp [forget]

theorem forget_claims : (o.forget wireID).wireClaims.value id =
    if id = wireID then "" else o.wireClaims.value id := by
  simp [forget]

/-- Merging found owners keeps every owner on record, and claims and scanned pairs. -/
theorem mergeOwners_keeps (o : Ownership) (owners : List (String × String)) :
    (∀ id, o.wireOwners.value id ≠ "" → (o.mergeOwners owners).1.wireOwners.value id = o.wireOwners.value id) ∧
      (o.mergeOwners owners).1.wireClaims = o.wireClaims ∧ (o.mergeOwners owners).1.wireScanned = o.wireScanned := by
  induction owners generalizing o with
  | nil => exact ⟨fun _ _ => rfl, rfl, rfl⟩
  | cons entry rest ih =>
    obtain ⟨wireID, scope⟩ := entry
    simp only [mergeOwners]
    split
    · exact ⟨fun _ _ => rfl, rfl, rfl⟩
    · next free =>
      obtain ⟨keeps, claims, scanned⟩ := ih { o with wireOwners := o.wireOwners.insert wireID scope }
      refine ⟨?_, claims, scanned⟩
      intro id recorded
      have inserted : StringMap.value (o.wireOwners.insert wireID scope) id = o.wireOwners.value id := by
        rw [StringMap.value_insert]
        split_ifs with same
        · subst same
          exact ((collision_eq_none free).resolve_left recorded).symm
        · rfl
      rw [keeps id (by rw [inserted]; exact recorded), inserted]

/-- A merge without a collision records every found owner. -/
theorem mergeOwners_records (o : Ownership) (owners : List (String × String)) (merged : (o.mergeOwners owners).2 = none)
    {scope : String} (found : (id, scope) ∈ owners) (named : scope ≠ "") :
    (o.mergeOwners owners).1.wireOwners.value id = scope := by
  induction owners generalizing o with
  | nil => cases found
  | cons entry rest ih =>
    obtain ⟨wireID, owner⟩ := entry
    simp only [mergeOwners] at merged ⊢
    cases free : collision wireID (o.wireOwners.value wireID) owner with
    | some err =>
      simp only [free] at merged
      cases merged
    | none =>
      simp only [free] at merged ⊢
      rcases List.mem_cons.mp found with same | later
      · cases same
        have recorded : StringMap.value (o.wireOwners.insert id scope) id = scope := by
          rw [StringMap.value_insert, if_pos rfl]
        have kept := (mergeOwners_keeps { o with wireOwners := o.wireOwners.insert id scope } rest).1 id
          (by rw [recorded]; exact named)
        exact kept.trans recorded
      · exact ih _ merged later

/-- What the end of a scan leaves on record. -/
theorem recordScan_spec {pair : ClusterKey} {failure : Option GoError} (merged : o.recordScan pair owners = (next, failure)) :
    next.wireOwners = (o.mergeOwners owners).1.wireOwners ∧ next.wireClaims = o.wireClaims ∧ failure = (o.mergeOwners owners).2 ∧
      next.wireScanned = if failure.isNone then insert pair o.wireScanned else o.wireScanned := by
  obtain ⟨_, claims, scanned⟩ := o.mergeOwners_keeps owners
  simp only [recordScan] at merged
  cases result : o.mergeOwners owners with
  | mk table fault =>
    rw [result] at claims scanned
    cases fault with
    | some err =>
      simp only [result] at merged
      cases merged
      exact ⟨rfl, claims, rfl, scanned⟩
    | none =>
      simp only [result] at merged
      cases merged
      exact ⟨rfl, claims, rfl, congrArg (insert pair) scanned⟩

theorem mergeOwners_remembered (o : Ownership) (owners : List (String × String)) :
    (o.mergeOwners owners).1.remembered = o.remembered := by
  induction owners generalizing o with
  | nil => rfl
  | cons entry rest ih =>
    simp only [mergeOwners]
    split
    · rfl
    · exact ih _

theorem recordScan_remembered {pair : ClusterKey} {failure : Option GoError}
    (merged : o.recordScan pair owners = (next, failure)) : next.remembered = o.remembered := by
  have keeps := o.mergeOwners_remembered owners
  simp only [recordScan] at merged
  split at merged
  all_goals
    next result =>
      rw [result] at keeps
      cases merged
      exact keeps

end Ownership

/-- Only the prune changes what the sink remembers. -/
theorem Acts.remembered {next : World} (acts : Acts config answer job world phase next phase') :
    next.ownership.remembered = world.ownership.remembered := by
  cases acts with
  | record writes merged | collide writes merged => exact Ownership.recordScan_remembered merged
  | claim granted =>
    simp only [Ownership.claimWireIdentity] at granted
    split at granted
    · cases granted
    · split_ifs at granted <;> cases granted <;> rfl
  | stay | refuse early silent | recover writes known | scan writes free unknown found | check free | start task
  | write ins claimed | remove claimed removal | release ins claimed err | forget claimed removal
  | fail claimed err removal => rfl

end Spotter.Nacos
