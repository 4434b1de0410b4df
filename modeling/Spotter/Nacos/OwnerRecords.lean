import Spotter.Nacos.Session

/-! # The owner table and the hosts

Two kinds of hosts are told apart: those registered in the session, whose owner is the scope of the last
acknowledged registration, and those found in the catalog, whose owner is read from their metadata.
The owner table knows the first kind as soon as the register has been released, and the second kind once
the host's pair has been scanned. A thread may therefore write or remove at a key only if the host there
has its own owner scope.
-/

namespace Spotter.Nacos

open Library Domain Ports

/-- The owner scope that a host's metadata gives. -/
def hostOwner (config : Config) (p : InstanceParams) : String := sourceOwnerScopeFromHost config.lib p.serviceName p.host

/-- The instance carries a source key or a source cluster. -/
def SourceAware (ins : Instance) : Prop := ins.sourceKey ≠ "" ∨ ins.sourceCluster ≠ ""

variable {config : Config} {world next : World} {registered : HostKey → Option Instance} {job : Job} {ins other last : Instance}
  {threads : List Thread} {index : ℕ} {answer : Answer} {pushed : Set Instance} {keys : Set HostKey} {p : InstanceParams}
  {t u : Thread} {phase : Phase} {claimed : Bool}

/-! ## What a scan finds -/

variable {owners : List (String × String)}

theorem scanOwners_found {lib : WireLib} {group service : String} {found : List (String × String)} {hosts : List Host}
    (scanned : scanOwners lib group service found hosts = .ok owners) :
    (∀ entry ∈ found, entry ∈ owners) ∧ ∀ host ∈ hosts, ownerMarked host.metadata = true →
      (hostCompositeID service group host, sourceOwnerScopeFromHost lib service host) ∈ owners := by
  induction hosts generalizing found with
  | nil =>
    cases scanned
    exact ⟨fun _ => id, List.forall_mem_nil _⟩
  | cons head rest ih =>
    rw [scanOwners] at scanned
    split_ifs at scanned with marked
    · cases free : collision (hostCompositeID service group head)
          (((found.find? fun entry => decide (entry.1 = hostCompositeID service group head)).map Prod.snd).getD "")
          (sourceOwnerScopeFromHost lib service head) with
      | some err =>
        simp only [free] at scanned
        cases scanned
      | none =>
        simp only [free] at scanned
        obtain ⟨kept, later⟩ := ih scanned
        refine ⟨fun entry member => kept entry (List.mem_append_left _ member), ?_⟩
        intro host member own
        rcases List.mem_cons.mp member with rfl | among
        · exact kept _ (List.mem_append_right _ List.mem_cons_self)
        · exact later host among own
    · obtain ⟨kept, later⟩ := ih scanned
      refine ⟨kept, ?_⟩
      intro host member own
      rcases List.mem_cons.mp member with rfl | among
      · exact absurd own marked
      · exact later host among own

/-! ## What holds of a thread in each phase -/

/-- The pair of a source-aware write has been scanned. -/
def Scanned (world : World) (job : Job) : Prop :=
  ∀ ins, job.Writes ins → SourceAware ins → clusterKeyOf ins ∈ world.ownership.wireScanned

/-- The owners that a scan read are those of the pair's hosts that no register of the session has written. -/
def Covers (config : Config) (world : World) (registered : HostKey → Option Instance) (job : Job)
    (owners : List (String × String)) : Prop :=
  ∀ ins, job.Writes ins → ∀ p ∈ world.catalog.entries, registered p.key = none → p.Owned →
    p.groupName = effectiveGroup config.group → clusterKeyOf ins = p.pair →
    (p.key.compositeID, hostOwner config p) ∈ owners

/-- A host at the job's key that was registered in the session has the job's owner scope. -/
def Alike (config : Config) (world : World) (registered : HostKey → Option Instance) (job : Job) : Prop :=
  ∀ ins, job.Writes ins → ∀ p ∈ world.catalog.entries, p.key = instanceTarget config ins → ∀ last,
    registered p.key = some last → wireOwnerScope last = wireOwnerScope ins

/-- An owned host at the job's key that was found in the catalog has the job's owner scope. -/
def FoundAlike (config : Config) (world : World) (registered : HostKey → Option Instance) (job : Job) : Prop :=
  ∀ ins, job = .register ins → SourceAware ins → ∀ p ∈ world.catalog.entries, p.key = instanceTarget config ins →
    registered p.key = none → p.Owned → hostOwner config p = wireOwnerScope ins

/-- An acknowledged removal left no host, and an acknowledged registration is on record. -/
def Landed (config : Config) (world : World) (registered : HostKey → Option Instance) (job : Job) : Prop :=
  (∀ key, job.removal config = some key → ∀ p ∈ world.catalog.entries, p.key ≠ key) ∧
    ∀ ins, job = .register ins → registered (instanceTarget config ins) ≠ none

/-- What a thread has made sure of. -/
def Fits (config : Config) (world : World) (registered : HostKey → Option Instance) (job : Job) : Phase → Prop
  | .waiting => True
  | .scanning owners => Covers config world registered job owners
  | .recovered => Scanned world job
  | .admitted _ => Alike config world registered job ∧ FoundAlike config world registered job
  | .answered _ err => Alike config world registered job ∧ (err = none → Landed config world registered job)
  | .finished _ => True

/-- What a thread has made sure of stays true when hosts go and pairs are scanned. -/
theorem Fits.mono (fits : Fits config world registered job phase)
    (shrinks : ∀ p ∈ next.catalog.entries, p ∈ world.catalog.entries)
    (scanned : world.ownership.wireScanned ⊆ next.ownership.wireScanned) : Fits config next registered job phase := by
  have alike : Alike config world registered job → Alike config next registered job :=
    fun alike ins writes p present => alike ins writes p (shrinks p present)
  cases phase with
  | waiting => exact trivial
  | scanning owners => exact fun ins writes p present => fits ins writes p (shrinks p present)
  | recovered => exact fun ins writes aware => scanned (fits ins writes aware)
  | admitted claimed =>
    exact ⟨alike fits.1, fun ins register aware p present => fits.2 ins register aware p (shrinks p present)⟩
  | answered claimed err =>
    refine ⟨alike fits.1, fun done => ⟨?_, (fits.2 done).2⟩⟩
    exact fun key removal p present => (fits.2 done).1 key removal p (shrinks p present)
  | finished err => exact trivial

theorem id_of_target (target : instanceTarget config ins = instanceTarget config other) :
    compositeIDWithGroup ins config.group = compositeIDWithGroup other config.group := by
  rw [← instanceTarget_compositeID, ← instanceTarget_compositeID, target]

/-! ## The whole state -/

/-- An acknowledged register at the key has not been released yet. -/
def Releasing (config : Config) (threads : List Thread) (key : HostKey) : Prop :=
  ∃ u ∈ threads, ∃ ins claimed, u.job = .register ins ∧ u.phase = .answered claimed none ∧ instanceTarget config ins = key

/-- What a job may address. -/
def Listed (config : Config) (pushed : Set Instance) (keys : Set HostKey) (job : Job) : Prop :=
  (∀ ins, job.Writes ins → ins ∈ pushed) ∧
    ∀ key, job.removal config = some key → key ∈ keys ∧ key.group = effectiveGroup config.group

/-- The invariant of a session: `pushed` are its instances and `keys` the keys it may address. -/
structure Guarded (config : Config) (pushed : Set Instance) (keys : Set HostKey) (world : World) (threads : List Thread)
    (registered : HostKey → Option Instance) : Prop where
  orderly : Orderly config threads
  listed : ∀ t ∈ threads, Listed config pushed keys t.job
  fits : ∀ t ∈ threads, Fits config world registered t.job t.phase
  owned : ∀ p ∈ world.catalog.entries, p.Owned → p.key ∈ keys
  made : ∀ p ∈ world.catalog.entries, ∀ last, registered p.key = some last →
    p = registerParams config.lib config.group last ∧ last ∈ pushed
  recorded : ∀ p ∈ world.catalog.entries, ∀ last, registered p.key = some last →
    world.ownership.wireOwners.value p.key.compositeID = wireOwnerScope last ∨ Releasing config threads p.key
  found : ∀ p ∈ world.catalog.entries, registered p.key = none → p.Owned → p.groupName = effectiveGroup config.group →
    p.pair ∈ world.ownership.wireScanned →
    world.ownership.wireOwners.value p.key.compositeID = hostOwner config p

theorem mem_set_of_ne {α : Type*} {l : List α} {a b c : α} (here : l[index]? = some a) (member : b ∈ l) (apart : b ≠ a) :
    b ∈ l.set index c := by
  obtain ⟨position, bound, rfl⟩ := List.mem_iff_getElem.mp member
  refine List.mem_iff_getElem.mpr ⟨position, by rwa [List.length_set], ?_⟩
  refine List.getElem_set_ne ?_ _
  rintro rfl
  exact apart (Option.some.inj ((List.getElem?_eq_getElem bound).symm.trans here))

variable {key : HostKey}

/-- Another thread's pending release is still pending. -/
theorem Releasing.set (releasing : Releasing config threads key) (here : threads[index]? = some t)
    (apart : ∀ ins claimed, t.job = .register ins → instanceTarget config ins = key → t.phase ≠ .answered claimed none) :
    Releasing config (threads.set index { t with phase := phase }) key := by
  obtain ⟨u, member, ins, claimed, job, answered, target⟩ := releasing
  refine ⟨u, mem_set_of_ne here member ?_, ins, claimed, job, answered, target⟩
  rintro rfl
  exact apart ins claimed job target answered

/-! ## One step -/

section

variable (guarded : Guarded config pushed keys world threads registered)

include guarded

/-- A step that registers nothing keeps the invariant if the table still knows the hosts. -/
theorem Guarded.keep (here : threads[index]? = some t) (orderly : Orderly config (threads.set index { t with phase := phase }))
    (shrinks : ∀ p ∈ next.catalog.entries, p ∈ world.catalog.entries)
    (scanned : world.ownership.wireScanned ⊆ next.ownership.wireScanned)
    (fits : Fits config next registered t.job phase)
    (recorded : ∀ p ∈ next.catalog.entries, ∀ last, registered p.key = some last →
      next.ownership.wireOwners.value p.key.compositeID = wireOwnerScope last ∨
        Releasing config (threads.set index { t with phase := phase }) p.key)
    (found : ∀ p ∈ next.catalog.entries, registered p.key = none → p.Owned → p.groupName = effectiveGroup config.group →
      p.pair ∈ next.ownership.wireScanned →
      next.ownership.wireOwners.value p.key.compositeID = hostOwner config p) :
    Guarded config pushed keys next (threads.set index { t with phase := phase }) registered := by
  refine ⟨orderly, ?_, ?_, ?_, ?_, recorded, found⟩
  · intro u member
    rcases List.mem_or_eq_of_mem_set member with earlier | rfl
    · exact guarded.listed u earlier
    · exact guarded.listed t (List.mem_of_getElem? here)
  · intro u member
    rcases List.mem_or_eq_of_mem_set member with earlier | rfl
    · exact (guarded.fits u earlier).mono shrinks scanned
    · exact fits
  · exact fun p present => guarded.owned p (shrinks p present)
  · exact fun p present => guarded.made p (shrinks p present)

/-- A step that leaves owners and scanned pairs alone and releases nothing keeps the invariant. -/
theorem Guarded.quiet (here : threads[index]? = some t) (orderly : Orderly config (threads.set index { t with phase := phase }))
    (shrinks : ∀ p ∈ next.catalog.entries, p ∈ world.catalog.entries)
    (owners : next.ownership.wireOwners = world.ownership.wireOwners)
    (scanned : next.ownership.wireScanned = world.ownership.wireScanned)
    (fits : Fits config next registered t.job phase)
    (unreleased : ∀ ins claimed, t.job = .register ins → t.phase ≠ .answered claimed none) :
    Guarded config pushed keys next (threads.set index { t with phase := phase }) registered := by
  refine guarded.keep here orderly shrinks scanned.ge fits ?_ ?_
  · intro p present last own
    rw [owners]
    rcases guarded.recorded p (shrinks p present) last own with known | releasing
    · exact .inl known
    · exact .inr (releasing.set here fun ins claimed register _ => unreleased ins claimed register)
  · intro p present
    rw [owners, scanned]
    exact guarded.found p (shrinks p present)

/-- The owner scope of a host registered in the session, as far as a write at its key may see it. -/
theorem Guarded.alike (member : t ∈ threads) (writes : t.job.Writes ins)
    (free : world.ownership.wireOwners.value (compositeIDWithGroup ins config.group) = "" ∨
      world.ownership.wireOwners.value (compositeIDWithGroup ins config.group) = wireOwnerScope ins) :
    Alike config world registered t.job := by
  intro same writes' p present target last own
  cases writes.unique writes'
  have id : p.key.compositeID = compositeIDWithGroup ins config.group := by
    rw [target, instanceTarget_compositeID]
  rcases guarded.recorded p present last own with known | ⟨u, among, other, claimed, job, answered, target'⟩
  · rw [id] at known
    rw [known] at free
    exact free.resolve_left (wireOwnerScope_ne_empty last)
  · -- The host's register is still to be released: it belongs to the same call.
    have fits := guarded.fits u among
    rw [answered] at fits
    rw [fits.1 other (.inl job) p present target'.symm last own]
    exact guarded.orderly.owner u among t member other ins (.inl job) writes (id_of_target (target'.trans target))

end

/-! ## An acknowledged registration -/

theorem noteRegistered_self : noteRegistered config registered (some ins) (instanceTarget config ins) = some ins := if_pos rfl

theorem noteRegistered_of_ne (apart : key ≠ instanceTarget config ins) :
    noteRegistered config registered (some ins) key = registered key :=
  if_neg apart

/-- A host after a registration is the registered one, or an old one with its old record. -/
theorem registered_cases {catalog : Catalog}
    (present : p ∈ (catalog.register (registerParams config.lib config.group ins)).entries) :
    (p = registerParams config.lib config.group ins ∧ noteRegistered config registered (some ins) p.key = some ins) ∨
      (p ∈ catalog.entries ∧ p.key ≠ instanceTarget config ins ∧
        noteRegistered config registered (some ins) p.key = registered p.key) := by
  rcases Catalog.mem_register.mp present with rfl | ⟨earlier, apart⟩
  · exact .inl ⟨rfl, noteRegistered_self⟩
  · exact .inr ⟨earlier, apart, noteRegistered_of_ne apart⟩

/-- What the other threads have made sure of survives a registration of the call. -/
theorem Fits.write (fits : Fits config world registered u.job u.phase) (orderly : Orderly config threads)
    (member : t ∈ threads) (member' : u ∈ threads) (register : t.job = .register ins) (sending : t.phase = .admitted claimed)
    (catalog : next.catalog = world.catalog.register (registerParams config.lib config.group ins))
    (scanned : next.ownership.wireScanned = world.ownership.wireScanned) :
    Fits config next (noteRegistered config registered (some ins)) u.job u.phase := by
  have alike : Alike config world registered u.job → Alike config next (noteRegistered config registered (some ins)) u.job := by
    intro alike other writes p present target last own
    rw [catalog] at present
    rcases registered_cases present with ⟨rfl, noted⟩ | ⟨earlier, _, kept⟩
    · cases noted.symm.trans own
      exact orderly.owner t member u member' ins other (.inl register) writes (id_of_target target)
    · rw [kept] at own
      exact alike other writes p earlier target last own
  -- A host without a record is an old one.
  have unrecorded : ∀ p ∈ next.catalog.entries, noteRegistered config registered (some ins) p.key = none →
      p ∈ world.catalog.entries ∧ registered p.key = none := by
    intro p present fresh
    rw [catalog] at present
    rcases registered_cases present with ⟨_, noted⟩ | ⟨earlier, _, kept⟩
    · cases noted.symm.trans fresh
    · exact ⟨earlier, kept.symm.trans fresh⟩
  cases phase : u.phase with
  | waiting => exact trivial
  | scanning owners =>
    rw [phase] at fits
    intro other writes p present fresh
    obtain ⟨earlier, fresh⟩ := unrecorded p present fresh
    exact fits other writes p earlier fresh
  | recovered =>
    rw [phase] at fits
    intro other writes aware
    rw [scanned]
    exact fits other writes aware
  | admitted claimed =>
    rw [phase] at fits
    refine ⟨alike fits.1, ?_⟩
    intro other job aware p present target fresh
    obtain ⟨earlier, fresh⟩ := unrecorded p present fresh
    exact fits.2 other job aware p earlier target fresh
  | answered claimed' err =>
    rw [phase] at fits
    refine ⟨alike fits.1, ?_⟩
    intro done
    obtain ⟨gone, noted⟩ := fits.2 done
    refine ⟨?_, ?_⟩
    · intro key removal p present same
      rw [catalog] at present
      rcases Catalog.mem_register.mp present with rfl | ⟨earlier, _⟩
      · subst same
        exact orderly.exclusive member' member removal register (by rw [phase]; trivial) (by rw [sending]; trivial)
      · exact gone key removal p earlier same
    · intro other job
      simp only [noteRegistered]
      split_ifs
      · exact Option.some_ne_none ins
      · exact noted other job
  | finished err => exact trivial

theorem Guarded.write (guarded : Guarded config pushed keys world threads registered) (here : threads[index]? = some t)
    (register : t.job = .register ins) (sending : t.phase = .admitted claimed) (target : instanceTarget config ins ∈ keys)
    (orderly : Orderly config (threads.set index { t with phase := .answered claimed none }))
    (catalog : next.catalog = world.catalog.register (registerParams config.lib config.group ins))
    (ownership : next.ownership = world.ownership) :
    Guarded config pushed keys next (threads.set index { t with phase := .answered claimed none })
      (noteRegistered config registered (some ins)) := by
  have member : t ∈ threads := List.mem_of_getElem? here
  refine ⟨orderly, ?_, ?_, ?_, ?_, ?_, ?_⟩
  · intro u among
    rcases List.mem_or_eq_of_mem_set among with earlier | rfl
    · exact guarded.listed u earlier
    · exact guarded.listed t member
  · intro u among
    rcases List.mem_or_eq_of_mem_set among with earlier | rfl
    · exact (guarded.fits u earlier).write guarded.orderly member earlier register sending catalog (by rw [ownership])
    · refine ⟨?_, fun _ => ⟨?_, ?_⟩⟩
      · intro other writes p present same last own
        cases Job.Writes.unique (.inl register) writes
        rw [same, noteRegistered_self] at own
        cases own
        rfl
      · intro key removal
        rw [register] at removal
        cases removal
      · intro other job
        cases register.symm.trans job
        rw [noteRegistered_self]
        exact Option.some_ne_none ins
  · intro p present own
    rw [catalog] at present
    rcases Catalog.mem_register.mp present with rfl | ⟨earlier, _⟩
    · exact target
    · exact guarded.owned p earlier own
  · intro p present last own
    rw [catalog] at present
    rcases registered_cases present with ⟨made, noted⟩ | ⟨earlier, _, kept⟩
    · cases noted.symm.trans own
      exact ⟨made, (guarded.listed t member).1 ins (.inl register)⟩
    · exact guarded.made p earlier last (kept.symm.trans own)
  · intro p present last own
    rw [catalog] at present
    rcases registered_cases present with ⟨rfl, _⟩ | ⟨earlier, _, kept⟩
    · have among : { t with phase := .answered claimed none } ∈ threads.set index { t with phase := .answered claimed none } :=
        List.mem_set (List.getElem?_eq_some_iff.mp here).1 _
      exact .inr ⟨_, among, ins, claimed, register, rfl, rfl⟩
    · rw [ownership]
      refine (guarded.recorded p earlier last (kept.symm.trans own)).imp_right fun releasing => releasing.set here ?_
      intro _ _ _ _ answered
      cases sending.symm.trans answered
  · intro p present fresh own group scanned
    rw [catalog] at present
    rw [ownership] at scanned ⊢
    rcases registered_cases present with ⟨_, noted⟩ | ⟨earlier, _, kept⟩
    · cases noted.symm.trans fresh
    · exact guarded.found p earlier (kept.symm.trans fresh) own group scanned

/-! ## Every step -/

/-- The server applies exactly the calls that it acknowledges. -/
def Answer.Faithful (answer : Answer) : Prop := answer.applies = answer.err.isNone

theorem Answer.Faithful.done (faithful : answer.Faithful) (applies : answer.applies = true) : answer = .done := by
  cases answer with
  | done => rfl
  | blocked err => cases applies
  | failed applied err => cases applies.symm.trans faithful

theorem acknowledges_eq_some {found : Instance} (acked : t.acknowledges threads answer = some found) :
    ready threads t = true ∧ answer = .done ∧ t.job = .register found ∧ ∃ claimed, t.phase = .admitted claimed := by
  obtain ⟨job, scope, batch, phase⟩ := t
  simp only [Thread.acknowledges] at acked
  split at acked
  · split_ifs at acked with open_
    cases acked
    exact ⟨open_, rfl, rfl, _, rfl⟩
  · cases acked

theorem acknowledged_none (silent : ∀ t ins, threads[index]? = some t → t.acknowledges threads answer ≠ some ins) :
    acknowledged threads (.move index answer) = none := by
  simp only [acknowledged]
  cases here : threads[index]? with
  | none => rfl
  | some t => exact Option.eq_none_iff_forall_ne_some.mpr fun ins => silent t ins here

/-- Nothing is noted in a step of a thread that does not send an acknowledged register. -/
theorem noteRegistered_quiet (config : Config) (registered : HostKey → Option Instance) (answer : Answer)
    (here : threads[index]? = some t)
    (silent : ∀ ins claimed, t.job = .register ins → t.phase = .admitted claimed → answer ≠ .done) :
    noteRegistered config registered (acknowledged threads (.move index answer)) = registered := by
  rw [acknowledged_none]
  · rfl
  intro u found same acked
  cases here.symm.trans same
  obtain ⟨_, done, register, claimed, sending⟩ := acknowledges_eq_some acked
  exact silent found claimed register sending done

theorem noteRegistered_write (here : threads[index]? = some t) (open_ : ready threads t = true)
    (register : t.job = .register ins) (sending : t.phase = .admitted claimed) :
    noteRegistered config registered (acknowledged threads (.move index .done)) =
      noteRegistered config registered (some ins) := by
  have acked : acknowledged threads (.move index .done) = some ins := by
    simp only [acknowledged, here, Option.bind_some, Thread.acknowledges, register, sending, open_, ↓reduceIte]
  rw [acked]

theorem registerError_done : registerError config ins .done = none := by
  cases vendor : config.persistentVendor <;> simp [registerError, vendor, Answer.err]

section

variable (guarded : Guarded config pushed keys world threads registered)

include guarded

/-- A released register is on record. -/
theorem Guarded.release
    (ids : Set.InjOn HostKey.compositeID keys) (here : threads[index]? = some t) (register : t.job = .register ins)
    (answered : t.phase = .answered claimed none) (target : instanceTarget config ins ∈ keys)
    (orderly : Orderly config (threads.set index { t with phase := .finished none })) :
    Guarded config pushed keys
      { world with ownership := world.ownership.releaseWireIdentity config.group ins claimed true }
      (threads.set index { t with phase := .finished none }) registered := by
  have fits := guarded.fits t (List.mem_of_getElem? here)
  rw [answered] at fits
  have owners : ∀ id, (world.ownership.releaseWireIdentity config.group ins claimed true).wireOwners.value id =
      if id = compositeIDWithGroup ins config.group then wireOwnerScope ins else world.ownership.wireOwners.value id := by
    intro id
    rw [Ownership.release_owners]
    simp
  have ours : ∀ p ∈ world.catalog.entries, p.Owned → p.key.compositeID = compositeIDWithGroup ins config.group →
      p.key = instanceTarget config ins :=
    fun p present own same => ids (guarded.owned p present own) target (same.trans instanceTarget_compositeID.symm)
  refine guarded.keep here orderly (fun _ => id) (Finset.Subset.refl _) trivial ?_ ?_
  · intro p present last own
    have owned : p.Owned := by
      rw [(guarded.made p present last own).1]
      exact registerParams_owned
    rw [owners]
    split_ifs with same
    · exact .inl (fits.1 ins (.inl register) p present (ours p present owned same) last own).symm
    · refine (guarded.recorded p present last own).imp_right fun releasing => releasing.set here ?_
      intro other _ job key _
      cases register.symm.trans job
      exact same (by rw [← key, instanceTarget_compositeID])
  · intro p present fresh own group scanned
    rw [owners]
    split_ifs with same
    · rw [ours p present own same] at fresh
      exact absurd fresh ((fits.2 rfl).2 ins register)
    · exact guarded.found p present fresh own group scanned

/-- A forgotten id has no host. -/
theorem Guarded.forget (group : effectiveGroup config.group = config.group) (ids : Set.InjOn HostKey.compositeID keys)
    (here : threads[index]? = some t) (removal : t.job.removal config = some key) (answered : t.phase = .answered claimed none)
    (orderly : Orderly config (threads.set index { t with phase := .finished none })) :
    Guarded config pushed keys { world with ownership := world.ownership.forget (forgottenID config key) }
      (threads.set index { t with phase := .finished none }) registered := by
  have member : t ∈ threads := List.mem_of_getElem? here
  have fits := guarded.fits t member
  rw [answered] at fits
  obtain ⟨listed, own⟩ := (guarded.listed t member).2 key removal
  have forgotten : forgottenID config key = key.compositeID := by
    rw [forgottenID, HostKey.compositeID, own, group]
  have others : ∀ p ∈ world.catalog.entries, p.Owned →
      (world.ownership.forget (forgottenID config key)).wireOwners.value p.key.compositeID =
        world.ownership.wireOwners.value p.key.compositeID := by
    intro p present owned
    rw [Ownership.forget_owners, if_neg]
    intro same
    exact (fits.2 rfl).1 key removal p present (ids (guarded.owned p present owned) listed (same.trans forgotten))
  refine guarded.keep here orderly (fun _ => id) (Finset.Subset.refl _) trivial ?_ ?_
  · intro p present last noted
    have owned : p.Owned := by
      rw [(guarded.made p present last noted).1]
      exact registerParams_owned
    rw [others p present owned]
    refine (guarded.recorded p present last noted).imp_right fun releasing => releasing.set here ?_
    intro ins _ register _ _
    rw [register] at removal
    cases removal
  · intro p present fresh owned inGroup scanned
    rw [others p present owned]
    exact guarded.found p present fresh owned inGroup scanned

/-- A recorded scan keeps the invariant, whether or not it collided. -/
theorem Guarded.record (here : threads[index]? = some t)
    {ownership : Ownership} {failure : Option GoError} (writes : t.job.Writes ins) (scanning : t.phase = .scanning owners)
    (merged : world.ownership.recordScan (clusterKeyOf ins) owners = (ownership, failure))
    (orderly : Orderly config (threads.set index { t with phase := phase }))
    (fits : Fits config { world with ownership := ownership, scanLocked := false } registered t.job phase) :
    Guarded config pushed keys { world with ownership := ownership, scanLocked := false }
      (threads.set index { t with phase := phase }) registered := by
  obtain ⟨table, _, result, scanned⟩ := Ownership.recordScan_spec merged
  have covers := guarded.fits t (List.mem_of_getElem? here)
  rw [scanning] at covers
  have grows : world.ownership.wireScanned ⊆ ownership.wireScanned := by
    rw [scanned]
    split_ifs
    · exact Finset.subset_insert _ _
    · exact Finset.Subset.refl _
  -- Merged owners keep what the table knew.
  have keeps : ∀ id, world.ownership.wireOwners.value id ≠ "" → ownership.wireOwners.value id = world.ownership.wireOwners.value id :=
    table ▸ (world.ownership.mergeOwners_keeps owners).1
  refine guarded.keep here orderly (fun _ => id) grows fits ?_ ?_
  · intro p present last own
    rcases guarded.recorded p present last own with known | releasing
    · exact .inl ((keeps _ (by rw [known]; exact wireOwnerScope_ne_empty last)).trans known)
    · refine .inr (releasing.set here ?_)
      intro _ _ _ _ answered
      cases scanning.symm.trans answered
  · intro p present fresh owned group known
    by_cases before : p.pair ∈ world.ownership.wireScanned
    · have known := guarded.found p present fresh owned group before
      exact (keeps _ (by rw [known]; exact wireOwnerScope_ne_empty _)).trans known
    · -- The pair is the one just scanned.
      rw [scanned] at known
      split_ifs at known with clean
      · rcases Finset.mem_insert.mp known with pair | old
        · rw [table]
          refine Ownership.mergeOwners_records world.ownership owners ?_
            (covers ins writes p present fresh owned group pair.symm) (wireOwnerScope_ne_empty _)
          rw [← result]
          exact Option.isNone_iff_eq_none.mp clean
        · exact absurd old before
      · exact absurd known before

end

/-- The owners that a scan reads. -/
theorem covers_scan (writes : job.Writes ins) (scanned : scanOwners config.lib config.group ins.appCode []
      (world.catalog.selectAll (effectiveGroup config.group) ins.appCode (clusterOf ins)) = .ok owners) :
    Covers config { world with scanLocked := true } registered job owners := by
  intro other writes' p present _ owned group pair
  cases writes.unique writes'
  obtain ⟨service, cluster⟩ := ClusterKey.mk.inj pair
  have listed : p.host ∈ world.catalog.selectAll (effectiveGroup config.group) ins.appCode (clusterOf ins) :=
    Catalog.mem_selectAll.mpr ⟨p, present, group, service.symm, .inr cluster.symm, rfl⟩
  have read := (scanOwners_found scanned).2 p.host listed owned
  have id : hostCompositeID ins.appCode config.group p.host = p.key.compositeID := by
    rw [hostCompositeID, ← group, service]
    rfl
  rw [id, service] at read
  exact read

theorem not_register_of_removal (removal : job.removal config = some key) (ins : Instance) : job ≠ .register ins := by
  rintro rfl
  cases removal

/-- An acknowledged removal took its host away. -/
theorem Fits.removed (fits : Fits config world registered job (.admitted claimed)) (removal : job.removal config = some key)
    (shrinks : ∀ p ∈ (if answer.applies then world.catalog.deregister key else world.catalog).entries,
      p ∈ world.catalog.entries) :
    Fits config { world with catalog := if answer.applies then world.catalog.deregister key else world.catalog } registered
      job (.answered claimed (deregisterError key answer)) := by
  refine ⟨fun other writes p present => fits.1 other writes p (shrinks p present), ?_⟩
  intro acked
  refine ⟨?_, fun ins register => absurd register (not_register_of_removal removal ins)⟩
  intro other removal' p present
  cases removal.symm.trans removal'
  simp only [acknowledged_deregisterError acked, ↓reduceIte] at present
  exact (Catalog.mem_deregister.mp present).2

theorem Guarded.move (guarded : Guarded config pushed keys world threads registered) (index : ℕ)
    (group : effectiveGroup config.group = config.group) (ids : Set.InjOn HostKey.compositeID keys)
    (targets : ∀ ins ∈ pushed, instanceTarget config ins ∈ keys) (faithful : answer.Faithful) :
    Guarded config pushed keys (moveThread config world threads index answer).1 (moveThread config world threads index answer).2
      (noteRegistered config registered (acknowledged threads (.move index answer))) := by
  have orderly := guarded.orderly.move config world index answer
  rcases moveThread_acts config world threads index answer with ⟨same, blocked⟩ | ⟨t, next, phase, here, open_, acts, moved⟩
  · rw [same, acknowledged_none]
    · exact guarded
    · intro t ins here acked
      cases (acknowledges_eq_some acked).1.symm.trans (blocked t here)
  have member : t ∈ threads := List.mem_of_getElem? here
  have fits := guarded.fits t member
  have listed := guarded.listed t member
  rw [moved] at orderly ⊢
  have quiet := noteRegistered_quiet config registered answer here
  obtain ⟨job, scope, batch, before⟩ := t
  simp only at acts fits listed quiet
  cases acts with
  | stay resting =>
    have same : threads.set index ⟨job, scope, batch, phase⟩ = threads := by
      obtain ⟨bound, own⟩ := List.getElem?_eq_some_iff.mp here
      rw [← own]
      exact List.set_getElem_self bound
    rw [quiet fun _ claimed _ sending => absurd sending (resting claimed), same]
    exact guarded
  | refuse early silent =>
    have phases : ∀ phase, before = phase → phase = .waiting ∨ phase = .recovered := fun phase same => same ▸ early
    rw [quiet fun _ claimed _ sending => (phases _ sending).elim Phase.noConfusion Phase.noConfusion]
    refine guarded.quiet here orderly (fun _ => id) rfl rfl trivial ?_
    exact fun _ _ _ answered => (phases _ answered).elim Phase.noConfusion Phase.noConfusion
  | recover writes known =>
    rw [quiet fun _ _ _ => Phase.noConfusion]
    refine guarded.quiet here orderly (fun _ => id) rfl rfl ?_ fun _ _ _ => Phase.noConfusion
    intro other writes' aware
    cases writes.unique writes'
    rcases known with ⟨key, cluster⟩ | scanned
    · rcases aware with named | named
      · exact absurd key named
      · exact absurd cluster named
    · exact scanned
  | scan writes free unknown scanned =>
    rw [quiet fun _ _ _ => Phase.noConfusion]
    exact guarded.quiet here orderly (fun _ => id) rfl rfl (covers_scan writes scanned) fun _ _ _ => Phase.noConfusion
  | record writes merged =>
    rw [quiet fun _ _ _ => Phase.noConfusion]
    refine guarded.record here writes rfl merged orderly ?_
    intro other writes' _
    cases writes.unique writes'
    obtain ⟨_, _, _, scanned⟩ := Ownership.recordScan_spec merged
    rw [scanned]
    exact Finset.mem_insert_self _ _
  | collide writes merged =>
    rw [quiet fun _ _ _ => Phase.noConfusion]
    exact guarded.record here writes rfl merged orderly trivial
  | @claim _ ins ownership claimed granted =>
    obtain ⟨owner, _, owners, scanned, _⟩ := Ownership.claim_granted granted
    rw [quiet fun _ _ _ => Phase.noConfusion]
    refine guarded.quiet here orderly (fun _ => id) owners scanned ⟨?_, ?_⟩ fun _ _ _ => Phase.noConfusion
    · exact guarded.alike member (.inl rfl) owner
    · -- The pair was scanned, so the table has the owner of a host at the target.
      intro other register aware p present target fresh own
      cases register
      have pair : p.pair = clusterKeyOf ins := congrArg HostKey.pair target
      have known := guarded.found p present fresh own (congrArg HostKey.group target) (pair ▸ fits ins (.inl rfl) aware)
      rw [target, instanceTarget_compositeID] at known
      rw [known] at owner
      exact owner.resolve_left (wireOwnerScope_ne_empty _)
  | @check _ ins free =>
    rw [quiet fun _ _ _ => Phase.noConfusion]
    refine guarded.quiet here orderly (fun _ => id) rfl rfl ⟨?_, ?_⟩ fun _ _ _ => Phase.noConfusion
    · refine guarded.alike member (.inr rfl) ?_
      by_cases absent : world.ownership.wireOwners.value (compositeIDWithGroup ins config.group) = ""
      · exact .inl absent
      · rw [Ownership.deregisterConflict, Ownership.ownerOf, if_pos absent] at free
        exact collision_eq_none free
    · intro other register
      cases register
  | start task =>
    rw [quiet fun _ _ _ => Phase.noConfusion]
    refine guarded.quiet here orderly (fun _ => id) rfl rfl ⟨?_, ?_⟩ fun _ _ _ => Phase.noConfusion
    · rintro other (writes | writes)
      · cases writes
      · cases writes
    · intro other register
      cases register
  | write ins claimed =>
    cases applies : answer.applies with
    | true =>
      cases faithful.done applies
      rw [noteRegistered_write here open_ rfl rfl]
      simp only [registerError_done] at orderly ⊢
      exact guarded.write here rfl rfl (targets ins (listed.1 ins (.inl rfl))) orderly rfl rfl
    | false =>
      rw [quiet fun _ _ _ _ done => by rw [done] at applies; cases applies]
      refine guarded.quiet here orderly (fun _ => id) rfl rfl ⟨fits.1, ?_⟩ fun _ _ _ => Phase.noConfusion
      intro acked
      cases applies.symm.trans (acknowledged_registerError acked)
  | @remove _ _ key claimed removal =>
    rw [quiet fun ins _ register => absurd register (not_register_of_removal removal ins)]
    have shrinks : ∀ p ∈ (if answer.applies then world.catalog.deregister key else world.catalog).entries,
        p ∈ world.catalog.entries := by
      intro p present
      split_ifs at present
      · exact (Catalog.mem_deregister.mp present).1
      · exact present
    exact guarded.quiet here orderly shrinks rfl rfl (fits.removed removal shrinks) fun _ _ _ => Phase.noConfusion
  | release ins claimed err =>
    rw [quiet fun _ _ _ => Phase.noConfusion]
    cases err with
    | none => exact guarded.release ids here rfl rfl (targets ins (listed.1 ins (.inl rfl))) orderly
    | some err =>
      refine guarded.quiet here orderly (fun _ => id) ?_ rfl trivial ?_
      · simp [Ownership.releaseWireIdentity]
      · intro _ _ _ answered
        cases answered
  | forget claimed removal =>
    rw [quiet fun _ _ _ => Phase.noConfusion]
    exact guarded.forget group ids here removal rfl orderly
  | fail claimed err removal =>
    rw [quiet fun _ _ _ => Phase.noConfusion]
    refine guarded.quiet here orderly (fun _ => id) rfl rfl trivial ?_
    intro _ _ _ answered
    cases answered

end Spotter.Nacos
