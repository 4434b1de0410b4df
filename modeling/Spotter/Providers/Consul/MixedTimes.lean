import Spotter.Providers.Consul.Reconcile

/-! # What a compare deletes

A compare never deletes an instance of its own snapshot. It does delete every remote instance that is
missing from the snapshot, including one that was registered after the snapshot was taken.
-/

namespace Spotter.Providers.Consul

open Library Domain

variable {config : Config} {k : Provider} {c next : Compare} {w : Reconcile}

/-- No instance of the list is offline. -/
def Present (instances : List Instance) : Prop := ∀ ins ∈ instances, ins.offline = false

theorem Catalog.live (catalog : Catalog) : Present catalog.instances := by
  intro ins member
  rcases catalog.present ins member with online | unhealthy
  · simp [Instance.offline, online, instanceStatusOnline, instanceStatusOffline]
  · simp [Instance.offline, unhealthy, instanceStatusUnhealthy, instanceStatusOffline]

theorem present_merge {old : Cache} {current : List Instance} (cached : Present old.entries) (read : Present current) :
    Present (mergeMonotonicInstances old current) := by
  intro ins member
  rcases mem_merge member with among | before
  · exact read ins among
  · exact cached ins before

theorem present_replaceCache {instances : List Instance} (present : Present instances) :
    Present (k.replaceCache instances).cache.entries :=
  fun ins member => present ins (cacheOf_mem member)

theorem present_nil : Present [] := fun _ nowhere => nomatch nowhere

section

variable (cached : Present k.cache.entries)

include cached

theorem present_sync (catalog : Option Catalog) :
    Present (k.syncInstanceAt config catalog).1.cache.entries := by
  cases catalog with
  | none => exact cached
  | some catalog =>
    simp only [Provider.syncInstanceAt]
    split_ifs
    · exact cached
    · exact present_replaceCache present_nil
    · exact present_replaceCache (present_merge cached catalog.live)

theorem present_fullPush (advance : Bool) (catalog : Option Catalog) :
    Present (k.snapshotForFullPushMode advance catalog).1.cache.entries := by
  cases catalog with
  | none => exact cached
  | some catalog =>
    simp only [Provider.snapshotForFullPushMode]
    split_ifs <;> exact cached

/-- The snapshot of a compare and the cache it leaves are present. -/
theorem present_compareSnapshot (catalog : Option Catalog) :
    Present (k.compareSnapshot catalog).1.cache.entries ∧
      ∀ all, (k.compareSnapshot catalog).2 = some all → Present all := by
  cases catalog with
  | none => exact ⟨cached, fun all stopped => nomatch stopped⟩
  | some catalog =>
    simp only [Provider.compareSnapshot]
    split_ifs
    · exact ⟨cached, fun all stopped => nomatch stopped⟩
    · refine ⟨present_replaceCache present_nil, ?_⟩
      rintro all ⟨⟩
      exact present_nil
    · exact ⟨cached, fun all stopped => nomatch stopped⟩
    · refine ⟨present_replaceCache present_nil, ?_⟩
      rintro all ⟨⟩
      exact present_nil
    · have merged := present_merge cached catalog.live
      refine ⟨present_replaceCache merged, ?_⟩
      rintro all ⟨⟩
      exact merged

end

/-! ## The decisions of a compare -/

/-- The remaining remote instances are those of the view, under their identities. -/
def FromView (items : Instances) (remote : FiniteMap String Instance) : Prop :=
  ∀ key servIns, remote.lookup key = some servIns → identityKey servIns = key ∧ some servIns ∈ items

variable {remote : FiniteMap String Instance}

theorem FromView.erase {items : Instances} (fromView : FromView items remote) (gone : String) :
    FromView items (remote.erase gone) := by
  intro key servIns found
  exact fromView key servIns (FiniteMap.lookup_erase_eq_some_iff.mp found).2

/-- What a compare has left to decide about, in terms of its snapshot and the remote view. -/
def ComparePhase.Valid (all : List Instance) (items : Instances) : ComparePhase → Prop
  | .reading => True
  | .flushing rest => ∀ ins ∈ rest, ins ∈ all
  | .comparing rest remote =>
    (∀ key ins, rest.lookup key = some ins → identityKey ins = key ∧ ins ∈ all) ∧ FromView items remote ∧
      ∀ ins ∈ all, identityKey ins ∈ rest ∨ identityKey ins ∉ remote
  | .deleting remote => FromView items remote ∧ ∀ ins ∈ all, identityKey ins ∉ remote

structure Compare.Valid (c : Compare) : Prop where
  present : Present c.all
  phase : c.phase.Valid c.all c.items

theorem Compare.read_valid (present : Present c.all) {list : Instances}
    (goesOn : c.read config list = some next) : next.Valid := by
  simp only [Compare.read] at goesOn
  split_ifs at goesOn with nothing ambiguous
  · cases goesOn
    exact ⟨present, fun ins member => member⟩
  · cases goesOn
    simp only [ne_eq, not_or, not_not] at ambiguous
    have remote := strictListToMap_indexes (sourceScopedRemote config list)
    have current := strictListToMap_indexes (c.all.map some)
    rw [List.filterMap_map, Function.id_comp, List.filterMap_some] at current
    refine ⟨present, current.keyed, ?_, ?_⟩
    · intro key servIns found
      obtain ⟨own, member⟩ := remote.keyed key servIns found
      obtain ⟨item, among, rfl⟩ := List.mem_filterMap.mp member
      exact ⟨own, among⟩
    · intro ins member
      have indexed := current.complete ins member
      rw [ambiguous.2] at indexed
      exact .inl (indexed.resolve_right (List.not_mem_nil))

/-- After the decision about a local instance, its identity is no longer among the remote ones. -/
theorem decided_not_mem {items : Instances} (fromView : FromView items remote) (consulIns : Instance) :
    (∀ servIns, lookupIdentity remote items consulIns = some servIns →
      identityKey consulIns ∉ remote.erase (identityKey servIns)) ∧
    (lookupIdentity remote items consulIns = none → identityKey consulIns ∉ remote) := by
  cases held : remote.lookup (identityKey consulIns) with
  | none =>
    have absent : identityKey consulIns ∉ remote := Finmap.lookup_eq_none.mp held
    exact ⟨fun servIns _ member => absent (Finmap.mem_erase.mp member).2, fun _ => absent⟩
  | some own =>
    have matched : lookupIdentity remote items consulIns = some own := lookupIdentity_of_mem held
    refine ⟨fun servIns found member => ?_, fun unmatched => by rw [matched] at unmatched; cases unmatched⟩
    obtain rfl : own = servIns := Option.some.inj (matched.symm.trans found)
    exact (Finmap.mem_erase.mp member).1 (fromView _ own held).1.symm

variable {key : String}

/-- A decision about one identity leaves the snapshot's other identities decided or to be decided. -/
theorem covered_erase {all : List Instance} {rest smaller : FiniteMap String Instance}
    (covered : ∀ ins ∈ all, identityKey ins ∈ rest ∨ identityKey ins ∉ remote)
    (fewer : ∀ other, other ∈ smaller → other ∈ remote) (decided : key ∉ smaller) :
    ∀ ins ∈ all, identityKey ins ∈ rest.erase key ∨ identityKey ins ∉ smaller := by
  intro ins member
  rcases eq_or_ne (identityKey ins) key with same | apart
  · exact .inr (same ▸ decided)
  · rcases covered ins member with waiting | absent
    · exact .inl (Finmap.mem_erase.mpr ⟨apart, waiting⟩)
    · exact .inr fun among => absent (fewer _ among)

theorem Compare.next_valid (valid : c.Valid) (goesOn : (c.next config key).1 = some next) : next.Valid := by
  obtain ⟨present, phase⟩ := valid
  unfold Compare.next at goesOn
  split at goesOn
  · cases goesOn
    exact ⟨present, phase⟩
  · cases goesOn
  · next ins rest flushing =>
    cases goesOn
    rw [flushing] at phase
    exact ⟨present, fun other member => phase other (List.mem_cons_of_mem _ member)⟩
  · next rest remote comparing =>
    rw [comparing] at phase
    obtain ⟨keyed, fromView, covered⟩ := phase
    have restKeyed : ∀ other ins, (rest.erase key).lookup other = some ins → identityKey ins = other ∧ ins ∈ c.all := by
      intro other ins found
      exact keyed other ins (FiniteMap.lookup_erase_eq_some_iff.mp found).2
    split at goesOn
    · next consulIns listed =>
      obtain ⟨own, _⟩ := keyed key consulIns listed
      obtain ⟨erased, absent⟩ := decided_not_mem fromView consulIns
      split at goesOn
      · next servIns matched =>
        cases goesOn
        refine ⟨present, restKeyed, fromView.erase _, covered_erase covered ?_ (own ▸ erased servIns matched)⟩
        exact fun other among => (Finmap.mem_erase.mp among).2
      · next unmatched =>
        cases goesOn
        exact ⟨present, restKeyed, fromView, covered_erase covered (fun _ => id) (own ▸ absent unmatched)⟩
    · cases goesOn
      split_ifs with finished
      · refine ⟨present, fromView, ?_⟩
        intro ins member
        have decided := covered ins member
        rw [finished] at decided
        exact decided.resolve_left Finmap.notMem_empty
      · exact ⟨present, by rw [comparing]; exact ⟨keyed, fromView, covered⟩⟩
  · next remote deleting =>
    rw [deleting] at phase
    obtain ⟨fromView, spared⟩ := phase
    split at goesOn
    · cases goesOn
      exact ⟨present, fromView.erase key, fun ins member among => spared ins member (Finmap.mem_erase.mp among).2⟩
    · split_ifs at goesOn
      cases goesOn
      exact ⟨present, by rw [deleting]; exact ⟨fromView, spared⟩⟩

variable {sent : Instance}

theorem buildAndSendEvent_eq {ins : Instance} (sends : buildAndSendEvent ins = some sent) : ins = sent := by
  unfold buildAndSendEvent at sends
  split_ifs at sends
  exact Option.some.inj sends

/-- What a compare sends is one of its snapshot, or the end of a remote instance that is left. -/
theorem Compare.next_sends (valid : c.Valid) (sends : (c.next config key).2 = some sent) :
    sent ∈ c.all ∨ ∃ remote servIns, c.phase = .deleting remote ∧ remote.lookup key = some servIns ∧
      retired config servIns = sent := by
  obtain ⟨_, phase⟩ := valid
  unfold Compare.next at sends
  split at sends
  · cases sends
  · cases sends
  · next ins rest flushing =>
    rw [flushing] at phase
    exact .inl (buildAndSendEvent_eq sends ▸ phase ins (List.mem_cons_self ..))
  · next rest remote comparing =>
    rw [comparing] at phase
    split at sends
    · next consulIns listed =>
      have member := (phase.1 key consulIns listed).2
      split at sends
      · simp only at sends
        split_ifs at sends
        exact .inl (buildAndSendEvent_eq sends ▸ member)
      · simp only at sends
        split_ifs at sends
        exact .inl (buildAndSendEvent_eq sends ▸ member)
    · cases sends
  · next remote deleting =>
    split at sends
    · next servIns listed => exact .inr ⟨remote, servIns, deleting, listed, buildAndSendEvent_eq sends⟩
    · cases sends

/-- An offline instance that a compare sends is one of the remote view whose identity its snapshot lacks. -/
theorem Compare.next_offline (valid : c.Valid) (sends : (c.next config key).2 = some sent) (offline : sent.offline = true) :
    (∃ servIns, some servIns ∈ c.items ∧ identityKey servIns = identityKey sent) ∧
      ∀ ins ∈ c.all, identityKey ins ≠ identityKey sent := by
  rcases Compare.next_sends valid sends with member | ⟨remote, servIns, deleting, listed, ended⟩
  · rw [valid.present sent member] at offline
    cases offline
  · have phase := valid.phase
    rw [deleting] at phase
    obtain ⟨fromView, spared⟩ := phase
    have same : identityKey sent = identityKey servIns := by
      rw [← ended, retired]
      split_ifs <;> rfl
    obtain ⟨own, viewed⟩ := fromView key servIns listed
    refine ⟨⟨servIns, viewed, same.symm⟩, fun ins member equal => spared ins member ?_⟩
    rw [equal, same, own]
    exact Finmap.mem_of_lookup_eq_some listed

/-! ## Runs -/

/-- The cache is present, and every running compare is valid. -/
structure Reconcile.Valid (w : Reconcile) : Prop where
  cached : Present w.provider.cache.entries
  compares : ∀ id c, w.compares id = some c → c.Valid

/-- Changing one compare keeps what holds of the others. -/
theorem compares_update {P : ℕ → Compare → Prop} {compares : ℕ → Option Compare} (all : ∀ id c, compares id = some c → P id c)
    (changed : ℕ) {value : Option Compare} (valued : ∀ c, value = some c → P changed c) :
    ∀ id c, Function.update compares changed value id = some c → P id c := by
  intro id c found
  rw [Function.update_apply] at found
  split_ifs at found with same
  · exact same ▸ valued c found
  · exact all id c found

/-- What holds of the running compares after a step: it holds of a compare that begins, and reading and deciding keep it. -/
theorem compares_step {P : ℕ → Compare → Prop} (all : ∀ id c, w.compares id = some c → P id c) (event : ReconcileStep)
    (begins : ∀ id catalog all, event = .compareBegin id catalog → (w.provider.compareSnapshot catalog).2 = some all →
      P id { all := all })
    (reads : ∀ id c next list, P id c → ({ all := c.all } : Compare).read config list = some next → P id next)
    (decides : ∀ id c next key, P id c → (c.next config key).1 = some next → P id next) :
    ∀ id c, (w.step config event).compares id = some c → P id c := by
  cases event with
  | sync catalog | fullPush advance catalog => exact all
  | compareBegin id catalog =>
    simp only [Reconcile.step]
    split
    · exact all
    · refine compares_update all id ?_
      intro c begun
      obtain ⟨snapshot, taken, rfl⟩ := Option.map_eq_some_iff.mp begun
      exact begins id catalog snapshot rfl taken
  | compareRead id list =>
    simp only [Reconcile.step]
    split
    · next snapshot items reading =>
      refine compares_update all id ?_
      intro c goesOn
      obtain ⟨read, _, continued⟩ := Option.bind_eq_some_iff.mp goesOn
      exact reads id _ c read (all id _ reading) continued
    · exact all
  | compareNext id key =>
    simp only [Reconcile.step]
    split
    · next c running =>
      refine compares_update all id ?_
      exact fun next goesOn => decides id c next key (all id c running) goesOn
    · exact all

theorem present_step (cached : Present w.provider.cache.entries) (event : ReconcileStep) :
    Present (w.step config event).provider.cache.entries := by
  cases event with
  | sync catalog => exact present_sync cached catalog
  | fullPush advance catalog => exact present_fullPush cached advance catalog
  | compareBegin id catalog =>
    simp only [Reconcile.step]
    split
    · exact cached
    · exact (present_compareSnapshot cached catalog).1
  | compareRead id list | compareNext id key =>
    simp only [Reconcile.step]
    split <;> exact cached

theorem Reconcile.Valid.step (valid : w.Valid) (event : ReconcileStep) : (w.step config event).Valid where
  cached := present_step valid.cached event
  compares := by
    refine compares_step valid.compares event ?_ ?_ ?_
    · intro id catalog all _ taken
      exact ⟨(present_compareSnapshot valid.cached catalog).2 all taken, trivial⟩
    · intro id c next list valid continued
      have present : Present ({ all := c.all } : Compare).all := valid.present
      exact Compare.read_valid present continued
    · exact fun id c next key valid goesOn => Compare.next_valid valid goesOn

theorem run_valid (config : Config) (history : List ReconcileStep) : (Reconcile.after config history).Valid := by
  induction history using List.reverseRecOn with
  | nil => exact ⟨present_nil, fun id c nothing => nomatch nothing⟩
  | append_singleton earlier event ih =>
    rw [Reconcile.after_append]
    exact ih.step event

/-- Every identity of the remote view that is cached now was in the compare's snapshot. -/
def Compare.Unmixed (c : Compare) (k : Provider) : Prop :=
  ∀ servIns, some servIns ∈ c.items → (k.cache.find (identityKey servIns)).isSome = true →
    ∃ ins ∈ c.all, identityKey ins = identityKey servIns

theorem Compare.read_all {list : Instances} (goesOn : c.read config list = some next) : next.all = c.all := by
  simp only [Compare.read] at goesOn
  split_ifs at goesOn <;> cases goesOn <;> rfl

theorem Compare.next_all (goesOn : (c.next config key).1 = some next) : next.all = c.all := by
  unfold Compare.next at goesOn
  split at goesOn
  · cases goesOn
    rfl
  · cases goesOn
  · cases goesOn
    rfl
  · split at goesOn
    · split at goesOn <;> cases goesOn <;> rfl
    · cases goesOn
      split_ifs <;> rfl
  · split at goesOn
    · cases goesOn
      rfl
    · split_ifs at goesOn
      cases goesOn
      rfl

/-- The step leaves the cache as it is. -/
def ReconcileStep.keepsCache : ReconcileStep → Bool
  | .sync _ | .compareBegin _ _ => false
  | .fullPush _ _ | .compareRead _ _ | .compareNext _ _ => true

/-- The cache is the one that the compare took its snapshot from. -/
def Reconcile.Untouched (w : Reconcile) (id : ℕ) : Prop := ∀ c, w.compares id = some c → w.provider.cache = cacheOf c.all

theorem untouched_begin {id : ℕ} (idle : w.compares id = none) (catalog : Option Catalog) :
    (w.step config (.compareBegin id catalog)).Untouched id := by
  intro c running
  simp only [Reconcile.step, idle, Function.update_self] at running ⊢
  obtain ⟨all, taken, rfl⟩ := Option.map_eq_some_iff.mp running
  cases catalog with
  | none => cases taken
  | some catalog =>
    simp only [Provider.compareSnapshot] at taken ⊢
    split_ifs at taken ⊢ <;> cases taken <;> rfl

theorem Reconcile.Untouched.step {id : ℕ} (untouched : w.Untouched id) {event : ReconcileStep} (keeps : event.keepsCache = true) :
    (w.step config event).Untouched id := by
  have cache : (w.step config event).provider.cache = w.provider.cache := by
    cases event with
    | sync | compareBegin => cases keeps
    | fullPush advance catalog =>
      cases catalog with
      | none => rfl
      | some catalog =>
        simp only [Reconcile.step, Provider.snapshotForFullPushMode]
        split_ifs <;> rfl
    | compareRead id list | compareNext id key =>
      simp only [Reconcile.step]
      split <;> rfl
  intro c running
  rw [cache]
  refine compares_step (P := fun other c => other = id → w.provider.cache = cacheOf c.all) ?_ event ?_ ?_ ?_ id c running rfl
  · rintro _ before held rfl
    exact untouched before held
  · rintro _ _ _ rfl
    cases keeps
  · intro other c next list held continued same
    rw [Compare.read_all continued]
    exact held same
  · intro other c next key held goesOn same
    rw [Compare.next_all goesOn]
    exact held same

/-- A compare is unmixed as long as nothing replaced the cache since its snapshot. -/
theorem unmixed_while_untouched {id : ℕ} {history more : List ReconcileStep} {catalog : Option Catalog}
    (idle : (Reconcile.after config history).compares id = none) (keeps : ∀ event ∈ more, event.keepsCache = true)
    (running : (Reconcile.after config (history ++ [.compareBegin id catalog] ++ more)).compares id = some c) :
    c.Unmixed (Reconcile.after config (history ++ [.compareBegin id catalog] ++ more)).provider := by
  have untouched : (Reconcile.after config (history ++ [.compareBegin id catalog] ++ more)).Untouched id := by
    clear running
    induction more using List.reverseRecOn with
    | nil =>
      rw [List.append_nil, Reconcile.after_append]
      exact untouched_begin idle catalog
    | append_singleton earlier event ih =>
      rw [← List.append_assoc, Reconcile.after_append]
      refine (ih fun other among => keeps other (List.mem_append_left _ among)).step (keeps event ?_)
      exact List.mem_append_right _ (List.mem_singleton_self event)
  intro servIns _ cached
  rw [untouched c running] at cached
  obtain ⟨ins, found⟩ := Option.isSome_iff_exists.mp cached
  obtain ⟨member, same⟩ := SortedStore.find_eq_some_iff.mp found
  exact ⟨ins, cacheOf_mem member, same⟩

/-- In every run, a compare that decides to send an offline instance does so for an identity that is not
cached at that moment, provided that no cached identity of the remote view is new since its snapshot. -/
theorem compare_spares_cached (config : Config) (history : List ReconcileStep) (id : ℕ) (key : String) (c : Compare)
    (sent : Instance) (running : (Reconcile.after config history).compares id = some c)
    (unmixed : c.Unmixed (Reconcile.after config history).provider)
    (sends : (Reconcile.after config history).emits config (.compareNext id key) = some sent)
    (offline : sent.offline = true) :
    (Reconcile.after config history).provider.cache.find (identityKey sent) = none := by
  have valid := (run_valid config history).compares id c running
  simp only [Reconcile.emits, running, Option.bind_some] at sends
  obtain ⟨⟨servIns, viewed, same⟩, spared⟩ := Compare.next_offline valid sends offline
  by_contra cached
  have found : ((Reconcile.after config history).provider.cache.find (identityKey servIns)).isSome = true := by
    rw [same]
    exact Option.isSome_iff_ne_none.mpr cached
  obtain ⟨ins, member, equal⟩ := unmixed servIns viewed found
  exact spared ins member (equal.trans same)

/-! ## Two runs -/

/-- The reconcile against a sink, with payloads that are never read. -/
def nacosMode : Config := { json := ⟨fun ins => ins.instanceId, fun _ => none⟩, nacosReconcile := true }

/-- An online service instance of one catalog. -/
def service (name : String) : Instance :=
  { sourceKey := "dc1/" ++ name, sourceCluster := "dc1", instanceId := name, provider := "ecs",
    status := instanceStatusOnline, reversion := 1 }

/-- A catalog of online services. -/
def services (names : List String) : Catalog where
  instances := names.map service
  present := by
    intro ins member
    obtain ⟨name, _, rfl⟩ := List.mem_map.mp member
    exact .inl rfl

/-- The remote view has a service that the catalog lost. -/
def remoteOnly : List ReconcileStep :=
  [.compareBegin 0 (some (services ["a"])), .compareRead 0 (some [some (service "a"), some (service "x")]),
    .compareNext 0 "dc1/a", .compareNext 0 ""]

theorem compare_spares_cached_remoteOnly :
    (Reconcile.after nacosMode remoteOnly).emits nacosMode (.compareNext 0 "dc1/x") = some (terminated (service "x")) ∧
      (Reconcile.after nacosMode remoteOnly).provider.cache.find "dc1/x" = none := by
  have sends : (Reconcile.after nacosMode remoteOnly).emits nacosMode (.compareNext 0 "dc1/x") =
      some (terminated (service "x")) := by decide
  have all : ((Reconcile.after nacosMode remoteOnly).compares 0).map Compare.all = some [service "a"] := by decide
  have items : ((Reconcile.after nacosMode remoteOnly).compares 0).map Compare.items =
      some [some (service "a"), some (service "x")] := by decide
  obtain ⟨c, running, snapshot⟩ := Option.map_eq_some_iff.mp all
  rw [running, Option.map_some, Option.some.injEq] at items
  refine ⟨sends, compare_spares_cached nacosMode remoteOnly 0 "dc1/x" c _ running ?_ sends (by decide)⟩
  intro servIns viewed cached
  simp only [items, List.mem_cons, Option.some.injEq, List.not_mem_nil, or_false] at viewed
  rcases viewed with rfl | rfl
  · exact ⟨service "a", snapshot ▸ List.mem_singleton_self _, rfl⟩
  · exact absurd cached (by decide)

/-- While the compare waits for the remote view, a sync takes a new service into the cache and registers it. -/
def registeredMeanwhile : List ReconcileStep :=
  [.compareBegin 0 (some (services ["a"])), .sync (some (services ["a", "b"])),
    .compareRead 0 (some [some (service "a"), some (service "b")]), .compareNext 0 "dc1/a", .compareNext 0 ""]

theorem registeredMeanwhile_deletes_cached :
    (Reconcile.after nacosMode registeredMeanwhile).emits nacosMode (.compareNext 0 "dc1/b") = some (terminated (service "b")) ∧
      (Reconcile.after nacosMode registeredMeanwhile).provider.cache.find "dc1/b" = some (service "b") := by
  decide

end Spotter.Providers.Consul
