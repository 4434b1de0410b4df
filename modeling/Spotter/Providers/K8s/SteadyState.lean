import Spotter.Nacos.Readback
import Spotter.Providers.K8s.Reconcile
import Spotter.Providers.K8s.Watch

/-! # The compare after a full push

After a full push of the cache that returned nil, a compare of the unchanged cache with what Nacos then
reads back has nothing to send but about instances without an address. Every cached instance with one
reads back as itself. An instance without one has no host of its own; it is compared with a host of its
identity that was left over where the full push does not look.
-/

namespace Spotter.Providers.K8s

open Library Domain Ports Robot Nacos

/-! ## What the conversion of a pod gives -/

/-- How often the view of a compare has an instance of the application. -/
def listings (pushAppCodes : Option (List String)) (ins : Instance) : ℕ :=
  if pushAppCodes.getD [] = [] then 1 else (pushAppCodes.getD []).count ins.appCode

/-- What matters here of an instance that a pod with a container became. -/
structure FromPod (config : K8s.Config) (ins : Instance) : Prop where
  sourceCluster : ins.sourceCluster ≠ ""
  provider : ins.provider = "k8s"
  fits : FirstPortFits ins
  status : ins.offline = false → ins.status = instanceStatusOnline ∨ ins.status = instanceStatusUnhealthy
  address : ins.status = instanceStatusOnline → ins.ip ≠ ""
  pushed : listings config.pushAppCodes ins ≠ 0

section Conversion

variable {config : K8s.Config} {obj : QueueObject} {pod : Pod} {ins : Instance}

theorem formatStatus_cases (obj : Option QueueObject) (pod : Pod) :
    formatStatus obj pod = instanceStatusOnline ∨ formatStatus obj pod = instanceStatusUnhealthy ∨
      formatStatus obj pod = instanceStatusOffline := by
  cases phase : pod.phase <;> simp only [formatStatus, phase] <;> split_ifs <;> simp

theorem firstPortFits_formatAppPort (containers : pod.containers ≠ [])
    (ports : ins.ports = some ((formatAppPort pod).map some)) : FirstPortFits ins := by
  rw [formatAppPort, if_neg (by simpa using containers)] at ports
  exact ⟨_, _, ports, by decide⟩

/-- An instance that passes the default filter has an address when it is online. -/
theorem address_of_verified (filtered : defaultInstanceFilter ∈ config.filters)
    (verified : (verifyInstance config.filters ins).isNone = true) (online : ins.status = instanceStatusOnline) : ins.ip ≠ "" := by
  intro empty
  have passes := List.findSome?_eq_none_iff.mp (Option.isNone_iff_eq_none.mp verified) _ filtered
  simp only [defaultInstanceFilter, online, empty, and_self, ↓reduceIte] at passes
  split_ifs at passes

/-- The fields of a converted pod that do not depend on its labels. -/
theorem format_fields (cluster : obj.clusterID ≠ "")
    (made : formatInstanceWithDeps config.lib config.pushAppCodes (some obj) pod = some ins) :
    ins.sourceCluster = obj.clusterID ∧ ins.provider = "k8s" ∧ ins.ports = some ((formatAppPort pod).map some) ∧
      ins.status = formatStatus (some obj) pod ∧ ∀ allowed, config.pushAppCodes = some allowed → ins.appCode ∈ allowed := by
  simp only [formatInstanceWithDeps, cluster, ne_eq, not_false_eq_true, ↓reduceIte] at made
  split_ifs at made with refused named <;>
    · cases made
      refine ⟨by simp, rfl, rfl, rfl, ?_⟩
      intro allowed known
      simpa [known] using (not_or.mp refused).2

theorem fromPod (filtered : defaultInstanceFilter ∈ config.filters) (cluster : obj.clusterID ≠ "") (containers : pod.containers ≠ [])
    (converted : config.convert obj pod = some ins) : FromPod config ins := by
  obtain ⟨made, verified⟩ := Option.filter_eq_some_iff.mp converted
  obtain ⟨source, provider, ports, status, allowed⟩ := format_fields cluster made
  refine ⟨source ▸ cluster, provider, firstPortFits_formatAppPort containers ports, ?_, address_of_verified filtered verified, ?_⟩
  · intro live
    rw [status]
    rcases formatStatus_cases (some obj) pod with online | unhealthy | offline
    · exact .inl online
    · exact .inr unhealthy
    · rw [Instance.offline, status, offline] at live
      cases live
  · cases known : config.pushAppCodes with
    | none => simp [listings]
    | some codes =>
      have listed := allowed codes known
      simp [listings, List.ne_nil_of_mem listed, List.count_eq_zero, listed]

end Conversion

/-! ## The remote view after the full push -/

section Codes

variable {codes : Option (List String)} {ins : Instance} {list : List Instance}

theorem ofPushAppCodes_eq : ofPushAppCodes codes list = list.flatMap fun ins => List.replicate (listings codes ins) ins := by
  simp only [ofPushAppCodes, listings, List.isEmpty_iff]
  split_ifs with none
  · simp
  · simp only [List.map_const', List.count_eq_length_filter]
    rfl

theorem mem_ofPushAppCodes : ins ∈ ofPushAppCodes codes list ↔ ins ∈ list ∧ listings codes ins ≠ 0 := by
  simp only [ofPushAppCodes_eq, List.mem_flatMap, List.mem_replicate]
  constructor
  · rintro ⟨item, listed, often, rfl⟩
    exact ⟨listed, often⟩
  · exact fun ⟨listed, often⟩ => ⟨ins, listed, often, rfl⟩

/-- The view of different hosts has every identity once exactly if it lists every host once and no two of one identity. -/
theorem nodup_ofPushAppCodes {hosts : List InstanceParams} (once : hosts.Nodup) (read : InstanceParams → Instance) :
    ((ofPushAppCodes codes (hosts.map read)).map identityKey).Nodup ↔ ∀ p ∈ hosts, listings codes (read p) ≠ 0 →
      listings codes (read p) ≤ 1 ∧ ∀ q ∈ hosts, listings codes (read q) ≠ 0 → identityKey (read q) = identityKey (read p) → q = p := by
  have symmetric : Std.Symm (Function.onFun List.Disjoint fun p =>
      List.replicate (listings codes (read p)) (identityKey (read p))) := ⟨fun _ _ => List.Disjoint.symm⟩
  simp only [ofPushAppCodes_eq, List.flatMap_map, List.map_flatMap, List.map_replicate, List.nodup_flatMap, List.nodup_replicate]
  constructor
  · rintro ⟨single, apart⟩ p member listed
    refine ⟨single p member, fun q among listed' same => ?_⟩
    by_contra differs
    exact apart.forall among member differs (List.mem_replicate.mpr ⟨listed', rfl⟩) (List.mem_replicate.mpr ⟨listed, same⟩)
  · intro unique
    refine ⟨fun p member => ?_, once.pairwise_of_forall_ne fun p member q among differs key first second => ?_⟩
    · by_contra twice
      exact twice (unique p member fun never => twice (by omega)).1
    · obtain ⟨listed, rfl⟩ := List.mem_replicate.mp first
      obtain ⟨listed', same⟩ := List.mem_replicate.mp second
      exact differs ((unique q among listed').2 p member listed same)

end Codes

theorem differs_canonical {config : ReconcileConfig} (mode : config.nacosReconcile = true) (ins : Instance) :
    config.differs ins (canonical ins) = false := by
  have same : canonicalPayload config.json (canonical ins) = canonicalPayload config.json ins := rfl
  simp [ReconcileConfig.differs, mode, diffNacosReconcile, equalNacosReconcile, same]

theorem legacyIdentity_of_source {ins : Instance} (aware : SourceAware ins) : legacyIdentity ins = false := by
  simp only [legacyIdentity, decide_eq_false_iff_not]
  rintro ⟨key, cluster, _⟩
  rcases aware with named | named
  · exact named key
  · exact named cluster

/-- A cache that the steady state is about: it has processed events, and its instances that are not offline come from
pods with a container, have different composite ids and survive the wire. -/
structure SteadyCache (config : ReconcileConfig) (nacos : Nacos.Config) (k : Provider) : Prop where
  processed : k.generation ≠ 0
  converted : ∀ ins ∈ k.active, ∃ obj pod, obj.clusterID ≠ "" ∧ pod.containers ≠ [] ∧ config.toConfig.convert obj pod = some ins
  distinct : (k.active.map fun ins => compositeIDWithGroup ins nacos.group).Nodup
  roundTrips : ∀ ins ∈ k.active, nacos.lib.toPayloadCodec.RoundTrips ins

section Steady

variable {config : ReconcileConfig} {nacos : Nacos.Config} {k : Provider} {ins : Instance}

section

variable (steady : SteadyCache config nacos k) (filtered : defaultInstanceFilter ∈ config.filters)

include steady filtered

theorem SteadyCache.fromPod (member : ins ∈ k.active) : FromPod config.toConfig ins := by
  obtain ⟨obj, pod, cluster, containers, converted⟩ := steady.converted ins member
  exact K8s.fromPod filtered cluster containers converted

theorem SteadyCache.status (member : ins ∈ k.active) : ins.status = instanceStatusOnline ∨ ins.status = instanceStatusUnhealthy := by
  apply (steady.fromPod filtered member).status
  simpa using (List.mem_filter.mp member).2

/-- A cached instance's registration reads back as the instance. -/
theorem SteadyCache.readBack (member : ins ∈ k.active) :
    Nacos.readBack nacos (registerParams nacos.lib nacos.group ins) = canonical ins := by
  have facts := steady.fromPod filtered member
  rw [readBack_registration (steady.roundTrips ins member), withFirstPort_of_fits facts.fits, if_neg (by rw [facts.provider]; decide)]
  rfl

end

variable {world : World} {history : List PushStep} {list : List Instance}

/-- The catalog after the full push of the cache. -/
def pushedCatalog (nacos : Nacos.Config) (world : World) (k : Provider) (history : List PushStep) : Catalog :=
  ((PushRun.start nacos world (k.active.map some)).after nacos history).world.catalog

/-- The remote view that the compare asks for, when every read succeeds. -/
def remoteView (nacos : Nacos.Config) (catalog : Catalog) : Except GoError (List Instance) :=
  Nacos.getAll nacos catalog none (fun _ => none) [instanceStatusOnline, instanceStatusUnhealthy] "k8s"

section Defs

variable (config : ReconcileConfig) (nacos : Nacos.Config) (k : Provider) (world : World) (p : InstanceParams)

/-- The compare asks for the host, and does not filter it out again. -/
def InView : Prop :=
  Selects nacos [instanceStatusOnline, instanceStatusUnhealthy] "k8s" p ∧ listings config.pushAppCodes (readBack nacos p) ≠ 0

/-- A host in view in a pair that the prune of the cache's full push does not see. -/
def Stray : Prop :=
  p ∈ world.catalog.entries ∧ ¬Sees nacos world (k.active.map some) p.pair ∧ InView config nacos p

/-- The hosts of the compared view: the registrations of the cached instances with an address, and the strays. -/
def Viewed : Prop :=
  (∃ ins ∈ k.active, ins.ip ≠ "" ∧ registerParams nacos.lib nacos.group ins = p) ∨ Stray config nacos k world p

/-- An identity occurs twice: in the cache, or in the view, which lists a host twice or has two hosts of the identity. -/
def Ambiguous : Prop :=
  ¬(k.active.map identityKey).Nodup ∨ ∃ p, Viewed config nacos k world p ∧
    (1 < listings config.pushAppCodes (readBack nacos p) ∨
      ∃ q, Viewed config nacos k world q ∧ identityKey (readBack nacos q) = identityKey (readBack nacos p) ∧ q ≠ p)

/-- No cached instance without an address differs from a stray host of its identity. -/
def StraysAgree : Prop :=
  ∀ p, Stray config nacos k world p → ∀ ins ∈ k.active, ins.ip = "" →
    identityKey (readBack nacos p) = identityKey ins → config.differs ins (readBack nacos p) = false

end Defs

section View

variable (filtered : defaultInstanceFilter ∈ config.filters) (steady : SteadyCache config nacos k)
  (written : ∀ p ∈ world.catalog.entries, p.Owned → WrittenForSource nacos p)
  (returned : ((PushRun.start nacos world (k.active.map some)).after nacos history).stage = .returned none)
  (read : remoteView nacos (pushedCatalog nacos world k history) = .ok list)

include filtered steady

theorem SteadyCache.readsBack (p : InstanceParams) (item : WrittenItem nacos (k.active.map some) p) : ReadsBack nacos p := by
  obtain ⟨ins, listed, address, rfl⟩ := item
  have own : ins ∈ k.active := (List.mem_map_of_injective (Option.some_injective _)).mp listed.1
  have roundTrips := steady.roundTrips ins own
  refine RegisteredBySink.readsBack ⟨ins, listed.2, address, roundTrips, rfl⟩ (canonicalProvider_registerParams roundTrips) ?_
  rw [(steady.fromPod filtered own).provider]
  decide

include returned in
/-- The full push leaves the registration of every cached instance with an address. -/
theorem SteadyCache.registered (own : ins ∈ k.active) (address : ins.ip ≠ "") :
    registerParams nacos.lib nacos.group ins ∈ (pushedCatalog nacos world k history).entries := by
  have cached {other : Instance} : some other ∈ k.active.map some → other ∈ k.active :=
    (List.mem_map_of_injective (Option.some_injective _)).mp
  have unique : ∀ other, some other ∈ k.active.map some →
      compositeIDWithGroup other nacos.group = compositeIDWithGroup ins nacos.group → other = ins :=
    fun other listed same => List.inj_on_of_nodup_map steady.distinct (cached listed) own same
  have newest : NewestOf nacos (k.active.map some) ins :=
    ⟨List.mem_map_of_mem own, fun other listed apart same => absurd (unique other listed same) apart⟩
  refine newest_registered (fun _ listed => if_pos (steady.status filtered (cached listed))) world history newest address ?_ returned
  intro t listed other job older same
  obtain ⟨owner, operation, item, made, _, _⟩ := mem_batchThreads listed
  rw [made] at job
  cases operation with
  | register =>
    cases job
    rw [unique other item.1 same] at older
    exact absurd older (lt_irrefl _)
  | deregister => cases job

include written returned

/-- What the full push leaves for the compare to ask for. -/
theorem viewed_iff {p : InstanceParams} :
    p ∈ (pushedCatalog nacos world k history).entries ∧ InView config nacos p ↔ Viewed config nacos k world p := by
  have remaining (owned : p.Owned) := remaining_iff (steady.readsBack filtered) returned (p := p)
    (fun early => by
      obtain ⟨source, _, address, _, rfl⟩ := written p early owned
      exact ⟨rfl, address⟩) owned
  constructor
  · rintro ⟨registered, inView⟩
    by_cases placed : WrittenItem nacos (k.active.map some) p
    · obtain ⟨ins, listed, address, rfl⟩ := placed
      exact .inl ⟨ins, (List.mem_map_of_injective (Option.some_injective _)).mp listed.1, address, rfl⟩
    · obtain ⟨early, unseen⟩ := (remaining inView.1.2.1).mp ⟨registered, placed⟩
      exact .inr ⟨early, unseen, inView⟩
  · rintro (⟨ins, own, address, rfl⟩ | ⟨early, unseen, inView⟩)
    · have pod := steady.fromPod filtered own
      have status := steady.status filtered own
      refine ⟨steady.registered filtered returned own address, ⟨rfl, registerParams_owned, ?_⟩, ?_⟩
      · rw [steady.readBack filtered own]
        exact ⟨.inr (.inl pod.provider), by simpa [statusAllowed, canonical] using status⟩
      · rw [steady.readBack filtered own]
        exact pod.pushed
    · exact ⟨((remaining inView.1.2.1).mpr ⟨early, unseen⟩).1, inView⟩

include read

theorem mem_comparedView {item : Instance} : item ∈ ofPushAppCodes config.pushAppCodes list ↔
    ∃ p, Viewed config nacos k world p ∧ readBack nacos p = item := by
  simp only [mem_ofPushAppCodes, mem_getAll read, ← viewed_iff filtered steady written returned]
  constructor
  · rintro ⟨⟨p, registered, selected, rfl⟩, listed⟩
    exact ⟨p, ⟨registered, selected, listed⟩, rfl⟩
  · rintro ⟨p, ⟨registered, selected, listed⟩, rfl⟩
    exact ⟨⟨p, registered, selected, rfl⟩, listed⟩

theorem canonical_mem_comparedView (member : ins ∈ k.active) (address : ins.ip ≠ "") :
    canonical ins ∈ ofPushAppCodes config.pushAppCodes list :=
  (mem_comparedView filtered steady written returned read).mpr
    ⟨_, .inl ⟨ins, member, address, rfl⟩, steady.readBack filtered member⟩

/-- The compare is quarantined exactly if the cache and the initial catalog make it ambiguous. -/
theorem quarantined_iff : ((strictListToMap ((ofPushAppCodes config.pushAppCodes list).map some)).ambiguous ≠ [] ∨
      (strictListToMap (k.active.map some)).ambiguous ≠ []) ↔ Ambiguous config nacos k world := by
  obtain ⟨hosts, once, rfl, selected⟩ := getAll_hosts read
  have viewed {p : InstanceParams} : Viewed config nacos k world p ↔
      p ∈ hosts ∧ listings config.pushAppCodes (readBack nacos p) ≠ 0 := by
    rw [selected, and_assoc]
    exact (viewed_iff filtered steady written returned).symm
  rw [or_comm, ne_eq, ne_eq, strictListToMap_nodup, strictListToMap_nodup, nodup_ofPushAppCodes once, Ambiguous]
  refine or_congr_right ⟨fun repeated => ?_, ?_⟩
  · by_contra clear
    refine repeated fun p member listed => ⟨not_lt.mp fun twice => ?_, fun q among listed' same => ?_⟩
    · exact clear ⟨p, viewed.mpr ⟨member, listed⟩, .inl twice⟩
    · by_contra differs
      exact clear ⟨p, viewed.mpr ⟨member, listed⟩, .inr ⟨q, viewed.mpr ⟨among, listed'⟩, same, differs⟩⟩
  · rintro ⟨p, inView, found⟩ unique
    obtain ⟨member, listed⟩ := viewed.mp inView
    obtain ⟨single, alone⟩ := unique p member listed
    rcases found with twice | ⟨q, inView', same, differs⟩
    · exact absurd twice (not_lt.mpr single)
    · exact differs (alone q (viewed.mp inView').1 (viewed.mp inView').2 same)

/-- What the compare finds names its source and has an address. -/
theorem aware_of_comparedView {item : Instance} (listed : item ∈ ofPushAppCodes config.pushAppCodes list) :
    SourceAware item ∧ item.ip ≠ "" := by
  obtain ⟨p, ⟨ins, own, address, rfl⟩ | ⟨early, _, selected, _⟩, rfl⟩ :=
    (mem_comparedView filtered steady written returned read).mp listed
  · rw [steady.readBack filtered own]
    exact ⟨.inr (steady.fromPod filtered own).sourceCluster, address⟩
  · obtain ⟨source, aware, address, roundTrips, rfl⟩ := written p early selected.2.1
    obtain ⟨key, cluster, ip⟩ := readBack_source nacos roundTrips
    rw [SourceAware, key, cluster, ip]
    exact ⟨aware, address⟩

/-- A compare that is not quarantined matches every cached instance by its identity, and sends it if the match differs. -/
theorem verdict_comparedView (once : (strictListToMap ((ofPushAppCodes config.pushAppCodes list).map some)).ambiguous = [])
    {target : Instance} (member : target ∈ k.active) :
    let view := ofPushAppCodes config.pushAppCodes list
    let remote := (strictListToMap (view.map some)).index
    MatchesOwn (view.map some) remote target ∧ (verdict config (view.map some) remote target = 0 ↔
        ∀ item ∈ view, identityKey item = identityKey target → config.differs target item = false) := by
  intro view remote
  have held : ∀ item ∈ view, identityKey item = identityKey target → remote.lookup (identityKey target) = some item := by
    intro item listed identity
    rw [← identity]
    exact lookup_strictListToMap once listed
  have status := steady.status filtered member
  cases found : remote.lookup (identityKey target) with
  | some other =>
    obtain ⟨identity, listed⟩ := (indexes_map_some view).keyed _ _ found
    have match_ : lookupIdentity remote (view.map some) target = some other := lookupIdentity_of_mem found
    have sent : buildAndSendEvent target ≠ 0 := by
      rcases status with online | unhealthy
      · simp [buildAndSendEvent, online, instanceStatusOnline, instanceStatusUnknown]
      · simp [buildAndSendEvent, unhealthy, instanceStatusUnhealthy, instanceStatusUnknown]
    refine ⟨fun item same => ?_, ?_⟩
    · rw [match_] at same
      cases same
      exact identity
    · simp only [verdict, match_, ite_eq_right_iff, sent, imp_false, Bool.not_eq_true]
      constructor
      · intro agrees item among same
        cases (held item among same).symm.trans found
        exact agrees
      · exact fun agree => agree other listed identity
  | none =>
    have unmatched : ∀ item ∈ view, identityKey item ≠ identityKey target := by
      intro item listed identity
      cases (held item listed identity).symm.trans found
    -- The registration of an instance with an address is in the view.
    have address : target.ip = "" := by
      by_contra placed
      exact unmatched (canonical target) (canonical_mem_comparedView filtered steady written returned read member placed) rfl
    have pod := steady.fromPod filtered member
    have nowhere : lookupIdentity remote (view.map some) target = none := by
      refine lookupIdentity_eq_none found (legacyIdentity_of_source (.inr pod.sourceCluster)) fun item listed => ?_
      have among : item ∈ view := (List.mem_map_of_injective (Option.some_injective _)).mp listed
      obtain ⟨source, placed⟩ := aware_of_comparedView filtered steady written returned read among
      exact ⟨legacyIdentity_of_source source, fun same => placed (same ▸ address)⟩
    refine ⟨fun item same => ?_, iff_of_true ?_ fun item listed identity => absurd identity (unmatched item listed)⟩
    · rw [nowhere] at same
      cases same
    · simp only [verdict, nowhere]
      exact if_neg fun online => pod.address online address

end View

/-- After a full push of the cache that returned nil, a compare of the unchanged cache with what Nacos reads back sends
nothing, in whichever order it goes through the cache, exactly if an identity occurs twice or the strays agree. -/
theorem compare_after_pushAll_is_silent (config : ReconcileConfig) (nacos : Nacos.Config) (k : Provider) (world : World)
    (history : List PushStep) (source order : List Instance) (mode : config.nacosReconcile = true)
    (filtered : defaultInstanceFilter ∈ config.filters) (steady : SteadyCache config nacos k)
    (written : ∀ p ∈ world.catalog.entries, p.Owned → WrittenForSource nacos p)
    (returned : ((PushRun.start nacos world (k.active.map some)).after nacos history).stage = .returned none)
    (iterated : order.Perm k.active) :
    compareAndFlush config k source (remoteView nacos (pushedCatalog nacos world k history)) k.generation order = 0 ↔
      Ambiguous config nacos k world ∨ StraysAgree config nacos k world := by
  obtain ⟨list, read⟩ : ∃ list, remoteView nacos (pushedCatalog nacos world k history) = .ok list :=
    ⟨_, (getAllFrom_eq _ _).trans (by rw [List.findSome?_eq_none_iff.mpr fun _ _ => rfl, Option.elim_none])⟩
  have view : ∀ p, Stray config nacos k world p → readBack nacos p ∈ ofPushAppCodes config.pushAppCodes list :=
    fun p stray => (mem_comparedView filtered steady written returned read).mpr ⟨p, .inr stray, rfl⟩
  rw [← quarantined_iff filtered steady written returned read]
  simp only [compareAndFlush, steady.processed, false_and, ↓reduceIte, Provider.bootstrapCacheFromSource, ne_eq,
    not_false_eq_true, Provider.snapshotForFullPushMode, read, mode, compareViews, not_true_eq_false]
  split_ifs with empty none ambiguous
  · refine iff_of_true rfl (.inr fun p _ ins member => ?_)
    rw [List.isEmpty_iff.mp empty] at member
    cases member
  · refine iff_of_true rfl (.inr fun p stray => ?_)
    have listed := (mem_ofPushAppCodes.mp (view p stray)).1
    rw [List.isEmpty_iff.mp none] at listed
    cases listed
  · exact iff_of_true rfl (.inl ambiguous)
  have once := not_not.mp (not_or.mp ambiguous).1
  have distinct := (strictListToMap_nodup _).mp once
  have cached := (strictListToMap_nodup k.active).mp (not_not.mp (not_or.mp ambiguous).2)
  have judge := fun target (member : target ∈ k.active) =>
    verdict_comparedView filtered steady written returned read once member
  rw [compare_silent_iff ((iterated.map identityKey).nodup_iff.mpr cached)
    fun target among => (judge target (iterated.mem_iff.mp among)).1, or_iff_right ambiguous]
  constructor
  · intro silent p stray ins member _ identity
    exact (judge ins member).2.mp (silent ins (iterated.mem_iff.mpr member)) _ (view p stray) identity
  · intro agree target among
    have member : target ∈ k.active := iterated.mem_iff.mp among
    refine (judge target member).2.mpr fun item listed identity => ?_
    -- An item of the identity is the target's own registration, or a stray of a target without an address.
    by_cases address : target.ip = ""
    · obtain ⟨p, ⟨ins, other, placed, rfl⟩ | stray, rfl⟩ := (mem_comparedView filtered steady written returned read).mp listed
      · rw [steady.readBack filtered other] at identity
        have same : ins = target := List.inj_on_of_nodup_map cached other member identity
        exact absurd address (same ▸ placed)
      · exact agree p stray target member address identity
    · have own := canonical_mem_comparedView filtered steady written returned read member address
      rw [List.inj_on_of_nodup_map distinct listed own identity]
      exact differs_canonical mode target

end Steady

/-! ### An evicted pod

The pod was registered while it ran; then it was evicted and lost its address.
-/

def evictionLib : ConversionLib where
  toLower := id
  float32 := fun _ => 0
  float32Thousandth := fun _ => 0
  float32Add := fun _ _ => 0

def evictionLabels (cluster : String) : FiniteMap String String :=
  (((∅ : FiniteMap String String).insert "app-code" "orders").insert "K8S_CLUSTER_TYPE" "product").insert "cluster" cluster

def servingPod (name uid ip : String) : Pod :=
  { podNamespace := "shop", name := name, uid := uid, resourceVersion := "5", labels := evictionLabels "blue"
    phase := .running, podIP := ip, containers := [{ name := "application" }]
    containerStatuses := [{ ready := true, running := true }] }

def evictedPod (cluster : String) : Pod :=
  { podNamespace := "shop", name := "orders-0", uid := "uid-1", resourceVersion := "7", labels := evictionLabels cluster
    phase := .failed, reason := "Evicted", containers := [{ name := "application" }] }

/-- The instance of a pod of the cluster "east". -/
def instanceOf (pod : Pod) : Instance :=
  ((Config.mk evictionLib none initInstanceFilters).convert (sourceObject "east" pod) pod).getD {}

/-- Libraries that serialise an instance as its id, state and cluster. -/
def evictionNacos : Nacos.Config where
  lib :=
    { marshal := fun ins => ins.instanceId ++ "/" ++ ins.state ++ "/" ++ ins.cluster
      unmarshal := fun text =>
        [instanceOf (servingPod "orders-0" "uid-1" "10.0.0.8"), instanceOf (servingPod "orders-1" "uid-2" "10.0.0.9"),
          instanceOf (evictedPod "blue"), instanceOf (evictedPod "green")].find? fun ins =>
            decide (ins.instanceId ++ "/" ++ ins.state ++ "/" ++ ins.cluster = text)
      compress := id
      decompress := some
      formatFloat := fun _ => "0"
      parseFloat := fun _ => none }

def evictionConfig : ReconcileConfig where
  lib := evictionLib
  json := evictionNacos.lib.toPayloadJSON

/-- The cache after the events of the given pods. -/
def cacheOf (pods : List Pod) : Provider :=
  pods.foldl (fun k pod => (k.podFound evictionConfig.toConfig (sourceObject "east" pod) pod).1) {}

def registeredBefore : World := registeredWorld evictionNacos [instanceOf (servingPod "orders-0" "uid-1" "10.0.0.8")]

theorem registeredBefore_written : ∀ p ∈ registeredBefore.catalog.entries, p.Owned → WrittenForSource evictionNacos p := by
  intro p member _
  obtain ⟨ins, among, rfl⟩ := mem_registeredWorld member
  cases List.mem_singleton.mp among
  exact ⟨_, .inr (by decide +kernel), by decide +kernel, by decide +kernel, rfl⟩

/-- A cache of events of pods with containers that convert and survive the wire. -/
theorem steadyCache_of_pods {k : Provider} (pods : List Pod) (processed : k.generation ≠ 0)
    (active : k.active = pods.map instanceOf)
    (converts : ∀ pod ∈ pods, pod.containers ≠ [] ∧
      evictionConfig.toConfig.convert (sourceObject "east" pod) pod = some (instanceOf pod) ∧
      evictionNacos.lib.toPayloadCodec.RoundTrips (instanceOf pod))
    (distinct : (pods.map fun pod => compositeIDWithGroup (instanceOf pod) evictionNacos.group).Nodup) :
    SteadyCache evictionConfig evictionNacos k := by
  have origin : ∀ ins ∈ k.active, ∃ pod ∈ pods, instanceOf pod = ins := by
    intro ins member
    rw [active] at member
    exact List.mem_map.mp member
  refine ⟨processed, ?_, ?_, ?_⟩
  · intro ins member
    obtain ⟨pod, listed, rfl⟩ := origin ins member
    exact ⟨sourceObject "east" pod, pod, show "east" ≠ "" by decide, (converts pod listed).1, (converts pod listed).2.1⟩
  · rw [active, List.map_map]
    exact distinct
  · intro ins member
    obtain ⟨pod, listed, rfl⟩ := origin ins member
    exact (converts pod listed).2.2

/-- The cluster label of the pod changed with its eviction. -/
def movedCache : Provider := cacheOf [evictedPod "green"]

/-- The item has no address and no pair to prune but its own. -/
def movedHistory : List PushStep := [.move 0 .done, .discover {}, .leave]

/-- The full push returns nil and leaves the old host; every compare from then on sends the pod, and nothing else. -/
theorem moved_eviction_is_sent_again : SteadyCache evictionConfig evictionNacos movedCache ∧
      (∀ p ∈ registeredBefore.catalog.entries, p.Owned → WrittenForSource evictionNacos p) ∧
      ((PushRun.start evictionNacos registeredBefore (movedCache.active.map some)).after evictionNacos movedHistory).stage =
        .returned none ∧
      compareAndFlush evictionConfig movedCache []
        (remoteView evictionNacos (pushedCatalog evictionNacos registeredBefore movedCache movedHistory))
        movedCache.generation movedCache.active = {instanceOf (evictedPod "green")} := by
  refine ⟨steadyCache_of_pods [evictedPod "green"] ?_ ?_ ?_ ?_, registeredBefore_written, ?_, ?_⟩
  · decide +kernel
  · decide +kernel
  · decide +kernel
  · decide +kernel
  · decide +kernel
  · decide +kernel

/-- The pod kept its cluster label, and another pod runs in its pair. -/
def keptCache : Provider := cacheOf [evictedPod "blue", servingPod "orders-1" "uid-2" "10.0.0.9"]

/-- The running pod is written and the evicted pod's old host is removed. -/
def keptHistory : List PushStep :=
  [PushStep.move 0 .done] ++ List.replicate 5 (PushStep.move 1 .done) ++ [PushStep.discover {}] ++
    List.replicate 3 (PushStep.move 0 .done) ++ [PushStep.leave]

theorem kept_eviction_is_silent : compareAndFlush evictionConfig keptCache []
      (remoteView evictionNacos (pushedCatalog evictionNacos registeredBefore keptCache keptHistory))
      keptCache.generation keptCache.active.reverse = 0 := by
  have active : keptCache.active = [evictedPod "blue", servingPod "orders-1" "uid-2" "10.0.0.9"].map instanceOf := by
    decide +kernel
  have steady : SteadyCache evictionConfig evictionNacos keptCache := by
    refine steadyCache_of_pods _ ?_ active ?_ ?_
    · decide +kernel
    · decide +kernel
    · decide +kernel
  refine (compare_after_pushAll_is_silent evictionConfig evictionNacos keptCache registeredBefore keptHistory [] _ rfl
    List.mem_cons_self steady registeredBefore_written ?_ (List.reverse_perm _)).mpr (.inr ?_)
  · decide +kernel
  · -- The old host is in the evicted pod's pair.
    rintro p ⟨member, unseen, _⟩
    obtain ⟨ins, among, rfl⟩ := mem_registeredWorld member
    cases List.mem_singleton.mp among
    have item : some (instanceOf (evictedPod "blue")) ∈ keptCache.active.map some := by
      rw [active]
      exact List.mem_cons_self
    exact absurd (.inl ⟨_, .register, ⟨item, by decide +kernel⟩, by decide +kernel⟩) unseen

end Spotter.Providers.K8s
