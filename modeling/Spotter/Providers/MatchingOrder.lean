import Spotter.Library.GreedyMatching
import Spotter.Providers.Consul.Reconcile
import Spotter.Providers.K8s.Reconcile

/-! # The order in which a reconcile matches

Both providers match their instances with the remote records in the order in which a map happens to be iterated. A record
leaves the index once it is matched, but the fallback by wire id looks at the whole list of records, matched ones included.
-/

namespace Spotter.Providers

open Library Domain

/-! ## The matching loop -/

/-- The fallback of `LookupIdentity`: the only record of the target's wire id, unless two explicit identities disagree. -/
def wireMatch (items : Instances) (target : Instance) : Option Instance :=
  lookupIdentity ∅ items target

theorem lookupIdentity_eq (index : FiniteMap String Instance) (items : Instances) (target : Instance) :
    lookupIdentity index items target = GreedyMatching.find identityKey (wireMatch items) index target := by
  unfold GreedyMatching.find wireMatch
  cases held : index.lookup (identityKey target) with
  | some value => exact lookupIdentity_of_mem held
  | none =>
    have absent : (∅ : FiniteMap String Instance).lookup (identityKey target) = none := Finmap.lookup_empty _
    rw [Option.none_or]
    exact lookupIdentity_congr items (held.trans absent.symm)

/-- The pairs that a loop over the local instances matches, and the records that are left. -/
def matchLoop (items : Instances) :
    FiniteMap String Instance → List Instance → List (Instance × Option Instance) × FiniteMap String Instance :=
  GreedyMatching.run identityKey identityKey (wireMatch items)

/-- The two explicit identities belong to one endpoint. -/
def SameEndpoint (target record : Instance) : Prop :=
  target.sourceCluster ≠ "" ∧ target.sourceCluster = record.sourceCluster ∧ target.provider = record.provider ∧
    target.appCode = record.appCode ∧ target.ip = record.ip

/-- The record is the target's before anything is matched: it has the target's identity or, if no record has it, it is the
only one of the target's wire id, and one of the two carries no source metadata or both belong to one endpoint. -/
def Resolves (records : List Instance) (target record : Instance) : Prop :=
  record ∈ records ∧ (identityKey record = identityKey target ∨
    (∀ other ∈ records, identityKey other ≠ identityKey target) ∧ target.instanceId ≠ "" ∧
      record.instanceId = target.instanceId ∧ (∀ other ∈ records, other.instanceId = target.instanceId → other = record) ∧
      (legacyIdentity target = true ∨ legacyIdentity record = true ∨ SameEndpoint target record))

/-- No record resolves two different local instances. -/
def ResolvesApart (records locals : List Instance) : Prop :=
  ∀ l ∈ locals, ∀ m ∈ locals, ∀ record, Resolves records l record → Resolves records m record → l = m

instance (records : List Instance) (target record : Instance) : Decidable (Resolves records target record) := by
  unfold Resolves SameEndpoint
  infer_instance

instance (records locals : List Instance) : Decidable (ResolvesApart records locals) :=
  decidable_of_iff (∀ l ∈ locals, ∀ m ∈ locals, ∀ record ∈ records, Resolves records l record → Resolves records m record → l = m)
    ⟨fun apart l left m right record first second => apart l left m right record first.1 first second,
      fun apart l left m right record _ first second => apart l left m right record first second⟩

variable {items : Instances} {target record : Instance}

theorem strictListToMap_live (items : Instances) :
    strictListToMap items = strictListToMap ((items.filterMap id).map some) := by
  rw [strictListToMap_map_some]
  rfl

theorem records_nodup (clear : (strictListToMap items).ambiguous = []) : ((items.filterMap id).map identityKey).Nodup := by
  rw [strictListToMap_live] at clear
  exact (strictListToMap_nodup _).mp clear

/-- What the fallback makes of the only record of a wire id. -/
theorem wireMatch_singleton {only : Instance} (named : target.instanceId ≠ "")
    (found : (items.filterMap id).filter (fun item => decide (item.instanceId = target.instanceId)) = [only]) :
    wireMatch items target = some record ↔
      record = only ∧ (legacyIdentity target = true ∨ legacyIdentity only = true ∨ SameEndpoint target only) := by
  simp only [wireMatch, lookupIdentity, Finmap.lookup_empty, named, ↓reduceIte, found]
  cases legacyIdentity target with
  | true =>
    simp only [Bool.not_true, Bool.false_and, Bool.false_eq_true, ↓reduceIte, true_or, and_true, Option.some_inj]
    exact eq_comm
  | false =>
    cases legacyIdentity only with
    | true =>
      simp only [Bool.not_true, Bool.and_false, Bool.false_eq_true, ↓reduceIte, true_or, or_true, and_true, Option.some_inj]
      exact eq_comm
    | false =>
      simp only [Bool.not_false, Bool.and_self, ↓reduceIte, Bool.false_eq_true, false_or]
      split_ifs with same
      · simp only [Option.some_inj]
        exact ⟨fun equal => ⟨equal.symm, same⟩, fun equal => equal.1.symm⟩
      · exact iff_of_false not_false fun equal => same equal.2

theorem wireMatch_eq_some_iff (distinct : (items.filterMap id).Nodup) :
    wireMatch items target = some record ↔ target.instanceId ≠ "" ∧ record ∈ items.filterMap id ∧
      record.instanceId = target.instanceId ∧ (∀ other ∈ items.filterMap id, other.instanceId = target.instanceId → other = record) ∧
      (legacyIdentity target = true ∨ legacyIdentity record = true ∨ SameEndpoint target record) := by
  by_cases unnamed : target.instanceId = ""
  · simp [wireMatch, lookupIdentity, unnamed]
  have among : ∀ other, other ∈ (items.filterMap id).filter (fun item => decide (item.instanceId = target.instanceId)) ↔
      other ∈ items.filterMap id ∧ other.instanceId = target.instanceId := by
    intro other
    rw [List.mem_filter, decide_eq_true_eq]
  have single := distinct.filter fun item => decide (item.instanceId = target.instanceId)
  cases found : (items.filterMap id).filter (fun item => decide (item.instanceId = target.instanceId)) with
  | nil =>
    rw [found] at among
    refine iff_of_false ?_ ?_
    · simp only [wireMatch, lookupIdentity, Finmap.lookup_empty, unnamed, ↓reduceIte, found]
      exact (Option.some_ne_none record).symm
    · rintro ⟨_, listed, same, _⟩
      exact absurd ((among record).mpr ⟨listed, same⟩) List.not_mem_nil
  | cons only rest =>
    rw [found] at among single
    cases rest with
    | cons second more =>
      refine iff_of_false ?_ ?_
      · simp only [wireMatch, lookupIdentity, Finmap.lookup_empty, unnamed, ↓reduceIte, found]
        exact (Option.some_ne_none record).symm
      · rintro ⟨_, _, _, alone, _⟩
        obtain ⟨first, named⟩ := (among only).mp List.mem_cons_self
        obtain ⟨listed, again⟩ := (among second).mp (List.mem_cons_of_mem _ List.mem_cons_self)
        rw [alone only first named, alone second listed again] at single
        exact (List.nodup_cons.mp single).1 List.mem_cons_self
    | nil =>
      rw [wireMatch_singleton unnamed found]
      obtain ⟨listed, named⟩ := (among only).mp List.mem_cons_self
      constructor
      · rintro ⟨rfl, agrees⟩
        refine ⟨unnamed, listed, named, ?_, agrees⟩
        intro other member same
        exact List.mem_singleton.mp ((among other).mpr ⟨member, same⟩)
      · rintro ⟨_, _, _, alone, agrees⟩
        obtain rfl := alone only listed named
        exact ⟨rfl, agrees⟩

section

variable (clear : (strictListToMap items).ambiguous = [])

include clear

/-- Before anything is matched, the look-up finds the record that resolves the target. -/
theorem find_eq_some_iff : GreedyMatching.find identityKey (wireMatch items) (strictListToMap items).index target = some record ↔
      Resolves (items.filterMap id) target record := by
  have distinct := records_nodup clear
  have indexes := strictListToMap_indexes items
  have held : ∀ other ∈ items.filterMap id, (strictListToMap items).index.lookup (identityKey other) = some other := by
    intro other member
    rw [strictListToMap_live] at clear ⊢
    exact lookup_strictListToMap clear member
  unfold GreedyMatching.find Resolves
  cases own : (strictListToMap items).index.lookup (identityKey target) with
  | some value =>
    obtain ⟨same, listed⟩ := indexes.keyed _ _ own
    rw [Option.some_or, Option.some_inj]
    constructor
    · rintro rfl
      exact ⟨listed, .inl same⟩
    · rintro ⟨member, equal | ⟨nobody, _⟩⟩
      · have found := held record member
        rw [equal, own] at found
        exact Option.some.inj found
      · exact absurd same (nobody value listed)
  | none =>
    have nobody : ∀ other ∈ items.filterMap id, identityKey other ≠ identityKey target := by
      intro other member same
      have found := held other member
      rw [same, own] at found
      cases found
    rw [Option.none_or, wireMatch_eq_some_iff distinct.of_map]
    constructor
    · rintro ⟨named, listed, rest⟩
      exact ⟨listed, .inr ⟨nobody, named, rest⟩⟩
    · rintro ⟨listed, same | ⟨_, named, rest⟩⟩
      · exact absurd same (nobody record listed)
      · exact ⟨named, listed, rest⟩

theorem keyed_records :
    GreedyMatching.Keyed identityKey (wireMatch items) (strictListToMap items).index (· ∈ items.filterMap id) where
  own := (strictListToMap_indexes items).keyed
  fallen _ _ found := ((wireMatch_eq_some_iff (records_nodup clear).of_map).mp found).2.1
  unique _ _ listed other same := List.inj_on_of_nodup_map (records_nodup clear) listed other same

theorem unshared_iff (locals : List Instance) :
    GreedyMatching.Unshared identityKey (wireMatch items) (strictListToMap items).index locals ↔
      ResolvesApart (items.filterMap id) locals := by
  simp only [GreedyMatching.Unshared, ResolvesApart, find_eq_some_iff clear]

section

variable {locals : List Instance} (localClear : (strictListToMap (locals.map some)).ambiguous = [])

include localClear

/-- A loop matches no record twice in any order exactly if no record resolves two local instances. -/
theorem matchLoop_oneToOne_iff :
    (∀ order, order.Perm locals → GreedyMatching.OneToOne (matchLoop items (strictListToMap items).index order).1) ↔
      ResolvesApart (items.filterMap id) locals := by
  rw [← unshared_iff clear]
  exact GreedyMatching.oneToOne_iff (keyed_records clear) ((strictListToMap_nodup locals).mp localClear)

/-- If no record resolves two local instances, the pairs and the records that are left do not depend on the order. -/
theorem matchLoop_order_free {order : List Instance} (apart : ResolvesApart (items.filterMap id) locals)
    (same : order.Perm locals) :
    (matchLoop items (strictListToMap items).index order).1.Perm (matchLoop items (strictListToMap items).index locals).1 ∧
      (matchLoop items (strictListToMap items).index order).2 = (matchLoop items (strictListToMap items).index locals).2 :=
  GreedyMatching.run_order_free (keyed_records clear) ((strictListToMap_nodup locals).mp localClear).of_map
    ((unshared_iff clear locals).mpr apart) same

end

end

/-! ## The loop of the Kubernetes provider -/

namespace K8s

variable (config : ReconcileConfig)

/-- The event about a cached instance, given the record it was matched with. -/
def decision (k8sIns : Instance) : Option Instance → Multiset Instance
  | some servIns => if config.differs k8sIns servIns then buildAndSendEvent k8sIns else 0
  | none => if k8sIns.status = instanceStatusOnline then buildAndSendEvent k8sIns else 0

theorem compareOne_eq (items : Instances) (state : CompareState) (k8sIns : Instance) : compareOne config items state k8sIns =
      { remote := GreedyMatching.remove identityKey state.remote (lookupIdentity state.remote items k8sIns)
        events := state.events + decision config k8sIns (lookupIdentity state.remote items k8sIns) } := by
  unfold compareOne
  cases lookupIdentity state.remote items k8sIns with
  | none => rfl
  | some servIns => rfl

/-- The compare sends the decisions about the pairs of the matching loop. -/
theorem compare_eq (items : Instances) (order : List Instance) (state : CompareState) :
    order.foldl (compareOne config items) state =
      { remote := (matchLoop items state.remote order).2
        events := state.events + ((matchLoop items state.remote order).1.map fun pair => decision config pair.1 pair.2).sum } := by
  induction order generalizing state with
  | nil => simp [matchLoop, GreedyMatching.run]
  | cons ins rest ih =>
    rw [List.foldl_cons, ih, compareOne_eq]
    simp only [matchLoop, GreedyMatching.run, lookupIdentity_eq, List.map_cons, List.sum_cons, add_assoc]

/-- The events of a compare, given the pairs and the records that are left. -/
def eventsOf (result : List (Instance × Option Instance) × FiniteMap String Instance) : Multiset Instance :=
  (result.1.map fun pair => decision config pair.1 pair.2).sum +
    if config.nacosReconcile then 0 else (result.2.entries.map fun entry => buildAndSendEvent (retired entry.2)).sum

theorem compareViews_eq {config : ReconcileConfig} {all list order : List Instance}
    (remoteClear : (strictListToMap (list.map some)).ambiguous = []) (localClear : (strictListToMap (all.map some)).ambiguous = []) :
    compareViews config all list order =
      eventsOf config (matchLoop (list.map some) (strictListToMap (list.map some)).index order) := by
  have unambiguous : ¬((strictListToMap (list.map some)).ambiguous ≠ [] ∨ (strictListToMap (all.map some)).ambiguous ≠ []) := by
    simp [remoteClear, localClear]
  simp only [compareViews, eventsOf]
  rw [if_neg unambiguous, compare_eq, zero_add]
  split_ifs
  · rw [add_zero]
  · rfl

/-- The pairs and the records that are left of a compare with the remote view. -/
def matched (list order : List Instance) : List (Instance × Option Instance) × FiniteMap String Instance :=
  matchLoop (list.map some) (strictListToMap (list.map some)).index order

/-- The compare sends the same events whatever the order of the snapshot. -/
def OrderFree (all list : List Instance) : Prop :=
  ∀ order order', order.Perm all → order'.Perm all → compareViews config all list order = compareViews config all list order'

theorem orderFree_of_resolvesApart {config : ReconcileConfig} {all list : List Instance}
    (remoteClear : (strictListToMap (list.map some)).ambiguous = []) (localClear : (strictListToMap (all.map some)).ambiguous = [])
    (apart : ResolvesApart list all) : OrderFree config all list := by
  have live : (list.map some).filterMap id = list := by simp
  have reference : ∀ order, order.Perm all → compareViews config all list order = compareViews config all list all := by
    intro order same
    obtain ⟨pairs, left⟩ := matchLoop_order_free remoteClear localClear (live.symm ▸ apart) same
    rw [compareViews_eq remoteClear localClear, compareViews_eq remoteClear localClear, eventsOf, eventsOf, left]
    congr 1
    exact (pairs.map _).sum_eq
  intro order order' same same'
  rw [reference order same, reference order' same']

end K8s

/-! ## The loop of the Consul provider -/

namespace Consul

/-- The event about a snapshot's instance, given the record it was matched with. -/
def decision (config : Config) (consulIns : Instance) : Option Instance → Option Instance
  | some servIns => if differs config consulIns servIns then buildAndSendEvent consulIns else none
  | none => if consulIns.status = instanceStatusOnline then buildAndSendEvent consulIns else none

/-- What a compare sends while its maps are iterated along the keys. -/
def Compare.sent (config : Config) : Option Compare → List String → List Instance
  | some c, key :: keys => (c.next config key).2.toList ++ Compare.sent config (c.next config key).1 keys
  | _, _ => []

/-- The keys are an iteration of the map. -/
def Iterates (keys : List String) (m : FiniteMap String Instance) : Prop := keys.Nodup ∧ ∀ key, key ∈ keys ↔ key ∈ m

variable {config : Config} {c : Compare} {order all : List Instance} {rest remote : FiniteMap String Instance} {keys : List String}

theorem sent_none (keys : List String) : Compare.sent config none keys = [] := by
  cases keys with
  | nil | cons _ _ => rfl

theorem toList_append_filterMap {A B : Type} (f : A → Option B) (a : A) (as : List A) :
    (f a).toList ++ as.filterMap f = (a :: as).filterMap f := by
  cases made : f a with
  | none => simp [made]
  | some b => simp [made]

theorem next_comparing {key : String} {consulIns : Instance} (held : rest.lookup key = some consulIns) :
    ({ c with phase := .comparing rest remote } : Compare).next config key = (some
          { c with
            phase := .comparing (rest.erase key)
              (GreedyMatching.remove identityKey remote (lookupIdentity remote c.items consulIns)) },
        decision config consulIns (lookupIdentity remote c.items consulIns)) := by
  simp only [Compare.next, held]
  cases lookupIdentity remote c.items consulIns with
  | none | some _ => rfl

/-- The compare sends the decisions about the pairs of the matching loop. -/
theorem sent_comparing (held : ∀ ins ∈ order, rest.lookup (identityKey ins) = some ins) (distinct : (order.map identityKey).Nodup) :
    Compare.sent config (some { c with phase := .comparing rest remote }) (order.map identityKey ++ keys) =
      ((matchLoop c.items remote order).1.filterMap fun pair => decision config pair.1 pair.2) ++ Compare.sent config
          (some
            { c with
              phase := .comparing (order.foldl (fun rest ins => rest.erase (identityKey ins)) rest)
                (matchLoop c.items remote order).2 }) keys := by
  induction order generalizing rest remote with
  | nil => rfl
  | cons ins others ih =>
    obtain ⟨fresh, apart⟩ := List.nodup_cons.mp distinct
    have kept : ∀ other ∈ others, (rest.erase (identityKey ins)).lookup (identityKey other) = some other := by
      intro other member
      have different : identityKey other ≠ identityKey ins := fun same => fresh (same ▸ List.mem_map_of_mem member)
      rw [Finmap.lookup_erase_ne different]
      exact held other (List.mem_cons_of_mem _ member)
    rw [List.map_cons, List.cons_append, Compare.sent, next_comparing (held ins List.mem_cons_self)]
    dsimp only
    rw [ih kept apart, lookupIdentity_eq, ← List.append_assoc, toList_append_filterMap (fun pair => decision config pair.1 pair.2)
      (ins, GreedyMatching.find identityKey (wireMatch c.items) remote ins)]
    rfl

/-- The records that nothing matched are ended, whatever the order. -/
theorem sent_deleting (distinct : keys.Nodup) : Compare.sent config (some { c with phase := .deleting remote }) keys =
      keys.filterMap fun key => (remote.lookup key).bind fun servIns => buildAndSendEvent (retired config servIns) := by
  induction keys generalizing remote with
  | nil => rfl
  | cons key others ih =>
    obtain ⟨fresh, apart⟩ := List.nodup_cons.mp distinct
    rw [← toList_append_filterMap, Compare.sent]
    cases held : remote.lookup key with
    | some servIns =>
      have same : ∀ other ∈ others, (remote.erase key).lookup other = remote.lookup other :=
        fun other member => Finmap.lookup_erase_ne fun equal => fresh (equal ▸ member)
      simp only [Compare.next, held, ih apart, Option.bind_some]
      congr 1
      refine List.filterMap_congr fun other member => ?_
      rw [same other member]
    | none =>
      simp only [Compare.next, held, Option.bind_none, Option.toList_none, List.nil_append]
      rcases eq_or_ne remote (∅) with rfl | finished
      · rw [if_pos rfl, sent_none]
        simp [Finmap.lookup_empty]
      · rw [if_neg finished, ih apart]

theorem sent_flushing {waiting : List Instance} (enough : waiting.length ≤ keys.length) :
    Compare.sent config (some { c with phase := .flushing waiting }) keys = waiting.filterMap buildAndSendEvent := by
  induction keys generalizing waiting with
  | nil =>
    obtain rfl := List.length_eq_zero_iff.mp (Nat.le_zero.mp enough)
    rfl
  | cons key others ih =>
    cases waiting with
    | nil => exact sent_none others
    | cons ins later =>
      rw [← toList_append_filterMap, ← ih (Nat.le_of_succ_le_succ enough)]
      rfl

theorem lookup_foldl_erase (order : List Instance) (rest : FiniteMap String Instance) (key : String) (value : Instance) :
    (order.foldl (fun rest ins => rest.erase (identityKey ins)) rest).lookup key = some value ↔
      key ∉ order.map identityKey ∧ rest.lookup key = some value := by
  induction order generalizing rest with
  | nil => simp
  | cons ins others ih =>
    rw [List.foldl_cons, ih, List.map_cons, List.mem_cons, not_or]
    rcases eq_or_ne key (identityKey ins) with rfl | different
    · simp
    · simp [different]

/-- The whole compare, with the maps iterated along the order and then along the deletions. -/
def compareRun (config : Config) (all : List Instance) (list : Instances) (order : List Instance)
    (deletions : List String) : List Instance :=
  Compare.sent config (({ all := all } : Compare).read config list) (order.map identityKey ++ "" :: deletions)

/-- The pairs and the records that are left of a compare with the remote view. -/
def matched (config : Config) (list : Instances) (order : List Instance) :
    List (Instance × Option Instance) × FiniteMap String Instance :=
  matchLoop (sourceScopedRemote config list) (strictListToMap (sourceScopedRemote config list)).index order

variable {list : Instances} {deletions : List String}

theorem compareRun_empty (empty : sourceScopedRemote config list = []) (same : order.Perm all) :
    compareRun config all list order deletions = all.filterMap buildAndSendEvent := by
  have enough : all.length ≤ (order.map identityKey ++ "" :: deletions).length := by
    rw [List.length_append, List.length_map, same.length_eq]
    omega
  rw [← sent_flushing enough, compareRun, Compare.read, empty]
  rfl

theorem compareRun_eq (remoteClear : (strictListToMap (sourceScopedRemote config list)).ambiguous = [])
    (localClear : (strictListToMap (all.map some)).ambiguous = []) (found : sourceScopedRemote config list ≠ [])
    (same : order.Perm all) (distinct : deletions.Nodup) :
    compareRun config all list order deletions =
      ((matched config list order).1.filterMap fun pair => decision config pair.1 pair.2) ++
        deletions.filterMap fun key =>
          ((matched config list order).2.lookup key).bind fun servIns => buildAndSendEvent (retired config servIns) := by
  have started : ({ all := all } : Compare).read config list =
      some { all := all, items := sourceScopedRemote config list,
             phase := .comparing (strictListToMap (all.map some)).index (strictListToMap (sourceScopedRemote config list)).index } := by
    simp [Compare.read, found, remoteClear, localClear]
  have apart : (order.map identityKey).Nodup := (same.map identityKey).nodup_iff.mpr ((strictListToMap_nodup all).mp localClear)
  have held : ∀ ins ∈ order, (strictListToMap (all.map some)).index.lookup (identityKey ins) = some ins :=
    fun ins member => lookup_strictListToMap localClear (same.mem_iff.mp member)
  have finished : order.foldl (fun rest ins => rest.erase (identityKey ins)) (strictListToMap (all.map some)).index = ∅ := by
    refine Finmap.ext_lookup fun key => Option.ext fun value => ?_
    rw [lookup_foldl_erase, Finmap.lookup_empty]
    refine iff_of_false ?_ fun impossible => nomatch impossible
    rintro ⟨missing, present⟩
    obtain ⟨named, listed⟩ := (strictListToMap_indexes (all.map some)).keyed _ _ present
    have member : value ∈ all := by simpa using listed
    exact missing (List.mem_map.mpr ⟨value, same.mem_iff.mpr member, named⟩)
  rw [compareRun, started, sent_comparing (c := { all := all, items := sourceScopedRemote config list }) held apart, finished]
  rw [← sent_deleting (c := { all := all, items := sourceScopedRemote config list }) distinct]
  rfl

/-- The compare sends the same events whatever the order of the snapshot and of the deletions. -/
def OrderFree (config : Config) (all : List Instance) (list : Instances) : Prop :=
  ∀ order order' deletions deletions', order.Perm all → order'.Perm all →
    Iterates deletions (matched config list order).2 → Iterates deletions' (matched config list order').2 →
      (compareRun config all list order deletions).Perm (compareRun config all list order' deletions')

theorem orderFree_of_resolvesApart (remoteClear : (strictListToMap (sourceScopedRemote config list)).ambiguous = [])
    (localClear : (strictListToMap (all.map some)).ambiguous = [])
    (apart : ResolvesApart ((sourceScopedRemote config list).filterMap id) all) : OrderFree config all list := by
  intro order order' deletions deletions' same same' iterated iterated'
  by_cases found : sourceScopedRemote config list = []
  · rw [compareRun_empty found same, compareRun_empty found same']
  · have first := matchLoop_order_free remoteClear localClear apart same
    have second := matchLoop_order_free remoteClear localClear apart same'
    have pairs : (matched config list order).1.Perm (matched config list order').1 := first.1.trans second.1.symm
    have left : (matched config list order).2 = (matched config list order').2 := first.2.trans second.2.symm
    have deleted : deletions.Perm deletions' := by
      refine (List.perm_ext_iff_of_nodup iterated.1 iterated'.1).mpr fun key => ?_
      rw [iterated.2, iterated'.2, left]
    rw [compareRun_eq remoteClear localClear found same iterated.1, compareRun_eq remoteClear localClear found same' iterated'.1, left]
    exact (pairs.filterMap _).append (deleted.filterMap _)

end Consul

/-! ## Both loops -/

/-- On lists without ambiguous keys, a compare of either provider matches no record twice and sends the same events in every
order exactly if no record resolves two local instances. -/
theorem matching_order_free_iff {all : List Instance} (localClear : (strictListToMap (all.map some)).ambiguous = []) :
    (∀ (config : K8s.ReconcileConfig) (list : List Instance), (strictListToMap (list.map some)).ambiguous = [] →
      (((∀ order, order.Perm all → GreedyMatching.OneToOne (K8s.matched list order).1) ∧ K8s.OrderFree config all list) ↔
        ResolvesApart list all)) ∧
    (∀ (config : Consul.Config) (list : Instances), (strictListToMap (Consul.sourceScopedRemote config list)).ambiguous = [] →
      (((∀ order, order.Perm all → GreedyMatching.OneToOne (Consul.matched config list order).1) ∧
          Consul.OrderFree config all list) ↔
        ResolvesApart ((Consul.sourceScopedRemote config list).filterMap id) all)) := by
  constructor
  · intro config list remoteClear
    have live : (list.map some).filterMap id = list := by simp
    have once := matchLoop_oneToOne_iff remoteClear localClear
    rw [live] at once
    exact (and_iff_left_of_imp fun single => K8s.orderFree_of_resolvesApart remoteClear localClear (once.mp single)).trans once
  · intro config list remoteClear
    have once := matchLoop_oneToOne_iff remoteClear localClear
    exact (and_iff_left_of_imp fun single => Consul.orderFree_of_resolvesApart remoteClear localClear (once.mp single)).trans once

/-- A service as an earlier read of Consul recorded it. -/
def recordedService : Instance :=
  { instanceId := "web-1", appCode := "shop", provider := "consul", sourceCluster := "dc1", sourceKey := "n1/web-1",
    ip := "10.0.0.1", status := instanceStatusOnline, reversion := 5 }

/-- The service after its node got another address and its check failed. -/
def movedService : Instance := { recordedService with ip := "10.0.0.2", status := instanceStatusUnhealthy, reversion := 6 }

/-- A service of the same id on a node that took over the address. -/
def successorService : Instance := { recordedService with sourceKey := "n2/web-1", reversion := 7 }

def otherService : Instance := { recordedService with instanceId := "api-1", sourceKey := "n2/api-1", reversion := 7 }

def atlasMode : Consul.Config := { json := ⟨fun ins => ins.instanceId, fun _ => none⟩, nacosReconcile := false, sourceCluster := "dc1" }

theorem movedService_matched_once : (strictListToMap ([movedService, otherService].map some)).ambiguous = [] ∧
      Consul.OrderFree atlasMode [movedService, otherService] [some recordedService] :=
  ⟨by decide, (((matching_order_free_iff (by decide)).2 atlasMode [some recordedService] (by decide)).mpr (by decide)).2⟩

/-- The record is matched twice, and the failed check is reported in one of the two orders only. -/
theorem movedService_order_dependent : (strictListToMap ([movedService, successorService].map some)).ambiguous = [] ∧
      (strictListToMap (Consul.sourceScopedRemote atlasMode [some recordedService])).ambiguous = [] ∧
      (Consul.matched atlasMode [some recordedService] [movedService, successorService]).1 =
        [(movedService, some recordedService), (successorService, some recordedService)] ∧
      (Consul.matched atlasMode [some recordedService] [movedService, successorService]).2 = ∅ ∧
      (Consul.matched atlasMode [some recordedService] [successorService, movedService]).2 = ∅ ∧
      Consul.compareRun atlasMode [movedService, successorService] [some recordedService] [movedService, successorService] [] =
        [movedService, successorService] ∧
      Consul.compareRun atlasMode [movedService, successorService] [some recordedService] [successorService, movedService] [] =
        [successorService] := by
  decide +kernel

end Spotter.Providers
