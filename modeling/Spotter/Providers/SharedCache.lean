import Spotter.Domain.ObjectGraph
import Spotter.Providers.Cache

/-! # The cache in memory

The tree holds pointers to instances, and its order is that of the identities they have at the moment. The cache copies an
instance on the way in and on the way out. Callers keep the pointers that they passed and got, and may write to all that these
lead to; what `ReplaceOrInsert` returns is the stored instance itself, which no caller keeps.

The tree is an ordered map under its comparison, and a copy consists of new objects.
-/

namespace Spotter.Providers

open Library Domain

structure SharedCache where
  memory : Memory := {}
  /-- The tree's items in its order. -/
  items : List Ref := []
  /-- The objects that callers lead to. -/
  callers : List Ref := []

namespace SharedCache

/-! ## The methods -/

variable (memory : Memory)

/-- `IdentityKey` of an item. -/
def keyAt (item : Ref) : String := ((readInstance memory item).map identityKey).getD ""

def instanceIdAt (item : Ref) : Option String := (readInstance memory item).map (·.instanceId)

/-- `deepCopy`. -/
def deepCopy (item : Ref) : Option Ref × Memory :=
  match readInstance memory item with
  | some ins => (some (storeInstance memory ins).1, (storeInstance memory ins).2)
  | none => (none, memory)

/-- The instance that `Get` and `Delete` compare the items with. -/
def probe (id : String) : Instance := { instanceId := id, label := some (Finmap.singleton "sourceKey" id) }

variable (cache : SharedCache)

/-- The item of an id: by identity, else by a wire id that exactly one item has. -/
def itemOf (id : String) : Option Ref :=
  match cache.items.find? fun item => decide (keyAt cache.memory item = identityKey (probe id)) with
  | some item => some item
  | none =>
    if Cache.sourceQualified id then none
    else match cache.items.filter fun item => decide (instanceIdAt cache.memory item = some id) with
      | [candidate] => some candidate
      | _ => none

/-- What a call returns, and the memory and the items after it. -/
structure Answer where
  returned : List Ref
  memory : Memory
  items : List Ref

def get (id : String) : Answer :=
  match cache.itemOf id with
  | some item => ⟨(deepCopy cache.memory item).1.toList, (deepCopy cache.memory item).2, cache.items⟩
  | none => ⟨[], cache.memory, cache.items⟩

def delete (id : String) : Answer :=
  match cache.itemOf id with
  | some item =>
    ⟨(deepCopy cache.memory item).1.toList, (deepCopy cache.memory item).2,
      cache.items.filter fun other => decide (keyAt cache.memory other ≠ keyAt cache.memory item)⟩
  | none => ⟨[], cache.memory, cache.items⟩

/-- The loop of `List`. -/
def copyItems (memory : Memory) : List Ref → List Ref × Memory
  | [] => ([], memory)
  | item :: rest =>
    let (copy, memory) := deepCopy memory item
    let (copies, memory) := copyItems memory rest
    (copy.toList ++ copies, memory)

def list : Answer :=
  ⟨(copyItems cache.memory cache.items).1, (copyItems cache.memory cache.items).2, cache.items⟩

/-- `ReplaceOrInsert`; the pointer that it returns is dropped. -/
def replaceOrInsert : Option Ref → Answer
  | none => ⟨[], cache.memory, cache.items⟩
  | some ins =>
    match deepCopy cache.memory ins with
    | (some copy, memory) => ⟨[], memory, SortedStore.place (keyAt memory) copy cache.items⟩
    | (none, memory) => ⟨[], memory, cache.items⟩

def clear : Answer := ⟨[], cache.memory, []⟩

/-! ## Calls and writes -/

inductive Action
  | alloc (object : Object)
  | write (ref : Ref) (object : Object)
  | replaceOrInsert (ins : Option Ref)
  | get (id : String)
  | list
  | delete (id : String)
  | clear

/-- After a call, callers also have all objects of the returned instances. -/
def take (answer : Answer) : SharedCache :=
  ⟨answer.memory, answer.items, cache.callers ++ answer.returned.flatMap (objectsOf answer.memory)⟩

def next : Action → SharedCache
  | .alloc object => ⟨cache.memory.alloc object, cache.items, cache.callers ++ [cache.memory.size]⟩
  | .write ref object => ⟨cache.memory.write ref object, cache.items, cache.callers⟩
  | .replaceOrInsert ins => cache.take (cache.replaceOrInsert ins)
  | .get id => cache.take (cache.get id)
  | .list => cache.take cache.list
  | .delete id => cache.take (cache.delete id)
  | .clear => cache.take cache.clear

/-- Callers only use pointers that they have: they build and write objects with them, and pass instances. -/
def Permits : Action → Prop
  | .alloc object => ∀ ref ∈ object.pointers, ref ∈ cache.callers
  | .write ref object => ref ∈ cache.callers ∧ ∀ other ∈ object.pointers, other ∈ cache.callers
  | .replaceOrInsert ins => ∀ ref ∈ ins, ref ∈ cache.callers ∧ (readInstance cache.memory ref).isSome = true
  | _ => True

def after (run : List Action) : SharedCache := run.foldl next cache

def PermitsRun (cache : SharedCache) : List Action → Prop
  | [] => True
  | action :: rest => cache.Permits action ∧ (cache.next action).PermitsRun rest

/-- A call that only reads, a nil argument, and all that callers do to their own objects. -/
def Action.Passive : Action → Prop
  | .alloc _ => True
  | .write _ _ => True
  | .get _ => True
  | .list => True
  | .replaceOrInsert none => True
  | _ => False

/-- The map by identity that the cache stands for. -/
def stored (key : String) : Option Instance :=
  (cache.items.find? fun item => decide (keyAt cache.memory item = key)).bind (readInstance cache.memory)

/-! ## What callers do not share with the tree -/

/-- The items are instances in increasing order of identity, and callers have none of their objects; what callers have is in
memory and leads only to what they have. -/
structure Sound : Prop where
  readable : ∀ item ∈ cache.items, ∃ ins, readInstance cache.memory item = some ins
  sorted : cache.items.Pairwise fun first second => keyAt cache.memory first < keyAt cache.memory second
  apart : ∀ item ∈ cache.items, ∀ ref ∈ objectsOf cache.memory item, ref ∉ cache.callers
  present : ∀ ref ∈ cache.callers, ref < cache.memory.size
  closed : ∀ ref ∈ cache.callers, ∀ object, cache.memory.read ref = some object → ∀ other ∈ object.pointers, other ∈ cache.callers

/-- Every item reads in another memory as it did. -/
def Preserves : Prop :=
  ∀ item ∈ cache.items, readInstance memory item = readInstance cache.memory item ∧
    objectsOf memory item = objectsOf cache.memory item

variable {cache : SharedCache} {memory : Memory} {item : Ref} {ins : Instance} {ref : Ref}

section Preserves

theorem Sound.extends (sound : cache.Sound) (extension : cache.memory.Extends memory) : cache.Preserves memory := by
  intro item member
  obtain ⟨ins, found⟩ := sound.readable item member
  obtain ⟨read, objects⟩ := readInstance_extends extension found
  exact ⟨read.trans found.symm, objects⟩

/-- A caller's write does not reach an item. -/
theorem Sound.write (sound : cache.Sound) (held : ref ∈ cache.callers) (object : Object) :
    cache.Preserves (cache.memory.write ref object) := by
  intro item member
  refine readInstance_congr fun query among => Heap.read_write_of_ne object ?_
  rintro rfl
  exact sound.apart item member ref among held

section

variable (preserves : cache.Preserves memory)

include preserves

theorem Preserves.keyAt (member : item ∈ cache.items) :
    keyAt memory item = keyAt cache.memory item := by
  rw [SharedCache.keyAt, (preserves item member).1]
  rfl

theorem Preserves.readable (sound : cache.Sound) :
    ∀ item ∈ cache.items, ∃ ins, readInstance memory item = some ins := by
  intro item member
  rw [(preserves item member).1]
  exact sound.readable item member

theorem Preserves.sorted (sound : cache.Sound) :
    cache.items.Pairwise fun first second => SharedCache.keyAt memory first < SharedCache.keyAt memory second := by
  refine sound.sorted.imp_of_mem fun firstMember secondMember below => ?_
  rwa [preserves.keyAt firstMember, preserves.keyAt secondMember]

theorem Preserves.stored (callers : List Ref) (key : String) :
    SharedCache.stored ⟨memory, cache.items, callers⟩ key = cache.stored key := by
  have same : (cache.items.find? fun item => decide (SharedCache.keyAt memory item = key)) =
      cache.items.find? fun item => decide (SharedCache.keyAt cache.memory item = key) := by
    rw [← List.head?_filter, ← List.head?_filter]
    exact congrArg _ (List.filter_congr fun item member => by rw [preserves.keyAt member])
  rw [SharedCache.stored, SharedCache.stored, same]
  cases found : cache.items.find? fun item => decide (SharedCache.keyAt cache.memory item = key) with
  | none => rfl
  | some item => exact (preserves item (List.mem_of_find?_eq_some found)).1

end

end Preserves

variable {items : List Ref}

section Steps

variable (sound : cache.Sound)

include sound

/-- The memory grew, items were dropped or are new instances, and callers got new objects. -/
theorem Sound.update {got : List Ref} (extension : cache.memory.Extends memory)
    (sorted : items.Pairwise fun first second => keyAt memory first < keyAt memory second)
    (origin : ∀ item ∈ items, item ∈ cache.items ∨ (∃ ins, readInstance memory item = some ins) ∧
      ∀ ref ∈ objectsOf memory item, cache.memory.size ≤ ref ∧ ref ∉ got)
    (new : ∀ ref ∈ got, cache.memory.size ≤ ref ∧ ref < memory.size)
    (leads : ∀ ref ∈ got, ∀ object, memory.read ref = some object → ∀ other ∈ object.pointers, other ∈ cache.callers ++ got) :
    Sound ⟨memory, items, cache.callers ++ got⟩ := by
  have preserves := sound.extends extension
  refine ⟨?_, sorted, ?_, ?_, ?_⟩
  · intro item member
    exact (origin item member).elim (preserves.readable sound item) And.left
  · intro item member ref among held
    rcases origin item member with kept | ⟨_, fresh⟩
    · rw [(preserves item kept).2] at among
      rcases List.mem_append.mp held with before | given
      · exact sound.apart item kept ref among before
      · obtain ⟨ins, found⟩ := sound.readable item kept
        exact absurd (readInstance_bound found ref among) (new ref given).1.not_gt
    · rcases List.mem_append.mp held with before | given
      · exact absurd (sound.present ref before) (fresh ref among).1.not_gt
      · exact (fresh ref among).2 given
  · intro ref held
    rcases List.mem_append.mp held with before | given
    · exact (sound.present ref before).trans_le extension.size_le
    · exact (new ref given).2
  · intro ref held object read other pointer
    rcases List.mem_append.mp held with before | given
    · rw [extension.read_eq (sound.present ref before)] at read
      exact List.mem_append_left _ (sound.closed ref before object read other pointer)
    · exact leads ref given object read other pointer

/-- Callers got new instances. -/
theorem Sound.take {answer : Answer} (extension : cache.memory.Extends answer.memory) (kept : answer.items.Sublist cache.items)
    (copies : ∀ copy ∈ answer.returned, (∃ ins, readInstance answer.memory copy = some ins) ∧
      ∀ ref ∈ objectsOf answer.memory copy, cache.memory.size ≤ ref) : (cache.take answer).Sound := by
  refine sound.update extension (((sound.extends extension).sorted sound).sublist kept) (fun _ m => .inl (kept.subset m)) ?_ ?_
  · intro ref got
    obtain ⟨copy, given, inside⟩ := List.mem_flatMap.mp got
    obtain ⟨⟨ins, found⟩, fresh⟩ := copies copy given
    exact ⟨fresh ref inside, readInstance_bound found ref inside⟩
  · intro ref got object read other pointer
    obtain ⟨copy, given, inside⟩ := List.mem_flatMap.mp got
    obtain ⟨ins, found⟩ := (copies copy given).1
    exact List.mem_append_right _ (List.mem_flatMap.mpr ⟨copy, given, objectsOf_closed found ref inside object read other pointer⟩)

theorem Sound.alloc {object : Object} (held : ∀ ref ∈ object.pointers, ref ∈ cache.callers) :
    Sound ⟨cache.memory.alloc object, cache.items, cache.callers ++ [cache.memory.size]⟩ := by
  have extension := Heap.extends_alloc cache.memory object
  refine sound.update extension ((sound.extends extension).sorted sound) (fun _ => .inl) ?_ ?_
  · intro ref new
    rw [List.mem_singleton.mp new, Heap.size_alloc]
    exact ⟨Nat.le_refl _, Nat.lt_succ_self _⟩
  · intro ref new content read other pointer
    rw [List.mem_singleton.mp new, Heap.read_alloc_size] at read
    cases read
    exact List.mem_append_left _ (held other pointer)

theorem Sound.written {object : Object} (owned : ref ∈ cache.callers) (held : ∀ other ∈ object.pointers, other ∈ cache.callers) :
    Sound ⟨cache.memory.write ref object, cache.items, cache.callers⟩ := by
  have preserves := sound.write owned object
  refine ⟨preserves.readable sound, preserves.sorted sound, ?_, ?_, ?_⟩
  · intro item member query among
    rw [(preserves item member).2] at among
    exact sound.apart item member query among
  · intro query got
    rw [Heap.size_write]
    exact sound.present query got
  · intro query got content read other pointer
    by_cases same : ref = query
    · rw [← same, Heap.read_write_self object (sound.present ref owned)] at read
      cases read
      exact held other pointer
    · rw [Heap.read_write_of_ne object same] at read
      exact sound.closed query got content read other pointer

/-- The tree got an item of its own. -/
theorem Sound.placed {copy : Ref} (extension : cache.memory.Extends memory)
    (read : readInstance memory copy = some ins) (fresh : ∀ ref ∈ objectsOf memory copy, cache.memory.size ≤ ref) :
    Sound ⟨memory, SortedStore.place (keyAt memory) copy cache.items, cache.callers⟩ := by
  have sorted := (sound.extends extension).sorted sound
  rw [← List.append_nil cache.callers]
  refine sound.update extension (SortedStore.place_sorted sorted) ?_ (List.forall_mem_nil _) (List.forall_mem_nil _)
  intro item member
  rcases (SortedStore.mem_place sorted).mp member with rfl | ⟨before, _⟩
  · exact .inr ⟨⟨ins, read⟩, fun ref among => ⟨fresh ref among, List.not_mem_nil⟩⟩
  · exact .inl before

end Steps

/-! ## What the methods return -/

theorem identityKey_probe (id : String) : identityKey (probe id) = id := by
  have label : (probe id).labelValue "sourceKey" = id := by
    rw [Instance.labelValue, probe, Option.getD_some, Finmap.lookup_singleton_eq, Option.getD_some]
  have keyless : (probe id).sourceKey = "" := rfl
  have unnamed : (probe id).provider = "" := rfl
  rw [identityKey, if_neg (not_not.mpr keyless), label, if_pos unnamed]
  exact ite_eq_left_iff.mpr fun _ => rfl

theorem keyAt_of_read (read : readInstance memory item = some ins) :
    keyAt memory item = identityKey ins := by
  rw [keyAt, read]
  rfl

/-- An instance in a larger memory that consists of new objects. -/
structure Copied (memory larger : Memory) (ins : Instance) (copy : Ref) : Prop where
  extension : memory.Extends larger
  read : readInstance larger copy = some ins
  fresh : ∀ ref ∈ objectsOf larger copy, memory.size ≤ ref

theorem deepCopy_spec (read : readInstance memory item = some ins) :
    ∃ copy larger, deepCopy memory item = (some copy, larger) ∧ Copied memory larger ins copy := by
  obtain ⟨stored, again⟩ := storeInstance_stores memory ins
  exact ⟨_, _, by rw [deepCopy, read], stored.extension, again, stored.fresh⟩

/-- The copies read as the items do, in their order. -/
theorem copyItems_spec {values : List Instance}
    (read : List.Forall₂ (fun item ins => readInstance memory item = some ins) items values) :
    memory.Extends (copyItems memory items).2 ∧
      List.Forall₂ (fun copy ins => readInstance (copyItems memory items).2 copy = some ins ∧
        ∀ ref ∈ objectsOf (copyItems memory items).2 copy, memory.size ≤ ref) (copyItems memory items).1 values := by
  induction items generalizing memory values with
  | nil =>
    cases read
    exact ⟨.refl memory, .nil⟩
  | cons item rest ih =>
    cases read with
    | cons first others =>
      obtain ⟨copy, larger, copied, extension, again, fresh⟩ := deepCopy_spec first
      obtain ⟨later, copies⟩ := ih (others.imp fun _ _ found => (readInstance_extends extension found).1)
      obtain ⟨kept, objects⟩ := readInstance_extends later again
      simp only [copyItems, copied, Option.toList_some, List.singleton_append]
      refine ⟨extension.trans later, .cons ⟨kept, ?_⟩ ?_⟩
      · rw [objects]
        exact fresh
      · refine copies.imp fun _ _ found => ⟨found.1, fun ref among => ?_⟩
        exact extension.size_le.trans (found.2 ref among)

/-- An id that is a stored identity stands for its item. -/
theorem itemOf_stored {id : String} (held : cache.stored id = some ins) :
    ∃ item ∈ cache.items, cache.itemOf id = some item ∧ readInstance cache.memory item = some ins := by
  rw [stored, Option.bind_eq_some_iff] at held
  obtain ⟨item, found, read⟩ := held
  refine ⟨item, List.mem_of_find?_eq_some found, ?_, read⟩
  rw [itemOf, identityKey_probe, found]

theorem filter_eq_singleton_iff {α : Type} {l : List α} (distinct : l.Nodup) {p : α → Prop} [DecidablePred p] {a : α} :
    (l.filter fun b => decide (p b)) = [a] ↔ ∀ b, b ∈ l ∧ p b ↔ b = a := by
  rw [← List.perm_singleton, List.perm_ext_iff_of_nodup (distinct.filter _) (List.nodup_singleton a)]
  simp only [List.mem_filter, decide_eq_true_eq, List.mem_singleton]

variable {key : String}

section Sound

variable (sound : cache.Sound)

include sound

/-- The map has the instances of the items. -/
theorem Sound.stored_eq_some_iff : cache.stored key = some ins ↔
      ∃ item ∈ cache.items, keyAt cache.memory item = key ∧ readInstance cache.memory item = some ins := by
  let tree : SortedStore (keyAt cache.memory) := ⟨cache.items, sound.sorted⟩
  have found : ∀ item, tree.find key = some item ↔ item ∈ cache.items ∧ keyAt cache.memory item = key :=
    fun item => SortedStore.find_eq_some_iff
  rw [stored, Option.bind_eq_some_iff]
  constructor
  · rintro ⟨item, among, read⟩
    obtain ⟨member, own⟩ := (found item).mp among
    exact ⟨item, member, own, read⟩
  · rintro ⟨item, member, own, read⟩
    exact ⟨item, (found item).mpr ⟨member, own⟩, read⟩

theorem Sound.identityKey_of_stored (held : cache.stored key = some ins) : identityKey ins = key := by
  obtain ⟨item, _, own, read⟩ := sound.stored_eq_some_iff.mp held
  rw [← own, keyAt_of_read read]

theorem Sound.items_read : ∃ values, List.Forall₂ (fun item ins => readInstance cache.memory item = some ins) cache.items values := by
  have readable := sound.readable
  generalize cache.items = items at readable
  induction items with
  | nil => exact ⟨[], .nil⟩
  | cons item rest ih =>
    rw [List.forall_mem_cons] at readable
    obtain ⟨⟨ins, first⟩, others⟩ := readable
    obtain ⟨values, read⟩ := ih others
    exact ⟨ins :: values, .cons first read⟩

theorem Sound.items_nodup : cache.items.Nodup := sound.sorted.imp fun below same => (same ▸ below).false

theorem Sound.item_eq {first second : Ref} (firstMember : first ∈ cache.items) (secondMember : second ∈ cache.items)
    (same : keyAt cache.memory first = keyAt cache.memory second) : first = second := by
  let tree : SortedStore (keyAt cache.memory) := ⟨cache.items, sound.sorted⟩
  exact List.inj_on_of_nodup_map tree.keys_nodup firstMember secondMember same

theorem Sound.find_eq_none {id : String} (missing : cache.stored id = none) :
    (cache.items.find? fun item => decide (keyAt cache.memory item = identityKey (probe id))) = none := by
  rw [identityKey_probe]
  rw [stored] at missing
  cases found : cache.items.find? fun item => decide (keyAt cache.memory item = id) with
  | none => rfl
  | some item =>
    obtain ⟨ins, read⟩ := sound.readable item (List.mem_of_find?_eq_some found)
    rw [found, Option.bind_some, read] at missing
    cases missing

theorem Sound.itemOf_qualified {id : String} (missing : cache.stored id = none) (qualified : Cache.sourceQualified id = true) :
    cache.itemOf id = none := by
  rw [itemOf, sound.find_eq_none missing]
  exact if_pos qualified

omit sound in
/-- The only stored instance with a wire id. -/
def Sole (cache : SharedCache) (id : String) (ins : Instance) : Prop :=
  cache.stored (identityKey ins) = some ins ∧ ins.instanceId = id ∧
    ∀ key other, cache.stored key = some other → other.instanceId = id → other = ins

theorem Sound.candidates_eq_iff {id : String} (read : readInstance cache.memory item = some ins) :
    (cache.items.filter fun item => decide (instanceIdAt cache.memory item = some id)) = [item] ↔
      item ∈ cache.items ∧ cache.Sole id ins := by
  have wire : ∀ {other value}, readInstance cache.memory other = some value →
      (instanceIdAt cache.memory other = some id ↔ value.instanceId = id) := by
    intro other value found
    rw [instanceIdAt, found, Option.map_some, Option.some_inj]
  rw [filter_eq_singleton_iff sound.items_nodup]
  constructor
  · intro matched
    obtain ⟨member, own⟩ := (matched item).mpr rfl
    refine ⟨member, sound.stored_eq_some_iff.mpr ⟨item, member, keyAt_of_read read, read⟩, (wire read).mp own, ?_⟩
    intro key other held same
    obtain ⟨place, among, _, found⟩ := sound.stored_eq_some_iff.mp held
    obtain rfl := (matched place).mp ⟨among, (wire found).mpr same⟩
    rw [read] at found
    exact (Option.some.inj found).symm
  · rintro ⟨member, held, own, only⟩ other
    constructor
    · rintro ⟨among, same⟩
      obtain ⟨value, found⟩ := sound.readable other among
      have equal := only _ value (sound.stored_eq_some_iff.mpr ⟨other, among, rfl, found⟩) ((wire found).mp same)
      rw [equal] at found
      exact sound.item_eq among member ((keyAt_of_read found).trans (keyAt_of_read read).symm)
    · rintro rfl
      exact ⟨member, (wire read).mpr own⟩

/-- Any other id stands for an item only if it is the wire id of exactly one. -/
theorem Sound.itemOf_sole {id : String} (missing : cache.stored id = none)
    (unqualified : Cache.sourceQualified id = false) (sole : cache.Sole id ins) :
    ∃ item ∈ cache.items, cache.itemOf id = some item ∧ readInstance cache.memory item = some ins := by
  obtain ⟨item, member, _, read⟩ := sound.stored_eq_some_iff.mp sole.1
  refine ⟨item, member, ?_, read⟩
  rw [itemOf, sound.find_eq_none missing]
  simp only [unqualified, Bool.false_eq_true, ↓reduceIte, (sound.candidates_eq_iff read).mpr ⟨member, sole⟩]

theorem Sound.itemOf_ambiguous {id : String} (missing : cache.stored id = none) (unqualified : Cache.sourceQualified id = false)
    (many : ¬∃ ins, cache.Sole id ins) : cache.itemOf id = none := by
  rw [itemOf, sound.find_eq_none missing]
  simp only [unqualified, Bool.false_eq_true, ↓reduceIte]
  split
  · next candidate only =>
    have member : candidate ∈ cache.items := List.mem_of_mem_filter (only ▸ List.mem_singleton_self candidate)
    obtain ⟨ins, read⟩ := sound.readable candidate member
    exact absurd ⟨ins, ((sound.candidates_eq_iff read).mp only).2⟩ many
  · rfl

end Sound

theorem exists_of_forall₂ {α β : Type} {R : α → β → Prop} {xs : List α} {ys : List β} (related : List.Forall₂ R xs ys) :
    ∀ x ∈ xs, ∃ y ∈ ys, R x y := by
  induction related with
  | nil => exact List.forall_mem_nil _
  | cons first _ ih =>
    refine List.forall_mem_cons.mpr ⟨⟨_, List.mem_cons_self, first⟩, fun x member => ?_⟩
    obtain ⟨y, among, related⟩ := ih x member
    exact ⟨y, List.mem_cons_of_mem _ among, related⟩

theorem itemOf_mem {id : String} (found : cache.itemOf id = some item) : item ∈ cache.items := by
  rw [itemOf] at found
  split at found
  · next own =>
    cases found
    exact List.mem_of_find?_eq_some own
  · split_ifs at found
    split at found
    · next only =>
      cases found
      exact List.mem_of_mem_filter (only ▸ List.mem_singleton_self item)
    · cases found

/-- The one returned pointer leads to the instance. -/
def Answer.Returns (answer : Answer) (ins : Instance) : Prop :=
  ∃ copy, answer.returned = [copy] ∧ readInstance answer.memory copy = some ins

section Calls

variable {id : String}

/-- Both calls with an id return the same copy of its item, and deleting takes the item out of the tree. -/
theorem calls_found (found : cache.itemOf id = some item) (read : readInstance cache.memory item = some ins) :
    ∃ copy larger, Copied cache.memory larger ins copy ∧ cache.get id = ⟨[copy], larger, cache.items⟩ ∧ cache.delete id =
      ⟨[copy], larger, cache.items.filter fun other => decide (keyAt cache.memory other ≠ keyAt cache.memory item)⟩ := by
  obtain ⟨copy, larger, copied, rest⟩ := deepCopy_spec read
  refine ⟨copy, larger, rest, ?_, ?_⟩
  · simp only [get, found, copied, Option.toList_some]
  · simp only [delete, found, copied, Option.toList_some]

theorem calls_missing (missing : cache.itemOf id = none) :
    cache.get id = ⟨[], cache.memory, cache.items⟩ ∧ cache.delete id = ⟨[], cache.memory, cache.items⟩ := by
  rw [get, delete, missing]
  exact ⟨rfl, rfl⟩

theorem replaceOrInsert_found (read : readInstance cache.memory ref = some ins) :
    ∃ copy larger, cache.replaceOrInsert (some ref) = ⟨[], larger, SortedStore.place (keyAt larger) copy cache.items⟩ ∧
      Copied cache.memory larger ins copy := by
  obtain ⟨copy, larger, copied, rest⟩ := deepCopy_spec read
  exact ⟨copy, larger, by simp only [replaceOrInsert, copied], rest⟩

end Calls

theorem Sound.unchanged (sound : cache.Sound) : (cache.take ⟨[], cache.memory, cache.items⟩).Sound :=
  sound.take (.refl cache.memory) (.refl cache.items) (List.forall_mem_nil _)

/-- Every permitted action keeps the callers and the tree apart. -/
theorem Sound.next (sound : cache.Sound) {action : Action} (permitted : cache.Permits action) :
    (cache.next action).Sound := by
  cases action with
  | alloc object => exact sound.alloc permitted
  | write ref object => exact sound.written permitted.1 permitted.2
  | replaceOrInsert ins =>
    cases ins with
    | none => exact sound.unchanged
    | some ref =>
      obtain ⟨_, readable⟩ := permitted ref rfl
      obtain ⟨ins, read⟩ := Option.isSome_iff_exists.mp readable
      obtain ⟨copy, larger, done, extension, again, fresh⟩ := replaceOrInsert_found read
      rw [SharedCache.next, done, SharedCache.take, List.flatMap_nil, List.append_nil]
      exact sound.placed extension again fresh
  | get id =>
    rw [SharedCache.next]
    cases found : cache.itemOf id with
    | none =>
      rw [(calls_missing found).1]
      exact sound.unchanged
    | some item =>
      obtain ⟨ins, read⟩ := sound.readable item (itemOf_mem found)
      obtain ⟨copy, larger, ⟨extension, again, fresh⟩, got, _⟩ := calls_found found read
      rw [got]
      exact sound.take extension (.refl cache.items) (List.forall_mem_singleton.mpr ⟨⟨ins, again⟩, fresh⟩)
  | list =>
    obtain ⟨values, read⟩ := sound.items_read
    obtain ⟨extension, copies⟩ := copyItems_spec read
    refine sound.take extension (.refl cache.items) fun copy given => ?_
    obtain ⟨ins, _, again, fresh⟩ := exists_of_forall₂ copies copy given
    exact ⟨⟨ins, again⟩, fresh⟩
  | delete id =>
    rw [SharedCache.next]
    cases found : cache.itemOf id with
    | none =>
      rw [(calls_missing found).2]
      exact sound.unchanged
    | some item =>
      obtain ⟨ins, read⟩ := sound.readable item (itemOf_mem found)
      obtain ⟨copy, larger, ⟨extension, again, fresh⟩, _, deleted⟩ := calls_found found read
      rw [deleted]
      exact sound.take extension List.filter_sublist (List.forall_mem_singleton.mpr ⟨⟨ins, again⟩, fresh⟩)
  | clear => exact sound.take (.refl cache.memory) (List.nil_sublist _) (List.forall_mem_nil _)

/-! ## The map -/

section Map

variable (sound : cache.Sound)

include sound

/-- A step that keeps the items and what they read as keeps the map. -/
theorem Sound.stored_take (extension : cache.memory.Extends memory) (returned : List Ref) :
    (cache.take ⟨returned, memory, cache.items⟩).stored = cache.stored :=
  funext fun key => (sound.extends extension).stored _ key

/-- A step that changes only the items of one identity changes only its entry. -/
theorem Sound.stored_update {callers : List Ref} {value : Option Instance}
    (later : Sound ⟨memory, items, callers⟩) (preserves : cache.Preserves memory)
    (others : ∀ item, keyAt memory item ≠ key → (item ∈ items ↔ item ∈ cache.items))
    (own : ∀ ins, (∃ item ∈ items, keyAt memory item = key ∧ readInstance memory item = some ins) ↔ value = some ins) :
    stored ⟨memory, items, callers⟩ = Function.update cache.stored key value := by
  funext query
  refine Option.ext fun ins => ?_
  rw [later.stored_eq_some_iff, Function.update_apply]
  split_ifs with same
  · rw [same]
    exact own ins
  · rw [sound.stored_eq_some_iff]
    constructor
    · rintro ⟨item, member, rfl, found⟩
      have before := (others item same).mp member
      rw [(preserves item before).1] at found
      exact ⟨item, before, (preserves.keyAt before).symm, found⟩
    · rintro ⟨item, before, rfl, found⟩
      rw [← preserves.keyAt before] at same ⊢
      rw [← (preserves item before).1] at found
      exact ⟨item, (others item same).mpr before, rfl, found⟩

theorem Sound.stored_replaceOrInsert (permitted : cache.Permits (.replaceOrInsert (some ref)))
    (read : readInstance cache.memory ref = some ins) :
    (cache.next (.replaceOrInsert (some ref))).stored = Function.update cache.stored (identityKey ins) (some ins) := by
  have later := sound.next permitted
  obtain ⟨copy, larger, done, extension, again, _⟩ := replaceOrInsert_found read
  rw [SharedCache.next, done] at later ⊢
  have preserves := sound.extends extension
  have placed {item : Ref} := @SortedStore.mem_place _ _ _ (keyAt larger) copy _ (preserves.sorted sound) item
  have own := keyAt_of_read again
  refine sound.stored_update later preserves (fun item other => ?_) fun value => ⟨?_, ?_⟩
  · rw [placed, own]
    exact ⟨fun member => (member.resolve_left fun same => other (same ▸ own)).1, fun before => .inr ⟨before, other⟩⟩
  · rintro ⟨item, member, same, found⟩
    rcases placed.mp member with rfl | ⟨_, apart⟩
    · exact again.symm.trans found
    · exact absurd (same.trans own.symm) apart
  · rintro ⟨⟩
    exact ⟨copy, placed.mpr (.inl rfl), own, again⟩

/-- Deleting the item of an id takes exactly its entry out of the map. -/
theorem Sound.stored_delete {id : String} (found : cache.itemOf id = some item)
    (read : readInstance cache.memory item = some ins) :
    (cache.next (.delete id)).stored = Function.update cache.stored (identityKey ins) none := by
  have later : (cache.next (.delete id)).Sound := sound.next trivial
  obtain ⟨copy, larger, ⟨extension, _, _⟩, _, deleted⟩ := calls_found found read
  rw [SharedCache.next, deleted] at later ⊢
  have preserves := sound.extends extension
  refine sound.stored_update later preserves (fun other different => ?_) fun value => ⟨?_, fun empty => absurd empty.symm (Option.some_ne_none value)⟩
  · rw [List.mem_filter, decide_eq_true_eq, keyAt_of_read read]
    exact ⟨And.left, fun before => ⟨before, preserves.keyAt before ▸ different⟩⟩
  · rintro ⟨other, member, same, _⟩
    obtain ⟨before, apart⟩ := List.mem_filter.mp member
    exact absurd ((preserves.keyAt before).symm.trans (same.trans (keyAt_of_read read).symm)) (of_decide_eq_true apart)

theorem Sound.stored_passive {action : Action} (permitted : cache.Permits action) (passive : action.Passive) :
    (cache.next action).stored = cache.stored := by
  cases action with
  | alloc object => exact funext fun key => (sound.extends (Heap.extends_alloc cache.memory object)).stored _ key
  | write ref object => exact funext fun key => (sound.write permitted.1 object).stored _ key
  | replaceOrInsert ins =>
    cases ins with
    | none => exact sound.stored_take (.refl cache.memory) []
    | some ref => exact passive.elim
  | get id =>
    rw [SharedCache.next]
    cases found : cache.itemOf id with
    | none =>
      rw [(calls_missing found).1]
      exact sound.stored_take (.refl cache.memory) []
    | some item =>
      obtain ⟨ins, read⟩ := sound.readable item (itemOf_mem found)
      obtain ⟨copy, larger, copied, got, _⟩ := calls_found found read
      rw [got]
      exact sound.stored_take copied.extension [copy]
  | list =>
    obtain ⟨values, read⟩ := sound.items_read
    exact sound.stored_take (copyItems_spec read).1 _
  | delete id | clear => exact passive.elim

end Map

/-! ## Whole runs -/

theorem Sound.after (sound : cache.Sound) {run : List Action} (permitted : cache.PermitsRun run) :
    (cache.after run).Sound := by
  induction run generalizing cache with
  | nil => exact sound
  | cons action rest ih => exact ih (sound.next permitted.1) permitted.2

/-- A new cache: the tree is empty, and what callers have is in memory and leads only to what they have. -/
structure IsNew (cache : SharedCache) : Prop where
  empty : cache.items = []
  present : ∀ ref ∈ cache.callers, ref < cache.memory.size
  closed : ∀ ref ∈ cache.callers, ∀ object, cache.memory.read ref = some object → ∀ other ∈ object.pointers, other ∈ cache.callers

theorem IsNew.sound (new : cache.IsNew) : cache.Sound := by
  have none : ∀ item, item ∉ cache.items := by
    rw [new.empty]
    exact fun item => List.not_mem_nil
  refine ⟨fun item member => absurd member (none item), ?_, fun item member => absurd member (none item), new.present, new.closed⟩
  rw [new.empty]
  exact .nil

/-- The call returns a copy of the instance, or nothing, and deleting takes exactly that entry out of the map. -/
structure ActsOn (cache : SharedCache) (id : String) (target : Option Instance) : Prop where
  got : ∀ ins ∈ target, (cache.get id).Returns ins ∧ (cache.delete id).Returns ins
  missed : target = none → (cache.get id).returned = [] ∧ (cache.delete id).returned = []
  removed : (cache.next (.delete id)).stored =
    (target.map fun ins => Function.update cache.stored (identityKey ins) none).getD cache.stored

theorem Sound.actsOn_found (sound : cache.Sound) {id : String}
    (found : cache.itemOf id = some item) (read : readInstance cache.memory item = some ins) : cache.ActsOn id (some ins) where
  got := by
    rintro _ ⟨⟩
    obtain ⟨copy, larger, copied, got, deleted⟩ := calls_found found read
    rw [got, deleted]
    exact ⟨⟨copy, rfl, copied.read⟩, ⟨copy, rfl, copied.read⟩⟩
  missed impossible := absurd impossible (Option.some_ne_none ins)
  removed := sound.stored_delete found read

theorem Sound.actsOn_missing (sound : cache.Sound) {id : String} (missing : cache.itemOf id = none) : cache.ActsOn id none where
  got _ impossible := absurd impossible (Option.not_mem_none _)
  missed _ := by
    rw [(calls_missing missing).1, (calls_missing missing).2]
    exact ⟨rfl, rfl⟩
  removed := by
    rw [SharedCache.next, (calls_missing missing).2]
    exact sound.stored_take (.refl cache.memory) []

/-- What the cache does at a point of a run, in terms of the map it stands for. -/
structure RefinesMap (cache : SharedCache) : Prop where
  listed : ∃ values, List.Forall₂ (fun copy ins => readInstance cache.list.memory copy = some ins) cache.list.returned values ∧
    values.Pairwise (fun first second => identityKey first < identityKey second) ∧
      ∀ ins, ins ∈ values ↔ cache.stored (identityKey ins) = some ins
  keyed : ∀ key ins, cache.stored key = some ins → identityKey ins = key
  inserted : ∀ ref ∈ cache.callers, ∀ ins, readInstance cache.memory ref = some ins →
    (cache.next (.replaceOrInsert (some ref))).stored = Function.update cache.stored (identityKey ins) (some ins)
  byIdentity : ∀ id ins, cache.stored id = some ins → cache.ActsOn id (some ins)
  byQualifiedID : ∀ id, cache.stored id = none → Cache.sourceQualified id = true → cache.ActsOn id none
  byWireID : ∀ id, cache.stored id = none → Cache.sourceQualified id = false →
    (∀ ins, cache.Sole id ins → cache.ActsOn id (some ins)) ∧ ((¬∃ ins, cache.Sole id ins) → cache.ActsOn id none)
  cleared : (cache.next .clear).stored = fun _ => none
  passive : ∀ action, cache.Permits action → action.Passive → (cache.next action).stored = cache.stored
  passed : ∀ ref ∈ cache.callers, ∀ ins, readInstance cache.memory ref = some ins →
    ∀ query ∈ objectsOf cache.memory ref, query ∈ cache.callers
  returned : ∀ answer : Answer, ∀ copy ∈ answer.returned, ∀ query ∈ objectsOf answer.memory copy, query ∈ (cache.take answer).callers
  retained : ∀ action, cache.callers ⊆ (cache.next action).callers

theorem Sound.listed (sound : cache.Sound) :
    ∃ values, List.Forall₂ (fun copy ins => readInstance cache.list.memory copy = some ins) cache.list.returned values ∧
      values.Pairwise (fun first second => identityKey first < identityKey second) ∧
        ∀ ins, ins ∈ values ↔ cache.stored (identityKey ins) = some ins := by
  obtain ⟨values, read⟩ := sound.items_read
  have keys : ∀ {items values}, List.Forall₂ (fun item ins => readInstance cache.memory item = some ins) items values →
      values.map identityKey = items.map (keyAt cache.memory) := by
    intro items values related
    induction related with
    | nil => rfl
    | cons first _ ih => rw [List.map_cons, List.map_cons, ih, keyAt_of_read first]
  refine ⟨values, (copyItems_spec read).2.imp fun _ _ found => found.1, ?_, ?_⟩
  · rw [← List.pairwise_map, keys read, List.pairwise_map]
    exact sound.sorted
  · intro ins
    rw [sound.stored_eq_some_iff]
    constructor
    · intro member
      obtain ⟨item, among, found⟩ := exists_of_forall₂ read.flip ins member
      exact ⟨item, among, keyAt_of_read found, found⟩
    · rintro ⟨item, among, _, found⟩
      obtain ⟨value, member, same⟩ := exists_of_forall₂ read item among
      rw [found] at same
      exact Option.some.inj same ▸ member

/-- In every run of a new cache, in which callers use only what they have, the cache acts as a map by identity and callers never
change it by what they do to the instances that they passed or got. -/
theorem cache_refines_map (new : cache.IsNew) {run : List Action} (permitted : cache.PermitsRun run) :
    (cache.after run).RefinesMap := by
  have sound := new.sound.after permitted
  generalize cache.after run = cache at sound
  exact {
    listed := sound.listed
    keyed := fun key ins held => sound.identityKey_of_stored held
    inserted := by
      intro ref held ins read
      refine sound.stored_replaceOrInsert ?_ read
      rintro _ ⟨⟩
      exact ⟨held, by rw [read]; rfl⟩
    byIdentity := by
      intro id ins held
      obtain ⟨item, _, found, read⟩ := itemOf_stored held
      exact sound.actsOn_found found read
    byQualifiedID := fun id missing qualified => sound.actsOn_missing (sound.itemOf_qualified missing qualified)
    byWireID := by
      intro id missing unqualified
      refine ⟨?_, fun many => sound.actsOn_missing (sound.itemOf_ambiguous missing unqualified many)⟩
      intro ins sole
      obtain ⟨item, _, found, read⟩ := sound.itemOf_sole missing unqualified sole
      exact sound.actsOn_found found read
    cleared := rfl
    passive := fun action permitted passive => sound.stored_passive permitted passive
    passed := fun ref held ins read => objectsOf_subset sound.closed held read
    returned := fun answer copy given query among => List.mem_append_right _ (List.mem_flatMap.mpr ⟨copy, given, among⟩)
    retained := by
      intro action ref held
      cases action with
      | write => exact held
      | _ => exact List.mem_append_left _ held }

/-- The cache in memory does what the cache of values does. -/
theorem RefinesMap.exists_view (refines : cache.RefinesMap) :
    ∃ view : Cache, view.find = cache.stored ∧ ∀ id, cache.ActsOn id (view.get id) := by
  obtain ⟨values, _, sorted, mem_values⟩ := refines.listed
  let view : Cache := ⟨values, sorted⟩
  have find : view.find = cache.stored := by
    funext key
    refine Option.ext fun ins => ?_
    rw [SortedStore.find_eq_some_iff]
    constructor
    · rintro ⟨member, rfl⟩
      exact (mem_values ins).mp member
    · intro held
      obtain rfl := refines.keyed key ins held
      exact ⟨(mem_values ins).mpr held, rfl⟩
  refine ⟨view, find, fun id => ?_⟩
  cases held : cache.stored id with
  | some ins =>
    rw [Cache.get_of_find (find ▸ held)]
    exact refines.byIdentity id ins held
  | none =>
    have missing : view.find id = none := find ▸ held
    by_cases qualified : Cache.sourceQualified id = true
    · rw [Cache.get_qualified qualified, missing]
      exact refines.byQualifiedID id held qualified
    · obtain ⟨sole, many⟩ := refines.byWireID id held (Bool.not_eq_true _ ▸ qualified)
      have distinct : values.Nodup := sorted.imp fun below same => (same ▸ below).false
      rw [Cache.get, missing]
      simp only [if_neg qualified]
      split
      · next only matching =>
        have matched := (filter_eq_singleton_iff distinct).mp matching
        obtain ⟨member, own⟩ := (matched only).mpr rfl
        refine sole only ⟨(mem_values only).mp member, own, ?_⟩
        intro key other stored same
        obtain rfl := refines.keyed key other stored
        exact (matched other).mp ⟨(mem_values other).mpr stored, same⟩
      · next several =>
        refine many ?_
        rintro ⟨ins, stored, own, only⟩
        refine several ins ((filter_eq_singleton_iff distinct).mpr fun other => ?_)
        rw [mem_values]
        constructor
        · rintro ⟨present, same⟩
          exact only _ other present same
        · rintro rfl
          exact ⟨stored, own⟩

/-- A caller with an instance that has one map. -/
def oneCaller : SharedCache where
  memory := ⟨[.map ∅, .inst (({ sourceKey := "dc1/web-1", instanceId := "web-1" } : Instance).record none (some 0) none)]⟩
  callers := [0, 1]

/-- The instance is cached, and then overwritten by the caller. -/
def overwritingRun : List Action :=
  [.replaceOrInsert (some 1), .write 1 (.inst (({ instanceId := "other" } : Instance).record none none none)), .get "web-1"]

theorem overwritten_argument_stays_cached : (oneCaller.after overwritingRun).RefinesMap ∧
      ((oneCaller.after overwritingRun).stored "dc1/web-1").map (·.instanceId) = some "web-1" := by
  have new : oneCaller.IsNew := by
    refine ⟨rfl, by decide, ?_⟩
    intro ref held object read other pointer
    simp only [oneCaller, List.mem_cons, List.not_mem_nil, or_false] at held
    rcases held with rfl | rfl
    · cases read
      cases pointer
    · cases read
      cases List.mem_singleton.mp pointer
      decide
  have permitted : oneCaller.PermitsRun overwritingRun := by
    refine ⟨?_, ⟨by decide, List.forall_mem_nil _⟩, trivial, trivial⟩
    rintro _ ⟨⟩
    exact ⟨by decide, rfl⟩
  exact ⟨cache_refines_map new permitted, by decide +kernel⟩

end SharedCache

end Spotter.Providers
