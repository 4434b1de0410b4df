import Spotter.Nacos.Catalog

/-! # Who owns a composite id

Several sources may map to one composite id. The sink keeps the owner scope of every id it wrote or
found, reserves ids before it writes, and refuses writes that would replace another source's host.
Each function is one critical section of the sink's lock.
-/

namespace Spotter.Nacos

open Library Domain Ports

/-- The sink's memory between calls. -/
structure Ownership where
  remembered : List ClusterKey := []
  wireOwners : StringMap := ∅
  wireClaims : StringMap := ∅
  wireScanned : Finset ClusterKey := ∅

def wireIdentityCollisionError (compositeID existing incoming : String) : GoError :=
  .classified ("nacos: composite identity \"" ++ compositeID ++ "\" is already owned by \"" ++ existing ++
    "\"; incoming source identity is \"" ++ incoming ++ "\"") true []

/-- The scope that owns an instance's composite id. -/
def wireOwnerScope (ins : Instance) : String :=
  if ins.sourceCluster ≠ "" then "source-cluster:" ++ ins.sourceCluster else "source-identity:" ++ identityKey ins

def sourceOwnerScopeFromHost (lib : WireLib) (service : String) (host : Host) : String :=
  wireOwnerScope (reconstruct lib service host)

/-- The collision of an owner scope with a recorded one; an empty record stands for none. -/
def collision (wireID existing incoming : String) : Option GoError :=
  if existing ≠ "" ∧ existing ≠ incoming then some (wireIdentityCollisionError wireID existing incoming) else none

/-- The owners that a scan of a pair finds, in the order of the listing. -/
def scanOwners (lib : WireLib) (group service : String) (found : List (String × String)) :
    List Host → Except GoError (List (String × String))
  | [] => .ok found
  | host :: rest =>
    if ownerMarked host.metadata then
      let wireID := hostCompositeID service group host
      let ownerScope := sourceOwnerScopeFromHost lib service host
      let previous := ((found.find? fun entry => decide (entry.1 = wireID)).map Prod.snd).getD ""
      match collision wireID previous ownerScope with
      | some err => .error err
      | none => scanOwners lib group service (found ++ [(wireID, ownerScope)]) rest
    else scanOwners lib group service found rest

namespace Ownership

/-- The recorded or reserved owner of an id. -/
def ownerOf (o : Ownership) (wireID : String) : String :=
  if o.wireOwners.value wireID ≠ "" then o.wireOwners.value wireID else o.wireClaims.value wireID

/-- The loop of `validateWireIdentitySet`, with the owner scopes seen so far. -/
def validateFrom (group : String) (o : Ownership) (seen : StringMap) : Instances → Option GoError
  | [] => none
  | none :: rest => validateFrom group o seen rest
  | some ins :: rest =>
    if (persistentBatchOperation ins.status).isSome then
      let wireID := compositeIDWithGroup ins group
      let ownerScope := wireOwnerScope ins
      ((seen.lookup wireID).bind fun previous =>
          if previous ≠ ownerScope then some (wireIdentityCollisionError wireID previous ownerScope) else none).or <|
        (collision wireID (o.ownerOf wireID) ownerScope).or <| validateFrom group o (seen.insert wireID ownerScope) rest
    else validateFrom group o seen rest

/-- `validateWireIdentitySet`: the error of a snapshot in which two sources share a composite id. -/
def validateWireIdentitySet (group : String) (o : Ownership) (instances : Instances) : Option GoError :=
  o.validateFrom group ∅ instances

/-- Record the owners of a scan. The source ranges over a map here; the order only matters when it fails. -/
def mergeOwners (o : Ownership) : List (String × String) → Ownership × Option GoError
  | [] => (o, none)
  | (wireID, ownerScope) :: rest =>
    match collision wireID (o.wireOwners.value wireID) ownerScope with
    | some err => (o, some err)
    | none => mergeOwners { o with wireOwners := o.wireOwners.insert wireID ownerScope } rest

/-- The end of `recoverWireOwnership`. -/
def recordScan (o : Ownership) (scope : ClusterKey) (owners : List (String × String)) : Ownership × Option GoError :=
  match o.mergeOwners owners with
  | (merged, some err) => (merged, some err)
  | (merged, none) => ({ merged with wireScanned := insert scope merged.wireScanned }, none)

/-- `claimWireIdentity`; the flag says that the claim is new. -/
def claimWireIdentity (group : String) (o : Ownership) (ins : Instance) : Except GoError (Ownership × Bool) :=
  let wireID := compositeIDWithGroup ins group
  let ownerScope := wireOwnerScope ins
  match (collision wireID (o.wireOwners.value wireID) ownerScope).or
      (collision wireID (o.wireClaims.value wireID) ownerScope) with
  | some err => .error err
  | none =>
    if o.wireClaims.value wireID = "" then
      .ok ({ o with wireClaims := o.wireClaims.insert wireID ownerScope }, true)
    else .ok (o, false)

/-- The release function of `claimWireIdentity`. -/
def releaseWireIdentity (group : String) (o : Ownership) (ins : Instance) (claimed success : Bool) : Ownership :=
  let wireID := compositeIDWithGroup ins group
  let ownerScope := wireOwnerScope ins
  { o with
    wireOwners := if success then o.wireOwners.insert wireID ownerScope else o.wireOwners
    wireClaims := if o.wireClaims.value wireID = ownerScope ∧ (claimed || success) = true then o.wireClaims.erase wireID
      else o.wireClaims }

/-- The ownership check of `deregisterInstance`. -/
def deregisterConflict (group : String) (o : Ownership) (ins : Instance) : Option GoError :=
  let wireID := compositeIDWithGroup ins group
  collision wireID (o.ownerOf wireID) (wireOwnerScope ins)

/-- The end of an acknowledged `deregister`. -/
def forget (o : Ownership) (wireID : String) : Ownership :=
  { o with wireOwners := o.wireOwners.erase wireID, wireClaims := o.wireClaims.erase wireID }

section Validate

variable {group : String} {o : Ownership} {seen : StringMap} {item : Option Instance} {instances : Instances}
  {ins other : Instance}

/-- The check skips an item or agrees with what was seen, and goes on. -/
theorem validateFrom_cons (valid : o.validateFrom group seen (item :: instances) = none) :
    (o.validateFrom group seen instances = none ∧ ∀ ins, item = some ins → (persistentBatchOperation ins.status).isSome ≠ true) ∨
      ∃ head, item = some head ∧
        (∀ previous, seen.lookup (compositeIDWithGroup head group) = some previous → previous = wireOwnerScope head) ∧
        o.validateFrom group (seen.insert (compositeIDWithGroup head group) (wireOwnerScope head)) instances = none := by
  cases item with
  | none =>
    rw [validateFrom] at valid
    exact .inl ⟨valid, fun ins same => absurd same.symm (Option.some_ne_none ins)⟩
  | some head =>
    rw [validateFrom] at valid
    split_ifs at valid with known
    · obtain ⟨fresh, later⟩ := Option.or_eq_none_iff.mp valid
      refine .inr ⟨head, rfl, ?_, (Option.or_eq_none_iff.mp later).2⟩
      intro previous found
      by_contra differs
      rw [found, Option.bind_some, if_pos differs] at fresh
      cases fresh
    · refine .inl ⟨valid, ?_⟩
      intro ins same
      cases same
      exact known

/-- What was seen at an item's composite id is the item's owner scope. -/
theorem validateFrom_seen (valid : o.validateFrom group seen instances = none) (member : some ins ∈ instances)
    (known : (persistentBatchOperation ins.status).isSome = true) {previous : String}
    (found : seen.lookup (compositeIDWithGroup ins group) = some previous) : previous = wireOwnerScope ins := by
  induction instances generalizing seen previous with
  | nil => cases member
  | cons item rest ih =>
    rcases validateFrom_cons valid with ⟨later, unknown⟩ | ⟨head, rfl, own, later⟩
    · rcases List.mem_cons.mp member with here | among
      · exact absurd known (unknown ins here.symm)
      · exact ih later among found
    · rcases List.mem_cons.mp member with here | among
      · cases here
        exact own previous found
      · by_cases same : compositeIDWithGroup ins group = compositeIDWithGroup head group
        · -- Both the item and what was seen agree with the head.
          rw [own previous (same ▸ found)]
          refine ih later among ?_
          rw [FiniteMap.lookup_insert_ite, if_pos same]
        · refine ih later among ?_
          rw [FiniteMap.lookup_insert_ite, if_neg same]
          exact found

/-- A snapshot that passes the check has one owner scope per composite id. -/
theorem validateFrom_scopes (valid : o.validateFrom group seen instances = none) (member : some ins ∈ instances)
    (member' : some other ∈ instances) (known : (persistentBatchOperation ins.status).isSome = true)
    (known' : (persistentBatchOperation other.status).isSome = true)
    (same : compositeIDWithGroup ins group = compositeIDWithGroup other group) :
    wireOwnerScope ins = wireOwnerScope other := by
  induction instances generalizing seen with
  | nil => cases member
  | cons item rest ih =>
    rcases validateFrom_cons valid with ⟨later, unknown⟩ | ⟨head, rfl, _, later⟩
    · rcases List.mem_cons.mp member with here | among
      · exact absurd known (unknown ins here.symm)
      · rcases List.mem_cons.mp member' with here' | among'
        · exact absurd known' (unknown other here'.symm)
        · exact ih later among among'
    · have agrees : ∀ third, some third ∈ rest → (persistentBatchOperation third.status).isSome = true →
          compositeIDWithGroup head group = compositeIDWithGroup third group →
          wireOwnerScope head = wireOwnerScope third := by
        intro third among operation id
        refine validateFrom_seen later among operation ?_
        rw [FiniteMap.lookup_insert_ite, if_pos id.symm]
      rcases List.mem_cons.mp member with here | among
      · cases here
        rcases List.mem_cons.mp member' with here' | among'
        · cases here'
          rfl
        · exact agrees other among' known' same
      · rcases List.mem_cons.mp member' with here' | among'
        · cases here'
          exact (agrees ins among known same.symm).symm
        · exact ih later among among'

end Validate

end Ownership

end Spotter.Nacos
