import Spotter.Worker.RetryQueue

/-! # The errors that a push can end with

A push ends with an error tree: its leaves are the failures themselves, its inner nodes the types and library functions
that wrap and collect them. Most of these let the classification look at everything beneath them. A cluster-admin error
looks at the first classified error beneath it only.

Of an error's data only what the classification reads is kept; a nil error is a tree of its own, since the collecting
types can hold one.
-/

namespace Spotter.Nacos

open Ports Worker

/-- A failure that wraps no other one. -/
inductive Failure where
  /-- An error without a `Permanent` method. -/
  | unknown (text : String)
  | apiError (status : ℤ)
  /-- The classified error of the SDK; the text it was read from is beneath it. -/
  | sdkAPIError (status : ℤ) (text : String)
  | wireIdentityCollision
  | metadataTooLarge
deriving DecidableEq

namespace Failure

/-- A status that rejects the request itself. -/
def rejects (status : ℤ) : Bool := decide (400 ≤ status ∧ status < 500)

/-- What the `Permanent` method of a failure says, if it has one. -/
def classification : Failure → Option Bool
  | .unknown _ => none
  | .apiError status => some (rejects status)
  | .sdkAPIError status _ => some (rejects status)
  | .wireIdentityCollision => some true
  | .metadataTooLarge => some true

/-- No retry can cure the failure. -/
def permanent (failure : Failure) : Bool := failure.classification.getD false

def error : Failure → GoError
  | .unknown text => .errorf text []
  | .apiError status => .classified "nacos: %s %s answered status %d: %s" (rejects status) []
  | .sdkAPIError status text => .classified text (rejects status) [.errorf text []]
  | .wireIdentityCollision =>
    .classified "nacos: composite identity %q is already owned by %q; incoming source identity is %q" true []
  | .metadataTooLarge => .classified "nacos: instance metadata length %d exceeds limit %d" true []

theorem isPermanentError_error (failure : Failure) : failure.error.isPermanentError = failure.permanent := by
  cases failure with
  | unknown _ => rfl
  | apiError _ => rfl
  | sdkAPIError _ _ => rfl
  | wireIdentityCollision => rfl
  | metadataTooLarge => rfl

theorem asPermanent_error (failure : Failure) : failure.error.asPermanent = failure.classification := by
  cases failure with
  | unknown _ => rfl
  | apiError _ => rfl
  | sdkAPIError _ _ => rfl
  | wireIdentityCollision => rfl
  | metadataTooLarge => rfl

end Failure

/-! ## Wrapping and collecting; none stands for a nil error -/

/-- A `ClusterAdminError`: its `Permanent` method asks the first error beneath it that has one. -/
def clusterAdminError (err : Option GoError) : GoError :=
  .classified "nacos cluster-admin update: " ((err.bind GoError.asPermanent).getD false) err.toList

/-- A `batchApplyError`: permanent if it has failures and all of them are. -/
def batchApplyErrorOf (failures : List (Option GoError)) : GoError :=
  .classified "nacos: persistent batch application failed: "
    (!failures.isEmpty && failures.all fun err => err.any GoError.isPermanentError) (failures.filterMap id)

/-- `fmt.Errorf` with one `%w`. -/
def wrapError (format : String) : Option GoError → GoError
  | some cause => .wrapped format cause
  | none => .errorf format []

/-- `errors.Join`: nil errors are dropped, and nothing is left of nil errors alone. -/
def join (causes : List (Option GoError)) : Option GoError :=
  match causes.filterMap id with
  | [] => none
  | live => some (.joined live)

/-- The error trees. -/
inductive ErrorTree where
  | nil
  | leaf (failure : Failure)
  | clusterAdmin (err : ErrorTree)
  | batchApply (failures : List ErrorTree)
  | fanout (failures : List (String × ErrorTree))
  | errorf (format : String) (cause : ErrorTree)
  /-- `fmt.Errorf` with several `%w`. -/
  | errorfs (causes : List ErrorTree)
  | joined (causes : List ErrorTree)

namespace ErrorTree

/-- What to make of each kind of node, given what was made of its children. -/
structure Algebra (α : Type) where
  nil : α
  leaf : Failure → α
  clusterAdmin : α → α
  batchApply : List α → α
  fanout : List (String × α) → α
  errorf : String → α → α
  errorfs : List α → α
  joined : List α → α

variable (failures : List (String × ErrorTree))

section Fold

variable {α : Type} (algebra : Algebra α)

mutual

def fold : ErrorTree → α
  | .nil => algebra.nil
  | .leaf failure => algebra.leaf failure
  | .clusterAdmin err => algebra.clusterAdmin (fold err)
  | .batchApply failures => algebra.batchApply (foldAll failures)
  | .fanout failures => algebra.fanout (foldFailures failures)
  | .errorf format cause => algebra.errorf format (fold cause)
  | .errorfs causes => algebra.errorfs (foldAll causes)
  | .joined causes => algebra.joined (foldAll causes)

def foldAll : List ErrorTree → List α
  | [] => []
  | tree :: rest => fold tree :: foldAll rest

def foldFailures : List (String × ErrorTree) → List (String × α)
  | [] => []
  | failure :: rest => foldFailure failure :: foldFailures rest

def foldFailure : String × ErrorTree → String × α
  | (sink, tree) => (sink, fold tree)

end

theorem foldAll_eq (trees : List ErrorTree) : foldAll algebra trees = trees.map (fold algebra) := by
  induction trees with
  | nil => rfl
  | cons tree rest ih => rw [foldAll, ih, List.map_cons]

theorem foldFailures_eq :
    foldFailures algebra failures = failures.map fun failure => (failure.1, fold algebra failure.2) := by
  induction failures with
  | nil => rfl
  | cons failure rest ih => rw [foldFailures, ih, List.map_cons, foldFailure]

end Fold

/-- A property that every node inherits from its children. -/
structure Inherited (P : ErrorTree → Prop) : Prop where
  nil : P .nil
  leaf : ∀ failure, P (.leaf failure)
  clusterAdmin : ∀ err, P err → P (.clusterAdmin err)
  batchApply : ∀ failures, (∀ err ∈ failures, P err) → P (.batchApply failures)
  fanout : ∀ failures, (∀ failure ∈ failures, P failure.2) → P (.fanout failures)
  errorf : ∀ format cause, P cause → P (.errorf format cause)
  errorfs : ∀ causes, (∀ cause ∈ causes, P cause) → P (.errorfs causes)
  joined : ∀ causes, (∀ cause ∈ causes, P cause) → P (.joined causes)

section Induction

variable {P : ErrorTree → Prop}

mutual

/-- An inherited property holds of every tree. -/
theorem Inherited.all (inherited : Inherited P) : ∀ tree, P tree
  | .nil => inherited.nil
  | .leaf failure => inherited.leaf failure
  | .clusterAdmin err => inherited.clusterAdmin err (inherited.all err)
  | .batchApply failures => inherited.batchApply failures (inherited.all_mem failures)
  | .fanout failures => inherited.fanout failures (inherited.all_failures failures)
  | .errorf format cause => inherited.errorf format cause (inherited.all cause)
  | .errorfs causes => inherited.errorfs causes (inherited.all_mem causes)
  | .joined causes => inherited.joined causes (inherited.all_mem causes)

theorem Inherited.all_mem (inherited : Inherited P) : ∀ trees : List ErrorTree, ∀ tree ∈ trees, P tree
  | [] => by simp
  | tree :: rest => by
    rw [List.forall_mem_cons]
    exact ⟨inherited.all tree, inherited.all_mem rest⟩

theorem Inherited.all_failures (inherited : Inherited P) :
    ∀ failures : List (String × ErrorTree), ∀ failure ∈ failures, P failure.2
  | [] => by simp
  | (sink, tree) :: rest => by
    rw [List.forall_mem_cons]
    exact ⟨inherited.all tree, inherited.all_failures rest⟩

end

end Induction

/-! ## The error, its failures, and what its classification looks at -/

def valueAlgebra : Algebra (Option GoError) where
  nil := none
  leaf := fun failure => some failure.error
  clusterAdmin := fun err => some (clusterAdminError err)
  batchApply := fun failures => some (batchApplyErrorOf failures)
  fanout := fun failures => some (.fanout (failures.filterMap fun failure => failure.2.map (Prod.mk failure.1)))
  errorf := fun format cause => some (wrapError format cause)
  errorfs := fun causes => some (.joined (causes.filterMap id))
  joined := join

/-- The error that a tree describes. -/
def value : ErrorTree → Option GoError := fold valueAlgebra

def leavesAlgebra : Algebra (List Failure) where
  nil := []
  leaf := fun failure => [failure]
  clusterAdmin := id
  batchApply := List.flatten
  fanout := fun failures => (failures.map Prod.snd).flatten
  errorf := fun _ cause => cause
  errorfs := List.flatten
  joined := List.flatten

/-- The failures at a tree's leaves. -/
def leaves : ErrorTree → List Failure := fold leavesAlgebra

/-- A failure that is looked at, or none for a node without any. -/
abbrev Part := Option Failure

variable (parts : List Part)

def orVoid : List Part := if parts.isEmpty then [none] else parts

def firstOf (found : List (List Part)) : List Part := (found.find? fun parts => !parts.isEmpty).getD []

/-- The parts of a tree that are looked at, from the root and by a search for the first classified error. -/
structure Evidence where
  read : List Part
  first : List Part
deriving DecidableEq

/-- Everything beneath a node is looked at, but only the first classified error beneath a cluster-admin error. A nil failure
of a batch is looked at as well; other nil errors are passed over. -/
def evidenceAlgebra : Algebra Evidence where
  nil := ⟨[], []⟩
  leaf := fun failure => ⟨[some failure], if failure.classification.isSome then [some failure] else []⟩
  clusterAdmin := fun err => ⟨orVoid err.first, orVoid err.first⟩
  batchApply := fun failures =>
    ⟨orVoid (failures.flatMap fun err => orVoid err.read), orVoid (failures.flatMap fun err => orVoid err.read)⟩
  fanout := fun failures =>
    ⟨orVoid ((failures.map Prod.snd).flatMap Evidence.read), firstOf ((failures.map Prod.snd).map Evidence.first)⟩
  errorf := fun _ cause => ⟨orVoid cause.read, cause.first⟩
  errorfs := fun causes => ⟨orVoid (causes.flatMap Evidence.read), firstOf (causes.map Evidence.first)⟩
  joined := fun causes => ⟨causes.flatMap Evidence.read, firstOf (causes.map Evidence.first)⟩

/-- What the classification of a tree's error looks at. -/
def evidence : ErrorTree → Evidence := fold evidenceAlgebra

/-- Every part is a permanent failure. -/
def AllPermanent : Prop := ∀ part ∈ parts, ∃ failure, part = some failure ∧ failure.permanent = true

/-- The classifications of an error, read off the evidence. -/
structure ReadOff (err : Option GoError) (e : Evidence) : Prop where
  isNil : err = none ↔ e.read = []
  permanent : err.any GoError.isPermanentError = true ↔ e.read ≠ [] ∧ AllPermanent e.read
  unfound : err.bind GoError.asPermanent = none ↔ e.first = []
  found : err.bind GoError.asPermanent = some true ↔ e.first ≠ [] ∧ AllPermanent e.first

theorem orVoid_ne_nil : orVoid parts ≠ [] := by
  unfold orVoid
  split_ifs with empty
  · exact List.cons_ne_nil _ _
  · exact fun none => empty (by rw [none]; rfl)

theorem allPermanent_orVoid : AllPermanent (orVoid parts) ↔ parts ≠ [] ∧ AllPermanent parts := by
  cases parts with
  | nil => simp [orVoid, AllPermanent]
  | cons part rest => simp [orVoid]

theorem allPermanent_append {left right : List Part} :
    AllPermanent (left ++ right) ↔ AllPermanent left ∧ AllPermanent right := List.forall_mem_append

/-- The classifications of collected errors, read off the evidence about each. -/
structure CollectedOff (live : List GoError) (evidences : List Evidence) : Prop where
  isNil : live = [] ↔ evidences.flatMap Evidence.read = []
  permanent : live.all GoError.isPermanentError = true ↔ AllPermanent (evidences.flatMap Evidence.read)
  unfound : live.findSome? GoError.asPermanent = none ↔ firstOf (evidences.map Evidence.first) = []
  found : live.findSome? GoError.asPermanent = some true ↔
    firstOf (evidences.map Evidence.first) ≠ [] ∧ AllPermanent (firstOf (evidences.map Evidence.first))

theorem firstOf_cons (rest : List (List Part)) :
    firstOf (parts :: rest) = if parts = [] then firstOf rest else parts := by
  cases parts with
  | nil | cons part others => simp [firstOf]

theorem collectedOff (trees : List ErrorTree) (each : ∀ tree ∈ trees, ReadOff tree.value tree.evidence) :
    CollectedOff ((trees.map value).filterMap id) (trees.map evidence) := by
  induction trees with
  | nil => exact ⟨by simp, by simp [AllPermanent], by simp [firstOf], by simp [firstOf]⟩
  | cons tree rest ih =>
    rw [List.forall_mem_cons] at each
    obtain ⟨own, others⟩ := each
    have later := ih others
    rw [List.map_cons, List.map_cons]
    cases present : tree.value with
    | none =>
      -- A nil error is passed over.
      rw [present] at own
      have unread : tree.evidence.read = [] := own.isNil.mp rfl
      have unfound : tree.evidence.first = [] := own.unfound.mp rfl
      have same : (none :: rest.map value).filterMap id = (rest.map value).filterMap id := rfl
      rw [same]
      have reads : (tree.evidence :: rest.map evidence).flatMap Evidence.read = (rest.map evidence).flatMap Evidence.read := by
        rw [List.flatMap_cons, unread, List.nil_append]
      have finds : firstOf ((tree.evidence :: rest.map evidence).map Evidence.first) =
          firstOf ((rest.map evidence).map Evidence.first) := by
        rw [List.map_cons, firstOf_cons, if_pos unfound]
      exact ⟨reads ▸ later.isNil, reads ▸ later.permanent, finds ▸ later.unfound, finds ▸ later.found⟩
    | some err =>
      rw [present] at own
      have read : tree.evidence.read ≠ [] := fun nothing => nomatch own.isNil.mpr nothing
      have permanent := own.permanent
      have missing := own.unfound
      have located := own.found
      rw [Option.any_some] at permanent
      rw [Option.bind_some] at missing located
      have more : (some err :: rest.map value).filterMap id = err :: (rest.map value).filterMap id := rfl
      rw [more]
      have search : (err :: (rest.map value).filterMap id).findSome? GoError.asPermanent =
          err.asPermanent.or (((rest.map value).filterMap id).findSome? GoError.asPermanent) := by
        rw [List.findSome?_cons]
        cases err.asPermanent <;> rfl
      refine ⟨?_, ?_, ?_, ?_⟩
      · rw [List.flatMap_cons]
        exact iff_of_false (List.cons_ne_nil _ _) (List.append_ne_nil_of_left_ne_nil read _)
      · rw [List.all_cons, Bool.and_eq_true, permanent, later.permanent, List.flatMap_cons, allPermanent_append]
        simp [read]
      · rw [List.map_cons, firstOf_cons, search, Option.or_eq_none_iff, missing, later.unfound]
        split_ifs with first <;> simp [first]
      · rw [List.map_cons, firstOf_cons, search]
        split_ifs with first
        · rw [missing.mpr first]
          exact later.found
        · obtain ⟨verdict, classified⟩ := Option.ne_none_iff_exists'.mp (mt missing.mp first)
          rw [← located, classified]
          rfl

theorem fold_batchApply {α : Type} (algebra : Algebra α) (failures : List ErrorTree) :
    fold algebra (.batchApply failures) = algebra.batchApply (failures.map (fold algebra)) := by
  rw [fold, foldAll_eq]

theorem fold_errorfs {α : Type} (algebra : Algebra α) (causes : List ErrorTree) :
    fold algebra (.errorfs causes) = algebra.errorfs (causes.map (fold algebra)) := by
  rw [fold, foldAll_eq]

theorem fold_joined {α : Type} (algebra : Algebra α) (causes : List ErrorTree) :
    fold algebra (.joined causes) = algebra.joined (causes.map (fold algebra)) := by
  rw [fold, foldAll_eq]

theorem fold_fanout {α : Type} (algebra : Algebra α) (failures : List (String × ErrorTree)) :
    fold algebra (.fanout failures) = algebra.fanout (failures.map fun failure => (failure.1, fold algebra failure.2)) := by
  rw [fold, foldFailures_eq]

/-- An error type with its own verdict is looked at in the same way from everywhere. -/
theorem readOff_classified {text : String} {permanent : Bool} {causes : List GoError} {parts : List Part}
    (some_read : parts ≠ []) (verdict : permanent = true ↔ AllPermanent parts) :
    ReadOff (some (.classified text permanent causes)) ⟨parts, parts⟩ where
  isNil := iff_of_false (Option.some_ne_none _) some_read
  permanent := by
    rw [Option.any_some, GoError.isPermanentError, verdict]
    exact ⟨fun all => ⟨some_read, all⟩, fun all => all.2⟩
  unfound := by
    rw [Option.bind_some, GoError.asPermanent]
    exact iff_of_false (Option.some_ne_none _) some_read
  found := by
    rw [Option.bind_some, GoError.asPermanent, Option.some_inj, verdict]
    exact ⟨fun all => ⟨some_read, all⟩, fun all => all.2⟩

/-- An aggregate without a verdict of its own is permanent if it holds an error and all its errors are. -/
theorem CollectedOff.readOff {live : List GoError} {evidences : List Evidence} {err : GoError} (collected : CollectedOff live evidences)
    (verdict : err.isPermanentError = (!live.isEmpty && live.all GoError.isPermanentError))
    (search : err.asPermanent = live.findSome? GoError.asPermanent) :
    ReadOff (some err) ⟨orVoid (evidences.flatMap Evidence.read), firstOf (evidences.map Evidence.first)⟩ where
  isNil := iff_of_false (Option.some_ne_none _) (orVoid_ne_nil _)
  permanent := by
    rw [Option.any_some, verdict, Bool.and_eq_true, collected.permanent, allPermanent_orVoid, Bool.not_eq_true',
      List.isEmpty_eq_false_iff, ne_eq, collected.isNil]
    exact ⟨fun all => ⟨orVoid_ne_nil _, all⟩, fun all => all.2⟩
  unfound := by
    rw [Option.bind_some, search]
    exact collected.unfound
  found := by
    rw [Option.bind_some, search]
    exact collected.found

theorem value_fanout :
    (fanout failures).value = some (.fanout (failures.filterMap fun failure => failure.2.value.map (Prod.mk failure.1))) := by
  refine (fold_fanout valueAlgebra failures).trans ?_
  simp only [valueAlgebra, List.filterMap_map]
  rfl

theorem evidence_fanout : (fanout failures).evidence = ⟨orVoid (((failures.map Prod.snd).map evidence).flatMap Evidence.read),
      firstOf (((failures.map Prod.snd).map evidence).map Evidence.first)⟩ := by
  have own : (failures.map Prod.snd).map evidence = (failures.map fun failure => (failure.1, failure.2.evidence)).map Prod.snd := by
    simp only [List.map_map, Function.comp_def]
  rw [own]
  exact fold_fanout evidenceAlgebra failures

/-- The errors of a fan-out's failures that are not nil. -/
theorem live_failures : (failures.filterMap fun failure => failure.2.value.map (Prod.mk failure.1)).map Prod.snd =
      ((failures.map Prod.snd).map value).filterMap id := by
  induction failures with
  | nil => rfl
  | cons failure rest ih =>
    obtain ⟨sink, tree⟩ := failure
    simp only [List.filterMap_cons, List.map_cons, id]
    cases tree.value with
    | none => exact ih
    | some err => exact congrArg (List.cons err) ih

theorem joined_permanent (live : List GoError) :
    (GoError.joined live).isPermanentError = (!live.isEmpty && live.all GoError.isPermanentError) := by
  rw [GoError.isPermanentError, GoError.allPermanent_eq]

theorem joined_asPermanent (live : List GoError) :
    (GoError.joined live).asPermanent = live.findSome? GoError.asPermanent := by
  rw [GoError.asPermanent, GoError.firstPermanent_eq]

theorem fanout_permanent (failures : List (String × GoError)) : (GoError.fanout failures).isPermanentError =
      (!(failures.map Prod.snd).isEmpty && (failures.map Prod.snd).all GoError.isPermanentError) := by
  rw [GoError.isPermanentError, GoError.allFailuresPermanent_eq, List.isEmpty_map, List.all_map]
  rfl

theorem fanout_asPermanent (failures : List (String × GoError)) :
    (GoError.fanout failures).asPermanent = (failures.map Prod.snd).findSome? GoError.asPermanent := by
  rw [GoError.asPermanent, GoError.firstFailurePermanent_eq, List.findSome?_map]
  rfl

theorem batch_nonempty (failures : List ErrorTree) :
    (!(failures.map value).isEmpty) = true ↔ ((failures.map evidence).flatMap fun err => orVoid err.read) ≠ [] := by
  cases failures with
  | nil => simp
  | cons err rest => simp [orVoid_ne_nil]

/-- A batch looks at each of its failures, and at a nil one as well. -/
theorem batch_permanent (failures : List ErrorTree) (each : ∀ err ∈ failures, ReadOff err.value err.evidence) :
    ((failures.map value).all fun err => err.any GoError.isPermanentError) = true ↔
      AllPermanent ((failures.map evidence).flatMap fun err => orVoid err.read) := by
  induction failures with
  | nil => simp [AllPermanent]
  | cons err rest ih =>
    rw [List.forall_mem_cons] at each
    rw [List.map_cons, List.map_cons, List.all_cons, List.flatMap_cons, allPermanent_append, allPermanent_orVoid,
      Bool.and_eq_true, each.1.permanent, ih each.2]

/-- The classifications of every error can be read off its evidence. -/
theorem readOff_inherited : Inherited fun tree => ReadOff tree.value tree.evidence where
  nil := by
    simp only [value, valueAlgebra, evidence, evidenceAlgebra, fold]
    exact ⟨by simp, by simp, by simp, by simp⟩
  leaf failure := by
    simp only [value, valueAlgebra, evidence, evidenceAlgebra, fold]
    have permanent := failure.isPermanentError_error
    have search := failure.asPermanent_error
    refine ⟨by simp, by simp [AllPermanent, permanent], ?_, ?_⟩
    · rw [Option.bind_some, search]
      cases failure.classification with
      | none => simp
      | some verdict => simp
    · rw [Option.bind_some, search]
      cases classified : failure.classification with
      | none => simp
      | some verdict => simp [AllPermanent, Failure.permanent, classified]
  clusterAdmin err own := by
    have verdict : (err.value.bind GoError.asPermanent).getD false = true ↔ AllPermanent (orVoid err.evidence.first) := by
      rw [allPermanent_orVoid, ← own.found]
      cases err.value.bind GoError.asPermanent with
      | none => simp
      | some verdict => simp
    exact readOff_classified (orVoid_ne_nil _) verdict
  batchApply failures each := by
    have described : (batchApply failures).value = some (batchApplyErrorOf (failures.map value)) := fold_batchApply _ _
    have looked : (batchApply failures).evidence = _ := fold_batchApply _ _
    rw [described, looked]
    refine readOff_classified (orVoid_ne_nil _) ?_
    rw [allPermanent_orVoid, Bool.and_eq_true]
    exact and_congr (batch_nonempty failures) (batch_permanent failures each)
  fanout failures each := by
    rw [value_fanout, evidence_fanout]
    have collected := collectedOff (failures.map Prod.snd) (List.forall_mem_map.mpr each)
    rw [← live_failures] at collected
    exact collected.readOff (fanout_permanent _) (fanout_asPermanent _)
  errorf format cause own := by
    have missing := own.unfound
    have located := own.found
    change ReadOff (some (wrapError format cause.value)) ⟨orVoid cause.evidence.read, cause.evidence.first⟩
    refine ⟨iff_of_false (Option.some_ne_none _) (orVoid_ne_nil _), ?_, ?_, ?_⟩
    · rw [allPermanent_orVoid, ← own.permanent]
      cases cause.value with
      | none => simp [wrapError, GoError.isPermanentError]
      | some err => simp [wrapError, GoError.isPermanentError, orVoid_ne_nil]
    · rw [← missing]
      cases cause.value with
      | none | some err => simp [wrapError, GoError.asPermanent]
    · rw [← located]
      cases cause.value with
      | none | some err => simp [wrapError, GoError.asPermanent]
  errorfs causes each := by
    have described : (errorfs causes).value = some (.joined ((causes.map value).filterMap id)) := fold_errorfs _ _
    have looked : (errorfs causes).evidence = _ := fold_errorfs _ _
    rw [described, looked]
    exact (collectedOff causes each).readOff (joined_permanent _) (joined_asPermanent _)
  joined causes each := by
    have described : (joined causes).value = join (causes.map value) := fold_joined _ _
    have looked : (joined causes).evidence =
      ⟨(causes.map evidence).flatMap Evidence.read, firstOf ((causes.map evidence).map Evidence.first)⟩ := fold_joined _ _
    rw [described, looked]
    have collected := collectedOff causes each
    unfold join
    generalize (causes.map value).filterMap id = live at collected
    cases live with
    | nil =>
      rw [collected.isNil.mp rfl, collected.unfound.mp rfl]
      exact ⟨by simp, by simp, by simp, by simp⟩
    | cons err rest =>
      have read : (causes.map evidence).flatMap Evidence.read ≠ [] := fun nothing => nomatch collected.isNil.mpr nothing
      have aggregate := collected.readOff (joined_permanent _) (joined_asPermanent _)
      rw [orVoid, if_neg (by simpa using read)] at aggregate
      exact aggregate

theorem some_mem_orVoid {failure : Failure} {parts : List Part} : some failure ∈ orVoid parts ↔ some failure ∈ parts := by
  unfold orVoid
  split_ifs with empty
  · rw [List.isEmpty_iff.mp empty]
    simp
  · rfl

theorem mem_firstOf {part : Part} {found : List (List Part)} (member : part ∈ firstOf found) : ∃ parts ∈ found, part ∈ parts := by
  unfold firstOf at member
  cases first : found.find? fun parts => !parts.isEmpty with
  | none =>
    rw [first] at member
    cases member
  | some parts =>
    rw [first] at member
    exact ⟨parts, List.mem_of_find?_eq_some first, member⟩

variable (tree : ErrorTree)

/-- A failure that is looked at is one of the tree's. -/
def LooksInside : Prop :=
  ∀ failure, some failure ∈ tree.evidence.read ∨ some failure ∈ tree.evidence.first → failure ∈ tree.leaves

/-- What is looked at in collected trees is in one of them. -/
theorem looksInside_of_collected {trees : List ErrorTree} (each : ∀ tree ∈ trees, tree.LooksInside) {failure : Failure}
    (looked : some failure ∈ (trees.map evidence).flatMap Evidence.read ∨
      some failure ∈ firstOf ((trees.map evidence).map Evidence.first)) :
    failure ∈ (trees.map leaves).flatten := by
  rw [List.mem_flatten]
  rcases looked with read | found
  · obtain ⟨_, among, member⟩ := List.mem_flatMap.mp read
    obtain ⟨tree, listed, rfl⟩ := List.mem_map.mp among
    exact ⟨_, List.mem_map_of_mem listed, each tree listed failure (.inl member)⟩
  · obtain ⟨_, among, member⟩ := mem_firstOf found
    rw [List.map_map] at among
    obtain ⟨tree, listed, rfl⟩ := List.mem_map.mp among
    exact ⟨_, List.mem_map_of_mem listed, each tree listed failure (.inr member)⟩

theorem looksInside_inherited : Inherited LooksInside where
  nil := by
    rintro failure (read | found)
    · cases read
    · cases found
  leaf own := by
    rintro failure (read | found)
    · cases List.mem_singleton.mp read
      exact List.mem_singleton_self _
    · change some failure ∈ (if own.classification.isSome then [some own] else []) at found
      split_ifs at found
      · cases List.mem_singleton.mp found
        exact List.mem_singleton_self _
      · cases found
  clusterAdmin err own := by
    rintro failure (read | found)
    · exact own failure (.inr (some_mem_orVoid.mp read))
    · exact own failure (.inr (some_mem_orVoid.mp found))
  batchApply failures each := by
    have looked : (batchApply failures).evidence = _ := fold_batchApply evidenceAlgebra failures
    have listed : (batchApply failures).leaves = _ := fold_batchApply leavesAlgebra failures
    have inside : ∀ failure, some failure ∈ orVoid ((failures.map evidence).flatMap fun err => orVoid err.read) →
        failure ∈ (batchApply failures).leaves := by
      intro failure member
      rw [listed]
      apply looksInside_of_collected each
      obtain ⟨e, among, part⟩ := List.mem_flatMap.mp (some_mem_orVoid.mp member)
      exact .inl (List.mem_flatMap.mpr ⟨e, among, some_mem_orVoid.mp part⟩)
    intro failure member
    rw [looked] at member
    exact inside failure (member.elim id id)
  fanout failures each := by
    have listed : (fanout failures).leaves = ((failures.map Prod.snd).map leaves).flatten := by
      refine (fold_fanout leavesAlgebra failures).trans ?_
      simp only [leavesAlgebra, List.map_map]
      rfl
    intro failure member
    rw [evidence_fanout] at member
    rw [listed]
    exact looksInside_of_collected (List.forall_mem_map.mpr each) (member.imp_left some_mem_orVoid.mp)
  errorf format cause own := by
    rintro failure (read | found)
    · exact own failure (.inl (some_mem_orVoid.mp read))
    · exact own failure (.inr found)
  errorfs causes each := by
    have looked : (errorfs causes).evidence = _ := fold_errorfs evidenceAlgebra causes
    have listed : (errorfs causes).leaves = _ := fold_errorfs leavesAlgebra causes
    intro failure member
    rw [looked] at member
    rw [listed]
    exact looksInside_of_collected each (member.imp_left some_mem_orVoid.mp)
  joined causes each := by
    have looked : (joined causes).evidence = _ := fold_joined evidenceAlgebra causes
    have listed : (joined causes).leaves = _ := fold_joined leavesAlgebra causes
    intro failure member
    rw [looked] at member
    rw [listed]
    exact looksInside_of_collected each member

/-! ## When the classification is exact -/

/-- No error among the causes is stale. -/
theorem anyStale_eq_false {causes : List GoError} (none : ∀ cause ∈ causes, cause.isStale = false) :
    GoError.anyStale causes = false := by
  induction causes with
  | nil => rfl
  | cons cause rest ih =>
    obtain ⟨own, later⟩ := List.forall_mem_cons.mp none
    rw [GoError.anyStale, own, ih later, Bool.or_false]

theorem notStale_children {trees : List ErrorTree} (each : ∀ tree ∈ trees, ∀ err ∈ tree.value, err.isStale = false) :
    GoError.anyStale ((trees.map value).filterMap id) = false := by
  refine anyStale_eq_false fun cause among => ?_
  obtain ⟨_, listed, own⟩ := List.mem_filterMap.mp among
  obtain ⟨tree, member, rfl⟩ := List.mem_map.mp listed
  exact each tree member cause own

/-- The failures of a push are no stale rejections, which the gates in front of the sinks make. -/
theorem notStale_inherited : Inherited fun tree => ∀ err ∈ tree.value, err.isStale = false where
  nil := by
    intro err nothing
    cases nothing
  leaf failure := by
    rintro err ⟨⟩
    cases failure <;> rfl
  clusterAdmin err own := by
    rintro _ ⟨⟩
    exact anyStale_eq_false fun cause among => own cause (Option.mem_toList.mp among)
  batchApply failures each := by
    intro err found
    rw [value, fold_batchApply] at found
    cases found
    exact notStale_children each
  fanout failures each := by
    intro err found
    rw [value, fold_fanout] at found
    cases found
    rw [GoError.isStale_fanout, List.any_eq_false]
    intro failure among
    obtain ⟨⟨sink, result⟩, listed, named⟩ := List.mem_filterMap.mp among
    obtain ⟨⟨_, tree⟩, member, rfl, rfl⟩ := List.mem_map.mp listed
    obtain ⟨own, failed, rfl⟩ := Option.map_eq_some_iff.mp named
    simpa using each _ member own failed
  errorf format cause own := by
    rintro _ ⟨⟩
    change (wrapError format cause.value).isStale = false
    cases failed : cause.value with
    | none => rfl
    | some err => exact own err failed
  errorfs causes each := by
    intro err found
    rw [value, fold_errorfs] at found
    cases found
    exact notStale_children each
  joined causes each := by
    intro err found
    rw [value, fold_joined] at found
    have none := notStale_children each
    change err ∈ join (causes.map value) at found
    rw [join] at found
    split at found
    · cases found
    · cases found
      exact none

/-- A full operation is dropped after a stale rejection too, but of the failures of a push it drops no others. -/
theorem settledFull_value : settledFull tree.value = settled tree.value := by
  have fresh := notStale_inherited.all tree
  cases failed : tree.value with
  | none => rfl
  | some err => simp [settledFull, settled, fresh err failed]

/-- The parts that decide about a tree's error. -/
def consulted : List Part := orVoid tree.evidence.read

/-- The tree has a retryable failure, but everything that is looked at is a permanent one: the retryable failures are all
beneath cluster-admin errors whose first classified error is permanent. -/
def HidesRetryable : Prop :=
  (∃ failure ∈ tree.leaves, failure.permanent = false) ∧ AllPermanent tree.consulted

/-- The tree has failures and all of them are permanent, but a node without failures is looked at: an empty aggregate or a nil
failure of a batch. -/
def HoldsVoid : Prop :=
  tree.leaves ≠ [] ∧ (∀ failure ∈ tree.leaves, failure.permanent = true) ∧ none ∈ tree.consulted

theorem isPermanentError_iff :
    tree.value.any GoError.isPermanentError = true ↔ AllPermanent tree.consulted := by
  rw [consulted, allPermanent_orVoid]
  exact (readOff_inherited.all tree).permanent

theorem mem_leaves_of_consulted {tree : ErrorTree} {failure : Failure} (looked : some failure ∈ tree.consulted) :
    failure ∈ tree.leaves :=
  looksInside_inherited.all tree failure (.inl (some_mem_orVoid.mp looked))

/-- Without retryable failures, only a void can make an error retryable. -/
theorem allPermanent_consulted_iff {tree : ErrorTree} (permanent : ∀ failure ∈ tree.leaves, failure.permanent = true) :
    AllPermanent tree.consulted ↔ none ∉ tree.consulted := by
  constructor
  · intro all void
    obtain ⟨failure, impossible, _⟩ := all none void
    cases impossible
  · intro solid part member
    cases part with
    | none => exact absurd member solid
    | some failure => exact ⟨failure, rfl, permanent failure (mem_leaves_of_consulted member)⟩

/-- For every error tree: `IsPermanentError` says whether the tree has a failure and all its failures are permanent, exactly when
no retryable failure is hidden and no void is looked at; and the retry queue drops an operation, also a full one, only if all its
failures are permanent, exactly when no retryable failure is hidden. -/
theorem classification_exact_iff (tree : ErrorTree) : ((tree.value.any GoError.isPermanentError = true ↔
        tree.leaves ≠ [] ∧ ∀ failure ∈ tree.leaves, failure.permanent = true) ↔ ¬tree.HidesRetryable ∧ ¬tree.HoldsVoid) ∧
      ((tree.value ≠ none → settled tree.value = true → ∀ failure ∈ tree.leaves, failure.permanent = true) ↔
        ¬tree.HidesRetryable) ∧
      ((tree.value ≠ none → settledFull tree.value = true → ∀ failure ∈ tree.leaves, failure.permanent = true) ↔
        ¬tree.HidesRetryable) := by
  have dropped : (tree.value ≠ none ∧ settled tree.value = true) ↔ AllPermanent tree.consulted := by
    rw [← isPermanentError_iff]
    cases tree.value with
    | none => simp
    | some err => simp [settled]
  rw [settledFull_value, ← and_imp, dropped, isPermanentError_iff, and_self]
  by_cases permanent : ∀ failure ∈ tree.leaves, failure.permanent = true
  · have nothing : ¬tree.HidesRetryable := by
      rintro ⟨⟨failure, member, retryable⟩, _⟩
      rw [permanent failure member] at retryable
      cases retryable
    refine ⟨?_, iff_of_true (fun _ => permanent) nothing⟩
    rw [allPermanent_consulted_iff permanent]
    by_cases failures : tree.leaves = []
    · -- Without failures something is looked at all the same, and it is a void.
      have void : none ∈ tree.consulted := by
        obtain ⟨part, looked⟩ := List.exists_mem_of_ne_nil _ (orVoid_ne_nil tree.evidence.read)
        cases part with
        | none => exact looked
        | some failure =>
            have member := mem_leaves_of_consulted looked
            rw [failures] at member
            cases member
      simp [HoldsVoid, failures, void, nothing]
    · constructor
      · intro exactly
        refine ⟨nothing, ?_⟩
        rintro ⟨_, _, void⟩
        exact exactly.mpr ⟨failures, permanent⟩ void
      · rintro ⟨_, solid⟩
        exact iff_of_true (fun void => solid ⟨failures, permanent, void⟩) ⟨failures, permanent⟩
  · have retryable : ∃ failure ∈ tree.leaves, failure.permanent = false := by
      simpa only [not_forall, Bool.not_eq_true, exists_prop] using permanent
    simp [HidesRetryable, HoldsVoid, permanent, retryable]

/-- A cluster-admin error over a rejected request and a timeout. -/
def rejectedAndTimedOut : ErrorTree := .clusterAdmin (.joined [.leaf (.apiError 400), .leaf (.unknown "context deadline exceeded")])

/-- The error is permanent and its operation is dropped, although one of its failures is retryable. -/
theorem timeout_dropped :
    rejectedAndTimedOut.value.any GoError.isPermanentError = true ∧ settled rejectedAndTimedOut.value = true ∧
      .unknown "context deadline exceeded" ∈ rejectedAndTimedOut.leaves ∧
      (Failure.unknown "context deadline exceeded").permanent = false := by
  decide +kernel

end ErrorTree

end Spotter.Nacos
