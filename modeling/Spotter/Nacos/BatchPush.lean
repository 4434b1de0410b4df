import Spotter.Library.DistinctPlaces
import Spotter.Nacos.BatchPartition

/-! # The writes of the batches

`pushPersistentBatches` writes a batch on one of two branches. A batch of registers under an SDK transport with a vendor for
persistent instances is checked first, and a goroutine registers each item that passed; every other batch has a goroutine
with `pushOne` for each item. What a goroutine does is a list of calls with an error at its end. What the calls answer is
given by a function of the goroutine and the call, so it may depend on everything that happens at the same time.

Namespaces are sent by no register of the SDK; permits, log lines and the observer of acknowledged writes are left out.
-/

namespace Spotter.Nacos

open Library Domain Ports

/-! ## The calls -/

/-- How the client reaches the server. -/
inductive Transport where
  | sdk (persistentVendor : Bool)
  | httpCompat
deriving DecidableEq

/-- What the sink and its client are built from. -/
structure WriteConfig where
  lib : WireLib
  groupName : String := ""
  namespaceID : String := ""
  adminManaged : Bool := false
  transport : Transport := .sdk true

def WriteConfig.sdk (config : WriteConfig) : Bool :=
  match config.transport with
  | .sdk _ => true
  | .httpCompat => false

def defaultNamespaceID : String := "public"

def effectiveNamespace (namespaceID : String) : String := if namespaceID = "" then defaultNamespaceID else namespaceID

/-- The parameters of a register, with the namespace and the persistence flag. -/
structure PersistentParams extends InstanceParams where
  namespaceID : String
  ephemeral : Bool
deriving DecidableEq

/-- A register request of the SDK's naming client. -/
structure RegisterRequest where
  ip : String
  port : UInt64
  weight : ℕ
  enable : Bool
  healthy : Bool
  metadata : StringMap
  clusterName : String
  serviceName : String
  groupName : String
  ephemeral : Bool
deriving DecidableEq

inductive WriteCall where
  | recoverWireOwnership (ins : Instance)
  | claimWireIdentity (ins : Instance)
  | releaseWireIdentity (ins : Instance) (success : Bool)
  | ensureClusterHealthCheckDisabled (service cluster : String)
  | registerInstance (request : RegisterRequest)
  | postInstance (params : PersistentParams)
  | deregisterInstance (ins : Instance)

/-- An error of the SDK with its text. -/
structure SDKError where
  text : String
  err : GoError

/-- What the calls answer, for the goroutine of each snapshot index. -/
structure Outcomes where
  recoverWireOwnership : ℕ → Instance → Option GoError
  claimWireIdentity : ℕ → Instance → Option GoError
  ensureClusterHealthCheckDisabled : ℕ → String → String → Option GoError
  registerInstance : ℕ → RegisterRequest → Except SDKError Bool
  postInstance : ℕ → PersistentParams → Option GoError
  deregisterInstance : ℕ → Instance → Option GoError

/-- The calls of a goroutine and the error that it ends with. -/
structure Report where
  calls : List WriteCall := []
  err : Option GoError := none

namespace Report

/-- A check that calls nothing. -/
def check (err : Option GoError) : Report := ⟨[], err⟩

def call (made : WriteCall) (answer : Option GoError) : Report := ⟨[made], answer⟩

/-- The second part follows if the first has no error. -/
def andThen (first next : Report) : Report :=
  if first.err.isSome then first else ⟨first.calls ++ next.calls, next.err⟩

/-- `fmt.Errorf` with `%w` around an error. -/
def wrap (format : String) (report : Report) : Report := { report with err := report.err.map (.wrapped format) }

/-- The deferred release of the wire identity. -/
def releasing (ins : Instance) (report : Report) : Report :=
  { report with calls := report.calls ++ [.releaseWireIdentity ins report.err.isNone] }

end Report

/-! ## One item -/

/-- The text behind the first marker, up to a separator. -/
def codeAfter (marker text : List Char) : Option (List Char) :=
  text.tails.findSome? fun tail =>
    if marker.isPrefixOf tail then some ((tail.drop marker.length).takeWhile fun c => decide (c ∉ " \t\r\n,;:".toList)) else none

/-- The status that an error text of the SDK names. -/
def sdkStatus (text : String) : Option ℤ :=
  ["error code ", "status code: ", "status code "].findSome? fun marker =>
    (codeAfter marker.toList text.toList).bind fun code =>
      (parseInt 64 (String.ofList code)).filter fun status => decide (100 ≤ status ∧ status ≤ 599)

/-- `classifySDKError`: an error that names a status is an `sdkAPIError`. -/
def classifySDKError (e : SDKError) : GoError :=
  match sdkStatus e.text with
  | some status => .classified e.text (decide (400 ≤ status ∧ status < 500)) [e.err]
  | none => e.err

section Items

variable (config : WriteConfig) (o : Outcomes) (index : ℕ)

/-- The request of `sdkNamingFacade.register`; a group that is left open is the facade's own. -/
def registerRequest (p : PersistentParams) : RegisterRequest where
  ip := p.ip
  port := UInt64.ofInt p.port
  weight := 1
  enable := p.enabled
  healthy := p.healthy
  metadata := p.metadata
  clusterName := p.clusterName
  serviceName := p.serviceName
  groupName := effectiveGroup (if p.groupName = "" then effectiveGroup config.groupName else p.groupName)
  ephemeral := p.ephemeral

/-- `RegisterPersistent` of the facade that the client is built with, which reaches the vendor through its naming client. -/
def registerPersistent (p : PersistentParams) : Report :=
  let request := registerRequest config { p with ephemeral := false }
  .call (.registerInstance request) <|
    match o.registerInstance index request with
    | .error e => some (classifySDKError e)
    | .ok ok => if ok then none else some (.errorf "nacos sdk: register rejected" [])

/-- `Client.RegisterInstance`. -/
def registerInstance (p : PersistentParams) : Report :=
  if config.sdk then registerPersistent config o index p else .call (.postInstance p) (o.postInstance index p)

def ensureClusterHealthCheckDisabled (service cluster : String) : Report :=
  .call (.ensureClusterHealthCheckDisabled service cluster) (o.ensureClusterHealthCheckDisabled index service cluster)

/-- The parameters of `Sink.register`, which leave the group and the namespace open. -/
def itemParams (ins : Instance) : PersistentParams where
  serviceName := ins.appCode
  ip := ins.ip
  port := firstPort ins
  clusterName := clusterOf ins
  groupName := ""
  enabled := (persistentWireFlags ins config.sdk).1
  healthy := (persistentWireFlags ins config.sdk).2
  metadata := metadataOf config.lib ins
  namespaceID := ""
  ephemeral := false

/-- `Sink.register`. Over HTTP the health-check set-up comes after the register and its failure is only logged. -/
def register (ins : Instance) : Report :=
  (Report.check (validateMetadataSize (metadataOf config.lib ins))).andThen <|
    (Report.call (.recoverWireOwnership ins) (o.recoverWireOwnership index ins)).andThen <|
      (Report.call (.claimWireIdentity ins) (o.claimWireIdentity index ins)).andThen <| .releasing ins <|
          (if config.adminManaged && config.sdk then
              (ensureClusterHealthCheckDisabled o index ins.appCode (clusterOf ins)).wrap
                ("nacos: register " ++ ins.instanceId ++ " blocked by cluster health-check setup: %w")
            else {}).andThen <|
            ((registerInstance config o index (itemParams config ins)).wrap ("nacos: register " ++ ins.instanceId ++ ": %w")).andThen <|
              if config.adminManaged && !config.sdk then
                { ensureClusterHealthCheckDisabled o index ins.appCode (clusterOf ins) with err := none }
              else {}

/-- `pushOne`; nothing is written for an instance without an address or of unknown status. -/
def pushOne (ins : Instance) : Report :=
  if ins.status = instanceStatusOffline then
    if ins.ip = "" then {} else .call (.deregisterInstance ins) (o.deregisterInstance index ins)
  else if ins.status = instanceStatusOnline ∨ ins.status = instanceStatusUnhealthy then
    if ins.ip = "" then {} else register config o index ins
  else {}

/-- The parameters of the vendor branch, with the group and the namespace of the batch's key. -/
def batchParams (ins : Instance) : PersistentParams where
  serviceName := ins.appCode
  ip := ins.ip
  port := firstPort ins
  clusterName := clusterOf ins
  groupName := effectiveGroup (effectiveGroup config.groupName)
  enabled := (persistentWireFlags ins true).1
  healthy := (persistentWireFlags ins true).2
  metadata := metadataOf config.lib ins
  namespaceID := effectiveNamespace (effectiveNamespace config.namespaceID)
  ephemeral := false

/-- The goroutine of an item on the vendor branch. -/
def vendorItem (ins : Instance) (p : PersistentParams) : Report :=
  (Report.call (.recoverWireOwnership ins) (o.recoverWireOwnership index ins)).andThen <|
    (Report.call (.claimWireIdentity ins) (o.claimWireIdentity index ins)).andThen <| .releasing ins <|
        (if config.adminManaged then ensureClusterHealthCheckDisabled o index p.serviceName p.clusterName else {}).andThen <|
          registerPersistent config o index p

end Items

/-! ## The two branches -/

/-- The errors by snapshot index, and the calls of each item's goroutine. -/
structure BatchWrites where
  errs : ℕ → Option GoError := fun _ => none
  calls : ℕ → List WriteCall := fun _ => []

namespace BatchWrites

/-- A goroutine of the per-item branch stores its error. -/
def store (w : BatchWrites) (index : ℕ) (report : Report) : BatchWrites where
  errs := Function.update w.errs index report.err
  calls := Function.update w.calls index (w.calls index ++ report.calls)

/-- A goroutine of the vendor branch stores its error if it has one. -/
def record (w : BatchWrites) (index : ℕ) (report : Report) : BatchWrites where
  errs := if report.err.isSome then Function.update w.errs index report.err else w.errs
  calls := Function.update w.calls index (w.calls index ++ report.calls)

end BatchWrites

/-- The errors and the parameters of the vendor branch after its first pass. -/
structure Prepared where
  errs : ℕ → Option GoError
  params : List PersistentParams := []

section Batches

variable (config : WriteConfig) (o : Outcomes)

/-- The first pass of the vendor branch at an item. -/
def Prepared.add (prepared : Prepared) (entry : Instance × ℕ) : Prepared :=
  if entry.1.ip = "" then { prepared with errs := Function.update prepared.errs entry.2 none }
  else
    match validateMetadataSize (metadataOf config.lib entry.1) with
    | some metadataErr => { prepared with errs := Function.update prepared.errs entry.2 (some metadataErr) }
    | none => { prepared with params := prepared.params ++ [batchParams config entry.1] }

/-- The instances and indexes that the second pass takes, which are the ones without an error. -/
def validEntries (errs : ℕ → Option GoError) (entries : List (Instance × ℕ)) : List (Instance × ℕ) :=
  entries.filter fun entry => decide (entry.1.ip ≠ "") && (errs entry.2).isNone

/-- The branch of a register batch with a vendor: the parameters of the first pass are matched by position with the instances
and indexes of the second. -/
def vendorBranch (w : BatchWrites) (batch : PersistentBatch) : BatchWrites :=
  let entries := batch.items.zip batch.indexes
  let prepared := entries.foldl (Prepared.add config) { errs := w.errs }
  if prepared.params.isEmpty then { w with errs := prepared.errs }
  else
    (prepared.params.zip (validEntries prepared.errs entries)).foldl
      (fun w task => w.record task.2.2 (vendorItem config o task.2.2 task.2.1 task.1)) { w with errs := prepared.errs }

def itemBranch (w : BatchWrites) (batch : PersistentBatch) : BatchWrites :=
  (batch.items.zip batch.indexes).foldl (fun w entry => w.store entry.2 (pushOne config o entry.2 entry.1)) w

def applyBatch (w : BatchWrites) (batch : PersistentBatch) : BatchWrites :=
  if batch.key.operation = .register ∧ config.transport = .sdk true then vendorBranch config o w batch
  else itemBranch config o w batch

/-- The writes of `pushPersistentBatches`. The pairs run at the same time, but every index is written by one goroutine, so any
order of the batches stands for a run. -/
def applyBatches (order : List PersistentBatch) : BatchWrites := order.foldl (applyBatch config o) {}

end Batches

/-! ## Items with the same calls and the same kind of error -/

/-- What the executor and the retry queue see of an item. -/
inductive ItemOutcome where
  | succeeded
  | transient
  | permanent
deriving DecidableEq

def outcomeOf : Option GoError → ItemOutcome
  | none => .succeeded
  | some err => if err.isPermanentError then .permanent else .transient

theorem outcomeOf_eq_succeeded_iff {err : Option GoError} : outcomeOf err = .succeeded ↔ err = none := by
  cases err with
  | none => simp [outcomeOf]
  | some err => cases kind : err.isPermanentError <;> simp [outcomeOf, kind]

variable {report : Report}

namespace Report

/-- Two reports have the same calls and the same kind of error. -/
structure Agrees (report other : Report) : Prop where
  calls : report.calls = other.calls
  outcome : outcomeOf report.err = outcomeOf other.err

theorem Agrees.refl (report : Report) : report.Agrees report := ⟨rfl, rfl⟩

theorem Agrees.isNone {other : Report} (agrees : report.Agrees other) : report.err.isNone = other.err.isNone := by
  rw [Bool.eq_iff_iff, Option.isNone_iff_eq_none, Option.isNone_iff_eq_none, ← outcomeOf_eq_succeeded_iff, agrees.outcome,
    outcomeOf_eq_succeeded_iff]

theorem Agrees.andThen {first first' next next' : Report} (before : first.Agrees first') (behind : next.Agrees next') :
    (first.andThen next).Agrees (first'.andThen next') := by
  have same : first.err.isSome = first'.err.isSome := by
    rw [← Option.not_isNone, before.isNone, Option.not_isNone]
  unfold Report.andThen
  rw [same]
  split_ifs
  · exact before
  · exact ⟨congrArg₂ _ before.calls behind.calls, behind.outcome⟩

/-- Wrapping an error keeps its kind. -/
theorem Agrees.wrap (report : Report) (format : String) : report.Agrees (report.wrap format) := by
  refine ⟨rfl, ?_⟩
  rw [Report.wrap]
  cases report.err with
  | none => rfl
  | some err => rfl

theorem Agrees.releasing {other : Report} (agrees : report.Agrees other) (ins : Instance) :
    (report.releasing ins).Agrees (other.releasing ins) := by
  refine ⟨?_, agrees.outcome⟩
  rw [Report.releasing, Report.releasing, agrees.calls, agrees.isNone]

theorem andThen_empty (report : Report) : report.andThen {} = report := by
  rw [Report.andThen]
  split_ifs with failed
  · rfl
  · cases report with
    | mk calls err =>
      rw [Option.not_isSome_iff_eq_none] at failed
      simp_all

end Report

section Items

variable {config : WriteConfig} (o : Outcomes) (index : ℕ) {ins : Instance}

theorem effectiveGroup_ne_empty (group : String) : effectiveGroup group ≠ "" := by
  rw [effectiveGroup]
  split_ifs with empty
  · decide
  · exact empty

theorem effectiveGroup_effectiveGroup (group : String) : effectiveGroup (effectiveGroup group) = effectiveGroup group :=
  if_neg (effectiveGroup_ne_empty group)

/-- Both paths send the same request: the group that the per-item path leaves open is the one that the batch names. -/
theorem registerPersistent_batchParams (sdk : config.sdk = true) :
    registerPersistent config o index (batchParams config ins) = registerInstance config o index (itemParams config ins) := by
  have request : registerRequest config { batchParams config ins with ephemeral := false } =
      registerRequest config { itemParams config ins with ephemeral := false } := by
    simp only [registerRequest, batchParams, itemParams, effectiveGroup_effectiveGroup, effectiveGroup_ne_empty, ↓reduceIte, sdk]
  rw [registerInstance, if_pos sdk, registerPersistent, registerPersistent, request]

/-- An item that passed the checks is registered by the vendor branch as by `register`. -/
theorem vendorItem_agrees (sdk : config.sdk = true) (small : validateMetadataSize (metadataOf config.lib ins) = none) :
    (vendorItem config o index ins (batchParams config ins)).Agrees (register config o index ins) := by
  rw [register, small, vendorItem, registerPersistent_batchParams o index sdk, sdk, Bool.and_true, Bool.not_true, Bool.and_false]
  simp only [Bool.false_eq_true, ↓reduceIte, Report.andThen_empty]
  refine (Report.Agrees.refl _).andThen ((Report.Agrees.refl _).andThen (.releasing (.andThen ?_ (.wrap _ _)) ins))
  split_ifs
  · exact .wrap _ _
  · exact .refl _

theorem pushOne_of_register (live : persistentBatchOperation ins.status = some .register) :
    pushOne config o index ins = if ins.ip = "" then {} else register config o index ins := by
  rw [persistentBatchOperation] at live
  split_ifs at live with online
  · have notOffline : ins.status ≠ instanceStatusOffline := by
      rcases online with same | same <;> rw [same] <;> decide
    rw [pushOne, if_neg notOffline, if_pos online]
  · cases live

end Items

/-! ## The branches, index by index -/

namespace BatchWrites

/-- What stands at an index. -/
def read (w : BatchWrites) (index : ℕ) : Option GoError × List WriteCall := (w.errs index, w.calls index)

theorem store_places {τ : Type} (place : τ → ℕ) (report : τ → Report) :
    WritesOwnPlaces read (fun w task => w.store (place task) (report task)) (fun task => [place task]) := by
  intro w task index apart
  rw [List.mem_singleton] at apart
  simp only [read, store, Function.update_of_ne apart]

theorem record_places {τ : Type} (place : τ → ℕ) (report : τ → Report) :
    WritesOwnPlaces read (fun w task => w.record (place task) (report task)) (fun task => [place task]) := by
  intro w task index apart
  rw [List.mem_singleton] at apart
  simp only [read, record, Function.update_of_ne apart]
  split_ifs
  · rw [Function.update_of_ne apart]
  · rfl

/-- The index was not written yet. -/
def Fresh (w : BatchWrites) (index : ℕ) : Prop := w.errs index = none ∧ w.calls index = []

theorem record_of_fresh {w : BatchWrites} {index : ℕ} (fresh : w.Fresh index) (report : Report) :
    (w.record index report).read index = (report.err, report.calls) := by
  rw [Fresh] at fresh
  cases failed : report.err with
  | none | some err => simp [read, record, fresh, failed]

end BatchWrites

/-- An item was written as `pushOne` writes it. -/
def WrittenAsOne (config : WriteConfig) (o : Outcomes) (w : BatchWrites) (entry : Instance × ℕ) : Prop :=
  Report.Agrees ⟨w.calls entry.2, w.errs entry.2⟩ (pushOne config o entry.2 entry.1)

variable {entry : Instance × ℕ}

theorem writtenAsOne_of_read {config : WriteConfig} {o : Outcomes} {w : BatchWrites}
    (stands : w.read entry.2 = (report.err, report.calls)) (agrees : report.Agrees (pushOne config o entry.2 entry.1)) :
    WrittenAsOne config o w entry := by
  obtain ⟨errs, calls⟩ := Prod.mk.inj stands
  rw [WrittenAsOne, errs, calls]
  exact agrees

variable {batch : PersistentBatch}

section Vendor

variable (config : WriteConfig) (o : Outcomes) {w : BatchWrites} {entries : List (Instance × ℕ)}

/-- The item passes the checks of the first pass. -/
def passes (entry : Instance × ℕ) : Bool :=
  decide (entry.1.ip ≠ "") && (validateMetadataSize (metadataOf config.lib entry.1)).isNone

/-- The error that the first pass leaves at an index without one. -/
def checkError (ins : Instance) : Option GoError :=
  if ins.ip = "" then none else validateMetadataSize (metadataOf config.lib ins)

theorem prepared_places : WritesOwnPlaces Prepared.errs (Prepared.add config) (fun entry => [entry.2]) := by
  intro prepared entry index apart
  rw [List.mem_singleton] at apart
  rw [Prepared.add]
  split_ifs
  · exact Function.update_of_ne apart _ _
  · split
    · exact Function.update_of_ne apart _ _
    · rfl

theorem add_errs {prepared : Prepared} (clear : prepared.errs entry.2 = none) :
    (prepared.add config entry).errs entry.2 = checkError config entry.1 := by
  rw [Prepared.add, checkError]
  split_ifs
  · exact Function.update_self _ _ _
  · cases validateMetadataSize (metadataOf config.lib entry.1) with
    | some err => exact Function.update_self _ _ _
    | none => exact clear

theorem prepared_params (prepared : Prepared) : (entries.foldl (Prepared.add config) prepared).params =
      prepared.params ++ (entries.filter (passes config)).map fun entry => batchParams config entry.1 := by
  induction entries generalizing prepared with
  | nil => exact (List.append_nil _).symm
  | cons entry rest ih =>
    rw [List.foldl_cons, ih, Prepared.add]
    by_cases unnamed : entry.1.ip = ""
    · simp [passes, unnamed]
    · cases large : validateMetadataSize (metadataOf config.lib entry.1) with
      | some err | none => simp [passes, unnamed, large]

theorem zip_map_self {α β : Type*} (f : α → β) (list : List α) : (list.map f).zip list = list.map fun a => (f a, a) := by
  induction list with
  | nil => rfl
  | cons first rest ih => rw [List.map_cons, List.zip_cons_cons, ih, List.map_cons]

/-- The writes after the first pass of the vendor branch. -/
def checked (w : BatchWrites) (entries : List (Instance × ℕ)) : BatchWrites :=
  { w with errs := (entries.foldl (Prepared.add config) { errs := w.errs }).errs }

theorem vendorBranch_apart (batch : PersistentBatch) {index : ℕ} (apart : index ∉ (batch.items.zip batch.indexes).map Prod.snd) :
    (vendorBranch config o w batch).read index = w.read index := by
  have first : (checked config w (batch.items.zip batch.indexes)).read index = w.read index :=
    Prod.ext ((prepared_places config).foldl_single_apart _ apart) rfl
  rw [vendorBranch]
  split_ifs
  · exact first
  · refine ((BatchWrites.record_places _ _).foldl_single_apart _ ?_).trans first
    intro member
    obtain ⟨task, among, rfl⟩ := List.mem_map.mp member
    exact apart (List.mem_map_of_mem (List.mem_of_mem_filter (List.of_mem_zip among).2))

variable (distinct : (entries.map Prod.snd).Nodup)

include distinct

section

variable {errs : ℕ → Option GoError} (fresh : ∀ entry ∈ entries, errs entry.2 = none)

include fresh

theorem prepared_errs (member : entry ∈ entries) :
    (entries.foldl (Prepared.add config) { errs := errs }).errs entry.2 = checkError config entry.1 := by
  obtain ⟨found, before, behind⟩ := (prepared_places config).foldl_single { errs := errs } distinct member
  rw [behind]
  refine add_errs config ?_
  rw [before]
  exact fresh entry member

/-- The positions of the two passes match: the items without an error are those that have parameters. -/
theorem validEntries_prepared :
    validEntries (entries.foldl (Prepared.add config) { errs := errs }).errs entries = entries.filter (passes config) := by
  refine List.filter_congr fun entry member => ?_
  rw [prepared_errs config distinct fresh member, passes, checkError]
  by_cases unnamed : entry.1.ip = ""
  · simp [unnamed]
  · rw [if_neg unnamed]

end

theorem checked_read (fresh : ∀ entry ∈ entries, w.Fresh entry.2) (member : entry ∈ entries) :
    (checked config w entries).read entry.2 = (checkError config entry.1, []) := by
  have errs := prepared_errs config distinct (fun entry member => (fresh entry member).1) member
  exact Prod.ext errs (fresh entry member).2

/-- The vendor branch, with the goroutines of the items that passed. -/
theorem vendorBranch_eq (fresh : ∀ entry ∈ entries, w.Fresh entry.2) (zipped : batch.items.zip batch.indexes = entries) :
    vendorBranch config o w batch = (entries.filter (passes config)).foldl
      (fun w entry => w.record entry.2 (vendorItem config o entry.2 entry.1 (batchParams config entry.1)))
      (checked config w entries) := by
  have clear : ∀ entry ∈ entries, w.errs entry.2 = none := fun entry member => (fresh entry member).1
  rw [vendorBranch, zipped, checked]
  simp only [validEntries_prepared config distinct clear, prepared_params, List.nil_append, zip_map_self, List.isEmpty_map,
    List.foldl_map]
  split_ifs with nothing
  · rw [List.isEmpty_iff.mp nothing]
    rfl
  · rfl

/-- The vendor branch writes each item as `pushOne` does. -/
theorem vendorBranch_writes (sdk : config.sdk = true) (fresh : ∀ entry ∈ entries, w.Fresh entry.2)
    (zipped : batch.items.zip batch.indexes = entries) (member : entry ∈ entries)
    (live : persistentBatchOperation entry.1.status = some .register) :
    WrittenAsOne config o (vendorBranch config o w batch) entry := by
  have start := checked_read config distinct fresh member
  have goroutines := BatchWrites.record_places Prod.snd
    fun entry : Instance × ℕ => vendorItem config o entry.2 entry.1 (batchParams config entry.1)
  rw [vendorBranch_eq config o distinct fresh zipped]
  by_cases passed : passes config entry = true
  · -- The goroutine finds the index as the first pass left it.
    obtain ⟨named, small⟩ := Bool.and_eq_true_iff.mp passed
    rw [decide_eq_true_eq] at named
    rw [Option.isNone_iff_eq_none] at small
    have own : ((entries.filter (passes config)).map Prod.snd).Nodup := distinct.sublist (List.filter_sublist.map Prod.snd)
    obtain ⟨found, before, behind⟩ :=
      goroutines.foldl_single (checked config w entries) own (List.mem_filter.mpr ⟨member, passed⟩)
    rw [start, checkError, if_neg named, small] at before
    have untouched : found.Fresh entry.2 := Prod.mk.inj before
    refine writtenAsOne_of_read (behind.trans (BatchWrites.record_of_fresh untouched _)) ?_
    rw [pushOne_of_register o entry.2 live, if_neg named]
    exact vendorItem_agrees o entry.2 sdk small
  · -- No goroutine has the index.
    have apart : entry.2 ∉ (entries.filter (passes config)).map Prod.snd := by
      intro again
      obtain ⟨other, among, same⟩ := List.mem_map.mp again
      obtain ⟨listed, otherPassed⟩ := List.mem_filter.mp among
      rw [List.inj_on_of_nodup_map distinct listed member same] at otherPassed
      exact passed otherPassed
    have agrees : Report.Agrees ⟨[], checkError config entry.1⟩ (pushOne config o entry.2 entry.1) := by
      rw [pushOne_of_register o entry.2 live, checkError]
      split_ifs with unnamed
      · exact .refl _
      · cases large : validateMetadataSize (metadataOf config.lib entry.1) with
        | none => exact absurd (by simp [passes, unnamed, large]) passed
        | some err =>
          rw [register, large]
          exact .refl _
    exact writtenAsOne_of_read ((goroutines.foldl_single_apart _ apart).trans start) agrees

end Vendor

section Batches

variable (config : WriteConfig) (o : Outcomes)

theorem applyBatch_places : WritesOwnPlaces BatchWrites.read (applyBatch config o) PersistentBatch.indexes := by
  intro w batch index apart
  have elsewhere : index ∉ (batch.items.zip batch.indexes).map Prod.snd := by
    intro member
    obtain ⟨entry, among, rfl⟩ := List.mem_map.mp member
    exact apart (List.of_mem_zip among).2
  rw [applyBatch]
  split_ifs
  · exact vendorBranch_apart config o batch elsewhere
  · exact (BatchWrites.store_places _ _).foldl_single_apart w elsewhere

/-- A batch whose indexes were not written yet writes its items as `pushOne` does. -/
theorem applyBatch_writes {w : BatchWrites} (distinct : batch.indexes.Nodup)
    (level : batch.items.length = batch.indexes.length) (fresh : ∀ index ∈ batch.indexes, w.Fresh index)
    (keyed : ∀ entry ∈ batch.items.zip batch.indexes, batchKeyOf (some entry.1) = some batch.key)
    (member : entry ∈ batch.items.zip batch.indexes) : WrittenAsOne config o (applyBatch config o w batch) entry := by
  have places : (batch.items.zip batch.indexes).map Prod.snd = batch.indexes := List.map_snd_zip (Nat.le_of_eq level.symm)
  have untouched : ∀ entry ∈ batch.items.zip batch.indexes, w.Fresh entry.2 := fun entry member => fresh _ (List.of_mem_zip member).2
  rw [← places] at distinct
  rw [applyBatch]
  split_ifs with vendor
  · refine vendorBranch_writes config o distinct ?_ untouched rfl member ?_
    · rw [WriteConfig.sdk, vendor.2]
    · have key := keyed entry member
      rw [batchKeyOf, Option.bind_some, Option.map_eq_some_iff] at key
      obtain ⟨operation, known, same⟩ := key
      rw [known, ← vendor.1, ← same]
  · obtain ⟨found, before, behind⟩ := (BatchWrites.store_places Prod.snd
      fun entry : Instance × ℕ => pushOne config o entry.2 entry.1).foldl_single w distinct member
    obtain ⟨errs, calls⟩ := Prod.mk.inj before
    have still : found.Fresh entry.2 := ⟨errs.trans (untouched entry member).1, calls.trans (untouched entry member).2⟩
    exact writtenAsOne_of_read (behind.trans (by simp [BatchWrites.read, BatchWrites.store, still.2])) (.refl _)

variable {snapshot : Instances} {order : List PersistentBatch}
  (arranged : order.Perm (splitPersistentBatchesForScope snapshot maxPersistentBatchSize))

include arranged

theorem order_indexes_perm : (order.flatMap PersistentBatch.indexes).Perm (admitted snapshot) :=
  (arranged.flatMap_right _).trans (split_indexes_perm snapshot maxPersistentBatchSize)

/-- Whatever the order of the batches, every item is written as `pushOne` writes it. -/
theorem applyBatches_writes {index : ℕ} {ins : Instance} (item : snapshot[index]? = some (some ins))
    (known : (persistentBatchOperation ins.status).isSome = true) :
    WrittenAsOne config o (applyBatches config o order) (ins, index) := by
  have indexes := order_indexes_perm arranged
  have among : index ∈ order.flatMap PersistentBatch.indexes := indexes.mem_iff.mpr (mem_admitted.mpr ⟨ins, item, known⟩)
  obtain ⟨batch, listed, place⟩ := List.mem_flatMap.mp among
  have distinct : (order.flatMap PersistentBatch.indexes).Nodup := indexes.nodup_iff.mpr (admitted_nodup snapshot)
  obtain ⟨found, before, behind⟩ := (applyBatch_places config o).foldl_mem {} distinct listed
  have own : batch ∈ splitPersistentBatchesForScope snapshot (maxPersistentBatchSize : ℤ).toNat := arranged.mem_iff.mp listed
  obtain ⟨level, aligned⟩ := List.forall₂_iff_zip.mp (split_aligned own)
  have places : (batch.items.zip batch.indexes).map Prod.snd = batch.indexes := List.map_snd_zip (Nat.le_of_eq level.symm)
  have member : (ins, index) ∈ batch.items.zip batch.indexes := by
    rw [← places] at place
    obtain ⟨⟨other, _⟩, zipped, rfl⟩ := List.mem_map.mp place
    have same := (aligned zipped).1.symm.trans item
    rw [Option.some_inj, Option.some_inj] at same
    exact same ▸ zipped
  have fresh : ∀ other ∈ batch.indexes, found.Fresh other := fun other member => Prod.mk.inj (before other member)
  have written := applyBatch_writes config o ((List.nodup_flatMap.mp distinct).1 batch listed) level fresh
    (fun entry zipped => (aligned zipped).2) member
  obtain ⟨errs, calls⟩ := Prod.mk.inj (behind index place)
  rw [WrittenAsOne, applyBatches, errs, calls]
  exact written

/-- For every order of the batches and every outcome of the calls: the goroutine of an item makes the calls that `pushOne` makes,
among them the same register requests, and the item ends without an error, with a transient or with a permanent one as `pushOne`
does. There are no calls for other indexes. -/
theorem batches_write_as_pushOne :
    (∀ index ins, snapshot[index]? = some (some ins) → (persistentBatchOperation ins.status).isSome = true →
      (applyBatches config o order).calls index = (pushOne config o index ins).calls ∧
        outcomeOf ((applyBatches config o order).errs index) = outcomeOf (pushOne config o index ins).err) ∧
      ∀ index, (¬ ∃ ins, snapshot[index]? = some (some ins) ∧ (persistentBatchOperation ins.status).isSome = true) →
        (applyBatches config o order).calls index = [] ∧ (applyBatches config o order).errs index = none := by
  refine ⟨fun index ins item known => ?_, fun index other => ?_⟩
  · have written := applyBatches_writes config o arranged item known
    exact ⟨written.calls, written.outcome⟩
  · have apart : index ∉ order.flatMap PersistentBatch.indexes := by
      rw [(order_indexes_perm arranged).mem_iff, mem_admitted]
      exact other
    obtain ⟨errs, calls⟩ := Prod.mk.inj ((applyBatch_places config o).foldl_apart {} apart)
    exact ⟨calls, errs⟩

end Batches

/-- Every call succeeds. -/
def allDone : Outcomes where
  recoverWireOwnership _ _ := none
  claimWireIdentity _ _ := none
  ensureClusterHealthCheckDisabled _ _ _ := none
  registerInstance _ _ := .ok true
  postInstance _ _ := none
  deregisterInstance _ _ := none

/-- A sink whose payloads are the instances' ids. -/
def idPayloads : WriteConfig where
  lib := { marshal := fun ins => ins.instanceId, unmarshal := fun _ => none, compress := id, decompress := some,
           formatFloat := fun _ => "0", parseFloat := fun _ => none }

def webInstance : Instance :=
  { instanceId := "web-1", appCode := "shop", ip := "10.0.0.1", provider := "k8s", status := instanceStatusOnline, enabled := true }

/-- The request that the instance is registered with. -/
def webRequest : RegisterRequest where
  ip := "10.0.0.1"
  port := 0
  weight := 1
  enable := true
  healthy := true
  metadata := metadataOf idPayloads.lib webInstance
  clusterName := "k8s"
  serviceName := "shop"
  groupName := "DEFAULT_GROUP"
  ephemeral := false

/-- The first item has no address, the second one is registered as by `pushOne`. -/
theorem web_written_as_pushOne :
    let snapshot := [some { webInstance with ip := "" }, some webInstance]
    let calls := (applyBatches idPayloads allDone (splitPersistentBatchesForScope snapshot 100)).calls 1
    calls = (pushOne idPayloads allDone 1 webInstance).calls ∧ .registerInstance webRequest ∈ calls ∧
      outcomeOf (pushOne idPayloads allDone 1 webInstance).err = .succeeded := by
  intro snapshot calls
  have written := batches_write_as_pushOne idPayloads allDone (List.Perm.refl (splitPersistentBatchesForScope snapshot 100))
  have same : calls = _ := (written.1 1 webInstance rfl rfl).1
  have registers : WriteCall.registerInstance webRequest ∈ (pushOne idPayloads allDone 1 webInstance).calls :=
    List.mem_cons_of_mem _ (List.mem_cons_of_mem _ List.mem_cons_self)
  exact ⟨same, same ▸ registers, by decide +kernel⟩

end Spotter.Nacos
