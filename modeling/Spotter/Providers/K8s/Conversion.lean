import Spotter.Providers.Common
import Spotter.Robot.CoalescingQueue

/-! # From pods to instances

A pod becomes an instance when its application code is known and allowed. Everything the conversion
reads of a pod is kept; single-precision arithmetic and the lower-casing of text belong to the
language's library and are parameters.
-/

namespace Spotter.Providers.K8s

open Library Domain Robot

inductive PodPhase where
  | pending
  | running
  | succeeded
  | failed
  | unknown
  | other
deriving DecidableEq

inductive Protocol where
  | tcp
  | udp
  | sctp
deriving DecidableEq

/-- A resource quantity through its two views: an exact integer if there is one, and its text. -/
structure Quantity where
  asInt64 : Option ℤ := some 0
  text : String := "0"
deriving DecidableEq

structure EnvVar where
  name : String
  value : String
deriving DecidableEq

structure ContainerPort where
  name : String
  containerPort : ℤ
  protocol : Protocol
deriving DecidableEq

structure Container where
  name : String
  image : String := ""
  env : List EnvVar := []
  ports : List ContainerPort := []
  cpuLimit : Quantity := {}
  memoryLimit : Quantity := {}
deriving DecidableEq

/-- A container's status: whether its state is running, and the reasons of a waiting state and of the
last termination. -/
structure ContainerStatus where
  ready : Bool
  running : Bool
  waiting : Option String := none
  lastTerminated : Option String := none
deriving DecidableEq

structure Pod where
  podNamespace : String
  name : String
  uid : String
  resourceVersion : String
  labels : FiniteMap String String := ∅
  deletionTimestamp : Option ℤ := none
  phase : PodPhase
  reason : String := ""
  podIP : String := ""
  containers : List Container := []
  containerStatuses : List ContainerStatus := []
deriving DecidableEq

variable (pod : Pod)

namespace Pod

/-- A pod's key in the informer stores. -/
def key : String := pod.podNamespace ++ "/" ++ pod.name

/-- The deletion timestamp is set to a real time. -/
def deleting : Bool := pod.deletionTimestamp.any fun time => decide (time ≠ 0)

end Pod

/-- Library functions of the source language. -/
structure ConversionLib where
  toLower : String → String
  float32 : ℤ → UInt32
  float32Thousandth : ℤ → UInt32
  float32Add : UInt32 → UInt32 → UInt32

/-! ## Numbers -/

def digitValue (c : Char) : Option ℕ := if c.isDigit then some (c.toNat - '0'.toNat) else none

/-- The digits of an unsigned 64-bit number after a first part; the scan stops where the number gets too large. -/
def scanDigits (value : ℕ) : List Char → Option ℕ
  | [] => some value
  | c :: rest =>
    (digitValue c).bind fun digit =>
      if 10 * value + digit < 2 ^ 64 then scanDigits (10 * value + digit) rest else some (2 ^ 64 - 1)

/-- `strconv.ParseUint` to the base ten: without an error, or with the largest number for one that is too large. -/
def parseDigits : List Char → Option ℕ
  | [] => none
  | digits => scanDigits 0 digits

/-- A 64-bit integer of the given sign; a value out of range becomes the nearest one. -/
def clampInt64 (negative : Bool) (magnitude : ℕ) : ℤ :=
  if negative then max (-(magnitude : ℤ)) (-2 ^ 63) else min (magnitude : ℤ) (2 ^ 63 - 1)

/-- `strconv.ParseInt` with its error dropped: text that is no number reads as zero. -/
def parseInt64 (text : String) : ℤ :=
  match text.toList with
  | '-' :: digits => ((parseDigits digits).map (clampInt64 true)).getD 0
  | '+' :: digits => ((parseDigits digits).map (clampInt64 false)).getD 0
  | digits => ((parseDigits digits).map (clampInt64 false)).getD 0

def toInt32 (n : ℤ) : ℤ := Int.bmod n (2 ^ 32)

/-- The first run of digits of a text. -/
def firstDigits (text : String) : String :=
  String.ofList ((text.toList.dropWhile fun c => !c.isDigit).takeWhile Char.isDigit)

def formatCpuSize (lib : ConversionLib) (quantity : Quantity) : UInt32 :=
  match quantity.asInt64 with
  | some count => lib.float32 count
  | none => lib.float32Thousandth (parseInt64 (firstDigits quantity.text))

def formatMemorySize (quantity : Quantity) : ℤ :=
  let bytes := quantity.asInt64.getD 0
  if quantity.text.toList.contains 'i' then toInt32 ((bytes.tdiv 1024).tdiv 1024)
  else toInt32 ((bytes.tdiv 1000).tdiv 1000)

/-! ## Parts of the instance -/

/-- The environment of the container named "application", the last one if there are several. -/
def applicationEnv : Option (FiniteMap String String) :=
  pod.containers.foldl (fun found container =>
    if container.name = "application" then
      some (container.env.foldl (fun envs env => envs.insert env.name env.value) ∅)
    else found) none

/-- The environment entries of every container named "application", later ones winning. -/
def applicationEnvs : FiniteMap String String :=
  pod.containers.foldl (fun envs container =>
    if container.name = "application" then
      container.env.foldl (fun envs env => envs.insert env.name env.value) envs
    else envs) ∅

def formatLableInfo (originLables : FiniteMap String String) (envs : Option (FiniteMap String String)) :
    FiniteMap String String :=
  let withSan := match envs.bind fun envs => envs.lookup instanceSpringApplicationName with
    | some san => originLables.insert instanceCompatibilityLabelEnvSan san
    | none => originLables
  let withNamespace := withSan.insert instanceCompatibilityLabelAosNamespace pod.podNamespace
  if originLables = ∅ then withNamespace
  else
    let app := (originLables.lookup "app").getD ""
    let drHost := if (originLables.lookup "deploy-id").isSome then app ++ "." ++ pod.podNamespace else app
    let withHost := (withNamespace.insert instanceCompatibilityLabelAosApp app).insert
      instanceCompatibilityLabelAosDrHost drHost
    match originLables.lookup "mark" with
    | some mark => withHost.insert instanceCompatibilityLabelAosMark mark
    | none => withHost

def formatAppPort : List PortInfo :=
  if pod.containers.isEmpty then []
  else
    { name := "dubbo-7096", protocol := protoDubbo, port := 7096 } ::
      pod.containers.flatMap fun container => container.ports.map fun p =>
        let proto := if p.protocol = .tcp then
            if "http".toList.isPrefixOf p.name.toList then protoHTTP
            else if "grpc".toList.isPrefixOf p.name.toList then protoGRPC
            else ""
          else ""
        { name := p.name, protocol := proto, port := p.containerPort }

def formatAppCode : String :=
  match pod.labels.lookup "app-code", pod.labels.lookup "cadvisor-app" with
  | some code, _ => code
  | none, some code => code
  | none, none => pod.podNamespace ++ "-" ++ (pod.labels.lookup "name").getD ""

/-- Every declared container reports a status, is ready and runs. -/
def containersReady : Bool :=
  !pod.containers.isEmpty && decide (pod.containerStatuses.length = pod.containers.length) &&
    pod.containerStatuses.all fun status => status.ready && status.running

def formatStatus (obj : Option QueueObject) (pod : Pod) : ℤ :=
  if obj.any fun obj => decide (obj.event = .delete) then instanceStatusOffline
  else if pod.deleting then instanceStatusOffline
  else match pod.phase with
    | .running => if containersReady pod then instanceStatusOnline else instanceStatusUnhealthy
    | .failed => if pod.reason = "Evicted" then instanceStatusUnhealthy else instanceStatusOffline
    | .pending => instanceStatusUnhealthy
    | .succeeded => instanceStatusOffline
    | .unknown => instanceStatusOffline
    | .other => instanceStatusOffline

def formatEnvType (lib : ConversionLib) (pod : Pod) (envType : String) : String :=
  let chosen :=
    match pod.labels.lookup "env-type", pod.labels.lookup "K8S_CLUSTER_TYPE" with
    | some env, other => if envType ≠ "" then env else other.getD envType
    | none, some env => if envType = "" then env else envType
    | none, none => envType
  let lower := lib.toLower chosen
  if lower = "online" then envProduct else lower

def formatContainerEnabled : Bool :=
  decide (pod.phase = .running) && containersReady pod && pod.deletionTimestamp.isNone

/-- The container waits in a crash loop. -/
def ContainerStatus.crashLoop (status : ContainerStatus) : Bool :=
  !status.ready && decide (status.waiting = some "CrashLoopBackOff")

def formatState : String :=
  if pod.deleting then instanceStateTerminated
  else match pod.phase with
    | .pending => instanceStatePending
    | .failed => if pod.reason = "Evicted" then instanceStateEvicted else instanceStateFailed
    | .succeeded => instanceStateTerminated
    | .unknown => instanceStateUnknown
    | .other => instanceStateUnknown
    | .running =>
      if containersReady pod then instanceStateRunning
      else if pod.containerStatuses.any fun status =>
          status.crashLoop && decide (status.lastTerminated = some "Error") then instanceStateError
      else if pod.containerStatuses.any ContainerStatus.crashLoop then instanceStateCrash
      else instanceStateProbing

def formatIDC : String :=
  match pod.labels.lookup "idc" with
  | some idc => idc
  | none => ((applicationEnvs pod).lookup "APP_IDC").getD ""

def formatCluster : String :=
  match pod.labels.lookup "cluster-name", pod.labels.lookup "cluster" with
  | some name, other =>
    if name ≠ "" then name else other.getD (((applicationEnvs pod).lookup "K8S_CLUSTER_NAME").getD "")
  | none, some cluster => cluster
  | none, none => ((applicationEnvs pod).lookup "K8S_CLUSTER_NAME").getD ""

/-- The last cluster type that a container's environment names. -/
def containerEnvType : String :=
  (pod.containers.flatMap Container.env).foldl
    (fun found env => if env.name = "K8S_CLUSTER_TYPE" then env.value else found) ""

/-! ## The conversion -/

/-- `formatInstanceWithDeps`: none when the pod has no application code or one that is not to be pushed. -/
def formatInstanceWithDeps (lib : ConversionLib) (pushAppCodes : Option (List String)) (obj : Option QueueObject)
    (pod : Pod) : Option Instance :=
  let appCode := formatAppCode pod
  if appCode = "" ∨ pushAppCodes.any (fun codes => !codes.contains appCode) then none
  else
    let envType := formatEnvType lib pod (containerEnvType pod)
    let envGroup := (pod.labels.lookup "env-group").getD ""
    let formatted := formatLableInfo pod pod.labels (applicationEnv pod)
    let withCluster := match obj with
      | some obj => if obj.clusterID ≠ "" then formatted.insert "sourceCluster" obj.clusterID else formatted
      | none => formatted
    let label := match obj with
      | some obj => if obj.uid ≠ "" then withCluster.insert "sourceKey" (obj.clusterID ++ "/" ++ pod.uid) else withCluster
      | none => withCluster
    some
      { sourceKey := (label.lookup "sourceKey").getD ""
        sourceCluster := (label.lookup "sourceCluster").getD ""
        instanceId := pod.name
        ports := some ((formatAppPort pod).map some)
        appCode := appCode
        envCode := envType ++ "#" ++ envGroup
        envType := envType
        envGroup := envGroup
        version := (pod.labels.lookup "version").getD ""
        ip := pod.podIP
        enabled := formatContainerEnabled pod
        state := formatState pod
        provider := "k8s"
        hostname := pod.name
        cpu := pod.containers.foldl (fun cpu c => lib.float32Add cpu (formatCpuSize lib c.cpuLimit)) 0
        memory := pod.containers.foldl (fun memory c => toInt32 (memory + formatMemorySize c.memoryLimit)) 0
        image := some (pod.containers.foldl (fun images c => images.insert c.name c.image) ∅)
        idc := formatIDC pod
        cluster := formatCluster pod
        reversion := parseInt64 pod.resourceVersion
        status := formatStatus obj pod
        label := some label }

end Spotter.Providers.K8s
