import Spotter.Domain.Instance
import Spotter.Ports.Errors

/-! # What the providers share

The states an instance can be in, the labels that older consumers read, and the filters that keep
incomplete instances away from the sinks.
-/

namespace Spotter.Providers

open Domain Ports

def instanceStatePending : String := "pending"
def instanceStateProbing : String := "probing"
def instanceStateCrash : String := "crash"
def instanceStateRunning : String := "running"
def instanceStateError : String := "error"
def instanceStateFailed : String := "failed"
def instanceStateTerminated : String := "terminated"
def instanceStateEvicted : String := "evicted"
def instanceStateUnknown : String := "unknown"

def protoHTTP : String := "http"
def protoGRPC : String := "grpc"
def protoDubbo : String := "dubbo"

def envProduct : String := "product"
def envDev : String := "dev"

def instanceCompatibilityLabelAosNamespace : String := "compatibility:aos_namespace"
def instanceCompatibilityLabelAosApp : String := "compatibility:aos_app"
def instanceCompatibilityLabelAosDrHost : String := "compatibility:aos_dr_host"
def instanceCompatibilityLabelAosMark : String := "compatibility:aos_mark"
def instanceCompatibilityLabelEnvSan : String := "env:san"
def instanceSpringApplicationName : String := "spring.application.name"

/-- A filter rejects an instance with an error. -/
abbrev InstanceFilter := Instance → Option GoError

/-- The default filter: the first check that an instance fails names it. -/
def defaultInstanceFilter : InstanceFilter := fun ins =>
  if ins.appCode = "" then some (.errorf "instance has nil appcode" [])
  else if ins.envType = "" then some (.errorf "instance has nil env type" [])
  else if ins.status = instanceStatusOnline ∧ ins.ip = "" then
    some (.errorf "instance has nil ip when it on online status" [])
  else if ins.state = instanceStatePending then
    some (.errorf "instance has nil ip when it on heal check status and pending state" [])
  else if ins.reversion = 0 then some (.errorf "instance has nil reversion" [])
  else if ins.status = instanceStatusUnknown then
    some (.errorf "instance has status unknown value: %d, may be the format process need to be performed"
      [toString ins.status])
  else none

def initInstanceFilters : List InstanceFilter := [defaultInstanceFilter]

/-- `VerifyInstance`: the first filter that rejects the instance. -/
def verifyInstance (filters : List InstanceFilter) (ins : Instance) : Option GoError :=
  filters.findSome? fun filter => filter ins

end Spotter.Providers
