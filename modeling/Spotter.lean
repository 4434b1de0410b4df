import Spotter.Worker.Resurrection
import Spotter.Worker.ScopeIsolation
import Spotter.Worker.EmptySnapshots
import Spotter.Providers.K8s.EmptyConfirmation
import Spotter.Providers.Consul.EmptyGate
import Spotter.Nacos.Claims
import Spotter.Nacos.OwnerScopes
import Spotter.Providers.K8s.SteadyState
import Spotter.Worker.OrderedWrites
import Spotter.Providers.Consul.WatchConvergence
import Spotter.Providers.Consul.Emission
import Spotter.Nacos.RoundTrip
import Spotter.Internal.ProviderSets
import Spotter.Internal.Leadership
import Spotter.Worker.GateProgress
import Spotter.Providers.K8s.EventResults
import Spotter.Robot.QueueInvariants
import Spotter.Providers.MatchingOrder
import Spotter.Providers.K8s.Saturation
import Spotter.Providers.Consul.Debounce
import Spotter.Nacos.Pagination
import Spotter.Nacos.BatchAccounting
import Spotter.Providers.Consul.MonotoneCache
import Spotter.Domain.PayloadRecord
import Spotter.Providers.SharedCache
import Spotter.Nacos.HealthCheckRuns
