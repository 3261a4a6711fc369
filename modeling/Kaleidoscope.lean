import Kaleidoscope.Lumen.FileBacked
import Kaleidoscope.Strata.FileBacked
import Kaleidoscope.Ray.FileBacked
import Kaleidoscope.Cinder.FileBacked
import Kaleidoscope.Beacon.StateStore
import Kaleidoscope.Sluice.Hex
import Kaleidoscope.Sluice.Ideal
import Kaleidoscope.Pulse.Points
import Kaleidoscope.Durability.TornTail
import Kaleidoscope.Durability.StrictTail
import Kaleidoscope.Durability.SnapshotCrash
import Kaleidoscope.Durability.Overwriting
import Kaleidoscope.Durability.FailedAck
import Kaleidoscope.Durability.NonFinite
import Kaleidoscope.Durability.Cardinality
import Kaleidoscope.Alerting.Routing
import Kaleidoscope.Alerting.Restart
import Kaleidoscope.Alerting.Generation
import Kaleidoscope.Alerting.Silence
import Kaleidoscope.Aperture.Transports
import Kaleidoscope.Aperture.CapExact
import Kaleidoscope.Pulse.Rows
import Kaleidoscope.Storage.Isolation
import Kaleidoscope.Storage.Complete
import Kaleidoscope.Storage.Integers
import Kaleidoscope.Ray.Memory
import Kaleidoscope.Adapters.Queue
import Kaleidoscope.Adapters.Conservation
import Kaleidoscope.Adapters.Bound
import Kaleidoscope.Adapters.Logs
import Kaleidoscope.Adapters.Traces
import Kaleidoscope.Adapters.Metrics
import Kaleidoscope.QueryApi.Ascending
import Kaleidoscope.Alerting.Removal
import Kaleidoscope.Alerting.Collision
import Kaleidoscope.Sieve.Coherence
import Kaleidoscope.Cli.Batches
import Kaleidoscope.Cli.Timestamps
import Kaleidoscope.Loom.Deploys
import Kaleidoscope.Otlp.V1
import Kaleidoscope.Alerting.Handover
import Kaleidoscope.Prism.Timers
import Kaleidoscope.Prism.Stalls
import Kaleidoscope.Prism.Cancelled
import Kaleidoscope.Prism.Latest
import Kaleidoscope.Prism.Wire
import Kaleidoscope.Prism.Logs
import Kaleidoscope.Prism.Traces
import Kaleidoscope.DemoOverlay.Union
import Kaleidoscope.SelfObserve.OtlpJson
import Kaleidoscope.Durability.Exact
import Kaleidoscope.Cinder.Sweeps
import Kaleidoscope.Beacon.Dwell
import Kaleidoscope.QueryApi.Parsing
import Kaleidoscope.QueryApi.Filtering
import Kaleidoscope.QueryApi.Anchoring
import Kaleidoscope.TraceQueryApi.Filters
import Kaleidoscope.LogQueryApi.Lookup
import Kaleidoscope.Loom.Diff
import Kaleidoscope.Sieve.AnySampler
import Kaleidoscope.Beacon.Turns
import Kaleidoscope.Beacon.BurnRates
import Kaleidoscope.Beacon.Start
import Kaleidoscope.Prism.Samples
import Kaleidoscope.Prism.Hidden
import Kaleidoscope.Prism.Permalink
import Kaleidoscope.LogQueryApi.Filter
import Kaleidoscope.Prism.LiteralSearch
import Kaleidoscope.Cli.Arguments
import Kaleidoscope.Augur.ZScore
import Kaleidoscope.Beacon.Directory
import Kaleidoscope.Strata.Memory
import Kaleidoscope.Adapters.Profiles
import Kaleidoscope.Beacon.Suggestion
import Kaleidoscope.Cli.Ingests
import Kaleidoscope.Aperture.Config
import Kaleidoscope.Aperture.Gateway
import Kaleidoscope.Aperture.Shutdown
import Kaleidoscope.Aperture.Authenticate
import Kaleidoscope.Sieve.Summary
import Kaleidoscope.Prism.Window
import Kaleidoscope.Runtime.Consolidated
import Kaleidoscope.Augur.RareEvent
