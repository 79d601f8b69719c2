import Quartr.Machine.Program
import Quartr.Machine.Protocol
import Quartr.Machine.Path
import Quartr.Machine.Pool
import Quartr.Machine.Replay
import Quartr.Machine.Solo
import Quartr.Machine.Execution
import Quartr.Machine.Agreement
import Quartr.Machine.Reaching
import Quartr.Machine.Script
import Quartr.Machine.Warrant
import Quartr.Machine.Parties
import Quartr.Machine.Endings
import Quartr.Machine.Worlds
import Quartr.Order.FirstMax
import Quartr.Numeric.Binary64
import Quartr.Data.Dict
import Quartr.Data.Json
import Quartr.Data.JsonText
import Quartr.Data.JsonAscii
import Quartr.Data.JsonReading
import Quartr.Data.JsonResult
import Quartr.Model.Text
import Quartr.Model.Identity
import Quartr.Model.State
import Quartr.Model.Models
import Quartr.Model.Submissions
import Quartr.Model.CikMapping
import Quartr.Model.World
import Quartr.Model.Repository
import Quartr.Model.ArtifactStore
import Quartr.Model.Worker
import Quartr.Model.Routes
import Quartr.Model.Service
import Quartr.Model.Reaction
import Quartr.Model.RateLimiter
import Quartr.Model.SecTraffic
import Quartr.Model.Retry
import Quartr.Model.Mapping
import Quartr.Model.Codec
import Quartr.Model.Sample
import Quartr.Model.RedisStream
import Quartr.Model.WorkerLoop
import Quartr.Model.Batch
import Quartr.Model.Edgar
import Quartr.Model.Companies
import Quartr.Model.TaskRecord
import Quartr.Model.KeySpace
import Quartr.Model.Logging
import Quartr.Model.Downloads
import Quartr.Model.Deployment
import Quartr.Soundness.Rules
import Quartr.Soundness.RequestPhases
import Quartr.Soundness.HandlingPhases
import Quartr.Soundness.ServicePhases
import Quartr.Soundness.Stream
import Quartr.Soundness.Effects
import Quartr.Soundness.Acceptance
import Quartr.Soundness.Removal
import Quartr.Soundness.Acknowledgement
import Quartr.Soundness.Deduplication
import Quartr.Soundness.Replaying
import Quartr.Soundness.Completion
import Quartr.Soundness.CrashRecovery
import Quartr.Soundness.Pointers
import Quartr.Soundness.HandOver
import Quartr.Soundness.Turns
import Quartr.Soundness.PointerOwnership
import Quartr.Soundness.Release
import Quartr.Soundness.Paths
import Quartr.Soundness.Success
import Quartr.Soundness.Files
import Quartr.Soundness.ArtifactSet
import Quartr.Soundness.Keys
import Quartr.Soundness.Refs
import Quartr.Soundness.Confinement
import Quartr.Soundness.Codecs
import Quartr.Soundness.Grammar
import Quartr.Soundness.TrafficPhases
import Quartr.Soundness.RateLimit
import Quartr.Soundness.Traffic
import Quartr.Soundness.RetryLoop
import Quartr.Soundness.Attempts
import Quartr.Soundness.Delivery
import Quartr.Soundness.Custody
import Quartr.Soundness.Lawfulness
import Quartr.Soundness.Redelivery
import Quartr.Soundness.Failure
import Quartr.Soundness.Verdict
import Quartr.Soundness.Writers
import Quartr.Soundness.Selection
import Quartr.Soundness.Currency
import Quartr.Soundness.Backlog
import Quartr.Soundness.StreamCommands
import Quartr.Soundness.QueueDepth
import Quartr.Soundness.Abandonment
import Quartr.Soundness.Leases
import Quartr.Soundness.Rejection
import Quartr.Soundness.Territory
import Quartr.Soundness.Keeping
import Quartr.Soundness.Twins
import Quartr.Soundness.Companies
import Quartr.Soundness.Mirrors
import Quartr.Soundness.MessageTerritory
import Quartr.Soundness.Sheltering
import Quartr.Soundness.Batches
import Quartr.Soundness.SideBySide
import Quartr.Soundness.BatchIsolation
import Quartr.Soundness.TaskRecords
import Quartr.Soundness.KeySpace
import Quartr.Soundness.Documents
import Quartr.Soundness.Downloads
import Quartr.Soundness.Orders
import Quartr.Soundness.Ciks
import Quartr.Soundness.Loading
import Quartr.Soundness.Refreshing
import Quartr.Soundness.Reloading
import Quartr.Soundness.Outstanding
import Quartr.Soundness.Renumbering
import Quartr.Soundness.History
import Quartr.Soundness.Holdings
import Quartr.Soundness.Enactment
import Quartr.Soundness.Deployment
import Quartr.Soundness.Deployed
