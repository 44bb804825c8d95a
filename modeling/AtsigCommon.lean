import AtsigCommon.Coroutine.Program
import AtsigCommon.Coroutine.Contract
import AtsigCommon.Coroutine.Pool
import AtsigCommon.Coroutine.Twins
import AtsigCommon.Python.Values
import AtsigCommon.Python.Text
import AtsigCommon.Python.Decoded
import AtsigCommon.Python.JsonString
import AtsigCommon.Python.JsonText
import AtsigCommon.Schema.Fields
import AtsigCommon.Uri.Percent
import AtsigCommon.Uri.Reference
import AtsigCommon.Uri.Credentials
import AtsigCommon.Uri.Rewriting
import AtsigCommon.Logger.Context
import AtsigCommon.Logger.Chain
import AtsigCommon.Logger.Formatter
import AtsigCommon.Logger.Dispatch
import AtsigCommon.Auth.Verifier
import AtsigCommon.Auth.KeyCache
import AtsigCommon.Auth.AsyncDecode
import AtsigCommon.Auth.SingleFlight
import AtsigCommon.Auth.Groups
import AtsigCommon.Auth.Claims
import AtsigCommon.Auth.OneRefresh
import AtsigCommon.Auth.TokenLife
import AtsigCommon.Auth.Dependencies
import AtsigCommon.Redis.Consumer
import AtsigCommon.Redis.Rules
import AtsigCommon.Redis.Group
import AtsigCommon.Redis.NoLoss
import AtsigCommon.Redis.HandledOnce
import AtsigCommon.Redis.Batch
import AtsigCommon.Redis.Scan
import AtsigCommon.Redis.IdleBound
import AtsigCommon.Redis.Stop
import AtsigCommon.Redis.DeliveryContract
import AtsigCommon.Redis.DeliveryLimit
import AtsigCommon.Redis.Handling
import AtsigCommon.Redis.NoLeak
import AtsigCommon.Redis.DeadLetter
import AtsigCommon.Redis.LoopErrors
import AtsigCommon.Redis.Slots
import AtsigCommon.Redis.Producer
import AtsigCommon.Redis.Envelope
import AtsigCommon.Redis.EmitOutcome
import AtsigCommon.Redis.Integrity
import AtsigCommon.Redis.Keyspace
import AtsigCommon.Redis.UniCache
import AtsigCommon.Redis.Transparent
import AtsigCommon.Redis.UniPool
import AtsigCommon.Redis.UniMap
import AtsigCommon.Redis.UniFound
import AtsigCommon.Redis.Staleness
import AtsigCommon.Pagination.Service
import AtsigCommon.Pagination.Partition
import AtsigCommon.Pagination.Arithmetic
import AtsigCommon.Pagination.DefaultOrder
import AtsigCommon.Paging.Growing
import AtsigCommon.Pagination.Walk
import AtsigCommon.ApiClient.HttpManager
import AtsigCommon.ApiClient.Calls
import AtsigCommon.ApiClient.Paths
import AtsigCommon.ApiClient.Request
import AtsigCommon.ApiClient.ErrorChain
import AtsigCommon.Config.Settings
import AtsigCommon.Files.Keys
import AtsigCommon.Files.Signatures
import AtsigCommon.Files.Streaming
import AtsigCommon.Files.TempFiles
import AtsigCommon.Observability.Scrub
import AtsigCommon.Middleware.BodyLimit
import AtsigCommon.Middleware.Exact
import AtsigCommon.Middleware.Response
import AtsigCommon.Middleware.Failures
import AtsigCommon.Bootstrap.Lifespan
import AtsigCommon.Services.Crud
import AtsigCommon.Events.Schemas
import AtsigCommon.Events.Delivery
import AtsigCommon.Auth.Accepted
