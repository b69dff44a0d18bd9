import SalesData.Base.System
import SalesData.Base.Tally
import SalesData.Base.Dict
import SalesData.Base.Lock
import SalesData.Base.LruMap
import SalesData.Base.Heap
import SalesData.Base.Future
import SalesData.Base.Text
import SalesData.Base.Regex
import SalesData.Base.RegexFirst
import SalesData.Base.Phrase
import SalesData.Base.RegexAccepts
import SalesData.Sql.Policy
import SalesData.Sql.Leading
import SalesData.Sql.Cost
import SalesData.Pool.Accounts
import SalesData.Pool.Adaptive
import SalesData.Pool.Store
import SalesData.Pool.Ledger
import SalesData.Pool.Capacity
import SalesData.Pool.Ownership
import SalesData.Pool.Records
import SalesData.Pool.Slots
import SalesData.Pool.Stats
import SalesData.Pool.AsyncPool
import SalesData.Pool.AsyncLock
import SalesData.Pool.AsyncLedger
import SalesData.Pool.AsyncShutdown
import SalesData.Pool.SyncShutdown
import SalesData.Pool.Shutdown
import SalesData.Pool.SyncPool
import SalesData.Pool.SyncLedger
import SalesData.Pool.Guarantees
import SalesData.Pool.Conservation
import SalesData.Pool.AsyncWakeups
import SalesData.Pool.SyncWakeups
import SalesData.Pool.FreedCapacity
import SalesData.Cache.QueryCache
import SalesData.Cache.Coordinator
import SalesData.Cache.ResultCache
import SalesData.Cache.Serializer
import SalesData.Cache.SingleFlight
import SalesData.Cache.Tags
import SalesData.Cache.Coalescing
import SalesData.Cache.Isolation
import SalesData.Cache.Freshness
import SalesData.Service.QueryService
import SalesData.Service.WriteGate
import SalesData.Service.WriteVisibility
import SalesData.Service.WriteBehind
import SalesData.Service.Resurrection
import SalesData.Execution.Session
import SalesData.Execution.Seats
import SalesData.Execution.Exclusive
import SalesData.Execution.Invalidated
import SalesData.Execution.Permits
import SalesData.Service.Age
import SalesData.Service.Sequential
import SalesData.Service.Coverage
import SalesData.Sql.Names
import SalesData.Base.Table
import SalesData.Auth.Tables
import SalesData.Auth.Callers
import SalesData.Auth.ApiKeyService
import SalesData.Auth.Routes
import SalesData.Auth.OwnData
import SalesData.Auth.RoleChanges
import SalesData.Auth.LastAdmin
import SalesData.Auth.Sessions
import SalesData.Sql.Sqlite
import SalesData.Storage.ServiceDatabase
import SalesData.Storage.CleanConnections
import SalesData.Pool.Broken
import SalesData.Execution.Backed
import SalesData.Execution.Warehouse
import SalesData.Execution.Acknowledged
import SalesData.Auth.KeyCache
import SalesData.Auth.KeyReports
import SalesData.Base.SlidingWindow
import SalesData.Auth.RateLimiter
import SalesData.Auth.LimiterWindow
import SalesData.Cache.Calls
import SalesData.Cache.IndexBound
import SalesData.Service.ResultLimits
import SalesData.Service.CachedAnswer
import SalesData.Base.Json
import SalesData.App.Lifespan
import SalesData.App.OpenConnections
import SalesData.Auth.Middleware
import SalesData.Auth.Party
import SalesData.Auth.ReadOnly
import SalesData.App.Console
import SalesData.App.LifecycleSteps
import SalesData.Base.Repr
import SalesData.Service.CacheKeys
import SalesData.Performance.Metric
import SalesData.Performance.Histogram
import SalesData.Performance.Aggregator
import SalesData.Base.Deque
import SalesData.Performance.RequestProfiler
import SalesData.Performance.Trace
import SalesData.Performance.TraceTime
import SalesData.Performance.Registry
import SalesData.Performance.History
import SalesData.Performance.RejectedProfile
import SalesData.Base.Buckets
import SalesData.Performance.StageBuckets
import SalesData.Performance.StageScopes
import SalesData.Performance.PoolAdapter
import SalesData.Observability.WriteQueue
import SalesData.Cache.PersistenceQueue
import SalesData.Base.Exposition
import SalesData.Base.ExpositionParts
import SalesData.Performance.Prometheus
import SalesData.Performance.PrometheusText
import SalesData.Performance.PrometheusRuns
import SalesData.Cache.Recency
import SalesData.Cache.Expiry
import SalesData.Auth.FreshLogin
import SalesData.Base.Update
import SalesData.Performance.Percentile
import SalesData.Performance.Quantiles
import SalesData.Pool.Rotation
import SalesData.Pool.HandOuts
import SalesData.Execution.SessionExits
import SalesData.Execution.Transactions
import SalesData.Execution.DuckDBAdapter
import SalesData.Base.Hex
import SalesData.Auth.Passwords
import SalesData.Observability.TraceRows
import SalesData.Performance.AdaptiveSampler
import SalesData.Base.Grouped
import SalesData.Performance.AggregateFold
import SalesData.Pool.Hysteresis
import SalesData.Base.Bisect
import SalesData.Performance.BucketCounts
import SalesData.Pool.Waits
import SalesData.Pool.Timeouts
import SalesData.Base.Watch
import SalesData.Observability.Alerts
import SalesData.Performance.OtelExporter
import SalesData.Performance.KeyedAggregates
import SalesData.Performance.OtelCounters
import SalesData.Performance.OtelMirror
import SalesData.Base.Csv
import SalesData.Performance.Snapshots
import SalesData.Performance.Middleware
import SalesData.Performance.ServedProfiler
import SalesData.Performance.Serving
import SalesData.Base.Tasks
import SalesData.Performance.CollectorScheduler
import SalesData.App.PerformanceStep
import SalesData.Base.Select
import SalesData.Observability.AuditTrail
