import OpendataIngest.ClickHouse.Adapter
import OpendataIngest.ClickHouse.AdapterCut
import OpendataIngest.ClickHouse.AdapterPlan
import OpendataIngest.ClickHouse.Calendar
import OpendataIngest.ClickHouse.CommitBytes
import OpendataIngest.ClickHouse.CommitDelivery
import OpendataIngest.ClickHouse.CompactJson
import OpendataIngest.ClickHouse.DateTimeText
import OpendataIngest.ClickHouse.DeliveredBytes
import OpendataIngest.ClickHouse.InsertPost
import OpendataIngest.ClickHouse.JsonEachRow
import OpendataIngest.ClickHouse.LogsTable
import OpendataIngest.ClickHouse.MetricAccounts
import OpendataIngest.ClickHouse.RowBinary
import OpendataIngest.ClickHouse.Sink
import OpendataIngest.ClickHouse.SinkMetrics
import OpendataIngest.ClickHouse.SinkWrite
import OpendataIngest.ClickHouse.Tokens
import OpendataIngest.ClickHouse.WireFormats
import OpendataIngest.ClickHouse.Writer
import OpendataIngest.ClickHouse.WriterMetrics
import OpendataIngest.Deployment.Catalog
import OpendataIngest.Deployment.Consistency
import OpendataIngest.Deployment.ExactlyOnce
import OpendataIngest.Deployment.SharedTable
import OpendataIngest.Deployment.World
import OpendataIngest.Ingestor.Config
import OpendataIngest.Lib.ByteCodec
import OpendataIngest.Lib.Decimal
import OpendataIngest.Lib.DedupStore
import OpendataIngest.Lib.Gregorian
import OpendataIngest.Lib.Hex
import OpendataIngest.Lib.JsonText
import OpendataIngest.Lib.Ledger
import OpendataIngest.Lib.Machine
import OpendataIngest.Lib.MachineInt
import OpendataIngest.Lib.Numerals
import OpendataIngest.Lib.Pool
import OpendataIngest.Lib.QueryString
import OpendataIngest.Lib.ReplacingMerge
import OpendataIngest.Lib.Routing
import OpendataIngest.Lib.SortCut
import OpendataIngest.Lib.SortedMap
import OpendataIngest.Lib.Tally
import OpendataIngest.Otel.Coordinates
import OpendataIngest.Otel.Envelope
import OpendataIngest.Otel.Flattening
import OpendataIngest.Otel.LogAttributes
import OpendataIngest.Otel.Logs
import OpendataIngest.Otel.MetadataRanges
import OpendataIngest.Otel.RecordContent
import OpendataIngest.Runtime.AckCoordinator
import OpendataIngest.Runtime.AckCoordinatorContract
import OpendataIngest.Runtime.AckCoordinatorRuns
import OpendataIngest.Runtime.AckCoordinatorSpec
import OpendataIngest.Runtime.AckCoordinators
import OpendataIngest.Runtime.BufferSource
import OpendataIngest.Runtime.ByteBudget
import OpendataIngest.Runtime.ByteBudgetAdmission
import OpendataIngest.Runtime.ByteBudgetAtomic
import OpendataIngest.Runtime.ByteBudgetConservation
import OpendataIngest.Runtime.ByteBudgetStages
import OpendataIngest.Runtime.ByteBudgetWaiters
import OpendataIngest.Runtime.Options
import OpendataIngest.Runtime.Pipeline.Accounts
import OpendataIngest.Runtime.Pipeline.AckSafety
import OpendataIngest.Runtime.Pipeline.AckStream
import OpendataIngest.Runtime.Pipeline.Acks
import OpendataIngest.Runtime.Pipeline.Actor
import OpendataIngest.Runtime.Pipeline.ActorCases
import OpendataIngest.Runtime.Pipeline.ActorMoves
import OpendataIngest.Runtime.Pipeline.ActorSteps
import OpendataIngest.Runtime.Pipeline.AdmissionCycle
import OpendataIngest.Runtime.Pipeline.Books
import OpendataIngest.Runtime.Pipeline.Builder
import OpendataIngest.Runtime.Pipeline.Cargo
import OpendataIngest.Runtime.Pipeline.CleanDrain
import OpendataIngest.Runtime.Pipeline.CleanExit
import OpendataIngest.Runtime.Pipeline.DryRun
import OpendataIngest.Runtime.Pipeline.Faultless
import OpendataIngest.Runtime.Pipeline.Faults
import OpendataIngest.Runtime.Pipeline.Flow
import OpendataIngest.Runtime.Pipeline.FlushWindow
import OpendataIngest.Runtime.Pipeline.Holdings
import OpendataIngest.Runtime.Pipeline.Journal
import OpendataIngest.Runtime.Pipeline.MemoryBound
import OpendataIngest.Runtime.Pipeline.MemoryGrowth
import OpendataIngest.Runtime.Pipeline.Places
import OpendataIngest.Runtime.Pipeline.Progress
import OpendataIngest.Runtime.Pipeline.PublishedProgress
import OpendataIngest.Runtime.Pipeline.ReportedRows
import OpendataIngest.Runtime.Pipeline.RootCause
import OpendataIngest.Runtime.Pipeline.ScriptedRetry
import OpendataIngest.Runtime.Pipeline.Serial
import OpendataIngest.Runtime.Pipeline.Shutdown
import OpendataIngest.Runtime.Pipeline.StageGauges
import OpendataIngest.Runtime.Pipeline.State
import OpendataIngest.Runtime.Pipeline.System
import OpendataIngest.Runtime.Pipeline.Unwinding
import OpendataIngest.Runtime.Pipeline.WorkerMoves
import OpendataIngest.Runtime.Pipeline.WorkerSteps
import OpendataIngest.Runtime.Pipeline.Workers
import OpendataIngest.Runtime.Pipeline.WriteWithRetry
import OpendataIngest.Runtime.Types
