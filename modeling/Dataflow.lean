import Dataflow.Workflows.ExecutionClosing
import Dataflow.Activities.ScheduledExecution
import Dataflow.Api.BackfillCancel
import Dataflow.Api.BackfillCap
import Dataflow.Api.BackfillClosure
import Dataflow.Api.BackfillRetry
import Dataflow.Api.FireExecution
import Dataflow.Activities.CursorCommits
import Dataflow.Activities.DedupeRuns
import Dataflow.Api.BackfillTiling
import Dataflow.Api.BackfillReads
import Dataflow.Api.EventInterleaving
import Dataflow.Api.ProductionGate
import Dataflow.Api.RunListings
import Dataflow.Api.Schedules
import Dataflow.Api.BillingInterleaving
import Dataflow.Activities.FlinkActions
import Dataflow.Api.TenantQueries
import Dataflow.Connectors.KafkaStreaming
import Dataflow.Workflows.Continuation
import Dataflow.Api.PipelineAccess
import Dataflow.Api.RetryExclusive
import Dataflow.Connectors.DriveHandover
import Dataflow.Activities.SparkRuns
import Dataflow.Api.Retention
import Dataflow.Activities.PipelineDedupe
import Dataflow.Connectors.IcebergAppend
import Dataflow.Connectors.SheetDiff
import Dataflow.Connectors.HttpPositions
import Dataflow.Connectors.PostgresSink
import Dataflow.Activities.Entitlements
import Dataflow.Connectors.Projection
import Dataflow.Connectors.RecordFiles
import Dataflow.Connectors.TransformPanics
import Dataflow.Connectors.Interpolation
import Dataflow.Api.WorkspaceLineage
import Dataflow.Api.LineageChanges
import Dataflow.Connectors.Joins
import Dataflow.Api.RefreshTokens
import Dataflow.Activities.RecordCounts
import Dataflow.Api.BackfillScope
import Dataflow.Activities.FlinkSpec
import Dataflow.Activities.MergePositions
import Dataflow.Activities.Integers
import Dataflow.Web.PipelineConvert
import Dataflow.Web.LineageFlow
import Dataflow.Api.AiBuild
import Dataflow.Connectors.Credentials
import Dataflow.Api.MissingFields
import Dataflow.Api.ErrorRedaction
import Dataflow.Api.LineageColumns
import Dataflow.Library.Breadth
import Dataflow.Library.OrderedMap
import Dataflow.Shared.Lineage
import Dataflow.Shared.LineageAgreement
import Dataflow.Shared.LineageDiff
import Dataflow.Shared.LineageFilter
import Dataflow.Activities.RunCommits
import Dataflow.Workflows.Completion
import Dataflow.Workflows.SourcePaging
