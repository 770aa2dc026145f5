import N8n.Workflow.ConnectedNodes
import N8n.Workflow.InvertedConnections
import N8n.Workflow.HighestNodes
import N8n.PartialExecution.FilterDisabledNodes
import N8n.PartialExecution.GraphConversion
import N8n.PartialExecution.FindSubgraph
import N8n.PartialExecution.RestartedWaiting
import N8n.Executions.WaitTracker
import N8n.TaskRunner.TaskRunner
import N8n.TaskRunnerPython.TaskRunner
import N8n.TaskBroker.SettleTasks
import N8n.TaskBroker.RequestLife
import N8n.TaskBroker.TaskCompletion
import N8n.TaskBroker.Handshake
import N8n.TaskBroker.HandOver
import N8n.Executions.ConcurrencySlots
import N8n.Engine.Cancellation
import N8n.TaskRunner.InputDataChunk
import N8n.Workflow.GraphUtils
import N8n.Workflow.ComposedChanges
import N8n.Workflow.WorkflowChecksum
import N8n.Workflow.AdditiveChanges
import N8n.Workflow.ExpressionParser
import N8n.Utils.CircuitBreaker
import N8n.Utils.CopiedGraph
import N8n.Utils.CircularRefsRemoved
import N8n.Workflow.RenameNode
import N8n.AugmentObject.ArraySession
import N8n.Engine.StrandedNodes
import N8n.Engine.ToolsRunFirst
import N8n.Engine.ToolItems
import N8n.Engine.ErrorOutput
import N8n.Deduplication.LatestIncrementalKey
import N8n.ChatHub.StreamCapturer
import N8n.CompareDatasets.MatchedItems
import N8n.TaskRunnerPython.TaskAnalyzer
import N8n.Scaling.QueueRecovery
import N8n.Scaling.MultiMainSetup
import N8n.Engine.ActiveWorkflows
import N8n.Webhooks.SoundRouting
import N8n.Folders.FolderService
import N8n.Scaling.RecoverFromQueue
import N8n.Workflow.StaticData
import N8n.Scaling.JobProcessor
import N8n.Merge.FuzzyCompare
import N8n.Mcp.OAuthReplay
import N8n.Mcp.TokenGrants
import N8n.DataTable.ColumnNumbering
import N8n.DataTable.QueryMeaning
import N8n.DataTable.CsvExport
import N8n.DataTable.SizeValidator
import N8n.Insights.CompactionEnds
import N8n.ExternalSecrets.ProviderOwnership
import N8n.WorkflowBuilder.FaithfulOperations
import N8n.Engine.ReleaseOrder
import N8n.Engine.EndlessLoop
import N8n.Engine.RetryBound
import N8n.PartialExecution.MaximalGrouping
import N8n.PartialExecution.RewireGraph
import N8n.PartialExecution.FindStartNodes
import N8n.PartialExecution.HandleCycles
import N8n.SourceControl.ExactStatus
import N8n.NodeHelpers.ParameterOrder
import N8n.NodeParameters.FilterParameter
import N8n.WorkflowDataProxy.PairedItems
import N8n.Engine.OffsetPagination
import N8n.Engine.SplitInBatches
import N8n.Utils.EventQueue
import N8n.TaskRunnerPython.PipeFraming
import N8n.Utils.SanitizeFilename
import N8n.WorkflowBuilder.ConnectionUtils
import N8n.Utils.IsJsonCompatible
import N8n.TaskRunnerPython.ValidationCache
