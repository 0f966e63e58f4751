import Tracecat.Lib.Dict
import Tracecat.Lib.Countdown
import Tracecat.Dsl.Schemas
import Tracecat.Dsl.Validation
import Tracecat.Dsl.Values
import Tracecat.Scheduler.Queue
import Tracecat.Scheduler.State
import Tracecat.Scheduler.Loop
import Tracecat.Scheduler.ScatterGather
import Tracecat.Scheduler.Step
import Tracecat.Lib.Checks
import Tracecat.Dsl.Accepted
import Tracecat.Dsl.TopoSort
import Tracecat.Dsl.Layout
import Tracecat.Scheduler.Control
import Tracecat.Scheduler.Effect
import Tracecat.Scheduler.StepEffect
import Tracecat.Scheduler.Move
import Tracecat.Scheduler.Regions
import Tracecat.Scheduler.Shape
import Tracecat.Scheduler.SkipStreams
import Tracecat.Scheduler.Executions
import Tracecat.Properties.StreamScope
import Tracecat.Scheduler.Contexts
import Tracecat.Scheduler.Touches
import Tracecat.Scheduler.History
import Tracecat.Properties.ExprMeaning
import Tracecat.Properties.ResultIsolation
import Tracecat.Dsl.DagSemantics
import Tracecat.Scheduler.DagSegments
import Tracecat.Scheduler.DagRun
import Tracecat.Properties.PlainWorkflow
import Tracecat.Properties.Termination
import Tracecat.Lib.Runs
import Tracecat.Lib.SortedSet
import Tracecat.Tiers.Semaphore
import Tracecat.Properties.PermitSafety
import Tracecat.Lib.LockTable
import Tracecat.Mcp.RefreshTokens
import Tracecat.Properties.TokenFamily
import Tracecat.Dsl.TopoProgress
import Tracecat.Dsl.LoopEnds
import Tracecat.Properties.Schedulable
import Tracecat.Properties.ScopeMatching
import Tracecat.Properties.ErrorEdges
import Tracecat.Workflow.Graph
import Tracecat.Workflow.GraphConsistent
import Tracecat.Properties.GraphStore
import Tracecat.Lib.Paths
import Tracecat.Storage.Keys
import Tracecat.Storage.Object
import Tracecat.Storage.Retrieval
import Tracecat.Storage.StoreCalls
import Tracecat.Properties.StoredHandles
import Tracecat.Dsl.DepOrder
import Tracecat.Workflow.Slug
import Tracecat.Workflow.Draft
import Tracecat.Workflow.DraftRows
import Tracecat.Properties.RoundTrip
import Tracecat.Cases.Durations
import Tracecat.Cases.AnchorRows
import Tracecat.Properties.CaseDurations
import Tracecat.Properties.ReferenceScopes
import Tracecat.Lib.PathTree
import Tracecat.Workflow.Folders
import Tracecat.Workflow.FolderMoves
import Tracecat.Properties.FolderTree
import Tracecat.Executor.PoolInvariant
import Tracecat.Properties.PoolBookkeeping
import Tracecat.Cases.DeliveryInvariant
import Tracecat.Properties.CaseDelivery
import Tracecat.Dsl.FifoOrder
import Tracecat.Dsl.ScopeRelation
import Tracecat.Dsl.Resorting
import Tracecat.Properties.ListingOrder
import Tracecat.Scheduler.LoopPasses
import Tracecat.Scheduler.Steady
import Tracecat.Scheduler.LoopSteps
import Tracecat.Scheduler.LoopInvariant
import Tracecat.Properties.LoopIterations
import Tracecat.Lib.Radix
import Tracecat.Sync.Mappings
import Tracecat.Lib.Assoc
import Tracecat.Registry.Lock
import Tracecat.Registry.LockClosure
import Tracecat.Properties.RegistryLock
import Tracecat.Workflow.DraftBuild
import Tracecat.Properties.Normalization
import Tracecat.Dsl.GatherFinalize
import Tracecat.Properties.GatherOutcomes
import Tracecat.Dsl.ErrorRecords
import Tracecat.Lib.Paging
import Tracecat.Storage.Paging
import Tracecat.Properties.CollectionList
import Tracecat.Expressions.PatchObject
import Tracecat.Executor.ForEach
import Tracecat.Properties.ForEachMap
import Tracecat.Dsl.ChildLoop
import Tracecat.Dsl.SubflowPreparation
import Tracecat.Properties.ChildLoops
import Tracecat.Expressions.ParseTree
import Tracecat.Expressions.PyValue
import Tracecat.Expressions.Evaluator
import Tracecat.Expressions.BigStep
import Tracecat.Lib.CellHeap
import Tracecat.Lib.Rfc6902
import Tracecat.Lib.Stateful
import Tracecat.Mcp.JsonPatch
import Tracecat.Mcp.PatchTrees
import Tracecat.Mcp.PatchApart
import Tracecat.Properties.PatchFrame
import Tracecat.Mcp.PatchConformance
import Tracecat.Properties.PatchRfc
import Tracecat.Lib.LiteralScan
import Tracecat.Secrets.Masking
import Tracecat.Properties.SecretMasking
import Tracecat.Properties.SingleExecutions
import Tracecat.Workflow.Directory
import Tracecat.Properties.DirectoryListing
import Tracecat.Sync.AliasImport
import Tracecat.Properties.AliasImport
import Tracecat.Cases.EventScan
import Tracecat.Lib.Extremal
import Tracecat.Properties.DurationLaw
import Tracecat.Cases.LegacyFilters
import Tracecat.Properties.LegacyFilters
import Tracecat.Executor.Templates
import Tracecat.Properties.TemplateExecutors
import Tracecat.Executor.SecretCollection
import Tracecat.Properties.SecretCollection
import Tracecat.Lib.Base64
import Tracecat.Temporal.Codec
import Tracecat.Temporal.CodecLaws
import Tracecat.Properties.PayloadCodec
import Tracecat.Expressions.Template
import Tracecat.Expressions.TemplateScan
import Tracecat.Expressions.TemplateLaw
import Tracecat.Lib.Glob
import Tracecat.Authz.Controls
import Tracecat.Properties.ScopeGrants
import Tracecat.Lib.Leaves
import Tracecat.Transform.Flatten
import Tracecat.Properties.Flattening
import Tracecat.Lib.JsonText
import Tracecat.Lib.Grouping
import Tracecat.Transform.Deduplicate
import Tracecat.Properties.Deduplication
import Tracecat.Lib.FinishOrder
import Tracecat.Sync.PresetOrder
import Tracecat.Properties.PresetOrder
import Tracecat.Sync.ChildReferences
import Tracecat.Properties.ChildReferences
import Tracecat.Lib.OnConflict
import Tracecat.Tables.Schema
import Tracecat.Tables.BatchRows
import Tracecat.Properties.BatchUpsert
import Tracecat.Lib.Numerals
import Tracecat.Lib.Decimals
import Tracecat.Tables.Values
import Tracecat.Tables.WritePaths
import Tracecat.Properties.TableWrites
import Tracecat.Dsl.StreamTexts
import Tracecat.Scheduler.QueueStreams
import Tracecat.Properties.StreamIdentifiers
import Tracecat.Workflow.CompactEvents
import Tracecat.Workflow.CompactListing
import Tracecat.Properties.CompactHistory
import Tracecat.Properties.TemplateText
import Tracecat.Expressions.Literals
import Tracecat.Properties.LiteralNotation
import Tracecat.Properties.TemplateDelimiters
import Tracecat.Pagination
import Tracecat.Properties.CursorPages
import Tracecat.Mcp.Issuer
import Tracecat.Properties.TokenProvenance
