import Taf.Bucket.CrudSpec
import Taf.Bucket.SubDocWindow
import Taf.Bucket.Recreated
import Taf.DocLoad.RetryAgreement
import Taf.Lib.PyJson
import Taf.Tasks.Task
import Taf.Tasks.ValidateDocuments
import Taf.Tasks.ValidationSoundness
import Taf.Tasks.MutateDocs
import Taf.Tasks.LoadReports
import Taf.Bucket.Manifest
import Taf.DocLoad.JavaValidation
import Taf.Stats.ItemCount
import Taf.Stats.WaitEvidence
import Taf.Stats.ItemCountSoundness
import Taf.Lib.Dict
import Taf.Sdk.ClientPool
import Taf.Loader.SharedGenerator
import Taf.Loader.WorkLoadGenerate
import Taf.Loader.LoadCompleteness
import Taf.Loader.PoolBalance
import Taf.Bucket.VBucketMap
import Taf.DocGen.TargetVbucket
import Taf.Bucket.TargetHistory
import Taf.DocGen.BatchedGenerator
import Taf.Tasks.GeneratorPartitions
import Taf.Bucket.ScopeSpec
import Taf.Bucket.ScopeSpecReport
import Taf.Tasks.DurabilityCheckers
import Taf.SystemEvents.EventHelper
import Taf.Tasks.ContinuousDocOps
import Taf.Views.DesignDocument
import Taf.Lib.PyOrder
import Taf.Lib.Subsequence
import Taf.SystemEvents.EventValidation
import Taf.SystemEvents.EventMatching
import Taf.Lib.Bytes
import Taf.Lib.PyText
import Taf.Lib.Leb128
import Taf.Memcached.CollectionId
import Taf.Memcached.CollectionMap
import Taf.Memcached.Wire
import Taf.Memcached.Requests
import Taf.Memcached.RequestFrames
import Taf.Dcp.LogData
import Taf.Dcp.ManifestTracking
import Taf.Dcp.Traffic
import Taf.Dcp.TrafficLoop
import Taf.Memcached.Pipeline
import Taf.Dcp.Demultiplex
import Taf.Lib.Split
import Taf.Runner.TestInput
import Taf.Runner.PrintedParams
import Taf.Runner.Selection
import Taf.Runner.ConfFile
import Taf.Runner.ParamPlaces
import Taf.Lib.OnePerClass
import Taf.Lib.Fields
import Taf.Runner.MergeReports
import Taf.Runner.XUnit
import Taf.Runner.JunitReports
import Taf.Memcached.KvStore
import Taf.Bucket.ContinuousOps
import Taf.Bucket.Rewind
import Taf.Lib.Visits
import Taf.Bucket.TtlExpiry
import Taf.Bucket.DocExpiry
import Taf.Lib.Draw
import Taf.Bucket.RandomSelection
import Taf.Bucket.RandomCollections
import Taf.DocLoad.CrudValidation
import Taf.Loader.Thanosied
import Taf.Lib.Rotation
import Taf.Tasks.AtomicityLoader
import Taf.Lib.Interleave
import Taf.Transactions.SimpleTransaction
import Taf.Transactions.ModeAgreement
import Taf.Transactions.LostFailures
import Taf.Bucket.VBucketServers
import Taf.Lib.FailFast
import Taf.Loader.RetriedMutations
import Taf.Stats.StatSums
import Taf.Tasks.MonitorActiveTask
import Taf.DocGen.GeneratorClasses
import Taf.Bucket.TargetGenerators
import Taf.Tasks.BatchMutations
import Taf.Tasks.Reclassification
import Taf.Tasks.ClientRelease
import Taf.Tasks.DurabilityVerdicts
import Taf.Runner.Reruns
import Taf.Tasks.PartitionClients
import Taf.Lib.Spacing
import Taf.SystemEvents.DuplicateEvents
import Taf.Lib.JsonText
import Taf.SystemEvents.CreateEvent
import Taf.DataAnalysis.Comparison
import Taf.DataAnalysis.CompareMaps
import Taf.Lib.Grouped
import Taf.DataAnalysis.CsvMap
import Taf.DataAnalysis.FailoverStats
import Taf.DataAnalysis.DcpStats
import Taf.Loader.TransactionLoad
import Taf.Lib.Quota
import Taf.Tasks.ServerGroups
import Taf.Lib.Records
import Taf.Memcached.MultiMutation
import Taf.Memcached.ReadReplies
import Taf.Memcached.SyncPayload
import Taf.Dcp.StreamMessages
import Taf.Dcp.StreamRuns
import Taf.Lib.Crc
import Taf.Memcached.VBucketHash
import Taf.Runner.RerunHistory
import Taf.Lib.Removals
import Taf.Runner.Exclusion
import Taf.Lib.Waiting
import Taf.Stats.RebalanceHelper
import Taf.Runner.ConfGrammar
import Taf.Loader.WorkerSplit
import Taf.Transactions.FaultHooks
import Taf.Tasks.RebalanceVerdict
import Taf.Tasks.ClusterEvidence
import Taf.Views.CompactionVerdict
import Taf.Tasks.DatabaseCreate
import Taf.Tasks.CapellaScaling
import Taf.Tasks.IndexComparison
import Taf.Bucket.SpecExpansion
import Taf.Lib.DictLoops
import Taf.Bucket.ScopeExpansion
import Taf.Bucket.BucketExpansion
import Taf.Bucket.LoadSpec
import Taf.DocGen.KeyNaming
import Taf.Cluster.TlsCheck
import Taf.Lib.Polling
import Taf.Cluster.PollingHelpers
import Taf.Stats.ReadinessWaits
import Taf.Cluster.RebalanceMonitor
import Taf.Lib.FirstSeen
import Taf.Stats.NodeConsistency
import Taf.Stats.HistoryStats
import Taf.Tasks.DurableAborts
import Taf.Tasks.ValidateAllBuckets
import Taf.Lib.Locks
import Taf.Memcached.KvLocks
import Taf.Xdcr.MergeKeys
import Taf.Bucket.SpecCreation
import Taf.Bucket.CreatedBuckets
import Taf.Bucket.CreationAgreement
import Taf.Bucket.CreatedCluster
import Taf.Runner.Dispatcher
import Taf.Tasks.DgmLoading
