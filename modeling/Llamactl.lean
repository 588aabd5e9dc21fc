import Llamactl.Fleet.Migration.Lease
import Llamactl.NodeRun.Replan
import Llamactl.Workload.StartBudget
import Llamactl.Workload.ConcurrentEdits
import Llamactl.Lock.Exclusion
import Llamactl.Tunnel.Delivery
import Llamactl.Tunnel.Termination
import Llamactl.ModelHost.SingleEngine
import Llamactl.Inference.Settlement
import Llamactl.Workload.PortClaims
import Llamactl.Rag.Windows
import Llamactl.Rag.Sources
import Llamactl.Infra.Install
import Llamactl.Inference.Confinement
import Llamactl.Rag.CrawlConfined
import Llamactl.Healer.Gate
import Llamactl.Anthropic.Chunking
import Llamactl.Infra.AgentRelease
import Llamactl.Server.AgentUpdate
import Llamactl.Server.Register
import Llamactl.Workload.BudgetKept
import Llamactl.Routing.Gate
import Llamactl.Fleet.Migration.Election
import Llamactl.Fleet.SnapshotStore
import Llamactl.Fleet.Executor.Override
import Llamactl.Fleet.Loop.Status
import Llamactl.Fleet.Loop.MoveSpacing
import Llamactl.Fleet.Migration.Capacity
import Llamactl.KvStore.Recovery
import Llamactl.KvStore.Ownership
import Llamactl.ResponseCache.Soundness
import Llamactl.Routing.Admission
import Llamactl.Workload.ReconcileLoop
import Llamactl.Gateway.Rejected
import Llamactl.Dispatch.ClientCache
import Llamactl.Server.Minting
import Llamactl.ModelHost.Readiness
import Llamactl.Workload.Reports
import Llamactl.Workload.Workers
import Llamactl.Inference.PeerShape
import Llamactl.Inference.SseParser
import Llamactl.Rag.PipelineOwners
import Llamactl.OpsChat.LoopSafety
import Llamactl.Rag.ChunkOutline
import Llamactl.Rag.AddressText
import Llamactl.Rag.GitSource
import Llamactl.Console.Redact
import Llamactl.Inference.CloneFreeze
import Llamactl.Bench.ScheduleSafety
import Llamactl.Fleet.Aggregator
import Llamactl.Fleet.BusyGuard
import Llamactl.CostGuardian.Safety
import Llamactl.Composite.EventDelivery
import Llamactl.Composite.ApplyConsistency
import Llamactl.ModelHost.SpecHash
import Llamactl.Anthropic.ContentPreserved
import Llamactl.Anthropic.RequestPreserved
import Llamactl.Server.ServeSafety
import Llamactl.Fleet.JournalReader
import Llamactl.Infra.Rollout
import Llamactl.Fleet.EngineThroughput
import Llamactl.Routing.RequestFeatures
import Llamactl.Responses.Translate
import Llamactl.ResponseCache.CanonicalText
import Llamactl.ResponseCache.StreamEnd
import Llamactl.Inference.DeadlineHeap
import Llamactl.Workload.NodeMutex
import Llamactl.ResponseCache.Eviction
