import ServingPlatform.KvCache.AllocatorRuns
import ServingPlatform.PagedKv.PoolRuns
import ServingPlatform.PrefixCache.RadixCoherence
import ServingPlatform.Library.Coroutine
import ServingPlatform.TokenEngine.AcceptanceSafety
import ServingPlatform.FairQueue.PiledCredit
import ServingPlatform.ControlPlane.Batches
import ServingPlatform.ControlPlane.StoreCoherence
import ServingPlatform.ControlPlane.PipelineRuns
import ServingPlatform.ControlPlane.Restarts
import ServingPlatform.Transport.Twins
import ServingPlatform.Admission.Counters
import ServingPlatform.RequestScheduler.Finality
import ServingPlatform.RequestScheduler.Handles
import ServingPlatform.Placement.Overcommit
import ServingPlatform.RequestScheduler.Endings
import ServingPlatform.WorkerLifecycle.ModelUse
import ServingPlatform.Library.Ownership
import ServingPlatform.WorkerLifecycle.Residency
import ServingPlatform.WorkerLifecycle.Shutdown
import ServingPlatform.Gateway.Handlers
import ServingPlatform.Gateway.Streams
import ServingPlatform.RequestScheduler.Enlisted
import ServingPlatform.Gateway.Invariants
import ServingPlatform.Gateway.Finality
import ServingPlatform.Gateway.Runs
import ServingPlatform.Coordination.Lease
import ServingPlatform.Coordination.Supervisors
import ServingPlatform.ControlPlane.BatchSelection
import ServingPlatform.WorkerLifecycle.LocalBatches
import ServingPlatform.WorkerLifecycle.Generation
import ServingPlatform.ControlPlane.Liveness
import ServingPlatform.FairQueue.Conservation
import ServingPlatform.FairQueue.ConservedRuns
import ServingPlatform.RequestScheduler.ItemViews
import ServingPlatform.RequestScheduler.Pools
import ServingPlatform.RequestScheduler.PoolSteps
import ServingPlatform.RequestScheduler.Batches
import ServingPlatform.Gateway.Finalization
import ServingPlatform.Transport.Fleet
import ServingPlatform.Transport.FleetMerges
import ServingPlatform.Transport.FleetRuns
import ServingPlatform.Transport.FleetLaw
import ServingPlatform.TokenEngine.Draining
import ServingPlatform.Gateway.SlotMoves
import ServingPlatform.Gateway.SlotAdmissions
import ServingPlatform.Gateway.SlotRuns
import ServingPlatform.Library.ShortestPrefix
import ServingPlatform.WorkerLifecycle.ModelMoves
import ServingPlatform.WorkerLifecycle.Evictions
import ServingPlatform.WorkerLifecycle.SingleFlight
import ServingPlatform.WorkerLifecycle.IdleEvictions
import ServingPlatform.WorkerLifecycle.BatchActivity
import ServingPlatform.WorkerLifecycle.BatchEndings
import ServingPlatform.TokenEngine.BatchSafety
import ServingPlatform.TokenEngine.Decisions
import ServingPlatform.TokenEngine.TurnSafety
import ServingPlatform.TokenEngine.PreparationSafety
import ServingPlatform.TokenEngine.PrefillSafety
import ServingPlatform.TokenEngine.IterationSafety
import ServingPlatform.TokenEngine.ClientSafety
import ServingPlatform.TokenEngine.Chronicle
import ServingPlatform.TokenEngine.Waiting
import ServingPlatform.TokenEngine.Turns
import ServingPlatform.TokenEngine.RunSafety
import ServingPlatform.TokenEngine.ChunkBounds
import ServingPlatform.TokenEngine.Scripts
import ServingPlatform.TokenEngine.Lasting
import ServingPlatform.TokenEngine.PrefillService
import ServingPlatform.TokenEngine.EventStreams
import ServingPlatform.TokenEngine.TokenIndices
import ServingPlatform.TokenEngine.FailureIsolation
import ServingPlatform.KvCache.TableIsolation
import ServingPlatform.PrefixCache.Recency
import ServingPlatform.Placement.Decisions
import ServingPlatform.Placement.Selection
import ServingPlatform.Library.ShortestPaths
import ServingPlatform.Topology.Graph
import ServingPlatform.Topology.PathCosts
import ServingPlatform.Topology.Discovery
import ServingPlatform.ControlPlane.Reachability
import ServingPlatform.FairQueue.Polling
import ServingPlatform.Library.StablePriority
import ServingPlatform.FairQueue.Aging
import ServingPlatform.RequestScheduler.DequeTurns
import ServingPlatform.RequestScheduler.Deferral
import ServingPlatform.TokenBackend.Backend
import ServingPlatform.TokenBackend.Effects
import ServingPlatform.TokenBackend.BatchedPrefill
import ServingPlatform.KvCache.Pressure
import ServingPlatform.FairQueue.DeficitBound
import ServingPlatform.Gateway.Exposition
import ServingPlatform.PythonValues
import ServingPlatform.RequestScheduler.Counting
import ServingPlatform.RequestStore.Stores
import ServingPlatform.RequestStore.Refinement
import ServingPlatform.Admission.SharedRuns
import ServingPlatform.TokenBackend.Histories
import ServingPlatform.Distributed.Shards
import ServingPlatform.Distributed.Contexts
import ServingPlatform.Runtimes.SimulatedGpu
import ServingPlatform.Benchmark.Schedules
