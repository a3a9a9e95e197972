import Sesc.Lib.Check
import Sesc.Lib.Machine
import Sesc.Lib.ListSet
import Sesc.Lib.Enumerates
import Sesc.Messages
import Sesc.Cache.Basic
import Sesc.Cache.Handlers
import Sesc.Origin.Basic
import Sesc.Origin.Cache
import Sesc.Origin.CacheWaiting
import Sesc.Origin.Directory
import Sesc.Origin.System
import Sesc.Origin.FanOut
import Sesc.Origin.Frame
import Sesc.Origin.MemoryAccess
import Sesc.Origin.MemoryBookkeeping
import Sesc.Origin.LocalReads
import Sesc.Origin.ReadAccounting
import Sesc.Cache.Lookup
import Sesc.Cache.Lines
import Sesc.Cache.Moves
import Sesc.Cache.DirtyData
import Sesc.Cache.Hierarchy
import Sesc.Cache.Inclusion
import Sesc.Trans.Instruction
import Sesc.Trans.LogTM
import Sesc.Trans.LogTMConflicts
import Sesc.Trans.TableDetection
import Sesc.Trans.LogTMSE
import Sesc.Trans.PerfectDetection
import Sesc.Trans.SignatureConflicts
import Sesc.Lib.Chains
import Sesc.Trans.CollisionManager
import Sesc.Trans.AbortCount
import Sesc.Trans.Deadlock
import Sesc.Trans.ConflictResolution
import Sesc.Events.EventManager
import Sesc.Events.ExactlyOnce
import Sesc.Bus.SnoopyBus
import Sesc.Bus.Transfers
import Sesc.Bip.Basic
import Sesc.Bip.Directory
import Sesc.Bip.System
import Sesc.Bip.Evictions
import Sesc.Bip.LocalReads
import Sesc.Bip.ReadBookkeeping
import Sesc.Lib.FinMap
import Sesc.Lib.Table
import Sesc.Tm.PrivateMemory
import Sesc.Tm.Basic
import Sesc.Tm.Interface
import Sesc.Tm.System
import Sesc.Tm.Books
import Sesc.Tm.Accounting
import Sesc.Events.InOrder
import Sesc.Network.InOrder
import Sesc.Heap.HeapManager
import Sesc.Lib.Tiling
import Sesc.Heap.Invariant
import Sesc.Heap.Allocation
import Sesc.Heap.Deallocation
import Sesc.Heap.Sound
import Sesc.Heap.Live
import Sesc.Tm.HeapEffects
import Sesc.Lib.Buckets
import Sesc.Lib.PriorityQueue
import Sesc.Timing.EventScheduler
import Sesc.Timing.Functions
import Sesc.Timing.OnTime
import Sesc.Config.Configuration
import Sesc.Config.RoundTrip
import Sesc.Cache.Frame
import Sesc.Cache.Reporting
import Sesc.Cache.Invalidations
import Sesc.Cache.Queues
import Sesc.Cache.NoStarvation
import Sesc.Cache.Eviction
import Sesc.Cache.Representation
import Sesc.Cache.Dirtiness
import Sesc.Cache.DirtySigns
import Sesc.Cache.EvictionBooks
import Sesc.Bip.Nodes
import Sesc.Bip.Decisions
import Sesc.Bip.HomeSerialization
import Sesc.Bip.Records
import Sesc.Trans.Detector
import Sesc.Trans.Flatten
import Sesc.Trans.Nesting
import Sesc.Trans.FlattenTransparent
import Sesc.Trans.NoBlend
import Sesc.Trans.Replay
import Sesc.Plain.Directory
import Sesc.Plain.Exclusivity
import Sesc.Trans.PerfectExact
import Sesc.Config.Lookup
import Sesc.Wiring.MemorySystem
import Sesc.Wiring.Reciprocal
import Sesc.Lib.Slots
import Sesc.Ports.Agreement
import Sesc.Ports.GeneralPort
import Sesc.Ports.SideBySide
import Sesc.CacheCore.CacheGeneric
import Sesc.CacheCore.Placement
import Sesc.CacheCore.Lookups
import Sesc.CacheCore.Sound
import Sesc.Heap.LiveBlocks
import Sesc.Heap.Restore
import Sesc.Timing.Removal
import Sesc.Timing.LastLinks
import Sesc.Timing.RemoveExact
import Sesc.Config.Streams
import Sesc.Config.Termination
import Sesc.Trans.Overlapping
import Sesc.Trans.NoBlendSteps
import Sesc.Trans.AssertionsHold
import Sesc.Tm.Composition
import Sesc.Tm.Flags
import Sesc.Tm.Openings
import Sesc.Tm.FaithfulRecords
import Sesc.Bloom.BloomFilter
import Sesc.Bloom.CountVectors
import Sesc.Bloom.Multisets
import Sesc.Core.LDSTQ
import Sesc.Core.Disambiguation
import Sesc.Core.ProcessId
import Sesc.Core.StableQueue
import Sesc.CacheCore.Recency
import Sesc.Core.Coverage
import Sesc.Core.FetchOrder
import Sesc.Processor.State
import Sesc.Processor.Steps
import Sesc.Processor.Accounting
import Sesc.Processor.Renaming
import Sesc.Processor.Retirement
import Sesc.Core.LDSTBuffer
import Sesc.Core.StoreForwarding
import Sesc.Devices.PerfectVersioning
import Sesc.Devices.VersionSets
import Sesc.Devices.Confirmations
import Sesc.Mint.UnalignedOps
import Sesc.Mint.PrivateBytes
import Sesc.Mint.UnalignedWords
import Sesc.Devices.ExcludeAllBut
import Sesc.Devices.ExcludeTransparent
import Sesc.Core.FastQueue
import Sesc.BPred.Basic
import Sesc.BPred.BranchKey
import Sesc.Core.Signature
import Sesc.BPred.Yags
import Sesc.BPred.Training
import Sesc.BPred.Ogehl
import Sesc.BPred.OgehlIndex
import Sesc.BPred.OgehlSafety
import Sesc.Core.FetchCounting
import Sesc.BPred.TargetBuffer
import Sesc.BPred.Predictors
import Sesc.BPred.Agreement
import Sesc.Mshr.FullMSHR
import Sesc.Mshr.Conservation
import Sesc.Mshr.SingleMSHR
import Sesc.Mshr.Subentries
import Sesc.Mshr.ArrivalOrder
import Sesc.Mshr.OverflowQueue
import Sesc.Mshr.MovingEntries
import Sesc.Smp.MESIProtocol
import Sesc.Smp.Coherence
import Sesc.Smp.System
import Sesc.Smp.Assertions
import Sesc.Lib.Ranking
import Sesc.Smp.Work
import Sesc.Smp.Progress
import Sesc.Smp.WriteBacks
import Sesc.Files.Pipe
