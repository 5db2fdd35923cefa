import TorchGcu.CachingAllocator.PoolCounts
import TorchGcu.Logic.Wp
import TorchGcu.Logic.Links
import TorchGcu.CachingAllocator.Accounting
import TorchGcu.Graphs.FailedCapture
import TorchGcu.Graphs.Replay
import TorchGcu.Graphs.RandomOperators
import TorchGcu.Graphs.AsyncReplay
import TorchGcu.Graphs.CaptureRanges
import TorchGcu.Graphs.GeneratorState
import TorchGcu.Ipc.SharedHandles
import TorchGcu.ProcessGroup.PendingQueries
import TorchGcu.ProcessGroup.UniqueIds
import TorchGcu.ProcessGroup.VariableCollectives
import TorchGcu.Logic.Totals
import TorchGcu.Logic.Cells
import TorchGcu.TopsMallocAsync.Books
import TorchGcu.TopsMallocAsync.MemoryLimits
import TorchGcu.HostAllocator.PinnedBlocks
import TorchGcu.CachingAllocator.EntryPoints
import TorchGcu.CachingAllocator.TraceBuffer
import TorchGcu.CachingAllocator.BestFit
import TorchGcu.CachingAllocator.GarbageCollection
import TorchGcu.CachingAllocator.RoundSize
import TorchGcu.CachingAllocator.ParseArgs
import TorchGcu.Profiler.TraceBuffers
import TorchGcu.Profiler.ExecutionTraceObserver
import TorchGcu.Profiler.OperatorStacks
import TorchGcu.Statistics.OpStatistics
import TorchGcu.Attention.DropoutStates
import TorchGcu.HostCallbacks.Records
import TorchGcu.Serialization.RoundTrip
import TorchGcu.Serialization.PartialIO
import TorchGcu.Tensor.StorageBounds
import TorchGcu.Tensor.CopyValues
import TorchGcu.Ipc.SentData
import TorchGcu.CpuFallback.Frame
import TorchGcu.CpuFallback.Promotion
import TorchGcu.CpuFallback.HalfRetry
import TorchGcu.Inductor.LaunchGrid
import TorchGcu.Streams.StreamPool
import TorchGcu.Streams.DeviceGuards
import TorchGcu.Amp.ScalerRuns
import TorchGcu.Profiler.CallTree
import TorchGcu.Tensor.FailedResize
import TorchGcu.OpDebug.OpCheck
import TorchGcu.Statistics.FallbackRecords
import TorchGcu.Logic.Search
import TorchGcu.OpDebug.OpDebugConfig
import TorchGcu.ShapeInference.Convolution
import TorchGcu.ShapeInference.Col2im
import TorchGcu.Logic.StridedLayout
import TorchGcu.ShapeInference.SpectralOps
import TorchGcu.ShapeInference.FourierStrides
import TorchGcu.Logic.GreedyLabels
import TorchGcu.Profiler.DataFlow
import TorchGcu.Profiler.TensorIds
import TorchGcu.Profiler.AppendOnlyList
import TorchGcu.Profiler.InputOutputEncoder
import TorchGcu.Profiler.RecordedInputs
import TorchGcu.Profiler.EventTree
import TorchGcu.Profiler.EventFrames
import TorchGcu.Profiler.EventForest
import TorchGcu.Profiler.EventInvariant
import TorchGcu.Profiler.EventRuns
import TorchGcu.Profiler.EventParents
import TorchGcu.Profiler.AdjustedForest
import TorchGcu.Profiler.IterationStarts
import TorchGcu.Profiler.ConfigValid
import TorchGcu.ShapeInference.MaxPool3d
import TorchGcu.ProcessGroup.UniqueIdStrings
import TorchGcu.Streams.PeerAccess
import TorchGcu.Profiler.BlockPointers
import TorchGcu.Tensor.Bincount
import TorchGcu.Streams.VisibleDevices
import TorchGcu.Initialization.TimelyCalls
import TorchGcu.Logic.DoublePrecision
import TorchGcu.ShapeInference.RangeFactories
import TorchGcu.ShapeInference.LinearShapes
import TorchGcu.Broadcast.BroadcastsAgree
import TorchGcu.CachingAllocator.StreamSafety
import TorchGcu.Ipc.SharedTensorSafety
