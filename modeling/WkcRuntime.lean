import WkcRuntime.Machine
import WkcRuntime.Tally
import WkcRuntime.ConditionVariable
import WkcRuntime.MessageQueue
import WkcRuntime.Custody
import WkcRuntime.RingPositions
import WkcRuntime.SweepPipeline
import WkcRuntime.ShiftRegister
import WkcRuntime.LinkedOrder
import WkcRuntime.LockOrder
import WkcRuntime.CircularList
import WkcRuntime.RingOperations
import WkcRuntime.RingCounters
import WkcRuntime.WmSemSource
import WkcRuntime.WmSemWakeup
import WkcRuntime.WmSemTokens
import WkcRuntime.WmSemFailure
import WkcRuntime.EvtSource
import WkcRuntime.EvtWakeup
import WkcRuntime.EvtTokens
import WkcRuntime.TimedWaits
import WkcRuntime.EvtRwSource
import WkcRuntime.EvtRwReaders
import WkcRuntime.EvtRwBroadcasts
import WkcRuntime.EvtRwPolls
import WkcRuntime.QueueRSource
import WkcRuntime.QueueRWakeup
import WkcRuntime.QueueRThrows
import WkcRuntime.MesgSource
import WkcRuntime.MsgQueueSource
import WkcRuntime.MesgLedger
import WkcRuntime.MesgTraffic
import WkcRuntime.MesgOwnership
import WkcRuntime.MsgQueueRegistry
import WkcRuntime.MsgQueueDrain
import WkcRuntime.MsgQueueReopen
import WkcRuntime.MsgQueueTable
import WkcRuntime.MsgQueueMirror
import WkcRuntime.MsgQueueInterference
import WkcRuntime.MsgQueueThreads
import WkcRuntime.MsgQueueLifetime
import WkcRuntime.ObservableSource
import WkcRuntime.ObservableSubscriptions
import WkcRuntime.ObservableDelivery
import WkcRuntime.ObservableReports
import WkcRuntime.ObservableIsolation
import WkcRuntime.SfifoSource
import WkcRuntime.SfifoRefinement
import WkcRuntime.SfifoSizes
import WkcRuntime.SfifoThreads
import WkcRuntime.SfifoRing
import WkcRuntime.SfifoTransfers
import WkcRuntime.WmEpollSource
import WkcRuntime.WmEpollDispatch
import WkcRuntime.WmEpollRegistrySource
import WkcRuntime.WmEpollRegistry
import WkcRuntime.WmEpollCodes
import WkcRuntime.WmEpollExitsSource
import WkcRuntime.WmEpollExits
import WkcRuntime.WmEpollLoopSource
import WkcRuntime.WmEpollTimers
import WkcRuntime.WmEpollLoop
import WkcRuntime.WmEpollLoopResources
import WkcRuntime.WmEpollLoopRuns
import WkcRuntime.WmEpollLoopProgress
import WkcRuntime.WmEpollLoopSelfStop
import WkcRuntime.ThreadObjSource
import WkcRuntime.StopAllThreads
import WkcRuntime.ThreadRegistrySource
import WkcRuntime.ThreadRegistry
import WkcRuntime.ThreadWorkersSource
import WkcRuntime.ThreadWorkers
import WkcRuntime.MessageThreadSource
import WkcRuntime.MessageThreadStop
import WkcRuntime.MessageThreadPayloads
import WkcRuntime.MessageThreadOrder
import WkcRuntime.MessageThreadJoin
import WkcRuntime.ListRSource
import WkcRuntime.ListRChain
import WkcRuntime.ListRSteps
import WkcRuntime.ListRFrame
import WkcRuntime.ListRSafety
import WkcRuntime.ListRLayout
import WkcRuntime.ListRLinearize
import WkcRuntime.ListRTurns
import WkcRuntime.Crc32Source
import WkcRuntime.Crc32
import WkcRuntime.Crc32Threads
import WkcRuntime.MsgQueueDepth
import WkcRuntime.TwoRuns
import WkcRuntime.MesgConstructSource
import WkcRuntime.MesgAccesses
import WkcRuntime.MesgConstruct
import WkcRuntime.BlockStream
import WkcRuntime.LittleEndian
import WkcRuntime.Md5Source
import WkcRuntime.Md5Rounds
import WkcRuntime.Md5Stream
import WkcRuntime.Md5Runs
import WkcRuntime.PointerCells
import WkcRuntime.ListHeadSource
import WkcRuntime.ListHead
import WkcRuntime.ListHeadLoops
import WkcRuntime.HlistSource
import WkcRuntime.Hlist
import WkcRuntime.HlistLoops
import WkcRuntime.KfifoSource
import WkcRuntime.KfifoRefinement
import WkcRuntime.MesgValues
import WkcRuntime.MesgContents
import WkcRuntime.MesgRefinement
