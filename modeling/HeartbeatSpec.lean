import HeartbeatSpec.Asio.Handler
import HeartbeatSpec.Asio.Loop
import HeartbeatSpec.Asio.Peers
import HeartbeatSpec.Asio.Retry
import HeartbeatSpec.Asio.Session
import HeartbeatSpec.Asio.Shutdown
import HeartbeatSpec.Asio.Threads
import HeartbeatSpec.Base.Chain
import HeartbeatSpec.Base.Contract
import HeartbeatSpec.Base.Estimate
import HeartbeatSpec.Base.Frames
import HeartbeatSpec.Base.Ledger
import HeartbeatSpec.Base.Lockstep
import HeartbeatSpec.Base.NetworkOrder
import HeartbeatSpec.Base.NodeSet
import HeartbeatSpec.Base.PrefixCode
import HeartbeatSpec.Base.Ranking
import HeartbeatSpec.Base.RingBuffer
import HeartbeatSpec.Base.Runs
import HeartbeatSpec.Base.Service
import HeartbeatSpec.Base.Slots
import HeartbeatSpec.Base.WriteBuffer
import HeartbeatSpec.CiUtils.Concatenation
import HeartbeatSpec.CiUtils.Emptying
import HeartbeatSpec.CiUtils.LinkedList
import HeartbeatSpec.CiUtils.Links
import HeartbeatSpec.CiUtils.ListCalls
import HeartbeatSpec.CiUtils.ListRuns
import HeartbeatSpec.CiUtils.Moves
import HeartbeatSpec.CiUtils.Sequences
import HeartbeatSpec.Complex.Adapter
import HeartbeatSpec.Complex.Lockstep
import HeartbeatSpec.Complex.Replies
import HeartbeatSpec.Equivalence.Encoders
import HeartbeatSpec.Equivalence.Responders
import HeartbeatSpec.Legacy.Blame
import HeartbeatSpec.Legacy.Bypass
import HeartbeatSpec.Legacy.Callbacks
import HeartbeatSpec.Legacy.Calls
import HeartbeatSpec.Legacy.Closing
import HeartbeatSpec.Legacy.Delivery
import HeartbeatSpec.Legacy.Descriptors
import HeartbeatSpec.Legacy.Ending
import HeartbeatSpec.Legacy.Endurance
import HeartbeatSpec.Legacy.Entries
import HeartbeatSpec.Legacy.EventLoop
import HeartbeatSpec.Legacy.History
import HeartbeatSpec.Legacy.Isolation
import HeartbeatSpec.Legacy.Leaks
import HeartbeatSpec.Legacy.Lockstep
import HeartbeatSpec.Legacy.NetworkThread
import HeartbeatSpec.Legacy.PollTable
import HeartbeatSpec.Legacy.Readiness
import HeartbeatSpec.Legacy.Recorder
import HeartbeatSpec.Legacy.Registrations
import HeartbeatSpec.Legacy.Reply
import HeartbeatSpec.Legacy.Rerun
import HeartbeatSpec.Legacy.Responser
import HeartbeatSpec.Legacy.ResponserLockstep
import HeartbeatSpec.Legacy.Restart
import HeartbeatSpec.Legacy.Scripted
import HeartbeatSpec.Legacy.Servicing
import HeartbeatSpec.Legacy.Startup
import HeartbeatSpec.Message.Defines
import HeartbeatSpec.Message.Layout
import HeartbeatSpec.Select.Coverage
import HeartbeatSpec.Select.FdSets
import HeartbeatSpec.Select.Iteration
import HeartbeatSpec.Select.NetworkThread
import HeartbeatSpec.Socket.CiSocket
import HeartbeatSpec.Socket.Framing
import HeartbeatSpec.Socket.Growth
import HeartbeatSpec.Socket.IntMessages
import HeartbeatSpec.Socket.Progress
import HeartbeatSpec.Socket.Queues
import HeartbeatSpec.Socket.Receiving
import HeartbeatSpec.Socket.Streams
import HeartbeatSpec.Socket.Writing
import HeartbeatSpec.Thread.CiThread2
import HeartbeatSpec.Thread.Ending
import HeartbeatSpec.Thread.Exclusion
import HeartbeatSpec.Thread.Interleaving
import HeartbeatSpec.Thread.Lifecycle
import HeartbeatSpec.Thread.LifecycleLaw
import HeartbeatSpec.Thread.Lockstep
import HeartbeatSpec.Thread.MutualExclusion
import HeartbeatSpec.Thread.Quiescence
import HeartbeatSpec.Thread.StartRequest
import HeartbeatSpec.Thread.WaitUntilExit
import HeartbeatSpec.ThreadComplex.Attached
import HeartbeatSpec.ThreadComplex.CiThreadComplex
import HeartbeatSpec.ThreadComplex.Members
import HeartbeatSpec.ThreadComplex.Rounds
import HeartbeatSpec.ThreadComplex.Turns
