import SimpleTcp.Library.Machine
import SimpleTcp.Library.Calendar
import SimpleTcp.Library.Fifo
import SimpleTcp.Library.Trace
import SimpleTcp.Library.Search
import SimpleTcp.Library.Positions
import SimpleTcp.Library.Transition
import SimpleTcp.Library.Mutex
import SimpleTcp.Library.RoundRobin
import SimpleTcp.Base.Bytes
import SimpleTcp.Base.Error
import SimpleTcp.Base.Compress
import SimpleTcp.Base.LogServer
import SimpleTcp.Base.LogSteps
import SimpleTcp.Base.LogBounds
import SimpleTcp.Base.LogOrder
import SimpleTcp.Base.LogDestroy
import SimpleTcp.Base.LogMemory
import SimpleTcp.Base.LogFiles
import SimpleTcp.Base.LogClock
import SimpleTcp.Base.ThreadPool
import SimpleTcp.Base.PoolExit
import SimpleTcp.Tcp.Buffer
import SimpleTcp.Tcp.SendBuffer
import SimpleTcp.Tcp.RecvBuffer
import SimpleTcp.Tcp.Growth
import SimpleTcp.Tcp.Backlog
import SimpleTcp.Http.StringHelper
import SimpleTcp.Net.Socket
import SimpleTcp.Net.PeerAddress
import SimpleTcp.Net.Channel
import SimpleTcp.Net.EventLoop
import SimpleTcp.Net.LoopCycle
import SimpleTcp.Net.Confinement
import SimpleTcp.Net.TimerQueue
import SimpleTcp.Net.TimerLife
import SimpleTcp.Net.TimerIds
import SimpleTcp.Net.TimerDelay
import SimpleTcp.Net.EventLoopPool
import SimpleTcp.Net.Acquisition
import SimpleTcp.Net.PoolLoops
import SimpleTcp.Net.Epoller
import SimpleTcp.Net.PollOwners
import SimpleTcp.Net.Registration
import SimpleTcp.Tcp.Connection
import SimpleTcp.Tcp.Senders
import SimpleTcp.Tcp.Calls
import SimpleTcp.Tcp.Handlers
import SimpleTcp.Tcp.Invocation
import SimpleTcp.Tcp.Output
import SimpleTcp.Tcp.Session
import SimpleTcp.Tcp.Life
import SimpleTcp.Tcp.Survival
import SimpleTcp.Tcp.ReadOutcome
import SimpleTcp.Tcp.Server
import SimpleTcp.Tcp.Client
import SimpleTcp.Tcp.Teardown
import SimpleTcp.Tcp.Changes
import SimpleTcp.Tcp.Final
import SimpleTcp.Tcp.Dialing
import SimpleTcp.Tcp.Descriptors
import SimpleTcp.Tcp.Continuation
import SimpleTcp.Tcp.Presence
import SimpleTcp.Tcp.ConnectionSet
import SimpleTcp.Tcp.Serving
import SimpleTcp.Tcp.Lifetime
import SimpleTcp.Tcp.Turns
import SimpleTcp.Tcp.References
import SimpleTcp.Tcp.StaleTasks
import SimpleTcp.Tcp.Removal
import SimpleTcp.Http.StringView
import SimpleTcp.Http.Request
import SimpleTcp.Http.Markers
import SimpleTcp.Http.Packet
import SimpleTcp.Http.Server
import SimpleTcp.Http.Framing
import SimpleTcp.Http.StartLine
import SimpleTcp.Http.Sections
import SimpleTcp.Http.ContentLength
import SimpleTcp.Http.HeaderMap
import SimpleTcp.Http.Ranges
import SimpleTcp.Http.Segments
import SimpleTcp.Http.Rejection
import SimpleTcp.Http.Response
import SimpleTcp.Http.Rendering
import SimpleTcp.Http.ContentRange
import SimpleTcp.Http.Properties
import SimpleTcp.Http.Encoding
import SimpleTcp.Http.KeepAlive
import SimpleTcp.Base.PoolTasks
import SimpleTcp.Chat.Handling
import SimpleTcp.Chat.Room
import SimpleTcp.Chat.Stream
import SimpleTcp.Http.Download
import SimpleTcp.Http.Exposure
import SimpleTcp.Tcp.Backoff
import SimpleTcp.Tcp.Echo
import SimpleTcp.Tcp.Limit
