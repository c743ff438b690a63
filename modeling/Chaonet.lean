import Chaonet.Foundation.Extraction
import Chaonet.Foundation.Chunked
import Chaonet.Foundation.Numeral
import Chaonet.Foundation.Path
import Chaonet.Foundation.Assignment
import Chaonet.Foundation.Loop
import Chaonet.Foundation.NetworkOrder
import Chaonet.Foundation.OrderedMap
import Chaonet.Foundation.OrderedSet
import Chaonet.Foundation.Run
import Chaonet.Foundation.SwapRemove
import Chaonet.Foundation.Segment
import Chaonet.Foundation.Traced
import Chaonet.Foundation.BatchQueue
import Chaonet.Buffer.Model
import Chaonet.Buffer.Queue
import Chaonet.Buffer.Lines
import Chaonet.Buffer.Shrink
import Chaonet.Buffer.Space
import Chaonet.Reactor.Channel
import Chaonet.Reactor.EPoller
import Chaonet.Reactor.EventLoop
import Chaonet.Reactor.Registry
import Chaonet.Reactor.Iteration
import Chaonet.Reactor.Poller
import Chaonet.Reactor.PolledChannels
import Chaonet.Reactor.Interest
import Chaonet.Reactor.Interchange
import Chaonet.Reactor.IndexTable
import Chaonet.Reactor.FunctorOrder
import Chaonet.Reactor.EventLoopThread
import Chaonet.Connection.TcpConnection
import Chaonet.Connection.OutputStream
import Chaonet.Connection.Members
import Chaonet.Connection.Session
import Chaonet.Connection.GracefulShutdown
import Chaonet.Connection.ClosedChannel
import Chaonet.Connection.Lifecycle
import Chaonet.Connection.Exchange
import Chaonet.Connection.Stages
import Chaonet.Connection.Handlers
import Chaonet.Connection.Passage
import Chaonet.Connection.Service
import Chaonet.Connection.Window
import Chaonet.Timer.OneShots
import Chaonet.Timer.Timer
import Chaonet.Timer.TimerQueue
import Chaonet.Timer.TimerLoop
import Chaonet.Timer.Indexes
import Chaonet.Timer.Wakeup
import Chaonet.Timer.Cancellation
import Chaonet.Timer.Iterators
import Chaonet.Timer.TimerSession
import Chaonet.Timer.Handover
import Chaonet.Timer.Batch
import Chaonet.Client.Connector
import Chaonet.Client.ConnectorLoop
import Chaonet.Client.Stop
import Chaonet.Client.TcpClient
import Chaonet.Client.Disconnect
import Chaonet.Client.Ownership
import Chaonet.Client.OwnedSteps
import Chaonet.Client.RetryTimers
import Chaonet.Client.Reconnect
import Chaonet.Client.OneConnection
import Chaonet.Server.IoLoop
import Chaonet.Server.TcpServer
import Chaonet.Server.Destruction
import Chaonet.Server.Handoff
import Chaonet.Server.ConnectionLife
import Chaonet.Server.Balance
import Chaonet.Client.Destruction
import Chaonet.Http.HttpRequest
import Chaonet.Http.HttpContext
import Chaonet.Http.RequestLine
import Chaonet.Http.Serving
import Chaonet.Http.HeaderLines
import Chaonet.Http.HttpResponse
import Chaonet.Http.HttpServer
import Chaonet.Http.Requests
import Chaonet.Http.Rendering
import Chaonet.Http.PageFile
import Chaonet.Http.PageRoot
import Chaonet.Http.Rejection
import Chaonet.Protobuf.ProtobufCodecLite
import Chaonet.Protobuf.Delivery
import Chaonet.Protobuf.Frames
import Chaonet.Sudoku.Sudoku
import Chaonet.Sudoku.Records
import Chaonet.Sudoku.Search
import Chaonet.Sudoku.Solution
import Chaonet.Sudoku.Filling
import Chaonet.Sudoku.Bounds
import Chaonet.Sudoku.Server
import Chaonet.Sudoku.Serving
import Chaonet.Finger.Finger
import Chaonet.Relay.Tunnel
import Chaonet.Relay.Members
import Chaonet.Relay.FlowControl
import Chaonet.Relay.Streams
import Chaonet.Relay.Socks4a
import Chaonet.Relay.Proxy
import Chaonet.FileTransfer.FileServer
import Chaonet.Foundation.Cycle
import Chaonet.PingPong.Circle
import Chaonet.PingPong.Endpoints
