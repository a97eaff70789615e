import Xtcp.Library.Runs
import Xtcp.Library.Cyclic
import Xtcp.Library.Chains
import Xtcp.Library.Conveyor
import Xtcp.Types
import Xtcp.ClientQueue
import Xtcp.Lwip
import Xtcp.State
import Xtcp.Connection
import Xtcp.LwipShim
import Xtcp.Callbacks
import Xtcp.Server
import Xtcp.Table
import Xtcp.TableRefine
import Xtcp.Slots
import Xtcp.Events
import Xtcp.Accept
import Xtcp.QueueStep
import Xtcp.Calm
import Xtcp.Link
import Xtcp.Multicast
import Xtcp.Routing
import Xtcp.Reuse
import Xtcp.Send
import Xtcp.RxChain
import Xtcp.RxStep
import Xtcp.RxRuns
import Xtcp.Isolation
import Xtcp.Close
import Xtcp.TcpChain
import Xtcp.Receive
import Xtcp.Stranded
import Xtcp.Window
import Xtcp.Environment
import Xtcp.Notifications
import Xtcp.Rotation
import Xtcp.Refusal
import Xtcp.Queries
import Xtcp.Notify
import Xtcp.Transmit
import Xtcp.Options
import Xtcp.Locality
import Xtcp.ConnectionCalls
import Xtcp.RxQueue
import Xtcp.Startup
import Xtcp.Faults
import Xtcp.Datagrams
import Xtcp.Library.Holdings
import Xtcp.Blocks
import Xtcp.Effects
import Xtcp.Streams
import Xtcp.Hearing
import Xtcp.Names
import Xtcp.Library.Programs
import Xtcp.Library.Relay
import Xtcp.Client
import Xtcp.TcpEcho
import Xtcp.UdpEcho
import Xtcp.UdpRouting
import Xtcp.Stamps
import Xtcp.Stale
import Xtcp.Library.Pool
import Xtcp.PbufPool
