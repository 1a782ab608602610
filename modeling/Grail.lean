import Grail.Termination
import Grail.Blocking
import Grail.KernelTable
import Grail.Iovecs
import Grail.Replies
import Grail.Repeatability
import Grail.RouteDeletes
import Grail.LinkDump
import Grail.AddrDump
import Grail.SockOpts
import Grail.IfDevices
import Grail.StepFailures
import Grail.FailedCalls
import Grail.NonBlocking
import Grail.SelectTime
import Grail.SelectOnce
import Grail.SelectSets
import Grail.SelectReports
import Grail.Connections
import Grail.PollLoops
import Grail.NetlinkWakes
import Grail.EndOfStream
import Grail.Resumptions
import Grail.StreamIntegrity
import Grail.FcntlCalls
import Grail.WaitStatus
import Grail.DeadThreads
import Grail.Clocks
import Grail.Wakeups
import Grail.ForwardingTable
import Grail.Pacing
import Grail.SocketNumbers
import Grail.Promptness
import Grail.Deadlines
