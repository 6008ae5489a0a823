import Homa.Basic
import Homa.Hlist
import Homa.Socktab
import Homa.Init
import Homa.Bind
import Homa.Teardown
import Homa.Scan
import Homa.Sockopt
import Homa.Run
import Homa.Softirq
import Homa.ListHead
import Homa.Shutdown
import Homa.Sendmsg
import Homa.Reply
import Homa.Recvmsg
import Homa.Abort
import Homa.ScanOrder
import Homa.SocktabDestroy
import Homa.Sysctl
import Homa.Refs
import Homa.Timer
import Homa.Dointvec
import Homa.Syscalls
