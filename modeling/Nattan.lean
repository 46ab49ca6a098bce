import Nattan.Transition
import Nattan.Walk
import Nattan.Delimiter
import Nattan.Ring
import Nattan.Monitor
import Nattan.Memory
import Nattan.LittleEndian
import Nattan.TypedAccess
import Nattan.ArrayBlockingQueue
import Nattan.Chan
import Nattan.QueueRefinement
import Nattan.TaskThread
import Nattan.TaskPool
import Nattan.TaskPoolWorker
import Nattan.TaskPoolSafety
import Nattan.Buffer
import Nattan.BufferRefinement
import Nattan.BufferGrowth
import Nattan.BufferFill
import Nattan.ClientHelloParser
import Nattan.ClientHello
import Nattan.ClientHelloLoop
import Nattan.ClientHelloFeed
import Nattan.ClientHelloReset
import Nattan.HttpParser
import Nattan.HttpSegmentation
import Nattan.HttpConnection
import Nattan.Replies
import Nattan.File
import Nattan.BufferSend
import Nattan.TempFile
import Nattan.HttpBody
import Nattan.HttpBodyReset
import Nattan.HttpHeader
import Nattan.HttpReset
import Nattan.HttpDump
import Nattan.HttpSwitch
import Nattan.HttpExecute
import Nattan.HttpSound
import Nattan.HttpCalls
import Nattan.HttpReading
import Nattan.HttpCuts
import Nattan.HttpSend
import Nattan.FileSend
import Nattan.CoPoll
import Nattan.HookFlag
import Nattan.CoMutex
import Nattan.Descriptors
import Nattan.InnerFd
import Nattan.LinkedList
import Nattan.Deque
import Nattan.Scheduler
import Nattan.SchedulerSafety
import Nattan.SchedulerFairness
import Nattan.SchedulerSleep
import Nattan.SysHook
import Nattan.SysHookMessage
import Nattan.SysHookRecv
import Nattan.Await
import Nattan.ThreadPool
import Nattan.ThreadPoolStop
import Nattan.Uuid
import Nattan.FileDescriptors
import Nattan.ConfigParser
import Nattan.ConfigLines
import Nattan.ConfigRoundTrip
import Nattan.TaskMutex
import Nattan.Future
import Nattan.ChanTimeout
import Nattan.ChanClose
import Nattan.Text
import Nattan.Base64
import Nattan.ConfigReload
import Nattan.SocketHelper
import Nattan.DNS
import Nattan.Logger
import Nattan.SslRelay
import Nattan.TimeWheel
import Nattan.EventLoop
import Nattan.ConfigScan
import Nattan.CoCond
import Nattan.CondMonitor
import Nattan.BufferedChan
import Nattan.CoBar
import Nattan.SocketTimeout
import Nattan.Rendezvous
import Nattan.CoSem
import Nattan.BinaryHeap
import Nattan.CArray
import Nattan.Heap
import Nattan.Cid
import Nattan.HashMap
import Nattan.HashMapBuckets
import Nattan.HashMapGrowth
import Nattan.HashMapStore
