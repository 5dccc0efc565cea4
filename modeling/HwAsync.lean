import HwAsync.Lib.Run
import HwAsync.Infiniband.SynMsg
import HwAsync.Lib.Fifo
import HwAsync.Infiniband.Chunk
import HwAsync.Rdma.State
import HwAsync.Rdma.Read
import HwAsync.Rdma.ZeroCopy
import HwAsync.Rdma.RxRun
import HwAsync.Infiniband.Cluster
import HwAsync.Lib.Pool
import HwAsync.Rdma.Submit
import HwAsync.Rdma.SendStream
import HwAsync.Rdma.TxChunks
import HwAsync.Rdma.Handshake
import HwAsync.Rdma.Agreement
import HwAsync.Rdma.Polling
import HwAsync.Rdma.DeadQueuePairs
import HwAsync.Rdma.Registry
import HwAsync.Rdma.PendingWorkers
import HwAsync.Lib.Numbered
import HwAsync.Lib.PrioQueue
import HwAsync.Connection.Endpoint
import HwAsync.Connection.Session
import HwAsync.Framing.Frame
import HwAsync.Framing.Process
import HwAsync.Framing.Pass
import HwAsync.Framing.Sync
import HwAsync.Framing.Throttle
import HwAsync.Framing.Drain
import HwAsync.Connect.Protocol
import HwAsync.Connect.Reply
import HwAsync.Connect.Accept
import HwAsync.Connect.Negotiation
import HwAsync.Connect.Messengers
import HwAsync.Connect.Stale
import HwAsync.Messenger.Registry
import HwAsync.Event.Center
import HwAsync.Event.Timing
import HwAsync.Connect.Fault
import HwAsync.Event.Connection
import HwAsync.Event.Shutdown
import HwAsync.Event.Wakeup
import HwAsync.Messenger.Workers
import HwAsync.Connect.Rewritten
import HwAsync.Event.Outgoing
import HwAsync.Event.External
import HwAsync.Lib.Notified
import HwAsync.Rdma.Arming
import HwAsync.Rdma.Tables
import HwAsync.Rdma.Exit
import HwAsync.Infiniband.RxPool
import HwAsync.Rdma.Credits
import HwAsync.Rdma.Notification
import HwAsync.Event.FileTable
import HwAsync.Event.Dispatch
import HwAsync.Event.Epoll
import HwAsync.Event.Kqueue
import HwAsync.Lib.Multimap
import HwAsync.Event.TimeEvents
import HwAsync.Rdma.SubmitSafety
import HwAsync.Framing.Prefetch
import HwAsync.Rdma.PendingConns
import HwAsync.Rdma.SendQueue
import HwAsync.Framing.Payload
import HwAsync.Connect.GlobalSeq
import HwAsync.Messenger.Bind
import HwAsync.Lib.Stride
import HwAsync.Infiniband.Fill
import HwAsync.Infiniband.RxBlock
import HwAsync.Connection.AckDebt
import HwAsync.Messenger.Active
import HwAsync.Lib.Linked
import HwAsync.Infiniband.RecvChain
import HwAsync.Rdma.RecvCredits
import HwAsync.Lib.SwapRemove
import HwAsync.Event.Pollers
import HwAsync.Lib.Monitor
import HwAsync.Event.Handoff
import HwAsync.Event.Submit
import HwAsync.Messenger.Drain
import HwAsync.Framing.Lane
import HwAsync.Connect.Identify
import HwAsync.Connect.Exchange
import HwAsync.Connect.AuthorizerBuf
import HwAsync.Event.Select
import HwAsync.Framing.Live
import HwAsync.Connection.Wired
import HwAsync.Rdma.Joined
