import Sctp.Lib.Serial
import Sctp.Lib.Bitmap
import Sctp.Lib.Runs
import Sctp.Lib.Chain
import Sctp.Lib.Ledger
import Sctp.Lib.Trace
import Sctp.Lib.Ring
import Sctp.Lib.Linked
import Sctp.Lib.Tailq
import Sctp.Lib.UpdateFirst
import Sctp.Tsn
import Sctp.MappingArray
import Sctp.Slide
import Sctp.SackTable
import Sctp.SendSack
import Sctp.SackPass
import Sctp.SackReport
import Sctp.SackExact
import Sctp.Chunk
import Sctp.Output.MoveToOutqueue
import Sctp.Output.Fragment
import Sctp.Output.FillOutqueue
import Sctp.Output.Interleave
import Sctp.Output.SendForwardTsn
import Sctp.Sender.State
import Sctp.Sender.Sack
import Sctp.Sender.HandleSack
import Sctp.Sender.Retransmit
import Sctp.Sender.SackAccounting
import Sctp.Sender.Accounting
import Sctp.Sender.Express
import Sctp.Sender.ExpressAgree
import Sctp.Receiver.State
import Sctp.Receiver.Stream
import Sctp.ForwardTsn
import Sctp.StreamReset.Model
import Sctp.StreamReset.Answers
import Sctp.StreamReset.Outstanding
import Sctp.StreamReset.TsnReset
import Sctp.StreamReset.AddStreams
import Sctp.Restart
import Sctp.Scheduler.Model
import Sctp.Scheduler.Exact
import Sctp.Shutdown
import Sctp.Sender.Abandon
import Sctp.Sender.TsnFrame
import Sctp.Sender.TsnOrder
import Sctp.Sender.Cwnd
import Sctp.Sender.CwndSymmetric
import Sctp.Sender.GapMarks
import Sctp.Sender.Release
import Sctp.Enrp.Takeover
import Sctp.Getptr
import Sctp.Dlist.Exact
import Sctp.Enrp.Bounds
import Sctp.Enrp.Encode
import Sctp.HashedTbl.Model
import Sctp.HashedTbl.Map
import Sctp.HashedTbl.Postion
import Sctp.HashedTbl.Visit
import Sctp.Asconf.Model
import Sctp.Lib.Bytes
import Sctp.Asconf.Answered
import Sctp.Asconf.Ack
import Sctp.Nets.Model
import Sctp.Nets.Asconf
import Sctp.Nets.LoadInit
import Sctp.Nets.Features
import Sctp.Nets.AuthPart
import Sctp.Nets.Loaded
import Sctp.Nets.Negotiated
import Sctp.Lib.Tlv
import Sctp.Auth.Model
import Sctp.Auth.Agree
import Sctp.Scheduler.Returns
import Sctp.Lib.Smooth
import Sctp.Lib.Checked
import Sctp.Rto
import Sctp.Sender.UpdateAcked
import Sctp.AlternateNet
import Sctp.Output.FailedMove
import Sctp.ProcessData
import Sctp.Scheduler.Switch
import Sctp.Output.MedChunkOutput
import Sctp.Output.PathMtu
import Sctp.Auth.HashKey
import Sctp.CookieEcho
import Sctp.HandleError
import Sctp.PacketDropped
import Sctp.Ecn.Queue
import Sctp.Ecn.Loop
import Sctp.Ecn.Exact
import Sctp.Cc.Net
import Sctp.Cc.Rtcc
import Sctp.Cc.Default
import Sctp.Cc.HighSpeed
import Sctp.Cc.Window
import Sctp.Timewait
import Sctp.Lib.Slicing
import Sctp.Crc32.Tables
import Sctp.Crc32.Cksum
import Sctp.Auth.Mbufs
import Sctp.Auth.Verdict
import Sctp.Auth.KeyHistory
import Sctp.Lib.Cursor
import Sctp.Callout.Model
import Sctp.Callout.Exact
import Sctp.Enrp.Cblib
import Sctp.Lib.Stable
import Sctp.Enrp.TimerQueue
import Sctp.Distributor.Lists
import Sctp.Distributor.Timers
import Sctp.Distributor.Fds
import Sctp.Auth.Chklist
import Sctp.Auth.Sha1
import Sctp.Auth.Sha1Hmac
import Sctp.Lib.Blocks
import Sctp.Lib.Attempt
import Sctp.Receiver.Process
import Sctp.Receiver.Window
import Sctp.Receiver.Reports
import Sctp.Receiver.Kept
import Sctp.Receiver.Run
import Sctp.Sender.LetGo
import Sctp.Transfer
import Sctp.Receiver.Order
import Sctp.Receiver.Delivery
import Sctp.EndToEnd
