import Dtp.Lib.BinaryHeap
import Dtp.Lib.Program
import Dtp.Lib.Runs
import Dtp.Lib.HighWater
import Dtp.Lib.Keyed
import Dtp.Lib.Ledger
import Dtp.Lib.Quota
import Dtp.Lib.Peers
import Dtp.Lib.BigEndian
import Dtp.Lib.WindowedFilter
import Dtp.Lib.Results
import Dtp.Lib.Rounding
import Dtp.Lib.Cursor
import Dtp.Error
import Dtp.RangeBuf
import Dtp.RecvBuf
import Dtp.Reassembly
import Dtp.FinalSize
import Dtp.Deadlines
import Dtp.Ranges
import Dtp.RangeRuns
import Dtp.SendBuf
import Dtp.SendRoundTrip
import Dtp.Stream
import Dtp.Scheduler
import Dtp.StreamMap
import Dtp.Scheduling
import Dtp.Expiry
import Dtp.Fifo
import Dtp.Listing
import Dtp.Frame
import Dtp.Recovery
import Dtp.LossDetection
import Dtp.Probes
import Dtp.ClearedEpochs
import Dtp.DiscardedKeys
import Dtp.Conservation
import Dtp.Rebuilding
import Dtp.AckScan
import Dtp.Losses
import Dtp.Connection
import Dtp.Send
import Dtp.SendBlocks
import Dtp.Calls
import Dtp.CallParts
import Dtp.Actions
import Dtp.Effects
import Dtp.SendEffects
import Dtp.Lifetime
import Dtp.Metering
import Dtp.Resets
import Dtp.StreamLimits
import Dtp.Written
import Dtp.Retransmission
import Dtp.Packets
import Dtp.Scripts
import Dtp.Refusals
import Dtp.Hearing
import Dtp.Duplex
import Dtp.Terms
import Dtp.Compliance
import Dtp.Credit
import Dtp.Numbering
import Dtp.Nonces
import Dtp.Receipts
import Dtp.AckEliciting
import Dtp.Writers
import Dtp.StreamRuns
import Dtp.Readable
import Dtp.Budget
import Dtp.PacketTypes
import Dtp.FecDecoding
import Dtp.FecGroups
import Dtp.Atomicity
import Dtp.Cancellation
import Dtp.Announcements
import Dtp.Outstanding
import Dtp.Spaces
import Dtp.Acknowledgements
import Dtp.SendCredit
import Dtp.Amplification
import Dtp.Datagrams
import Dtp.Coalescing
import Dtp.Octets
import Dtp.FrameCodec
import Dtp.FrameRoundTrip
import Dtp.HeaderCodec
import Dtp.PacketNumbers
import Dtp.PacketProtection
import Dtp.Endpoint
import Dtp.Junk
import Dtp.TransportParams
import Dtp.H3.Frame
import Dtp.H3.FrameCodec
import Dtp.H3.Stream
import Dtp.H3.FrameOrder
import Dtp.H3.Connection
import Dtp.H3.Sending
import Dtp.H3.Qpack.Codec
import Dtp.H3.Qpack.Integers
import Dtp.H3.HeaderBlocks
import Dtp.H3.Polling
import Dtp.H3.Finished
import Dtp.Minmax
import Dtp.Cc.Controller
import Dtp.Cc.Controlled
import Dtp.Cc.Reno
import Dtp.Cc.Hystart
import Dtp.Cc.Cubic
import Dtp.Cc.Spurious
import Dtp.Cc.BwSampler
import Dtp.Cc.SlowStart
import Dtp.Cc.Bbr.State
import Dtp.Cc.Bbr.EndAck
import Dtp.Cc.Bbr.Stages
import Dtp.Cc.Bbr.Operations
import Dtp.Cc.Bbr.Window
import Dtp.Cc.Bbr.Startup
import Dtp.Cc.Bbr.Rounds
import Dtp.Cc.Bbr.Fates
import Dtp.Cc.Recovering
