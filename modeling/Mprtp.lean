import Mprtp.Address
import Mprtp.Basic
import Mprtp.Client
import Mprtp.Client.Lines
import Mprtp.Client.Moves
import Mprtp.Client.Networks
import Mprtp.Client.Shutdown
import Mprtp.Clock
import Mprtp.Interface
import Mprtp.Interface.Poll
import Mprtp.Lib.Counter
import Mprtp.Lib.Critical
import Mprtp.Lib.Descriptors
import Mprtp.Lib.Drift
import Mprtp.Lib.Endian
import Mprtp.Lib.Exec
import Mprtp.Lib.ExtRat
import Mprtp.Lib.FirstSeen
import Mprtp.Lib.Gaps
import Mprtp.Lib.Grouped
import Mprtp.Lib.Independent
import Mprtp.Lib.Keyed
import Mprtp.Lib.Merge
import Mprtp.Lib.MergeCounts
import Mprtp.Lib.Pick
import Mprtp.Lib.PickCounts
import Mprtp.Lib.Reader
import Mprtp.Lib.Rescale
import Mprtp.Lib.Serial
import Mprtp.Lib.Since
import Mprtp.Lib.Smoothing
import Mprtp.Lib.Sums
import Mprtp.Lib.Wrap
import Mprtp.Ntp
import Mprtp.Packet
import Mprtp.Packet.Bounds
import Mprtp.Packet.Extension
import Mprtp.Packet.Fields
import Mprtp.Packet.Splits
import Mprtp.Receiver
import Mprtp.Receiver.Answers
import Mprtp.Receiver.Counts
import Mprtp.Receiver.Gapless
import Mprtp.Receiver.History
import Mprtp.Receiver.Intervals
import Mprtp.Receiver.Numbers
import Mprtp.Receiver.Orders
import Mprtp.Receiver.ReportSize
import Mprtp.Receiver.Reports
import Mprtp.Receiver.Rules
import Mprtp.Receiver.Runs
import Mprtp.Receiver.SenderReports
import Mprtp.Receiver.Stats
import Mprtp.Receiver.Suspension
import Mprtp.Rtcp
import Mprtp.Rtcp.Blocks
import Mprtp.Rtcp.Bounds
import Mprtp.Rtcp.Decode
import Mprtp.Rtcp.Framing
import Mprtp.Rtcp.Walk
import Mprtp.Sender
import Mprtp.Sender.Accounts
import Mprtp.Sender.Bitrates
import Mprtp.Sender.Choice
import Mprtp.Sender.Clock
import Mprtp.Sender.Congestion
import Mprtp.Sender.Datagrams
import Mprtp.Sender.Destinations
import Mprtp.Sender.Divisors
import Mprtp.Sender.Draws
import Mprtp.Sender.Estimates
import Mprtp.Sender.Frequencies
import Mprtp.Sender.History
import Mprtp.Sender.Losses
import Mprtp.Sender.Numbers
import Mprtp.Sender.Paths
import Mprtp.Sender.Payloads
import Mprtp.Sender.Percentages
import Mprtp.Sender.Recovery
import Mprtp.Sender.Reports
import Mprtp.Sender.Returns
import Mprtp.Sender.Rules
import Mprtp.Sender.Runs
import Mprtp.Sender.Schedule
import Mprtp.Sender.Sequence
import Mprtp.Sender.Shares
import Mprtp.Sender.Steps
import Mprtp.Sender.Suspension
import Mprtp.Sender.Throughput
import Mprtp.Sender.Timestamps
import Mprtp.Sender.Totals
import Mprtp.Sender.Wire
import Mprtp.Server
import Mprtp.Session
import Mprtp.Session.Arrivals
import Mprtp.Session.Clock
import Mprtp.Session.Compounds
import Mprtp.Session.Conservation
import Mprtp.Session.Opening
import Mprtp.Session.Order
import Mprtp.Session.Polling
import Mprtp.Session.Queues
import Mprtp.Session.Returns
import Mprtp.Session.Rules
import Mprtp.Session.Suspension
import Mprtp.Source
import Mprtp.Source.Packets
import Mprtp.Source.Report
import Mprtp.Source.Signs
import Mprtp.Stat
import Mprtp.Stat.Accounts
import Mprtp.Stat.Cycles
import Mprtp.Stat.Flow
import Mprtp.Stat.Gapless
import Mprtp.Stat.Intervals
import Mprtp.Stat.Jitter
import Mprtp.Stat.Losses
import Mprtp.Stat.Numbers
import Mprtp.Stat.Runs
import Mprtp.Stat.Sequence
import Mprtp.Subflow
import Mprtp.System
import Mprtp.System.AtMostOnce
import Mprtp.System.Calls
import Mprtp.System.Conservation
import Mprtp.System.Delivery
import Mprtp.System.Ends
import Mprtp.System.Feedback
import Mprtp.System.Lossless
import Mprtp.System.Numbering
import Mprtp.System.Payloads
import Mprtp.System.Runs
import Mprtp.System.Suspension
