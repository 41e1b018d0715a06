import GbStream.Support.Bytes
import GbStream.Ps.Process
import GbStream.Ps.Demux
import GbStream.Ps.Timing
import GbStream.Ps.Audio
import GbStream.Rtp.Pack
import GbStream.Rtp.Fragment
import GbStream.Support.Transition
import GbStream.Queue.LfQueue
import GbStream.Queue.Invariant
import GbStream.Queue.Fifo
import GbStream.Queue.Admission
import GbStream.Queue.Memory
import GbStream.Rtp.Send
import GbStream.Rtp.FirstPacket
import GbStream.Rtp.ClientLoop
import GbStream.Rtp.ClientInvariant
import GbStream.Rtp.ClientPackets
import GbStream.Rtp.ClientSurvival
import GbStream.Rtp.ClientAlone
import GbStream.Recv.NetLayer
import GbStream.Recv.StreamCb
import GbStream.Recv.Reassembly
import GbStream.Recv.Connection
import GbStream.Recv.Drained
import GbStream.Recv.Room
import GbStream.Recv.Answer
import GbStream.Recv.SendCommand
import GbStream.Support.Loop
import GbStream.Recv.BoxControl
import GbStream.Support.Growable
import GbStream.Support.CString
import GbStream.Sdp.Text
import GbStream.Sdp.Parse
import GbStream.Sdp.Understood
import GbStream.Sdp.Change
import GbStream.Sdp.Points
import GbStream.Sdp.Slots
import GbStream.Sdp.ZoneOrder
import GbStream.Sdp.Formats
import GbStream.Sdp.Contents
import GbStream.Sdp.Accessors
import GbStream.Sdp.Address
import GbStream.Task.PsBuffer
import GbStream.Task.CameraClock
import GbStream.Task.Discarded
import GbStream.Task.Advance
import GbStream.Support.HashTable
import GbStream.Call.SipNode
import GbStream.Stream.Node
import GbStream.Stream.Table
import GbStream.Call.SipTable
import GbStream.Call.CallMap
import GbStream.Call.Ports
import GbStream.Invite.Parase
import GbStream.Invite.Pointers
import GbStream.Invite.Fields
import GbStream.Invite.Answers
import GbStream.Invite.ResponseBody
import GbStream.Stream.Rtcp
import GbStream.Server.State
import GbStream.Server.Delivery
import GbStream.Server.Seats
import GbStream.Server.Sockets
import GbStream.Server.Ssrc
import GbStream.Server.Pass
import GbStream.Lifetime.Node
import GbStream.Lifetime.Ownership
import GbStream.Lifetime.Viewers
import GbStream.Support.Binary32
import GbStream.Support.Chain
import GbStream.Support.Simulation
import GbStream.Simclist.Entries
import GbStream.Simclist.Rep
import GbStream.Simclist.FindPos
import GbStream.Simclist.Insert
import GbStream.Simclist.Drop
import GbStream.Simclist.Search
import GbStream.Simclist.Clear
import GbStream.Simclist.Runs
import GbStream.Simclist.Tables
import GbStream.Call.SipMemory
import GbStream.Task.Relay
import GbStream.Task.EndToEnd
import GbStream.Lifetime.Streaming
