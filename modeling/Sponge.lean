import Sponge.ByteStream
import Sponge.Lib.Intervals
import Sponge.Lib.Word
import Sponge.StreamReassembler
import Sponge.Reassembler.Store
import Sponge.Reassembler.Run
import Sponge.Reassembler.Shape
import Sponge.WrappingIntegers
import Sponge.TCPSegment
import Sponge.TCPReceiver
import Sponge.Receiver.Refinement
import Sponge.TCPSender
import Sponge.Sender.FillWindow
import Sponge.Sender.Acks
import Sponge.Sender.Fidelity
import Sponge.Sender.Timer
import Sponge.TCPState
import Sponge.TCPConnection
import Sponge.Connection.Lifecycle
import Sponge.Connection.Network
import Sponge.Receiver.Assembly
import Sponge.Connection.Emission
import Sponge.Connection.Transfer
import Sponge.Connection.Acknowledgement
import Sponge.Connection.Window
import Sponge.Connection.Handshake
import Sponge.Connection.GiveUp
import Sponge.Lib.Bytes
import Sponge.Lib.StateRun
import Sponge.Net.Parser
import Sponge.Net.Headers
import Sponge.Net.Frames
import Sponge.Lib.OnesComplement
import Sponge.Net.Serialize
import Sponge.Net.TCPOverIP
import Sponge.Net.Demux
import Sponge.Net.ARP
import Sponge.Net.Interface
import Sponge.Net.Delivery
import Sponge.Net.ArpTraffic
import Sponge.Lib.BitTrie
import Sponge.Net.Trie
import Sponge.Net.Router
import Sponge.Lib.Residue
import Sponge.Wrapping.Unwrap
import Sponge.Stream.Run
