import RemoteX86.Code
import RemoteX86.Lib.Hex
import RemoteX86.Lib.Memory
import RemoteX86.Lib.Transition
import RemoteX86.Device
import RemoteX86.Network
import RemoteX86.Client
import RemoteX86.Operands
import RemoteX86.Isolation
import RemoteX86.Link
import RemoteX86.Destination
import RemoteX86.Session
import RemoteX86.Pointer
import RemoteX86.Serial
import RemoteX86.SerialClient
import RemoteX86.Proofs.Operands
import RemoteX86.Proofs.Packet
import RemoteX86.Proofs.WriteFence
import RemoteX86.Proofs.Isolation
import RemoteX86.Proofs.Contained
import RemoteX86.Proofs.Requests
import RemoteX86.Proofs.Replies
import RemoteX86.Proofs.RoundTrip
import RemoteX86.Proofs.Destination
import RemoteX86.Proofs.Session
import RemoteX86.Proofs.ExecOnce
import RemoteX86.Proofs.ExecAck
import RemoteX86.Proofs.FreshRead
import RemoteX86.Proofs.WriteSafe
import RemoteX86.Proofs.Serial
import RemoteX86.Proofs.SerialFraming
import RemoteX86.Proofs.SerialSync
import RemoteX86.SerialRange
import RemoteX86.Proofs.SerialRange
import RemoteX86.Proofs.SerialLimit
import RemoteX86.Lib.Fill
import RemoteX86.Paging
import RemoteX86.Proofs.Paging
import RemoteX86.Proofs.SerialModes
import RemoteX86.Proofs.SerialMatch
import RemoteX86.Proofs.Reply
import RemoteX86.Lib.Ring
import RemoteX86.RxRing
import RemoteX86.Proofs.RxRing
import RemoteX86.Proofs.RxRound
import RemoteX86.Lib.Walk
import RemoteX86.Ne2000
import RemoteX86.Proofs.Ne2000
import RemoteX86.Proofs.Ne2000Boundary
import RemoteX86.NetMenu
import RemoteX86.Proofs.NetMenu
import RemoteX86.Proofs.Ipv4
import RemoteX86.Proofs.Datagram
import RemoteX86.Proofs.Ping
import RemoteX86.Proofs.WriteAck
import RemoteX86.Proofs.LineBuffer
import RemoteX86.Proofs.OperandReads
import RemoteX86.Lib.CallStack
import RemoteX86.Lib.Checksum
import RemoteX86.Proofs.Checksum
import RemoteX86.Proofs.Routines
import RemoteX86.Proofs.Commands
import RemoteX86.Proofs.MainLoop
import RemoteX86.Proofs.Exchange
import RemoteX86.Lib.Pieces
import RemoteX86.Descriptor
import RemoteX86.Proofs.GetResponse
import RemoteX86.Proofs.Transmit
import RemoteX86.Proofs.Delivered
import RemoteX86.Upload
import RemoteX86.Proofs.Upload
import RemoteX86.Lib.Asking
import RemoteX86.Aliasing
import RemoteX86.Proofs.Aliasing
import RemoteX86.Proofs.AliasingRange
import RemoteX86.A20
import RemoteX86.Proofs.A20
import RemoteX86.Lib.Odometer
import RemoteX86.Floppy
import RemoteX86.Proofs.Floppy
import RemoteX86.Lib.Register
import RemoteX86.Pci
import RemoteX86.Proofs.Pci
import RemoteX86.Proofs.HexText
import RemoteX86.Proofs.Pointer
import RemoteX86.Lib.Bump
import RemoteX86.Alloc
import RemoteX86.Proofs.Alloc
import RemoteX86.Rtl8101
import RemoteX86.Proofs.Rtl8101
import RemoteX86.Lib.Search
import RemoteX86.PciTable
import RemoteX86.Proofs.PciFind
import RemoteX86.Proofs.PciScan
import RemoteX86.Lib.Emitting
import RemoteX86.Screen
import RemoteX86.Console
import RemoteX86.Proofs.Screen
import RemoteX86.Proofs.Console
import RemoteX86.Proofs.ChangeIp
import RemoteX86.TxRing
import RemoteX86.Proofs.TxRing
import RemoteX86.Ne2000Tx
import RemoteX86.Proofs.Ne2000Tx
import RemoteX86.Lib.Answering
import RemoteX86.Lib.Store
import RemoteX86.EthMachine
import RemoteX86.Proofs.EthMachine
import RemoteX86.SerialMachine
import RemoteX86.Proofs.SerialMachine
import RemoteX86.Segment
import RemoteX86.Proofs.Segment
import RemoteX86.Station
import RemoteX86.Proofs.Station
import RemoteX86.Lib.Copy
import RemoteX86.Terminal
import RemoteX86.Proofs.Terminal
import RemoteX86.Protection
import RemoteX86.Proofs.Protection
