import RemoteX86.Ipv4

/-!
# Echo requests and their answers

What an IPv4 packet with an echo request in it is, and what the frame that answers it has to be.
-/

namespace RemoteX86

open Hex Memory

/-- The data of an IPv4 packet. -/
def ipv4Data (pkt : List Byte) : List Byte := pkt.drop (ipv4HdrLen pkt)

def ipv4DataLen (pkt : List Byte) : ℕ := ipv4TotalLen pkt - ipv4HdrLen pkt

def ipv4Source (pkt : List Byte) : Ipv4Address := ⟨peek pkt 12 4, by simp [peek]⟩

/-- `len` bytes of ICMP that ask for an echo, with a checksum over all of them. -/
structure EchoRequest (icmp : List Byte) (len : ℕ) : Prop where
  len_ge : 8 ≤ len
  type : icmp.getD 0 0 = 8
  code : icmp.getD 1 0 = 0
  chksum : Checksum.sumBytes (peek icmp 0 len) = 0xFFFF

/-- A packet with an echo request for this machine, no longer than what the driver sends. -/
structure PingRequest (dev : Device) (pkt : List Byte) (sz : ℕ) : Prop where
  accepted : ipv4Accepts dev.myIpv4Address pkt sz = true
  fits : dev.chosenNetDrv.prepareSendPacket (ipv4TotalLen pkt) = true
  proto : pkt.getD 9 0 = 0x01
  request : EchoRequest (ipv4Data pkt) (ipv4DataLen pkt)

/-- The frame carries the `len` bytes back to `src`: of type 0, with the checksum that belongs to
that, and otherwise as they came. -/
structure EchoReply (dev : Device) (eth : EthernetFrameHeader) (src : Ipv4Address)
    (icmp : List Byte) (len : ℕ) (f : Frame) : Prop where
  hdr : f.hdr = { dstMac := eth.srcMac, srcMac := dev.myEthMac, type := ntoh16 0x0800 }
  accepted : ipv4Accepts src f.payload f.payload.length = true
  hdrLen : ipv4HdrLen f.payload = 20
  totalLen : ipv4TotalLen f.payload = 20 + len
  proto : f.payload.getD 9 0 = 0x01
  source : peek f.payload 12 4 = dev.myIpv4Address.toList
  destination : peek f.payload 16 4 = src.toList
  length : (f.payload.drop 20).length = len
  type : (f.payload.drop 20).getD 0 0 = 0
  same : ∀ i < len, i ≠ 0 → i ≠ 2 → i ≠ 3 → (f.payload.drop 20).getD i 0 = icmp.getD i 0
  chksum : Checksum.sumBytes (f.payload.drop 20) = 0xFFFF

def PingWorks (code : BitVec 32 → Mem 32 → Mem 32) (dev : Device) (eth : EthernetFrameHeader)
    (pkt : List Byte) (sz : ℕ) : Prop :=
  ∃ f, (netOnIpv4 code dev eth pkt sz).2.sent = [f]
    ∧ EchoReply dev eth (ipv4Source pkt) (ipv4Data pkt) (ipv4DataLen pkt) f

end RemoteX86
