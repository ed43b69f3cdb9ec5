import RemoteX86.Lib.Checksum
import RemoteX86.Network

/-!
# UDP datagrams, as their senders build them

The datagram of RFC 768 and its checksum, and what `net_on_ipv4_udp` is to do with the payload of an
IPv4 packet that holds one: the payload may be longer than the datagram.
-/

namespace RemoteX86

open Hex Memory

def udpLength (pkt : List Byte) : ℕ := (net16 pkt 4).toNat

/-! ## The checksum -/

def pseudoHeader (src dst : Ipv4Address) (length : ℕ) : List Byte :=
  src.toList ++ dst.toList ++ [0x00, 0x11] ++ hton16Bytes (BitVec.ofNat 16 length)

/-- The one's complement sum over the pseudo-header and the padded bytes of a datagram. -/
def rfc768Sum (src dst : Ipv4Address) (length : ℕ) (p : List Byte) : ℕ :=
  Checksum.sumBytes (pseudoHeader src dst length ++ p)

/-- A datagram but for its checksum. -/
structure Datagram where
  srcPort : BitVec 16
  dstPort : BitVec 16
  data : List Byte
  length_lt : 8 + data.length < 2 ^ 16

namespace Datagram

def length (d : Datagram) : ℕ := 8 + d.data.length

def bytes (d : Datagram) (field : BitVec 16) : List Byte :=
  hton16Bytes d.srcPort ++ hton16Bytes d.dstPort ++ hton16Bytes (BitVec.ofNat 16 d.length) ++
    hton16Bytes field ++ d.data

/-- The complement of the sum with nothing in the field. -/
def computed (d : Datagram) (src dst : Ipv4Address) : ℕ :=
  65535 - rfc768Sum src dst d.length (d.bytes 0)

/-- What goes into the field: a computed checksum of zero is sent as all ones. -/
def field (d : Datagram) (src dst : Ipv4Address) : BitVec 16 :=
  if d.computed src dst = 0 then 0xFFFF else BitVec.ofNat 16 (d.computed src dst)

end Datagram

/-- The `len` bytes are a datagram from a sender that keeps to the standard, with a checksum or
without one. -/
def Conforming (src dst : Ipv4Address) (pkt : List Byte) (len : ℕ) : Prop :=
  ∃ d : Datagram, d.length = len ∧
    (peek pkt 0 len = d.bytes 0 ∨ peek pkt 0 len = d.bytes (d.field src dst))

/-- The receiver's sum over the datagram, by its own length. -/
def verificationSum (src dst : Ipv4Address) (pkt : List Byte) : ℕ :=
  rfc768Sum src dst (udpLength pkt) (peek pkt 0 (udpLength pkt))

/-- The same sum over the payload of the IPv4 packet. -/
def payloadSum (src dst : Ipv4Address) (pkt : List Byte) (len : ℕ) : ℕ :=
  rfc768Sum src dst len (peek pkt 0 len)

section Received

variable (code : BitVec 32 → Mem 32 → Mem 32) (dev : Device) (eth : EthernetFrameHeader)
  (srcIp : Ipv4Address) (pkt : List Byte) (len : ℕ)

structure FollowsRfc768 : Prop where
  passes : Conforming srcIp dev.myIpv4Address pkt len →
    udpChksumOk dev.myIpv4Address srcIp.toList pkt len = true
  dropped : net16 pkt 6 ≠ 0 → verificationSum srcIp dev.myIpv4Address pkt ≠ 0xFFFF →
    netOnIpv4Udp code dev eth srcIp.toList pkt len = (dev, .none)

/-- No datagram whose computed checksum was zero, and no payload that verifies with something behind
a datagram that does not. -/
structure UsualChecksum : Prop where
  field : udpLength pkt = len → net16 pkt 6 = 0xFFFF →
    verificationSum srcIp dev.myIpv4Address pkt ≠ 0xFFFF
  behind : net16 pkt 6 ≠ 0 → net16 pkt 6 ≠ 0xFFFF →
    payloadSum srcIp dev.myIpv4Address pkt len = 0xFFFF →
    verificationSum srcIp dev.myIpv4Address pkt = 0xFFFF

/-! ## The data -/

/-- `net_on_ipv4_udp` on port 777 behind its checks, with a command that gets `dataLength` bytes. -/
def udpRun (dataLength : ℕ) : Device × Effect :=
  let c := udpCommand code dev (pkt.drop 8) dataLength
  let r := makeUdpResponse dev eth srcIp.toList (net16 pkt 0) (net16 pkt 2) c.reply
  (c.dev, { sent := r.1.toList, writes := c.writes, calls := c.calls, vga := r.2 })

/-- The command gets the data of the datagram, and what the payload has behind the datagram makes no
difference to anything. -/
structure SeesDatagram : Prop where
  dataLength : udpDataLength pkt len = udpLength pkt - 8
  ran : netOnIpv4Udp code dev eth srcIp.toList pkt len
    = udpRun code dev eth srcIp pkt (udpLength pkt - 8)
  behind : ∀ q : List Byte, q.length = pkt.length →
    (∀ i, i < udpLength pkt ∨ len ≤ i → q.getD i 0 = pkt.getD i 0) →
    udpChksumOk dev.myIpv4Address srcIp.toList q len = true →
    netOnIpv4Udp code dev eth srcIp.toList q len = netOnIpv4Udp code dev eth srcIp.toList pkt len

end Received

end RemoteX86
