import RemoteX86.Lib.Checksum
import RemoteX86.Network

/-!
# What `net_on_ipv4` hands on

`net_on_ipv4` up to the call of the ICMP or the UDP code, with its `int sz` as it comes, and what an
IPv4 packet for this machine has to be, field by field.
-/

namespace RemoteX86

open Hex Memory

/-- The two functions that `net_on_ipv4` leaves a packet to. -/
inductive Ipv4Handler where
  | icmp
  | udp
  deriving DecidableEq, Repr

/-- The arguments of the call: `data` is memory from the data on. -/
structure Handover where
  handler : Ipv4Handler
  srcIp : List Byte
  data : List Byte
  dataLen : ℕ
  deriving DecidableEq

/-- The bytes that are handed on. -/
def Handover.bytes (h : Handover) : List Byte := peek h.data 0 h.dataLen

/-- A call without the memory behind the bytes. -/
def Handover.seen (h : Handover) : Ipv4Handler × List Byte × List Byte :=
  (h.handler, h.srcIp, h.bytes)

/-- Everything behind the checks: the header is skipped and the protocol chooses. -/
def ipv4Handover (pkt : List Byte) : Option Handover :=
  let srcIp := peek pkt 12 4
  let data := pkt.drop (ipv4HdrLen pkt)
  let dataLen := ipv4TotalLen pkt - ipv4HdrLen pkt
  if pkt.getD 9 0 = 0x01 then some ⟨.icmp, srcIp, data, dataLen⟩
  else if pkt.getD 9 0 = 0x11 then some ⟨.udp, srcIp, data, dataLen⟩
  else none

/-- `net_on_ipv4` up to the call. The comparisons behind the first one are unsigned, with an `sz`
that is not negative. -/
def netOnIpv4Handover (my : Ipv4Address) (pkt : List Byte) (sz : BitVec 32) : Option Handover :=
  if sz.toInt < 20 then none
  else if ipv4Accepts my pkt sz.toNat then ipv4Handover pkt
  else none

/-- `net_on_ipv4` with the `int` it takes: one below 20 is refused first of all. -/
def netOnIpv4Int (code : BitVec 32 → Mem 32 → Mem 32) (dev : Device) (eth : EthernetFrameHeader)
    (pkt : List Byte) (sz : BitVec 32) : Device × Effect :=
  if sz.toInt < 20 then (dev, .none) else netOnIpv4 code dev eth pkt sz.toNat

/-! ## A packet for this machine -/

/-- The words of the header that its checksum is about: all but the sixth. -/
def otherHeaderWords (pkt : List Byte) : List ℕ :=
  ((List.range (ipv4HdrLen pkt / 2)).filter (· ≠ 5)).map fun i => (net16 pkt (2 * i)).toNat

/-- An IPv4 packet for this machine in the first `sz` bytes of memory, not a fragment, that carries
ICMP or UDP. -/
structure Acceptable (my : Ipv4Address) (pkt : List Byte) (sz : ℤ) : Prop where
  sz_ge : 20 ≤ sz
  version : (pkt.getD 0 0).toNat / 16 = 4
  hdrLen_ge : 20 ≤ ipv4HdrLen pkt
  hdrLen_le : ipv4HdrLen pkt ≤ ipv4TotalLen pkt
  totalLen_le : (ipv4TotalLen pkt : ℤ) ≤ sz
  chksum : (net16 pkt 10).toNat = 65535 - Checksum.sum (otherHeaderWords pkt)
  destination : peek pkt 16 4 = my.toList
  moreFragments : (net16 pkt 6).toNat / 2 ^ 13 % 2 = 0
  fragOffset : (net16 pkt 6).toNat % 2 ^ 13 = 0
  proto : (pkt.getD 9 0).toNat = 1 ∨ (pkt.getD 9 0).toNat = 17

/-- What the code for the packet's protocol is to get: the bytes from the end of the header to the
total length. -/
structure HandedOver (pkt : List Byte) (h : Handover) : Prop where
  handler : h.handler = if (pkt.getD 9 0).toNat = 1 then .icmp else .udp
  srcIp : h.srcIp = peek pkt 12 4
  data : h.data = pkt.drop (ipv4HdrLen pkt)
  dataLen : h.dataLen = ipv4TotalLen pkt - ipv4HdrLen pkt
  bytes : h.bytes = (peek pkt 0 (ipv4TotalLen pkt)).drop (ipv4HdrLen pkt)

end RemoteX86
