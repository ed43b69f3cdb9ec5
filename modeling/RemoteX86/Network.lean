import RemoteX86.Device

/-!
# The Ethernet debugger's network layer

`net_idle` of `eth/c-main.c` and what it hands frames to: ARP requests, ICMP echo requests and the
checks of the IPv4 header.  All of them get the receive buffer from the start of the payload and
read it as far as they like; `sz`, what the driver said the payload's size is, is one more
argument.
-/

namespace RemoteX86

open Hex Memory

/-! ## ARP -/

def netOnArpIPv4 (dev : Device) (eth : EthernetFrameHeader) (pkt : List Byte) : Effect :=
  if pkt.getD 5 0 ≠ 4 then .none
  else if net16 pkt 6 ≠ 1 then .none
  else
    let senderMac := peek pkt 8 6
    let senderIp := peek pkt 14 4
    let lookinForIp := peek pkt 24 4
    if lookinForIp ≠ dev.myIpv4Address.toList then .none
    else if dev.chosenNetDrv.prepareSendPacket 28 then
      { Effect.none with
        sent := [{ hdr := { dstMac := eth.srcMac, srcMac := dev.myEthMac, type := ntoh16 0x0806 }
                   payload := hton16Bytes 1 ++ hton16Bytes 0x0800 ++ [6, 4] ++ hton16Bytes 2 ++
                     dev.myEthMac.toList ++ dev.myIpv4Address.toList ++ senderMac ++ senderIp }]
        vga := ascii "Someone is looking for me, replying to ARP request\r\n" }
    else { Effect.none with vga := cannotConstruct }

def netOnArp (dev : Device) (eth : EthernetFrameHeader) (pkt : List Byte) : Effect :=
  if net16 pkt 0 ≠ 1 ∨ pkt.getD 4 0 ≠ 6 then .none
  else if net16 pkt 2 = 0x0800 then netOnArpIPv4 dev eth pkt
  else .none

/-! ## ICMP -/

/-- The echo reply to the `len` bytes of a request. -/
def icmpEchoReply (pkt : List Byte) (len : ℕ) : List Byte :=
  let icmp := (peek pkt 0 len).set 0 0x00
  let chksum := (~~~ chksumWords (some 1) (len >>> 1) icmp 0).setWidth 16
  (icmp.set 2 ((chksum >>> 8).setWidth 8)).set 3 (chksum.setWidth 8)

def netOnIpv4Icmp (dev : Device) (eth : EthernetFrameHeader) (srcIp pkt : List Byte)
    (len : ℕ) : Effect :=
  if len < 8 then .none
  else if (~~~ chksumWords (some 1) (len >>> 1) pkt 0) &&& 0xFFFF ≠ (net16 pkt 2).setWidth 32 then
    .none
  else if pkt.getD 0 0 = 8 ∧ pkt.getD 1 0 = 0 then
    let request := ascii "ICMP echo request, sending reply\r\n"
    if dev.chosenNetDrv.prepareSendPacket (0x14 + len) then
      { Effect.none with
        sent := [{ hdr := { dstMac := eth.srcMac, srcMac := dev.myEthMac, type := ntoh16 0x0800 }
                   payload := ipv4Header dev.myIpv4Address srcIp 0x01 (0x14 + len) ++
                     icmpEchoReply pkt len }]
        vga := request }
    else { Effect.none with vga := request ++ cannotConstruct }
  else .none

/-! ## IPv4 -/

/-- `4 * IHL`. -/
def ipv4HdrLen (pkt : List Byte) : ℕ := (pkt.getD 0 0 &&& 0xF).toNat * 4

def ipv4TotalLen (pkt : List Byte) : ℕ := (net16 pkt 2).toNat

/-- `frag_offset` as the source puts it together. -/
def ipv4FragOffset (pkt : List Byte) : BitVec 16 :=
  ((pkt.getD 6 0).setWidth 16 &&& 0x1F) ||| ((pkt.getD 7 0).setWidth 16 <<< 5)

/-- The checks of `net_on_ipv4`, in the order of the source. -/
def ipv4Accepts (my : Ipv4Address) (pkt : List Byte) (sz : ℕ) : Bool :=
  if sz < 20 then false
  else if pkt.getD 0 0 >>> 4 ≠ 4 then false
  else if ipv4HdrLen pkt < 20 then false
  else if (~~~ chksumWords (some 5) (ipv4HdrLen pkt >>> 1) pkt 0) &&& 0xFFFF
      ≠ (net16 pkt 10).setWidth 32 then false
  else if peek pkt 16 4 ≠ my.toList then false
  else if (pkt.getD 6 0 >>> 5) &&& 1 ≠ 0 then false
  else if ipv4FragOffset pkt ≠ 0 then false
  else if sz < ipv4HdrLen pkt then false
  else if ipv4TotalLen pkt < ipv4HdrLen pkt then false
  else if sz < ipv4TotalLen pkt then false
  else true

section Idle

variable (code : BitVec 32 → Mem 32 → Mem 32)

def netOnIpv4 (dev : Device) (eth : EthernetFrameHeader) (pkt : List Byte) (sz : ℕ) :
    Device × Effect :=
  if ipv4Accepts dev.myIpv4Address pkt sz then
    let srcIp := peek pkt 12 4
    let data := pkt.drop (ipv4HdrLen pkt)
    let dataLen := ipv4TotalLen pkt - ipv4HdrLen pkt
    if pkt.getD 9 0 = 0x01 then (dev, netOnIpv4Icmp dev eth srcIp data dataLen)
    else if pkt.getD 9 0 = 0x11 then netOnIpv4Udp code dev eth srcIp data dataLen
    else (dev, .none)
  else (dev, .none)

/-- What `get_packet` returned: the header, the size of the payload, and memory from the payload
on. -/
structure Received where
  hdr : EthernetFrameHeader
  sz : ℕ
  p : List Byte
  sz_le : sz ≤ p.length
  p_lt : p.length < 2 ^ 32

/-- The frame's destination is everyone, or this machine. -/
def forMe (dev : Device) (hdr : EthernetFrameHeader) : Bool :=
  hdr.dstMac.toList == List.replicate 6 0xFF || hdr.dstMac == dev.myEthMac

/-- The dump of a frame of no known type. -/
def dumpFrame (hdr : EthernetFrameHeader) (p : List Byte) (sz : ℕ) : List Byte :=
  ascii ">" ++ (hdr.dstMac.toList.map fun b => vgaWritehex b.toNat 2).flatten ++ ascii ":" ++
    ((peek p 0 (min 24 sz)).map fun b => vgaWritehex b.toNat 2).flatten ++ ascii "\r\n"

def netOnFrame (dev : Device) (r : Received) : Device × Effect :=
  if ntoh16 r.hdr.type = 0x0806 then (dev, netOnArp dev r.hdr r.p)
  else if ntoh16 r.hdr.type = 0x0800 then netOnIpv4 code dev r.hdr r.p r.sz
  else if memcmpEq r.p (List.replicate 6 0xFF) then (dev, .none)
  else (dev, { Effect.none with vga := dumpFrame r.hdr r.p r.sz })

/-- One round of the debugger, on what the driver's `get_packet` returned. -/
def netIdle (dev : Device) (rx : Option Received) : Device × Effect :=
  if !dev.chosenNetDrvOpen then (dev, .none)
  else
    match rx with
    | none => (dev, .none)
    | some r => if forMe dev r.hdr then netOnFrame code dev r else (dev, .none)

end Idle

end RemoteX86
