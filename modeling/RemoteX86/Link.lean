import RemoteX86.Client
import RemoteX86.Network

/-!
# The library on a link to the debugger

A socket whose datagrams reach the debugger at once, each with its UDP header in front of it and
whatever the receive buffer holds behind it, and whose answers wait to be taken in the order they
were sent.
-/

namespace RemoteX86

open Hex Memory

/-- What the host's network stack puts around a datagram, the host's clock, and what lies behind
the `n`-th datagram in the debugger's receive buffer. -/
structure Host where
  eth : EthernetFrameHeader
  ip : Ipv4Address
  port : BitVec 16
  chksum : SockAddr → List Byte → BitVec 16
  after : ℕ → List Byte
  time : ℕ → BitVec 32

structure Link where
  dev : Device
  inbox : List (List Byte × SockAddr)
  count : ℕ

/-- The datagram in a frame the debugger sent, and where it comes from. -/
def Frame.datagram (f : Frame) : List Byte × SockAddr :=
  (f.payload.drop 28,
    { addr := ⟨peek f.payload 12 4, by simp [peek]⟩, port := net16 f.payload 20 })

namespace Host

variable (h : Host)

def udpPacket (dst : SockAddr) (data : List Byte) : List Byte :=
  hton16Bytes h.port ++ hton16Bytes dst.port ++ hton16Bytes (BitVec.ofNat 16 (8 + data.length)) ++
    hton16Bytes (h.chksum dst data) ++ data

/-- A datagram sent anywhere else is lost. -/
def deliver (code : BitVec 32 → Mem 32 → Mem 32) (s : Link) (dst : SockAddr) (data : List Byte) :
    Link :=
  if dst.addr = s.dev.myIpv4Address then
    let r := netOnIpv4Udp code s.dev h.eth h.ip.toList
      (h.udpPacket dst data ++ h.after s.count) (8 + data.length)
    { dev := r.1, inbox := s.inbox ++ r.2.sent.map Frame.datagram, count := s.count + 1 }
  else { s with count := s.count + 1 }

def net (code : BitVec 32 → Mem 32 → Mem 32) : Net Link where
  sendto s dst data := (h.deliver code s dst data, data.length)
  wait s :=
    match s.inbox with
    | [] => (s, .timeout)
    | d :: inbox => ({ s with inbox := inbox }, .datagram d.1 d.2)
  time s := h.time s.count

/-- The UDP checksum of every datagram passes the check of the machine at `my`. -/
def ChksumPasses (my : Ipv4Address) : Prop :=
  ∀ (n : ℕ) (data : List Byte), data.length ≤ 1472 →
    udpChksumOk my h.ip.toList (h.udpPacket { addr := my, port := 777 } data ++ h.after n)
      (8 + data.length) = true

end Host

end RemoteX86
