import RemoteX86.Network
import RemoteX86.Operands

/-!
# Frames and what lies behind them

A received frame is its Ethernet header and the first `frameLen` bytes of the payload; the rest of
the buffer is padding, checksum and what earlier frames left there.  A frame is isolated when no
two buffers that hold it make `net_idle` act differently, and `Contained` says for which frames
that is so: those whose fields and operands end before the frame does.
-/

namespace RemoteX86

open Hex Memory

def Received.isArp (r : Received) : Prop := ntoh16 r.hdr.type = 0x0806

def Received.isIpv4 (r : Received) : Prop := ntoh16 r.hdr.type = 0x0800

instance (r : Received) : Decidable r.isArp := inferInstanceAs (Decidable (_ = _))

instance (r : Received) : Decidable r.isIpv4 := inferInstanceAs (Decidable (_ = _))

/-- How much of the payload belongs to the frame. -/
def frameLen (r : Received) : ℕ := if r.isIpv4 then min r.sz (ipv4TotalLen r.p) else r.sz

/-- Two receive buffers that hold the same frame. -/
structure SameFrame (r r' : Received) : Prop where
  hdr : r'.hdr = r.hdr
  sz : r'.sz = r.sz
  len : frameLen r' = frameLen r
  bytes : r'.p.take (frameLen r) = r.p.take (frameLen r)

/-- Whatever lies behind the frame, the round does the same. -/
def Isolated (code : BitVec 32 → Mem 32 → Mem 32) (dev : Device) (r : Received) : Prop :=
  ∀ r', SameFrame r r' → netIdle code dev (some r') = netIdle code dev (some r)

/-- An ARP request for the address `my`, where its bytes are fixed. -/
def arpRequest (my : Ipv4Address) : List (Option Byte) :=
  [some 0, some 1, some 8, some 0, some 6, some 4, some 0, some 1] ++ List.replicate 16 none ++
    my.toList.map some

/-- The first `n` bytes of `p` are those of an ARP request for `my`. -/
def ArpRequestUpTo (my : Ipv4Address) (p : List Byte) (n : ℕ) : Prop :=
  ∀ i < n, ∀ b, (arpRequest my)[i]? = some (some b) → p.getD i 0 = b

/-- The operands of a READ, WRITE or EXEC end in `text`, the command up to the end of the frame;
those of a WRITE end in the first `n` bytes of it, or at their end. -/
def CommandContained (text : List Byte) (n : ℕ) : Prop :=
  (5 ≤ n → ascii "READ " <+: text → OperandsEnd (text.drop 5))
    ∧ (5 ≤ n → ascii "EXEC " <+: text → OperandsEnd (text.drop 5))
    ∧ (6 ≤ n → ascii "WRITE " <+: text →
        OperandsEnd (text.drop 5) ∧ OperandsStop ((text.take n).drop 5) (text.drop n))

/-- The datagram of an accepted packet that passes the checks of `net_on_ipv4_udp` for port 777 is
contained in the packet. -/
def UdpContained (my : Ipv4Address) (p : List Byte) : Prop :=
  let pkt := p.drop (ipv4HdrLen p)
  let len := ipv4TotalLen p - ipv4HdrLen p
  8 ≤ len → udpChksumOk my (peek p 12 4) pkt len = true → net16 pkt 2 = 777 →
    CommandContained ((pkt.drop 8).take (len - 8)) (udpDataLength pkt len)

/-- The frame's fields and operands end before the frame does. -/
def Contained (dev : Device) (r : Received) : Prop :=
  dev.chosenNetDrvOpen = true → forMe dev r.hdr = true →
    if r.isArp then 28 ≤ r.sz ∨ ¬ ArpRequestUpTo dev.myIpv4Address r.p r.sz
    else if r.isIpv4 then
      ipv4Accepts dev.myIpv4Address r.p r.sz = true → r.p.getD 9 0 = 0x11 →
        UdpContained dev.myIpv4Address r.p
    else 6 ≤ r.sz ∨ ∃ i < r.sz, r.p.getD i 0 ≠ 0xFF

end RemoteX86
