import RemoteX86.Isolation
import RemoteX86.Lib.Transition

/-!
# Several debuggers on one segment

Every debugger runs `net_idle` on what its driver returns.  What one of them sends may arrive at any
of them, any number of times and in any order, with whatever the receiving driver finds behind it;
frames of everyone else arrive in between, and an operator may give a debugger another address from
the main menu.
-/

namespace RemoteX86

open Hex Memory

/-- The receive buffer holds the frame, with anything behind it. -/
def Received.Carries (r : Received) (f : Frame) : Prop := r.hdr = f.hdr ∧ f.payload <+: r.p

instance (r : Received) (f : Frame) : Decidable (r.Carries f) :=
  inferInstanceAs (Decidable (_ ∧ _))

/-- A datagram from the debuggers' port to the debuggers' port. -/
def Received.FromDebuggerPort (r : Received) : Prop :=
  r.isIpv4 ∧ r.p.getD 9 0 = 0x11 ∧ net16 (r.p.drop (ipv4HdrLen r.p)) 0 = 777
    ∧ net16 (r.p.drop (ipv4HdrLen r.p)) 2 = 777

instance (r : Received) : Decidable r.FromDebuggerPort := inferInstanceAs (Decidable (_ ∧ _))

/-- A datagram for `dev` from port 777 to port 777 that passes every check, under the addresses of
`other`. -/
structure Received.Opens (r : Received) (other dev : Device) : Prop where
  dstMac : r.hdr.dstMac = dev.myEthMac
  srcMac : r.hdr.srcMac = other.myEthMac
  ipv4 : r.isIpv4
  accepted : ipv4Accepts dev.myIpv4Address r.p r.sz = true
  proto : r.p.getD 9 0 = 0x11
  source : peek r.p 12 4 = other.myIpv4Address.toList
  len : 8 ≤ ipv4TotalLen r.p - ipv4HdrLen r.p
  chksum : udpChksumOk dev.myIpv4Address (peek r.p 12 4) (r.p.drop (ipv4HdrLen r.p))
    (ipv4TotalLen r.p - ipv4HdrLen r.p) = true
  srcPort : net16 (r.p.drop (ipv4HdrLen r.p)) 0 = 777
  dstPort : net16 (r.p.drop (ipv4HdrLen r.p)) 2 = 777

/-- `sent`, `writes` and `calls` are what the debuggers have sent, copied into memory and called, the
last of it first. -/
structure Segment (ι : Type) where
  debuggers : ι → Device
  sent : List Frame
  writes : List (ι × BitVec 32 × List Byte)
  calls : List (ι × BitVec 32)

inductive SegmentEvent (ι : Type) where
  /-- A frame that none of the debuggers has sent arrives at one of them. -/
  | outside (i : ι) (r : Received)
  /-- A frame that one of them has sent arrives at one of them. -/
  | reply (i : ι) (f : Frame) (r : Received)
  | renumber (i : ι) (my : Ipv4Address)

/-- Whether the event is something a debugger has sent. -/
def SegmentEvent.isReply {ι : Type} : SegmentEvent ι → Bool
  | .reply _ _ _ => true
  | _ => false

def SegmentEvent.isOutside {ι : Type} : SegmentEvent ι → Bool
  | .outside _ _ => true
  | _ => false

section Step

variable {ι : Type} [DecidableEq ι] (code : BitVec 32 → Mem 32 → Mem 32)

def Segment.round (s : Segment ι) (i : ι) (r : Received) : Segment ι :=
  let out := netIdle code (s.debuggers i) (some r)
  { debuggers := Function.update s.debuggers i out.1
    sent := out.2.sent ++ s.sent
    writes := out.2.writes.map (Prod.mk i) ++ s.writes
    calls := out.2.calls.map (Prod.mk i) ++ s.calls }

def Segment.step (s : Segment ι) : SegmentEvent ι → Option (Segment ι)
  | .outside i r => some (s.round code i r)
  | .reply i f r => if f ∈ s.sent ∧ r.Carries f then some (s.round code i r) else none
  | .renumber i my =>
    some { s with
      debuggers := Function.update s.debuggers i { s.debuggers i with myIpv4Address := my } }

/-- Nobody else sends from the debuggers' port. -/
def Segment.PortKept (_ : Segment ι) : SegmentEvent ι → Prop
  | .outside _ r => ¬ r.FromDebuggerPort
  | _ => True

instance (s : Segment ι) : DecidablePred s.PortKept
  | .outside _ _ => inferInstanceAs (Decidable (¬ _))
  | .reply _ _ _ => inferInstanceAs (Decidable True)
  | .renumber _ _ => inferInstanceAs (Decidable True)

/-- The frame sent last arrives whole at the one of `i` and `j` that it is addressed to. -/
def Segment.Newest (i j : ι) (s : Segment ι) : SegmentEvent ι → Prop
  | .reply k f r => s.sent.head? = some f ∧ f.hdr.dstMac = (s.debuggers k).myEthMac
      ∧ f.payload.length ≤ r.sz ∧ (k = i ∨ k = j)
  | _ => False

instance (i j : ι) (s : Segment ι) : DecidablePred (s.Newest i j)
  | .outside _ _ => inferInstanceAs (Decidable False)
  | .reply _ _ _ => inferInstanceAs (Decidable (_ ∧ _))
  | .renumber _ _ => inferInstanceAs (Decidable False)

end Step

end RemoteX86
