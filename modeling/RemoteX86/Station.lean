import RemoteX86.Network
import RemoteX86.TxRing

/-!
# From the wire and back

A debugger with its card: `net_idle` takes a packet up from the receive ring, works on it, hands what
it answers over on the transmit ring and gives the packet back, while the card deposits frames in the
one ring and reads them out of the other.  Both rings are in one memory: the buffers of the receive
ring come first, those of the transmit ring behind them.  What READ, WRITE and EXEC work on is memory
apart from it.

What `net_idle` makes of a packet is `netIdle`, which reads memory from the payload on as far as
`reach`.  It has one frame to send at most; the frame is put into its buffer piece by piece, so
anything the card does can come in between.
-/

namespace RemoteX86

open Hex Memory

/-! ## Packets and frames -/

/-- The header as `get_packet` copies it. -/
def EthernetFrameHeader.ofBytes (bs : List Byte) : EthernetFrameHeader where
  dstMac := ⟨peek bs 0 6, by simp [peek]⟩
  srcMac := ⟨peek bs 6 6, by simp [peek]⟩
  type := load16 bs 12

/-- What `net_idle` has in its hands: the packet, and memory behind it. -/
def RxPacket.received (pkt : RxPacket) (mem : Mem 32) (reach : BitVec 32) : Received where
  hdr := .ofBytes pkt.hdr
  sz := pkt.sz.toNat
  p := read mem pkt.p (max pkt.sz.toNat reach.toNat)
  sz_le := by simp
  p_lt := by
    have hsz := pkt.sz.isLt
    have hreach := reach.isLt
    rw [length_read]
    omega

/-- What of it came with the frame. -/
def Received.delivery (r : Received) : Delivery :=
  { sz := BitVec.ofNat 32 r.sz, hdr := r.hdr.toList, data := r.p.take r.sz }

/-- The frame as it goes over the wire. -/
def Frame.wire (f : Frame) : List Byte := f.hdr.toList ++ f.payload

/-- The rounds of `net_idle` over these packets, and what they send. -/
def netIdleRounds (code : BitVec 32 → Mem 32 → Mem 32) :
    Device → List Received → Device × List Frame
  | dev, [] => (dev, [])
  | dev, r :: rs =>
    let out := netIdle code dev (some r)
    let rest := netIdleRounds code out.1 rs
    (rest.1, out.2.sent ++ rest.2)

/-! ## The station -/

/-- `todo` is what the round at work still has to send, and `seen` the packets worked on.  The memory
of the two rings is the same. -/
structure Station (D E : Type) where
  rx : Reception D
  tx : Transmission E
  dev : Device
  todo : List Frame
  seen : List Received

inductive StationAction (D E : Type) where
  /-- The card puts a frame into the receive ring. -/
  | deposit (x : Deposit D)
  /-- `get_packet`, and what `net_idle` decides to do about the packet. -/
  | getPacket
  /-- The driver and the card at the transmit ring. -/
  | transmit (a : TxAction E)
  | putPacket

section Step

variable {D E : Type} (rxd : RxDriver D) (txd : TxDriver E) (alloc : BitVec 32)
  (code : BitVec 32 → Mem 32 → Mem 32) (reach : BitVec 32)

def Station.withRx (s : Station D E) (rx : Reception D) : Station D E :=
  { s with rx := rx, tx := { s.tx with mem := rx.ring.mem } }

def Station.withTx (s : Station D E) (tx : Transmission E) : Station D E :=
  { s with tx := tx, rx := { s.rx with ring := { s.rx.ring with mem := tx.mem } } }

/-- `get_packet` has returned: `net_idle` works on the packet, if there is one. -/
def Station.worked (s : Station D E) (rx : Reception D) : Station D E :=
  match rx.held with
  | none => s.withRx rx
  | some pkt =>
    let r := pkt.received rx.ring.mem reach
    let out := netIdle code s.dev (some r)
    { s.withRx rx with dev := out.1, todo := out.2.sent, seen := s.seen ++ [r] }

def Station.step (s : Station D E) : StationAction D E → Option (Station D E)
  | .deposit x => (rxd.step (rxPackets alloc) s.rx (.deposit x)).map s.withRx
  | .getPacket =>
    if s.dev.chosenNetDrvOpen then
      (rxd.step (rxPackets alloc) s.rx .getPacket).map (s.worked code reach)
    else none
  | .transmit .sendPacket =>
    (txd.step (txPackets txd.ringSize alloc) s.tx .sendPacket).map fun tx =>
      { s.withTx tx with todo := s.todo.tail }
  | .transmit a => (txd.step (txPackets txd.ringSize alloc) s.tx a).map s.withTx
  | .putPacket =>
    match s.todo, s.tx.phase with
    | [], .idle => (rxd.step (rxPackets alloc) s.rx .putPacket).map s.withRx
    | _, _ => none

/-- `net_idle` asks for the place of the frame it has to send. -/
def Station.mayPrepare (s : Station D E) (sz : ℕ) (hdr : EthernetFrameHeader) : Bool :=
  s.todo.head?.any fun f => decide (f.hdr = hdr) && f.payload.length == sz

/-- What has been put into that place is the frame's payload. -/
def Station.maySend (s : Station D E) : Bool :=
  match s.tx.phase with
  | .filling sz _ p => s.todo.head?.any fun f => read s.tx.mem p sz == f.payload
  | _ => true

/-- Card and drivers behave as at either ring, and `net_idle` sends the frame it has to send. -/
def Station.may (s : Station D E) : StationAction D E → Bool
  | .deposit x => rxd.mayDeposit s.rx (.deposit x)
  | .transmit (.prepareSendPacket sz hdr) => s.mayPrepare sz hdr
  | .transmit .sendPacket => s.maySend
  | .transmit a => txd.mayTransmit s.tx a
  | _ => true

/-- A debugger whose driver has just been initialised. -/
def Station.start (mem : Mem 32) (dev : Device) : Station D E where
  rx := rxd.start (rxPackets alloc) mem
  tx := txd.start (txPackets txd.ringSize alloc) mem
  dev := dev
  todo := []
  seen := []

/-- The states of all runs. -/
def Station.Runs (mem : Mem 32) (dev : Device) (s : Station D E) : Prop :=
  Transition.Reaches (Station.step rxd txd alloc code reach) (Station.may rxd txd · · = true)
    (Station.start rxd txd alloc mem dev) s

/-- The packets worked on are the whole good frames that came in, in order and as they came, and what
has gone out is what `net_idle` answers to them, in order. -/
structure Station.Answering (slots : ℕ) (dev : Device) (s : Station D E) : Prop where
  seen : s.seen.map Received.delivery <+: (s.rx.deposited.filter rxd.complete).map Deposit.delivery
  sent : s.tx.sent <+: (netIdleRounds code dev s.seen).2.map Frame.wire
  state : s.dev = (netIdleRounds code dev s.seen).1
  waiting : (netIdleRounds code dev s.seen).2.length ≤ s.tx.sent.length + slots + s.todo.length
  /-- Between two rounds, with nothing left for the card to send, every answer has gone out. -/
  settled : s.rx.held = none → txd.own (s.tx.tx s.tx.nic) = false →
    s.tx.sent = (netIdleRounds code dev s.seen).2.map Frame.wire

end Step

end RemoteX86
