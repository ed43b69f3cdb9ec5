import RemoteX86.Ne2000
import RemoteX86.TxRing

/-!
# The NE2000 sends

The transmit half of `net-ne2000.c`.  The driver has one buffer for a frame.  It copies the frame
into the pages from `TX_PAGE` on through the card's data port, one port write after another, starts
the transmission and waits for it to end.  The card goes on receiving all the while: a frame can
arrive between any two port writes.
-/

namespace RemoteX86

open Hex Memory

def txPage : Byte := 0x40

/-! ## The card -/

/-- What the remote DMA does at the data port. -/
inductive RemoteDma where
  | off
  | read
  | write
  deriving DecidableEq

/-- The card with the registers a transmission goes through: transmit page and byte count, the
address and byte count of the remote DMA, and TXP. -/
structure Dp8390 where
  nic : Ne2000
  tpsr : Byte
  tbcr : BitVec 16
  rsar : BitVec 16
  rbcr : BitVec 16
  dma : RemoteDma
  txp : Bool

/-- A write to one of the registers of page 0, or of a word to the data port. -/
inductive NicWrite where
  | outb (reg : ℕ) (v : Byte)
  | outw (v : BitVec 16)
  deriving DecidableEq

def setLow (x : BitVec 16) (v : Byte) : BitVec 16 := (x >>> 8).setWidth 8 ++ v

def setHigh (x : BitVec 16) (v : Byte) : BitVec 16 := v ++ x.setWidth 8

/-- A byte at the data port: it is put into the card's memory as long as there is one to come, and
the last sets RDC. -/
def Dp8390.dataByte (s : Dp8390) (v : Byte) : Dp8390 :=
  if s.dma = .write ∧ s.rbcr ≠ 0 then
    { s with
      nic := { s.nic with
        ram := Function.update s.nic.ram s.rsar v
        isr := if s.rbcr = 1 then s.nic.isr ||| 0x40 else s.nic.isr }
      rsar := ringNext s.rsar
      rbcr := s.rbcr - 1 }
  else s

/-- The command register: ABORT, remote read and write, and TXP, which only the card clears. -/
def Dp8390.command (s : Dp8390) (v : Byte) : Dp8390 :=
  { s with
    dma := if v.getLsbD 5 then .off else if v.getLsbD 4 then .write
      else if v.getLsbD 3 then .read else s.dma
    txp := s.txp || v.getLsbD 2 }

def Dp8390.portWrite (s : Dp8390) : NicWrite → Dp8390
  | .outb 0x0 v => s.command v
  | .outb 0x4 v => { s with tpsr := v }
  | .outb 0x5 v => { s with tbcr := setLow s.tbcr v }
  | .outb 0x6 v => { s with tbcr := setHigh s.tbcr v }
  | .outb 0x8 v => { s with rsar := setLow s.rsar v }
  | .outb 0x9 v => { s with rsar := setHigh s.rsar v }
  | .outb 0xA v => { s with rbcr := setLow s.rbcr v }
  | .outb 0xB v => { s with rbcr := setHigh s.rbcr v }
  | .outb 0x10 v => s.dataByte v
  | .outb _ _ => s
  | .outw v => (s.dataByte (v.setWidth 8)).dataByte ((v >>> 8).setWidth 8)

/-- The frame in the transmit pages goes out, TXP is cleared and PTX set. -/
def Dp8390.transmitted (s : Dp8390) : Dp8390 :=
  { s with nic := { s.nic with isr := s.nic.isr ||| 0x02 }, txp := false }

def Dp8390.txFrame (s : Dp8390) : List Byte := read s.nic.ram (pageAddr s.tpsr 0) s.tbcr.toNat

/-! ## The driver -/

/-- `ne2000_xmit_packet`. -/
abbrev XmitPacket := ℕ → Byte

def XmitPacket.put (p : XmitPacket) (i : ℕ) (bs : List Byte) : XmitPacket :=
  Walk.write Nat.succ p i bs

def XmitPacket.get (p : XmitPacket) (i n : ℕ) : List Byte := Walk.read Nat.succ p i n

/-- The words of the packet, low byte first, and the odd byte at its end. -/
def XmitPacket.words (p : XmitPacket) (size : ℕ) : List NicWrite :=
  (List.range (size / 2)).map (fun i => .outw (p (2 * i + 1) ++ p (2 * i))) ++
    if size % 2 = 1 then [.outb 0x10 (p (size - 1))] else []

/-- The port writes of `ne2000_send_packet` up to the one that starts the transmission. -/
def ne2000SendPacket (p : XmitPacket) (size : ℕ) : List NicWrite :=
  let low := BitVec.ofNat 8 size
  let high := BitVec.ofNat 8 (size / 256)
  [.outb 0x4 txPage, .outb 0x5 low, .outb 0x6 high, .outb 0x8 0, .outb 0x0 (0x02 ||| 0x08),
    .outb 0xA low, .outb 0xB high, .outb 0x8 0, .outb 0x9 txPage, .outb 0x0 (0x02 ||| 0x10)] ++
  p.words size ++ [.outb 0x0 (0x22 ||| 0x04)]

inductive Ne2000Phase where
  | idle
  /-- In the wait of `ne2000_prepare_send_packet`. -/
  | waiting (sz : ℕ) (hdr : EthernetFrameHeader)
  /-- The caller puts its payload into the buffer. -/
  | filling (sz : ℕ) (hdr : EthernetFrameHeader)
  /-- In `ne2000_send_packet`, with these port writes to come. -/
  | loading (rest : List NicWrite)
  /-- In the wait of `ne2000_send_packet`. -/
  | sending

/-- Card and driver, what was sent and received so far, and the arrivals and the calls of
`ne2000_get_packet` in the order they came. -/
structure Ne2000Duplex where
  card : Dp8390
  xmitPacket : XmitPacket
  phase : Ne2000Phase
  handed : List (List Byte)
  sent : List (List Byte)
  arrived : List GoodFrame
  returned : List Delivery
  events : List Ne2000Action

inductive Ne2000DuplexAction where
  | arrive (f : GoodFrame)
  /-- What the call leaves in the registers of the remote DMA. -/
  | getPacket (rsar rbcr : BitVec 16) (dma : RemoteDma)
  | prepareSendPacket (sz : ℕ) (hdr : EthernetFrameHeader)
  | poll
  | fill (i : ℕ) (bs : List Byte)
  | sendPacket
  | portWrite
  | transmit

/-- The payload stays inside its place, and a header that is read carries a page of the ring. -/
def Ne2000Duplex.ok (s : Ne2000Duplex) : Ne2000DuplexAction → Bool
  | .fill i bs =>
    match s.phase with
    | .filling sz _ => decide (i + bs.length ≤ sz)
    | _ => true
  | .getPacket .. =>
    s.card.nic.boundaryWrite.isNone ||
      (decide (0x46 ≤ (s.card.nic.tmp.getD 1 0).toNat) &&
        decide ((s.card.nic.tmp.getD 1 0).toNat < 0x70))
  | _ => true

/-- What the card makes of a frame that arrives, and whether it stored it. -/
def Ne2000.receive (s : Ne2000) (f : GoodFrame) : Ne2000 × Bool :=
  match s.arrive f with
  | some nic => (nic, true)
  | none => ({ s with isr := s.isr ||| 0x10 }, false)

def Ne2000Duplex.step (s : Ne2000Duplex) : Ne2000DuplexAction → Option Ne2000Duplex
  | .arrive f =>
    let r := s.card.nic.receive f
    some { s with
      card := { s.card with nic := r.1 }
      arrived := if r.2 then s.arrived ++ [f] else s.arrived
      events := s.events ++ [.arrive f] }
  | .getPacket rsar rbcr dma =>
    match s.phase with
    | .idle =>
      let r := ne2000GetPacket s.card.nic
      some { s with
        card := { s.card with nic := r.1, rsar := rsar, rbcr := rbcr, dma := dma }
        returned := s.returned ++ r.2.toList
        events := s.events ++ [.getPacket] }
    | _ => none
  | .prepareSendPacket sz hdr =>
    match s.phase with
    | .idle =>
      some { s with card := s.card.portWrite (.outb 0x0 0x22), phase := .waiting sz hdr }
    | _ => none
  | .poll =>
    match s.phase with
    | .waiting sz hdr =>
      if s.card.txp then some s
      else if 1520 ≤ sz then some { s with phase := .idle }
      else
        some { s with
          xmitPacket := s.xmitPacket.put 0 hdr.toList
          phase := .filling sz hdr }
    | .sending => if s.card.txp then some s else some { s with phase := .idle }
    | _ => none
  | .fill i bs =>
    match s.phase with
    | .filling _ _ => some { s with xmitPacket := s.xmitPacket.put (14 + i) bs }
    | _ => none
  | .sendPacket =>
    match s.phase with
    | .filling sz hdr =>
      some { s with
        phase := .loading (ne2000SendPacket s.xmitPacket (sz + 14))
        handed := s.handed ++ [hdr.toList ++ s.xmitPacket.get 14 sz] }
    | _ => none
  | .portWrite =>
    match s.phase with
    | .loading (w :: rest) =>
      some { s with card := s.card.portWrite w, phase := .loading rest }
    | .loading [] =>
      some { s with card := s.card.portWrite (.outb 0x0 0x22), phase := .sending }
    | _ => none
  | .transmit =>
    if s.card.txp then
      some { s with card := s.card.transmitted, sent := s.sent ++ [s.card.txFrame] }
    else none

/-- What `ne2000_init` leaves. -/
def Ne2000Duplex.start (card : Dp8390) (ram : Mem 16) : Ne2000Duplex where
  card := { card with nic := ne2000Init ram, txp := false }
  xmitPacket := fun _ => 0
  phase := .idle
  handed := []
  sent := []
  arrived := []
  returned := []
  events := []

/-- The states of all runs of driver and card. -/
def Ne2000Duplex.Reached (card : Dp8390) (ram : Mem 16) (s : Ne2000Duplex) : Prop :=
  Transition.Reaches Ne2000Duplex.step (Ne2000Duplex.ok · · = true) (.start card ram) s

/-- The frames go out as they were handed over, in order and each once, none of them is waiting
between two calls, and what is received is what would have been without them. -/
structure Ne2000Duplex.Separate (ram : Mem 16) (s : Ne2000Duplex) : Prop where
  sent : s.sent <+: s.handed
  waiting : s.handed.length ≤ s.sent.length + 1
  done : s.phase = .idle → s.sent = s.handed
  arrived : s.arrived = ((ne2000Start ram).run s.events).arrived
  returned : s.returned = ((ne2000Start ram).run s.events).returned

end RemoteX86
