import RemoteX86.Device
import RemoteX86.RxRing

/-!
# The transmit rings of the PCI network cards

The other half of `net-pcnet32.c` and `net-rtl8101.c`.  The driver waits until a descriptor is its
own, puts the header into the descriptor's buffer, lets its caller put the payload behind it and
gives the descriptor to the card, which reads the frame out of the buffer and gives the descriptor
back.  Again the two drivers are one definition over what they differ in (`TxDriver`).

A wait polls the descriptor: the PCnet driver for ever, the RealTek driver so many times, and then
it goes on as if the descriptor were its own.  The card reads the frame a byte at a time, so that
anything the driver does can come between two bytes.
-/

namespace RemoteX86

open Hex Memory

/-- What the transmit halves of the two drivers differ in.  `packets` is `tx_packets`. -/
structure TxDriver (D : Type) where
  ringSize : ℕ
  /-- The descriptor as `init` sets it up. -/
  init : (packets : ℕ → BitVec 32) → ℕ → D
  own : D → Bool
  /-- The polls of the wait in `prepare_send_packet`, or `none` for a wait without an end. -/
  preparePatience : Option ℕ
  /-- What `prepare_send_packet` does to the descriptor. -/
  prepare : D → (sz : ℕ) → D
  /-- What `send_packet` does to the descriptor. -/
  send : (packets : ℕ → BitVec 32) → D → (entry : ℕ) → (sz : ℕ) → D
  /-- The polls of the wait in `send_packet`, or `none` where it does not wait. -/
  sendPatience : Option ℕ
  /-- `tx_offset` after `send_packet`. -/
  advance : ℕ → ℕ
  /-- Where the card finds the frame. -/
  address : D → BitVec 32
  frameLength : D → ℕ
  /-- The card goes on with the first descriptor after this one. -/
  wraps : D → ℕ → Bool
  /-- What the card leaves as it was when it gives a descriptor back. -/
  keeps : D → D → Bool

structure Pcnet32TxHead where
  base : BitVec 32
  length : BitVec 16
  status : BitVec 16
  msgLength : BitVec 32
  reserved : BitVec 32
  deriving DecidableEq

def pcnet32Tx : TxDriver Pcnet32TxHead where
  ringSize := 16
  init packets i :=
    { base := packets i, length := -1, status := 0, msgLength := 0, reserved := 0 }
  own tx := tx.status &&& 0x8000 != 0
  preparePatience := none
  prepare tx sz := { tx with status := 0, length := -BitVec.ofNat 16 (sz + 14) }
  -- OWN, STP, ENP
  send _ tx _ _ := { tx with status := 0x8000 ||| (1 <<< 8) ||| (1 <<< 9) }
  sendPatience := none
  advance txOffset := if 16 ≤ txOffset + 1 then 0 else txOffset + 1
  address tx := tx.base
  -- the card counts up to zero in the low 12 bits
  frameLength tx := ((-tx.length) &&& 0xFFF).toNat
  -- the card was told the size of the ring
  wraps _ i := i + 1 == 16
  keeps tx tx' := tx'.base == tx.base

structure Rtl8101TxHead where
  d1 : BitVec 32
  d2 : BitVec 32
  addr : BitVec 64
  deriving DecidableEq

def rtl8101Tx : TxDriver Rtl8101TxHead where
  ringSize := 4
  init packets i :=
    { addr := (packets i).setWidth 64
      d2 := 0
      d1 := (if i = 4 - 1 then 0x40000000 else 0) ||| 1600 }
  own tx := tx.d1 &&& 0x80000000 != 0
  preparePatience := some 3000000
  prepare tx _ := tx
  send packets _ entry sz :=
    { d2 := 0
      addr := (packets entry).setWidth 64
      -- `tx_offset == ring_size - 1 || 1`: every descriptor is the end of the ring
      d1 := 0x30000000 ||| 0x80000000 ||| BitVec.ofNat 32 (sz + 14) ||| 0x40000000 }
  sendPatience := some 300000000
  -- `++tx_offset >= ring_size || 1`
  advance _ := 0
  address tx := tx.addr.setWidth 32
  frameLength tx := (tx.d1 &&& 0xFFFF).toNat
  wraps tx _ := tx.d1 &&& 0x40000000 != 0
  keeps _ _ := true

/-- The buffers, `do_alloc`ed behind those of the receive ring. -/
def txPackets (ringSize : ℕ) (alloc : BitVec 32) (i : ℕ) : BitVec 32 :=
  rxPackets alloc (ringSize + i)

/-! ## The driver and the card -/

def EthernetFrameHeader.toList (hdr : EthernetFrameHeader) : List Byte :=
  hdr.dstMac.toList ++ hdr.srcMac.toList ++ [hdr.type.setWidth 8, (hdr.type >>> 8).setWidth 8]

@[simp] theorem EthernetFrameHeader.length_toList (hdr : EthernetFrameHeader) :
    hdr.toList.length = 14 := by
  simp [EthernetFrameHeader.toList]

/-- How far the driver is with a frame. -/
inductive TxPhase where
  | idle
  /-- In the wait of `prepare_send_packet`, with so many polls left. -/
  | waiting (sz : ℕ) (hdr : EthernetFrameHeader) (patience : Option ℕ)
  /-- `prepare_send_packet` returned `p`, and the caller puts its payload there. -/
  | filling (sz : ℕ) (hdr : EthernetFrameHeader) (p : BitVec 32)
  /-- In the wait of `send_packet`. -/
  | sending (patience : ℕ)

/-- The ring, the driver's and the card's places in it, and the frames handed to `send_packet` and
sent so far.  `fifo` is what the card has read of the frame it is at work on. -/
structure Transmission (D : Type) where
  tx : ℕ → D
  txOffset : ℕ
  mem : Mem 32
  phase : TxPhase
  nic : ℕ
  fifo : List Byte
  handed : List (List Byte)
  sent : List (List Byte)

inductive TxAction (D : Type) where
  | prepareSendPacket (sz : ℕ) (hdr : EthernetFrameHeader)
  | poll
  | fill (i : ℕ) (bs : List Byte)
  | sendPacket
  /-- The card reads one byte of a frame. -/
  | fetch
  /-- The card sends the frame it has read and gives the descriptor back as this one. -/
  | transmit (tx : D)

section Driver

variable {D : Type} (drv : TxDriver D) (packets : ℕ → BitVec 32)

/-- The payload stays inside its place, the card changes of a descriptor what it may, and it is done
with a frame before a wait for it is given up. -/
def TxDriver.mayTransmit (s : Transmission D) : TxAction D → Bool
  | .fill i bs =>
    match s.phase with
    | .filling sz _ _ => decide (i + bs.length ≤ sz)
    | _ => true
  | .poll =>
    match s.phase with
    | .waiting _ _ patience => patience != some 1 || !drv.own (s.tx s.txOffset)
    | .sending patience => patience != 1 || !drv.own (s.tx s.txOffset)
    | _ => true
  | .transmit tx => !drv.own tx && drv.keeps (s.tx s.nic) tx
  | _ => true

/-- The rest of `prepare_send_packet`, once it has waited. -/
def TxDriver.prepared (s : Transmission D) (sz : ℕ) (hdr : EthernetFrameHeader) :
    Transmission D :=
  let p := packets s.txOffset
  { s with
    tx := Function.update s.tx s.txOffset (drv.prepare (s.tx s.txOffset) sz)
    mem := write s.mem p hdr.toList
    phase := .filling sz hdr (p + 14) }

/-- The rest of `send_packet`, once it has waited. -/
def TxDriver.advanced (s : Transmission D) : Transmission D :=
  { s with txOffset := drv.advance s.txOffset, phase := .idle }

def TxDriver.step (s : Transmission D) : TxAction D → Option (Transmission D)
  | .prepareSendPacket sz hdr =>
    match s.phase with
    | .idle =>
      if 1600 - 14 < sz then some s
      else some { s with phase := .waiting sz hdr drv.preparePatience }
    | _ => none
  | .poll =>
    match s.phase with
    | .waiting sz hdr patience =>
      if drv.own (s.tx s.txOffset) && patience != some 1 then
        some { s with phase := .waiting sz hdr (patience.map (· - 1)) }
      else some (drv.prepared packets s sz hdr)
    | .sending patience =>
      if drv.own (s.tx s.txOffset) && patience != 1 then
        some { s with phase := .sending (patience - 1) }
      else some (drv.advanced s)
    | _ => none
  | .fill i bs =>
    match s.phase with
    | .filling _ _ p => some { s with mem := write s.mem (p + BitVec.ofNat 32 i) bs }
    | _ => none
  | .sendPacket =>
    match s.phase with
    | .filling sz hdr p =>
      let s := { s with
        tx := Function.update s.tx s.txOffset
          (drv.send packets (s.tx s.txOffset) s.txOffset sz)
        handed := s.handed ++ [hdr.toList ++ read s.mem p sz] }
      match drv.sendPatience with
      | some patience => some { s with phase := .sending patience }
      | none => some (drv.advanced s)
    | _ => none
  | .fetch =>
    let tx := s.tx s.nic
    if drv.own tx ∧ s.fifo.length < drv.frameLength tx then
      some { s with
        fifo := s.fifo ++ [s.mem (drv.address tx + BitVec.ofNat 32 s.fifo.length)] }
    else none
  | .transmit tx' =>
    let tx := s.tx s.nic
    if drv.own tx ∧ s.fifo.length = drv.frameLength tx then
      some { s with
        tx := Function.update s.tx s.nic tx'
        nic := if drv.wraps tx s.nic then 0 else s.nic + 1
        fifo := []
        sent := s.sent ++ [s.fifo] }
    else none

/-- The state `init` leaves. -/
def TxDriver.start (mem : Mem 32) : Transmission D where
  tx := drv.init packets
  txOffset := 0
  mem := mem
  phase := .idle
  nic := 0
  fifo := []
  handed := []
  sent := []

/-- The states of all runs of driver and card. -/
def TxDriver.Transmits (mem : Mem 32) (s : Transmission D) : Prop :=
  Transition.Reaches (drv.step packets) (drv.mayTransmit · · = true) (drv.start packets mem) s

/-- What was handed over is what was sent, followed by what the card still has to send, which is at
most `slots` frames. -/
structure TxDriver.InOrder (slots : ℕ) (s : Transmission D) : Prop where
  sent : s.sent <+: s.handed
  waiting : s.handed.length ≤ s.sent.length + slots
  /-- The card is at work on the next frame, as it was handed over. -/
  fifo : s.fifo ≠ [] → ∃ frame, s.handed[s.sent.length]? = some frame ∧ s.fifo <+: frame
  /-- Without a descriptor of its own at its place the card has sent everything. -/
  drained : drv.own (s.tx s.nic) = false → s.sent = s.handed
  /-- As long as the driver's descriptor is the card's, the card has one to send. -/
  progress : drv.own (s.tx s.txOffset) = true → drv.own (s.tx s.nic) = true

end Driver

end RemoteX86
