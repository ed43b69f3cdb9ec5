import RemoteX86.Lib.Memory
import RemoteX86.Lib.Ring
import RemoteX86.Lib.Transition

/-!
# The receive rings of the PCI network cards

`net-pcnet32.c` and `net-rtl8101.c`.  Driver and card pass descriptors around a ring: the card puts
a frame into the buffer of a descriptor it owns and gives the descriptor up, the driver takes the
frame up and hands the descriptor back.  The two drivers do the same over descriptors of different
layouts, so the driver is one definition (`getPacket`, `putPacket`) over what they differ in
(`RxDriver`).

The card writes what it likes into a descriptor it gives up, but for what `RxDriver.keeps` says it
never writes, and a descriptor that says it holds one whole good frame gives that frame's length.
-/

namespace RemoteX86

open Hex Memory

/-- What the receive rings of the two drivers differ in.  `packets` is `rx_packets`. -/
structure RxDriver (D : Type) where
  ringSize : ℕ
  /-- The descriptor as `init` sets it up. -/
  init : (packets : ℕ → BitVec 32) → ℕ → D
  own : D → Bool
  error : D → Bool
  first : D → Bool
  last : D → Bool
  frameLength : D → BitVec 32
  rxReinit : (packets : ℕ → BitVec 32) → D → (entry : ℕ) → D
  /-- Where the card puts the frame. -/
  address : D → BitVec 32
  /-- The card goes on with the first descriptor after this one. -/
  wraps : D → ℕ → Bool
  /-- What the card leaves as it was when it gives a descriptor up. -/
  keeps : D → D → Bool

/-! ## PCnet -/

structure Pcnet32RxHead where
  base : BitVec 32
  bufLength : BitVec 16
  status : BitVec 16
  msgLength : BitVec 32
  reserved : BitVec 32
  deriving DecidableEq

def pcnet32RxReinit (rx : Pcnet32RxHead) : Pcnet32RxHead :=
  { rx with bufLength := -1600, msgLength := 0, reserved := 0, status := 0x8000 }

def pcnet32 : RxDriver Pcnet32RxHead where
  ringSize := 16
  init packets i :=
    { base := packets i, bufLength := -1600, msgLength := 0, reserved := 0, status := 0x8000 }
  own rx := rx.status &&& 0x8000 != 0
  -- ERR+FRAM+OFLO+CRC+BUFF+BPE
  error rx := rx.status &&& 0x7C80 != 0
  first rx := rx.status &&& (1 <<< 9) != 0
  last rx := rx.status &&& (1 <<< 8) != 0
  frameLength rx := rx.msgLength
  rxReinit _ rx _ := pcnet32RxReinit rx
  address rx := rx.base
  -- the card was told the size of the ring
  wraps _ i := i + 1 == 16
  keeps rx rx' := rx'.base == rx.base

/-! ## RealTek -/

structure Rtl8101RxHead where
  d1 : BitVec 32
  d2 : BitVec 32
  addr : BitVec 64
  deriving DecidableEq

def rtl8101RxReinit (packets : ℕ → BitVec 32) (rx : Rtl8101RxHead) (entry : ℕ) :
    Rtl8101RxHead :=
  let d1 := rx.d1 &&& 0x3FFFC000
  let d1 := if entry = 4 - 1 then d1 ||| 0x40000000 else d1
  { d2 := 0, addr := (packets entry).setWidth 64, d1 := d1 ||| (0x80000000 ||| 1600) }

def rtl8101 : RxDriver Rtl8101RxHead where
  ringSize := 4
  init packets i :=
    { addr := (packets i).setWidth 64
      d2 := 0
      d1 := 0x80000000 ||| (if i = 4 - 1 then 0x40000000 else 0) ||| 1600 }
  own rx := rx.d1 &&& 0x80000000 != 0
  error rx := rx.d1 &&& (1 <<< 21) != 0
  first rx := rx.d1 &&& (1 <<< 29) != 0
  last rx := rx.d1 &&& (1 <<< 28) != 0
  frameLength rx := rx.d1 &&& 0x3FFF
  rxReinit := rtl8101RxReinit
  address rx := rx.addr.setWidth 32
  -- EOR
  wraps rx _ := rx.d1 &&& 0x40000000 != 0
  keeps _ _ := true

/-! ## The driver -/

/-- The buffers, `do_alloc`ed one after another from `alloc` on. -/
def rxPackets (alloc : BitVec 32) (i : ℕ) : BitVec 32 := alloc + BitVec.ofNat 32 (1600 * i)

/-- The descriptors, the driver's place among them, and the memory their buffers are in. -/
structure RxRing (D : Type) where
  rx : ℕ → D
  rxOffset : ℕ
  mem : Mem 32

/-- What `get_packet` returns: the size, the header it copied, and where the payload starts. -/
structure RxPacket where
  sz : BitVec 32
  hdr : List Byte
  p : BitVec 32

section Driver

variable {D : Type} (drv : RxDriver D) (packets : ℕ → BitVec 32)

def RxDriver.advPacket (s : RxRing D) : RxRing D :=
  { s with rxOffset := if drv.ringSize ≤ s.rxOffset + 1 then 0 else s.rxOffset + 1 }

/-- `rx_reinit` of the descriptor at `rx_offset`. -/
def RxDriver.reinit (s : RxRing D) : RxRing D :=
  { s with
    rx := Function.update s.rx s.rxOffset
      (drv.rxReinit packets (s.rx s.rxOffset) s.rxOffset) }

def RxDriver.getPacket (s : RxRing D) : RxRing D × Option RxPacket :=
  let rx := s.rx s.rxOffset
  if drv.own rx then (s, none)
  else if drv.error rx then (drv.advPacket (drv.reinit packets s), none)
  else if drv.first rx && drv.last rx then
    if 14 ≤ drv.frameLength rx then
      let p := packets s.rxOffset
      (s, some { sz := drv.frameLength rx - 14, hdr := read s.mem p 14, p := p + 14 })
    else (s, none)
  else if !drv.first rx then (drv.advPacket (drv.reinit packets s), none)
  -- the start of a frame too large for one descriptor
  else (drv.advPacket (drv.reinit packets s), none)

def RxDriver.putPacket (s : RxRing D) : RxRing D := drv.advPacket (drv.reinit packets s)

/-- What a round of `net_idle` does to the ring. -/
def RxDriver.round (s : RxRing D) : RxRing D :=
  match drv.getPacket packets s with
  | (s, none) => s
  | (s, some _) => drv.putPacket packets s

/-- The round hands the descriptor at `rx_offset` back and goes on to the next. -/
structure RxDriver.Recycles (s : RxRing D) : Prop where
  own : drv.own ((drv.round packets s).rx s.rxOffset) = true
  rxOffset : (drv.round packets s).rxOffset = (s.rxOffset + 1) % drv.ringSize

/-- A whole good frame that is shorter than its header. -/
structure RxDriver.Runt (rx : D) : Prop where
  error : drv.error rx = false
  first : drv.first rx = true
  last : drv.last rx = true
  length : drv.frameLength rx < 14

/-! ## The driver and the card -/

/-- What the card gives up a descriptor with. -/
structure Deposit (D : Type) where
  desc : D
  frame : List Byte

/-- What `net_idle` got: the size, the header and the payload. -/
structure Delivery where
  sz : BitVec 32
  hdr : List Byte
  data : List Byte
  deriving DecidableEq

/-- A frame as its receiver should get it. -/
def Delivery.ofFrame (frame : List Byte) : Delivery :=
  { sz := BitVec.ofNat 32 (frame.length - 14), hdr := frame.take 14, data := frame.drop 14 }

/-- A whole frame without an error, in one descriptor. -/
def RxDriver.complete (x : Deposit D) : Bool :=
  !drv.error x.desc && drv.first x.desc && drv.last x.desc

def Deposit.delivery (x : Deposit D) : Delivery := .ofFrame x.frame

/-- The ring, the card's place in it, the packet `net_idle` is at work on, and what was deposited
and delivered so far. -/
structure Reception (D : Type) where
  ring : RxRing D
  nic : ℕ
  held : Option RxPacket
  deposited : List (Deposit D)
  delivered : List Delivery

inductive RxAction (D : Type) where
  | deposit (x : Deposit D)
  | getPacket
  | putPacket

/-- The card deposits into its next descriptor if that one is its own, at most 1600 bytes. -/
def RxDriver.mayDeposit (s : Reception D) : RxAction D → Bool
  | .deposit x =>
    drv.own (s.ring.rx s.nic) && !drv.own x.desc && drv.keeps (s.ring.rx s.nic) x.desc &&
      decide (x.frame.length ≤ 1600) &&
      (!drv.complete x || drv.frameLength x.desc == BitVec.ofNat 32 x.frame.length)
  | _ => true

/-- One deposit, or one half of a round of `net_idle`. -/
def RxDriver.step (s : Reception D) : RxAction D → Option (Reception D)
  | .deposit x =>
    some { s with
      ring := { s.ring with
        rx := Function.update s.ring.rx s.nic x.desc
        mem := write s.ring.mem (drv.address (s.ring.rx s.nic)) x.frame }
      nic := if drv.wraps (s.ring.rx s.nic) s.nic then 0 else s.nic + 1
      deposited := s.deposited ++ [x] }
  | .getPacket =>
    if s.held.isSome then none
    else
      match drv.getPacket packets s.ring with
      | (ring, none) => some { s with ring := ring }
      | (ring, some pkt) =>
        some { s with
          ring := ring
          held := some pkt
          delivered := s.delivered ++
            [{ sz := pkt.sz, hdr := pkt.hdr, data := read ring.mem pkt.p pkt.sz.toNat }] }
  | .putPacket =>
    if s.held.isNone then none
    else some { s with ring := drv.putPacket packets s.ring, held := none }

/-- The state `init` leaves. -/
def RxDriver.start (mem : Mem 32) : Reception D where
  ring := { rx := drv.init packets, rxOffset := 0, mem := mem }
  nic := 0
  held := none
  deposited := []
  delivered := []

/-- The states of all runs of driver and card. -/
def RxDriver.Receives (mem : Mem 32) (s : Reception D) : Prop :=
  Transition.Reaches (drv.step packets) (drv.mayDeposit · · = true) (drv.start packets mem) s

/-- Ownership, the descriptors of the card, and what was delivered. -/
structure RxDriver.InOrder (Canonical : (ℕ → BitVec 32) → ℕ → D → Prop) (s : Reception D) :
    Prop where
  /-- The driver owns the descriptors from its own place up to the card's. -/
  run : ∃ k ≤ drv.ringSize, s.nic = Ring.place drv.ringSize s.ring.rxOffset k ∧
    ∀ i < drv.ringSize,
      drv.own (s.ring.rx i) = false ↔ Ring.ahead drv.ringSize s.ring.rxOffset i < k
  canonical : ∀ i < drv.ringSize, drv.own (s.ring.rx i) = true → Canonical packets i (s.ring.rx i)
  delivered : s.delivered <+: (s.deposited.filter drv.complete).map Deposit.delivery
  /-- The packet `net_idle` is at work on is the last delivered, and is still in its buffer. -/
  held : ∀ pkt, s.held = some pkt → ∃ x, s.delivered.getLast? = some x ∧
    x = { sz := pkt.sz, hdr := pkt.hdr, data := read s.ring.mem pkt.p pkt.sz.toNat }

end Driver

/-- Its own buffer, of 1600 bytes, and OWN. -/
structure Pcnet32RxHead.Canonical (packets : ℕ → BitVec 32) (i : ℕ) (rx : Pcnet32RxHead) :
    Prop where
  base : rx.base = packets i
  bufLength : rx.bufLength = -1600
  status : rx.status = 0x8000
  msgLength : rx.msgLength = 0
  reserved : rx.reserved = 0

/-- Its own buffer, of 1600 bytes, OWN, and EOR on the last descriptor only. -/
structure Rtl8101RxHead.Canonical (packets : ℕ → BitVec 32) (i : ℕ) (rx : Rtl8101RxHead) :
    Prop where
  addr : rx.addr = (packets i).setWidth 64
  length : rx.d1 &&& 0x3FFF = 1600
  own : rx.d1 &&& 0x80000000 = 0x80000000
  eor : rx.d1 &&& 0x40000000 = if i = 3 then 0x40000000 else 0
  d2 : rx.d2 = 0

end RemoteX86
