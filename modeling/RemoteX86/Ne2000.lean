import RemoteX86.Lib.Walk
import RemoteX86.RxRing

/-!
# The NE2000's receive ring

`net-ne2000.c` over the part of the DP8390 it talks to: the boundary and current page registers,
the interrupt status and the card's own memory, of which the pages `RX_PAGE_START .. RX_PAGE_END`
are the receive ring.  The card stores a frame behind a header of four bytes from the current page
on and sets PRX; the driver reads from the page after the boundary, up to `CURR`.
-/

namespace RemoteX86

open Hex Memory

def rxPageStart : Byte := 0x46
def rxPageEnd : Byte := 0x70

/-! ## The card -/

/-- The registers of the card that its receive ring is run by, and its memory. -/
structure Ne2000 where
  bnry : Byte
  curr : Byte
  isr : Byte
  ram : Mem 16

/-- The byte at `off` of a page of the card's memory. -/
def pageAddr (page : Byte) (off : Byte) : BitVec 16 := page ++ off

/-- The next byte of the ring, for the card's own writes and for remote reads. -/
def ringNext (a : BitVec 16) : BitVec 16 :=
  if a + 1 = pageAddr rxPageEnd 0 then pageAddr rxPageStart 0 else a + 1

/-- Put bytes into the ring, from `a` on. -/
def ringStore (ram : Mem 16) (a : BitVec 16) (bytes : List Byte) : Mem 16 :=
  Walk.write ringNext ram a bytes

/-- A remote read of `n` bytes of the ring, from `a` on. -/
def remoteRead (ram : Mem 16) (a : BitVec 16) (n : ℕ) : List Byte := Walk.read ringNext ram a n

/-- What the card receives: a frame the driver has room for, without an error. -/
structure GoodFrame where
  status : Byte
  bytes : List Byte
  received : status &&& 1 ≠ 0
  no_error : status &&& 0x1E = 0
  header_le : 14 ≤ bytes.length
  length_le : bytes.length ≤ 1518

/-- The pages a frame takes, with its header. -/
def GoodFrame.pages (f : GoodFrame) : ℕ := (f.bytes.length + 4 + 255) / 256

/-- The page `n` pages after `page`. -/
def pageAfter (page : Byte) (n : ℕ) : Byte :=
  if rxPageEnd ≤ page + BitVec.ofNat 8 n then page + BitVec.ofNat 8 n - (rxPageEnd - rxPageStart)
  else page + BitVec.ofNat 8 n

/-- The pages from the current one up to the boundary. -/
def Ne2000.room (s : Ne2000) : ℕ :=
  let size := (rxPageEnd - rxPageStart).toNat
  let d := (s.bnry.toNat + 256 * size - s.curr.toNat) % size
  if d = 0 then size else d

/-- Status, next page and byte count, low byte first, the header's own four bytes counted. -/
def GoodFrame.header (f : GoodFrame) (next : Byte) : List Byte :=
  [f.status, next, BitVec.ofNat 8 (f.bytes.length + 4),
    BitVec.ofNat 8 ((f.bytes.length + 4) / 256)]

/-- The frame is stored from the current page on, and the page after it becomes the current one. -/
def Ne2000.store (s : Ne2000) (f : GoodFrame) : Ne2000 :=
  { s with
    ram := ringStore s.ram (pageAddr s.curr 0) (f.header (pageAfter s.curr f.pages) ++ f.bytes)
    curr := pageAfter s.curr f.pages
    isr := s.isr ||| 0x01 }

/-- A frame that would reach the boundary is not stored. -/
def Ne2000.arrive (s : Ne2000) (f : GoodFrame) : Option Ne2000 :=
  if f.pages < s.room then some (s.store f) else none

/-! ## The driver -/

/-- What `ne2000_init` leaves, whatever is in the card's memory. -/
def ne2000Init (ram : Mem 16) : Ne2000 :=
  { bnry := rxPageStart, curr := rxPageStart, isr := 0, ram := ram }

/-- Writing ones to the interrupt status clears those bits. -/
def Ne2000.ack (s : Ne2000) (c : Byte) : Ne2000 := { s with isr := s.isr &&& ~~~c }

/-- The end of a remote read sets RDC. -/
def Ne2000.rdc (s : Ne2000) : Ne2000 := { s with isr := s.isr ||| 0x40 }

/-- What is returned of the bytes of `ne2000_last_packet`. -/
def lastPacket (bytes : List Byte) : Option Delivery :=
  if 14 ≤ bytes.length then some (.ofFrame bytes) else none

/-- The page after the boundary, where the driver reads. -/
def Ne2000.curRead (s : Ne2000) : Byte :=
  if rxPageEnd ≤ s.bnry + 1 then rxPageStart else s.bnry + 1

/-- The four bytes the driver takes for a header. -/
def Ne2000.tmp (s : Ne2000) : List Byte := remoteRead s.ram (pageAddr s.curRead 0) 4

/-- The frame behind the header, when the header is that of a good one. -/
def Ne2000.readPacket (s : Ne2000) : List Byte :=
  let rstatus := s.tmp.getD 0 0
  let byteCount := (s.tmp.getD 2 0).toNat + (s.tmp.getD 3 0).toNat * 256
  if rstatus &&& 1 ≠ 0 ∧ rstatus &&& 0x1E = 0 ∧ 14 + 4 ≤ byteCount ∧ byteCount ≤ 1518 + 4 then
    remoteRead s.ram (pageAddr s.curRead 4) (byteCount - 4)
  else []

def ne2000GetPacket (s : Ne2000) : Ne2000 × Option Delivery :=
  let s := if s.isr.getLsbD 6 then s.ack 0x40 else s
  if s.isr.getLsbD 0 then
    if s.curRead = s.curr then (s, none)
    else
      let packet := s.readPacket
      let next := s.tmp.getD 1 0
      let s := ({ s.rdc with bnry := next - 1 } : Ne2000).ack 0x01
      (s.ack (s.isr &&& 0xFE), lastPacket packet)
  else (s.ack (s.isr &&& 0xFE), none)

/-! ## Runs -/

/-- The card, and what arrived and was returned so far. -/
structure Ne2000Run where
  nic : Ne2000
  arrived : List GoodFrame
  returned : List Delivery

inductive Ne2000Action where
  | arrive (f : GoodFrame)
  | getPacket

def Ne2000Run.getPacket (s : Ne2000Run) : Ne2000Run :=
  { s with
    nic := (ne2000GetPacket s.nic).1
    returned := s.returned ++ (ne2000GetPacket s.nic).2.toList }

/-- A frame the ring has no room for is dropped with OVW, and is not one that arrived. -/
def Ne2000Run.step (s : Ne2000Run) : Ne2000Action → Ne2000Run
  | .arrive f =>
    match s.nic.arrive f with
    | some nic => { s with nic := nic, arrived := s.arrived ++ [f] }
    | none => { s with nic := { s.nic with isr := s.nic.isr ||| 0x10 } }
  | .getPacket => s.getPacket

def Ne2000Run.run (s : Ne2000Run) (as : List Ne2000Action) : Ne2000Run := as.foldl step s

def ne2000Start (ram : Mem 16) : Ne2000Run :=
  { nic := ne2000Init ram, arrived := [], returned := [] }

/-- What arrived is what was returned and what finitely many further calls return, in order. -/
structure Ne2000Run.Fifo (s : Ne2000Run) : Prop where
  returned : s.returned <+: s.arrived.map fun f => .ofFrame f.bytes
  remaining : ∃ n, (Ne2000Run.getPacket^[n] s).returned = s.arrived.map fun f => .ofFrame f.bytes

/-- A frame arrives first of all, or when the one before has been fetched. -/
def Ne2000Run.fetched (s : Ne2000Run) : Ne2000Action → Bool
  | .arrive _ => s.arrived.isEmpty || s.nic.curRead == s.nic.curr
  | .getPacket => true

/-- The run without the frame that arrived first. -/
def Ne2000Run.afterFirst (s : Ne2000Run) : Ne2000Run := { s with arrived := s.arrived.tail }

/-! ## The boundary register -/

/-- What a call writes to BNRY, if it gets that far. -/
def Ne2000.boundaryWrite (s : Ne2000) : Option Byte :=
  if s.isr.getLsbD 0 ∧ s.curRead ≠ s.curr then some (s.tmp.getD 1 0 - 1) else none

/-- The card, the values written to its boundary register, and the next pages of the headers that
were read. -/
structure Ne2000Boundary where
  nic : Ne2000
  written : List Byte
  nexts : List Byte

/-- The card may change anything but its boundary register between two calls. -/
inductive BoundaryAction where
  | card (ram : Mem 16) (curr isr : Byte)
  | getPacket

def Ne2000Boundary.step (s : Ne2000Boundary) : BoundaryAction → Option Ne2000Boundary
  | .card ram curr isr => some { s with nic := { s.nic with ram := ram, curr := curr, isr := isr } }
  | .getPacket =>
    some
      { nic := (ne2000GetPacket s.nic).1
        written := s.written ++ s.nic.boundaryWrite.toList
        nexts := s.nexts ++ (s.nic.boundaryWrite.map fun _ => s.nic.tmp.getD 1 0).toList }

/-- A header that is read carries a page of the ring. -/
def Ne2000Boundary.nextOk (s : Ne2000Boundary) : BoundaryAction → Bool
  | .card .. => true
  | .getPacket =>
    s.nic.boundaryWrite.isNone ||
      (decide (0x46 ≤ (s.nic.tmp.getD 1 0).toNat) && decide ((s.nic.tmp.getD 1 0).toNat < 0x70))

/-- `ne2000_init` has written the boundary register once. -/
def Ne2000Boundary.start (ram : Mem 16) : Ne2000Boundary :=
  { nic := ne2000Init ram, written := [(ne2000Init ram).bnry], nexts := [] }

/-- The states of all runs of calls against a card whose headers carry pages of the ring. -/
def Ne2000Boundary.Reached (ram : Mem 16) (s : Ne2000Boundary) : Prop :=
  Transition.Reaches Ne2000Boundary.step (Ne2000Boundary.nextOk · · = true) (.start ram) s

end RemoteX86
