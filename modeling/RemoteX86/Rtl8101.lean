import RemoteX86.Alloc
import RemoteX86.Pci
import RemoteX86.RxRing

/-!
# Starting the RealTek card

`rtl8101_init` of `eth/net-rtl8101.c`, from the card's PCI record to the ring the driver goes on with.
What the card's command register reads while it resets is a list, the next value first; a call that
has used it up is still polling.
-/

namespace RemoteX86

open Hex

inductive PortWrite where
  | outb (port : BitVec 32) (v : Byte)
  | outw (port : BitVec 32) (v : BitVec 16)
  | outl (port : BitVec 32) (v : BitVec 32)
  deriving DecidableEq

/-- The pointers the driver keeps from one attempt to the next; zero is NULL. -/
structure Rtl8101Pointers where
  rx : BitVec 32
  tx : BitVec 32
  rxPackets : BitVec 32
  txPackets : BitVec 32

inductive Rtl8101End where
  | unknownCard
  | noIo
  | resetFail
  | resetWait
  | opened
  deriving DecidableEq, Repr

/-- What an attempt comes to.  `polls` is how often the command register was read. -/
structure Rtl8101Start where
  ended : Rtl8101End
  polls : ℕ
  machine : PciMachine
  writes : List PortWrite
  heap : Heap
  pointers : Rtl8101Pointers
  rxBuffers : List (BitVec 32)
  txBuffers : List (BitVec 32)
  ring : ℕ → Rtl8101RxHead

def rtl8101KnownPciId : Option PciDeviceRecord → Bool
  | none => false
  | some p => p.vendorId == 0x10EC && p.deviceId == 0x8136

/-- The first I/O window of 256 ports. -/
def rtl8101Io (pdev : PciDeviceRecord) : Option PciBar :=
  ((List.range 6).map pdev.bar).find? fun b =>
    b.flags.present && (b.flags.io && decide (b.start + 0xFF ≤ b.last))

/-- `while (io_inb(..) & 0x10)`: true where it falls through, false where it returns, and the number
of values read. -/
def rtl8101ResetLoop (patience : BitVec 32) (polls : ℕ) : List Byte → Option Bool × ℕ
  | [] => (none, polls)
  | v :: cmd =>
    if v &&& 0x10 = 0 then (some true, polls + 1)
    else
      let patience := patience - 1
      if patience ≠ 0 then (some false, polls + 1)
      else rtl8101ResetLoop patience (polls + 1) cmd

/-- `if (p == NULL) p = do_alloc(n)` -/
def allocIfNull (p n : BitVec 32) (h : Heap) : BitVec 32 × Heap :=
  if p = 0 then ((doAlloc h.alloc n).1, h.call (.doAlloc n)) else (p, h)

/-- `do_alloc(n)` over and over. -/
def doAllocs (n : BitVec 32) : ℕ → Heap → List (BitVec 32) × Heap
  | 0, h => ([], h)
  | k + 1, h =>
    let r := doAllocs n k (h.call (.doAlloc n))
    ((doAlloc h.alloc n).1 :: r.1, r.2)

/-- What the driver has once it has allocated. -/
structure Rtl8101Memory where
  pointers : Rtl8101Pointers
  rxBuffers : List (BitVec 32)
  txBuffers : List (BitVec 32)
  heap : Heap

/-- The rings, the pointer tables and the buffers. -/
def rtl8101Alloc (p : Rtl8101Pointers) (h : Heap) : Rtl8101Memory :=
  let rx := allocIfNull p.rx (4 * 16) (h.call .align256)
  let tx := allocIfNull p.tx (4 * 16) (rx.2.call .align256)
  let rxPackets := allocIfNull p.rxPackets (4 * 4) (tx.2.call .align16)
  let txPackets := allocIfNull p.txPackets (4 * 4) rxPackets.2
  let rxBuffers := doAllocs 1600 4 (txPackets.2.call .align32)
  let txBuffers := doAllocs 1600 4 rxBuffers.2
  { pointers := ⟨rx.1, tx.1, rxPackets.1, txPackets.1⟩, rxBuffers := rxBuffers.1
    txBuffers := txBuffers.1, heap := txBuffers.2 }

/-- What is written to the card once it has reset. -/
def rtl8101SetUp (iobase : BitVec 32) (p : Rtl8101Pointers) : List PortWrite :=
  [.outw (iobase + 0x3E) 0xFFFF, .outl (iobase + 0x40) (3 <<< 24 ||| 6 <<< 8),
    .outl (iobase + 0x44) 0x000F, .outl (iobase + 0x08) 0xFFFFFFFF,
    .outl (iobase + 0x0C) 0xFFFFFFFF, .outw (iobase + 0x62) 0x1200,
    .outl (iobase + 0xE8) 0, .outl (iobase + 0xE4) p.rx, .outl (iobase + 0x20) p.tx,
    .outl (iobase + 0x24) 0, .outl (iobase + 0x28) 0, .outl (iobase + 0x2C) 0,
    .outl (iobase + 0xEC) ((1600 + 127) / 128), .outb (iobase + 0x37) 0x0C]

/-- `rtl8101_init`, with `cmd` for the values of the command register. -/
def rtl8101Init (pdev : Option PciDeviceRecord) (cmd : List Byte) (m : PciMachine)
    (p : Rtl8101Pointers) (h : Heap) : Rtl8101Start :=
  let fail (ended : Rtl8101End) (polls : ℕ) (m : PciMachine) (writes : List PortWrite) :=
    { ended, polls, machine := m, writes, heap := h, pointers := p, rxBuffers := [],
      txBuffers := [], ring := fun _ => ⟨0, 0, 0⟩ : Rtl8101Start }
  match pdev with
  | none => fail .unknownCard 0 m []
  | some pdev =>
    if !rtl8101KnownPciId (some pdev) then fail .unknownCard 0 m []
    else
      match rtl8101Io pdev with
      | none => fail .noIo 0 m []
      | some io =>
        let m := pciConfigWriteImm m pdev.bus pdev.device pdev.function 4 0x29F
        let iobase := io.start.setWidth 32
        let reset := [.outw (iobase + 0x3C) 0x0000, .outb (iobase + 0x37) 0x10]
        let wait := rtl8101ResetLoop 200 0 cmd
        match wait.1 with
        | none => fail .resetWait wait.2 m reset
        | some false => fail .resetFail wait.2 m reset
        | some true =>
          let a := rtl8101Alloc p h
          { ended := .opened, polls := wait.2, machine := m
            writes := reset ++ rtl8101SetUp iobase a.pointers, heap := a.heap
            pointers := a.pointers, rxBuffers := a.rxBuffers, txBuffers := a.txBuffers
            ring := rtl8101.init fun i => a.rxBuffers.getD i 0 }

/-- An attempt gives up its wait only after 200 polls in a row that read the reset bit set, and else
goes on with the first that reads it clear. -/
structure Rtl8101Start.Patient (r : Rtl8101Start) (cmd : List Byte) : Prop where
  gaveUp : r.ended = .resetFail →
    200 ≤ r.polls ∧ r.polls ≤ cmd.length ∧ ∀ v ∈ cmd.take r.polls, v &&& 0x10 ≠ 0
  wentOn : r.ended = .opened → ∃ busy v rest, cmd = busy ++ v :: rest ∧ r.polls = busy.length + 1
    ∧ v &&& 0x10 = 0 ∧ ∀ u ∈ busy, u &&& 0x10 ≠ 0
  waits : r.ended = .resetWait → ∀ v ∈ cmd, v &&& 0x10 ≠ 0

end RemoteX86
