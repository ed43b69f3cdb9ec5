import RemoteX86.Lib.Hex
import RemoteX86.Lib.Register
import RemoteX86.NetMenu
import Mathlib.Logic.Function.Basic

/-!
# The PCI scan

`eth/pci.c`: `pci_init` goes through the functions that answer in configuration space, and sizes the
base address registers of each.  Configuration space is reached through the ports CF8h and CFCh.
-/

namespace RemoteX86

open Hex Registers

/-! ## Configuration space -/

/-- A function of a device: the base address registers from 10h on, six of them, and the other
doublewords of its configuration space, which the scan only reads. -/
structure PciFunction where
  space : Byte → BitVec 32
  bars : ℕ → Register 32

namespace PciFunction

variable (f : PciFunction)

def barOf (regDw : Byte) : Option ℕ :=
  if 0x10 ≤ regDw.toNat ∧ regDw.toNat < 0x28 then some ((regDw.toNat - 0x10) / 4) else none

def read (regDw : Byte) : BitVec 32 :=
  match barOf regDw with
  | some k => (f.bars k).read
  | none => f.space regDw

def write (regDw : Byte) (data : BitVec 32) : PciFunction :=
  match barOf regDw with
  | some k => { f with bars := Function.update f.bars k ((f.bars k).write data) }
  | none => f

end PciFunction

/-- The functions, and which of them answers to a bus, a device and a function number: one may
answer to several. -/
structure PciBus where
  /-- There is something at CF8h. -/
  bridge : Bool
  route : Byte → Byte → Byte → Option ℕ
  functions : ℕ → PciFunction

namespace PciBus

variable (b : PciBus)

/-- What is not there reads as ones. -/
def read (bus dev func regDw : Byte) : BitVec 32 :=
  match b.route bus dev func with
  | some i => (b.functions i).read regDw
  | none => 0xFFFFFFFF

def write (bus dev func regDw : Byte) (data : BitVec 32) : PciBus :=
  match b.route bus dev func with
  | some i =>
    { b with functions := Function.update b.functions i ((b.functions i).write regDw data) }
  | none => b

end PciBus

/-- The latch at CF8h, and what is behind it. -/
structure PciMachine where
  address : BitVec 32
  bus : PciBus

namespace PciMachine

variable (m : PciMachine)

/-- The latch opens configuration space: bit 31 is set, and there is a bridge. -/
def Enabled : Prop := m.bus.bridge = true ∧ m.address.getLsbD 31 = true

instance : Decidable m.Enabled := inferInstanceAs (Decidable (_ ∧ _))

def busNumber : Byte := m.address.extractLsb' 16 8

def device : Byte := (m.address.extractLsb' 11 5).setWidth 8

def function : Byte := (m.address.extractLsb' 8 3).setWidth 8

def register : Byte := (m.address.extractLsb' 2 6).setWidth 8 <<< 2

/-- `io_inl(PCI_CONFIG_ADDRESS)` -/
def inlAddress : BitVec 32 := if m.bus.bridge then m.address else 0xFFFFFFFF

def outlAddress (v : BitVec 32) : PciMachine := { m with address := v }

/-- `io_inl(PCI_CONFIG_DATA)` -/
def inlData : BitVec 32 :=
  if m.Enabled then m.bus.read m.busNumber m.device m.function m.register else 0xFFFFFFFF

def outlData (v : BitVec 32) : PciMachine :=
  if m.Enabled then { m with bus := m.bus.write m.busNumber m.device m.function m.register v }
  else m

end PciMachine

/-! ## The scan -/

def pciAddr (bus dev func regDw : Byte) : BitVec 32 :=
  0x80000000#32 ||| bus.setWidth 32 <<< 16 ||| (dev &&& 0x1F).setWidth 32 <<< 11
    ||| (func &&& 7).setWidth 32 <<< 8 ||| (regDw &&& 0xFC).setWidth 32

def pciConfigReadImm (m : PciMachine) (bus dev func regDw : Byte) : BitVec 32 × PciMachine :=
  let m := m.outlAddress (pciAddr bus dev func regDw)
  (m.inlData, m)

def pciConfigWriteImm (m : PciMachine) (bus dev func regDw : Byte) (data : BitVec 32) : PciMachine :=
  (m.outlAddress (pciAddr bus dev func regDw)).outlData data

structure PciBarFlags where
  io : Bool := false
  prefetchable : Bool := false
  type : BitVec 2 := 0
  present : Bool := false
  deriving DecidableEq

/-- `struct pci_bar`; `last` is its `end`. -/
structure PciBar where
  flags : PciBarFlags := {}
  start : BitVec 64 := 0
  last : BitVec 64 := 0
  mask : BitVec 64 := 0
  deriving DecidableEq

/-- `struct pci_device`, with the fields the menu does not look at. -/
structure PciDeviceRecord extends PciDevice where
  bus : Byte
  device : Byte
  function : Byte
  vendorId : BitVec 16
  revisionId : Byte
  subsystemId : BitVec 16
  subsystemVendorId : BitVec 16
  expansionRom : BitVec 32
  bar : ℕ → PciBar

/-- What is recorded of a register, from what it held and what it read after ones were written. -/
def barEntry (orig max : BitVec 32) : PciBar :=
  let io := max.getLsbD 0
  let flags : PciBarFlags :=
    if io then { present := true, io := true }
    else { present := true, prefetchable := max.getLsbD 3, type := max.extractLsb' 1 2 }
  let orig := orig &&& (if io then ~~~0x3#32 else ~~~0xF#32)
  let max := max &&& (if io then ~~~0x3#32 else ~~~0xF#32)
  { flags, start := orig.setWidth 64, last := (orig ||| ~~~max).setWidth 64, mask := 0xFFFFFFFF }

/-- What a register reads: as it is, after zeros, and after ones. -/
structure BarReads where
  orig : BitVec 32
  min : BitVec 32
  max : BitVec 32

/-- It reads a register between the writes, and writes back what it read first. -/
def sizeRegister (m : PciMachine) (bus dev func reg : Byte) : BarReads × PciMachine :=
  let orig := pciConfigReadImm m bus dev func reg
  let m := pciConfigWriteImm orig.2 bus dev func reg 0x00000000
  let min := pciConfigReadImm m bus dev func reg
  let m := pciConfigWriteImm min.2 bus dev func reg 0xFFFFFFFF
  let max := pciConfigReadImm m bus dev func reg
  let m := pciConfigWriteImm max.2 bus dev func reg orig.1
  (⟨orig.1, min.1, max.1⟩, m)

/-- A round of the loop over the registers, from `bar`: the entries, and the next register. -/
def sizeBar (m : PciMachine) (bus dev func : Byte) (bar : ℕ) (entries : ℕ → PciBar) :
    (ℕ → PciBar) × ℕ × PciMachine :=
  let reg := BitVec.ofNat 8 (0x10 + bar * 4)
  let (⟨orig, min, max⟩, m) := sizeRegister m bus dev func reg
  if orig = min ∧ min = max ∧ (orig = 0 ∨ orig = ~~~0) then (entries, bar + 1, m)
  else
    let pbar := barEntry orig max
    if pbar.flags.type = 2 ∧ bar + 1 < 6 then
      let upper := pciConfigReadImm m bus dev func (reg + 4)
      -- `end` is left as it is, without the upper half
      (Function.update entries bar { pbar with start := pbar.start ||| upper.1.setWidth 64 <<< 32 },
        bar + 2, upper.2)
    else (Function.update entries bar pbar, bar + 1, m)

/-- `for (bar=0;bar < 6;)`; a round takes one register at least. -/
def barLoop (bus dev func : Byte) : ℕ → PciMachine → ℕ → (ℕ → PciBar) → (ℕ → PciBar) × PciMachine
  | 0, m, _, entries => (entries, m)
  | rounds + 1, m, bar, entries =>
    if bar < 6 then
      let r := sizeBar m bus dev func bar entries
      barLoop bus dev func rounds r.2.2 r.2.1 r.1
    else (entries, m)

def probeFunction (m : PciMachine) (bus dev func : Byte) (id : BitVec 32) :
    PciDeviceRecord × PciMachine :=
  let cls := pciConfigReadImm m bus dev func 8
  let sub := pciConfigReadImm cls.2 bus dev func 0x2C
  let rom := pciConfigReadImm sub.2 bus dev func 0x30
  let bars := barLoop bus dev func 6 rom.2 0 fun _ => {}
  ({ bus := bus, device := dev, function := func
     deviceId := (id >>> 16).setWidth 16, vendorId := id.setWidth 16
     classCode := cls.1 >>> 8, revisionId := cls.1.setWidth 8
     subsystemId := (sub.1 >>> 16).setWidth 16, subsystemVendorId := sub.1.setWidth 16
     expansionRom := rom.1 &&& ~~~0x1FFFFF
     bar := bars.1 }, bars.2)

/-- `MAX_PCI_DEVICE` -/
def maxPciDevice : ℕ := 64

/-- `pci_device`, as far as it has been filled, and the machine. -/
structure PciScan where
  devices : List PciDeviceRecord
  machine : PciMachine

/-- `for (func=0;func < 8 && ..)`, with `n` function numbers to go. -/
def funcLoop (bus dev : ℕ) : ℕ → PciScan → PciScan
  | 0, s => s
  | n + 1, s =>
    if s.devices.length < maxPciDevice then
      let func := BitVec.ofNat 8 (7 - n)
      let id := pciConfigReadImm s.machine (BitVec.ofNat 8 bus) (BitVec.ofNat 8 dev) func 0
      if id.1 = 0xFFFFFFFF then { s with machine := id.2 }
      else
        let pdev := probeFunction id.2 (BitVec.ofNat 8 bus) (BitVec.ofNat 8 dev) func id.1
        funcLoop bus dev n { devices := s.devices ++ [pdev.1], machine := pdev.2 }
    else s

def devLoop (bus : ℕ) : ℕ → PciScan → PciScan
  | 0, s => s
  | n + 1, s =>
    if s.devices.length < maxPciDevice then devLoop bus n (funcLoop bus (31 - n) 8 s) else s

def busLoop (busMax : ℕ) : ℕ → PciScan → PciScan
  | 0, s => s
  | n + 1, s =>
    if s.devices.length < maxPciDevice then busLoop busMax n (devLoop (busMax - 1 - n) 32 s) else s

/-- `pci_max_bus`, with `n` bus numbers to go. -/
def pciMaxBusLoop (matchId : BitVec 32) : ℕ → PciMachine → ℕ → ℕ × PciMachine
  | 0, m, busMax => (busMax, m)
  | n + 1, m, busMax =>
    let tmp := pciConfigReadImm m (BitVec.ofNat 8 (255 - n)) 0 0 0
    if tmp.1 = matchId then (busMax, tmp.2) else pciMaxBusLoop matchId n tmp.2 (255 - n + 1)

def pciMaxBus (m : PciMachine) : ℕ × PciMachine :=
  let matchId := pciConfigReadImm m 0 0 0 0
  pciMaxBusLoop matchId.1 255 matchId.2 1

/-- `pci_init`: `pci_bus_present`, with what the scan leaves. -/
def pciInit (m : PciMachine) : Bool × PciScan :=
  let m := m.outlAddress 0x80000000
  if m.inlAddress &&& 0x80FFFFFC ≠ 0x80000000 then (false, ⟨[], m⟩)
  else
    let m := m.outlAddress 0x80FFFFFC
    if m.inlAddress &&& 0x80FFFFFC ≠ 0x80FFFFFC then (false, ⟨[], m⟩)
    else
      let busMax := pciMaxBus m
      (true, busLoop busMax.1 busMax.1 ⟨[], busMax.2⟩)

/-! ## Base address registers -/

/-- The type bits of a memory register. -/
def memoryType (w : ℕ) (prefetchable : Bool) (type : BitVec w) : BitVec w :=
  if prefetchable then 8#w ||| type else type

/-- What is behind one base address register, or behind a pair. -/
inductive Bar where
  | unimplemented
  | io (win : Window 32) (h : 2 ≤ win.log)
  | memory32 (prefetchable : Bool) (win : Window 32) (h : 4 ≤ win.log)
  | memory64 (prefetchable : Bool) (win : Window 64) (h : 4 ≤ win.log)

namespace Bar

def ioRegister (win : Window 32) (h : 2 ≤ win.log) : Register 32 :=
  .ofWindow win 1 (Nat.lt_of_lt_of_le (by decide : 1 < 2 ^ 2) (Nat.pow_le_pow_right Nat.two_pos h))

def memoryRegister {w : ℕ} (fixed : BitVec w) (hfixed : fixed.toNat < 16) (win : Window w)
    (h : 4 ≤ win.log) : Register w :=
  .ofWindow win fixed
    (Nat.lt_of_lt_of_le (hfixed : _ < 2 ^ 4) (Nat.pow_le_pow_right Nat.two_pos h))

/-- The registers, as configuration space has them; a 64-bit window takes two. -/
def registers : Bar → List (Register 32)
  | unimplemented => [.zero]
  | io win h => [ioRegister win h]
  | memory32 p win h => [memoryRegister (memoryType 32 p 0) (by cases p <;> decide) win h]
  | memory64 p win h =>
    let r := memoryRegister (memoryType 64 p 4) (by cases p <;> decide) win h
    [r.extract 0 32, r.extract 32 32]

/-- The registers of `bars`, each with the number of its first, from `i` on. -/
def slots : ℕ → List Bar → List (ℕ × Bar)
  | _, [] => []
  | i, b :: bs => (i, b) :: slots (i + b.registers.length) bs

end Bar

/-- The six registers of a function are those of `bars`. -/
structure PciFunction.HasBars (f : PciFunction) (bars : List Bar) : Prop where
  length : (bars.flatMap Bar.registers).length = 6
  get : ∀ (k : ℕ) (r : Register 32), (bars.flatMap Bar.registers)[k]? = some r → f.bars k = r

/-- An entry has the window's first and last address. -/
structure PciBar.Records {w : ℕ} (e : PciBar) (win : Window w) : Prop where
  present : e.flags.present = true
  start : e.start.toNat = win.base.toNat
  last : e.last.toNat = win.last

/-- The entries are right at `i`, where `b` has its first register. -/
def Bar.Recorded (entries : ℕ → PciBar) (i : ℕ) : Bar → Prop
  | unimplemented => True
  | io win _ => (entries i).Records win
  | memory32 _ win _ => (entries i).Records win
  | memory64 _ win _ => (entries i).Records win ∧ (entries (i + 1)).flags.present = false

/-- A 64-bit window ends below 4 GB. -/
def Bar.Below4G : Bar → Prop
  | memory64 _ win _ => win.base.toNat + 2 ^ win.log ≤ 2 ^ 32
  | _ => True

/-- A device is recorded with the windows its registers place, and they hold what they held. -/
structure PciDeviceRecord.Decodes (pdev : PciDeviceRecord) (bars : List Bar)
    (before after : PciFunction) : Prop where
  recorded : ∀ slot ∈ Bar.slots 0 bars, slot.2.Recorded pdev.bar slot.1
  restored : ∀ k < 6, after.bars k = before.bars k

end RemoteX86
