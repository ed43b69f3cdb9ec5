import RemoteX86.Pci

/-!
# What the PCI table is to hold, and looking things up in it

`pci_init` is to put every function on the buses into `pci_device`, once, although one function may
answer to many bus numbers.  `pci_find` is to return the first entry that has what a query asks for.
-/

namespace RemoteX86

open Hex

/-! ## Looking up -/

/-- `PCI_ANY`, an int. -/
def pciAny : BitVec 32 := ~~~0

/-- The tests of `pci_find` on one entry. -/
def pciFindMatches (deviceId vendorId classCode : BitVec 16) (dev : PciDeviceRecord) : Bool :=
  if dev.deviceId = 0 then false
  else if deviceId.setWidth 32 ≠ pciAny ∧ deviceId ≠ dev.deviceId then false
  else if vendorId.setWidth 32 ≠ pciAny ∧ vendorId ≠ dev.vendorId then false
  else if classCode.setWidth 32 ≠ pciAny then
    if classCode.setWidth 32 &&& 0xFF0000#32 ≠ dev.classCode &&& 0xFF0000#32 then false
    else if classCode.setWidth 32 &&& 0x00FF00#32 ≠ dev.classCode &&& 0x00FF00#32 then false
    else if classCode.setWidth 32 &&& 0x0000FF#32 ≠ dev.classCode &&& 0x0000FF#32 then false
    else true
  else true

def pciFindLoop (deviceId vendorId classCode : BitVec 16) :
    ℕ → List PciDeviceRecord → Option ℕ
  | _, [] => none
  | idx, dev :: devs =>
    if pciFindMatches deviceId vendorId classCode dev then some idx
    else pciFindLoop deviceId vendorId classCode (idx + 1) devs

/-- `pci_bus_present` and `pci_device`, whose entries behind those of the list are zero. -/
structure PciTable where
  present : Bool
  devices : List PciDeviceRecord
  length_le : devices.length ≤ maxPciDevice
  absent : present = false → ∀ dev ∈ devices, dev.deviceId = 0

/-- There is no PCI bus. -/
def PciTable.empty : PciTable where
  present := false
  devices := []
  length_le := Nat.zero_le _
  absent _ _ h := nomatch h

/-- `pci_find`, which returns an entry by its place. -/
def pciFind (t : PciTable) (deviceId vendorId classCode : BitVec 16) : Option ℕ :=
  if !t.present then none else pciFindLoop deviceId vendorId classCode 0 t.devices

/-- What is asked for; none is `PCI_ANY`. -/
structure PciQuery where
  deviceId : Option (BitVec 16)
  vendorId : Option (BitVec 16)
  classCode : Option (BitVec 24)
  deriving DecidableEq

/-- An argument as the `uint16_t` it is passed as. -/
def PciQuery.arg {w : ℕ} : Option (BitVec w) → BitVec 16
  | none => pciAny.setWidth 16
  | some v => v.setWidth 16

def PciQuery.find (q : PciQuery) (t : PciTable) : Option ℕ :=
  pciFind t (arg q.deviceId) (arg q.vendorId) (arg q.classCode)

namespace PciQuery

variable (q : PciQuery) (dev : PciDeviceRecord)

/-- A field is not asked for, or has the value asked for. -/
def Asks {w : ℕ} (asked : Option (BitVec w)) (x : BitVec w) : Prop := asked = none ∨ asked = some x

instance {w : ℕ} (asked : Option (BitVec w)) (x : BitVec w) : Decidable (Asks asked x) :=
  inferInstanceAs (Decidable (_ ∨ _))

/-- An occupied entry has what is asked for. -/
def Selects : Prop :=
  dev.deviceId ≠ 0 ∧ Asks q.deviceId dev.deviceId ∧ Asks q.vendorId dev.vendorId
    ∧ Asks q.classCode (dev.classCode.setWidth 24)

instance : DecidablePred q.Selects := fun _ => inferInstanceAs (Decidable (_ ∧ _))

/-- An occupied entry has the 16 bits of every argument. -/
def SelectsShort : Prop :=
  dev.deviceId ≠ 0 ∧ dev.deviceId = arg q.deviceId ∧ dev.vendorId = arg q.vendorId
    ∧ dev.classCode.setWidth 24 = (arg q.classCode).setWidth 24

instance : DecidablePred q.SelectsShort := fun _ => inferInstanceAs (Decidable (_ ∧ _))

/-- The result is the first entry selected. -/
def Finds (t : PciTable) (r : Option ℕ) : Prop :=
  match r with
  | some i => ∃ dev, t.devices[i]? = some dev ∧ q.Selects dev
      ∧ ∀ j < i, ∀ dev, t.devices[j]? = some dev → ¬ q.Selects dev
  | none => ∀ dev ∈ t.devices, ¬ q.Selects dev

/-- All three are given and fit 16 bits. -/
def Plain : Prop :=
  q.deviceId.isSome = true ∧ q.vendorId.isSome = true ∧ ∃ c ∈ q.classCode, c.toNat < 2 ^ 16

end PciQuery

/-! ## Enumerating -/

/-- Functions on buses whose numbers are decoded modulo a power of two.  What has no function reads
as ones, and no function does. -/
structure PciTopology extends PciBus where
  busBits : ℕ
  busBits_le : busBits ≤ 8
  bridge_eq : bridge = true
  decoded : ∀ bus dev func i, route bus dev func = some i → dev.toNat < 32 ∧ func.toNat < 8
  aliases : ∀ bus dev func,
    route bus dev func = route (BitVec.ofNat 8 (bus.toNat % 2 ^ busBits)) dev func
  separate : ∀ bus dev func bus' dev' func' i, bus.toNat < 2 ^ busBits → bus'.toNat < 2 ^ busBits →
    route bus dev func = some i → route bus' dev' func' = some i →
      bus = bus' ∧ dev = dev' ∧ func = func'
  answers : ∀ bus dev func i, route bus dev func = some i → (functions i).read 0 ≠ 0xFFFFFFFF
  few : ∀ is : List ℕ, is.Nodup → (∀ i ∈ is, ∃ bus dev func, route bus dev func = some i) →
    is.length ≤ maxPciDevice

/-- What an entry has of the function it was read from. -/
structure PciDeviceRecord.ReadFrom (pdev : PciDeviceRecord) (f : PciFunction) : Prop where
  vendorId : pdev.vendorId = (f.read 0).setWidth 16
  deviceId : pdev.deviceId = (f.read 0 >>> 16).setWidth 16
  classCode : pdev.classCode = f.read 8 >>> 8

/-- Every function is in the table once, under one of its bus numbers, and nothing else is. -/
structure PciScan.Enumerates (b : PciBus) (s : PciScan) : Prop where
  sound : ∀ pdev ∈ s.devices, ∃ i, b.route pdev.bus pdev.device pdev.function = some i
    ∧ pdev.ReadFrom (b.functions i)
  complete : ∀ bus dev func i, b.route bus dev func = some i →
    ∃ pdev ∈ s.devices, b.route pdev.bus pdev.device pdev.function = some i
  once : s.devices.Pairwise fun p q =>
    b.route p.bus p.device p.function ≠ b.route q.bus q.device q.function

/-- No function stands behind a gap in its device, and none on or behind a bus whose device 0 has the
id of the first bus's. -/
def PciTopology.Regular (t : PciTopology) : Prop :=
  ∀ bus dev func i, bus.toNat < 2 ^ t.busBits → t.route bus dev func = some i →
    (∀ func', func' ≤ func → (t.route bus dev func').isSome = true)
      ∧ ∀ bus', 0 < bus' → bus' ≤ bus → t.read bus' 0 0 0 ≠ t.read 0 0 0 0

end RemoteX86
