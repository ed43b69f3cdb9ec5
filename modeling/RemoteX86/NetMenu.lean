import Mathlib.Algebra.Order.Ring.Int
import Mathlib.Data.List.Basic

/-!
# Choosing and opening a driver

`network.c`, and `main_menu` and `c_start` of `eth/c-main.c` as far as the three globals they keep
about the network card: the device and the driver that were found, and whether the driver is open.
What the drivers' `probe` and `init` return is up to the hardware, each time anew.
-/

namespace RemoteX86

inductive NetworkDriver where
  | pcnet32
  | rtl8101
  | rtl8139
  | ne2000
  deriving DecidableEq, Repr

def netDrivers : List NetworkDriver := [.pcnet32, .rtl8101, .rtl8139, .ne2000]

structure PciDevice where
  deviceId : BitVec 16
  classCode : BitVec 32

/-- A place of `pci_device` that holds an ethernet card. -/
def PciDevice.ethernet (pdev : PciDevice) : Bool :=
  pdev.deviceId != 0 && pdev.classCode >>> 16 == 2

/-- A card is named by its place in `pci_device`. -/
abbrev ProbeResults := NetworkDriver → Option ℕ → Bool

/-- What the hardware and the keyboard have to say to one round of the menu: the key, the results of
`probe` and `init`, and the keys of the ISA prompt, one of which answers it. -/
structure MenuInput where
  key : ℤ
  probe : ProbeResults
  init : NetworkDriver → Option ℕ → Bool
  answers : List ℤ
  answered : ∃ c ∈ answers, 0 < c

/-- The three globals, and the driver whose `init` was the last to succeed. -/
structure NetChoice where
  chosenNetDev : Option ℕ
  chosenNetDrv : Option NetworkDriver
  chosenNetDrvOpen : Bool
  inited : Option NetworkDriver
  deriving DecidableEq, Repr

/-! ## Probing -/

/-- The loop over `net_drivers`. -/
def probeDrivers (probe : ProbeResults) (pdev : Option ℕ) :
    List NetworkDriver → Option NetworkDriver
  | [] => none
  | drv :: drvs => if probe drv pdev then some drv else probeDrivers probe pdev drvs

/-- The loop over `pci_device`, from place `index` on. -/
def probeDevices (probe : ProbeResults) :
    ℕ → List PciDevice → Option (ℕ × NetworkDriver)
  | _, [] => none
  | index, pdev :: pdevs =>
    if pdev.ethernet then
      match probeDrivers probe (some index) netDrivers with
      | some drv => some (index, drv)
      | none => probeDevices probe (index + 1) pdevs
    else probeDevices probe (index + 1) pdevs

def autoprobeNetworkCardIsa (probe : ProbeResults) (s : NetChoice) : NetChoice :=
  { s with chosenNetDev := none, chosenNetDrv := probeDrivers probe none netDrivers }

/-- The keys of the prompt, up to the first that is one. -/
def isaPrompt : List ℤ → Bool
  | [] => false
  | c :: cs => if c = 0x79 then true else if 0 < c then false else isaPrompt cs

def autoprobeNetworkCard (pciDevice : List PciDevice) (probe : ProbeResults) (answers : List ℤ)
    (s : NetChoice) : NetChoice :=
  match probeDevices probe 0 pciDevice with
  | some (index, drv) => { s with chosenNetDev := some index, chosenNetDrv := some drv }
  | none =>
    let s := { s with chosenNetDev := none, chosenNetDrv := none }
    if isaPrompt answers then autoprobeNetworkCardIsa probe s else s

/-! ## The menu -/

/-- Opening a driver that was found and is not open. -/
def openDriver (init : NetworkDriver → Option ℕ → Bool) (s : NetChoice) : NetChoice :=
  match s.chosenNetDrv with
  | some drv =>
    if !s.chosenNetDrvOpen && init drv s.chosenNetDev then
      { s with chosenNetDrvOpen := true, inited := some drv }
    else s
  | none => s

/-- One round of `main_menu`, up to its `net_idle`. -/
def mainMenu (pciDevice : List PciDevice) (s : NetChoice) (i : MenuInput) : NetChoice :=
  if i.key = 0x6F then openDriver i.init s
  else if i.key = 0x78 then autoprobeNetworkCard pciDevice i.probe i.answers s
  -- the other keys leave the three alone
  else s

/-- What `c_start` does before the menu. -/
def cStart (pciDevice : List PciDevice) (i : MenuInput) : NetChoice :=
  openDriver i.init (autoprobeNetworkCard pciDevice i.probe i.answers
    { chosenNetDev := none, chosenNetDrv := none, chosenNetDrvOpen := false, inited := none })

/-- `c_start` and the rounds of the menu so far. -/
def menuRun (pciDevice : List PciDevice) (first : MenuInput) (is : List MenuInput) : NetChoice :=
  is.foldl (mainMenu pciDevice) (cStart pciDevice first)

/-! ## An open driver is a live one -/

/-- An open driver is there, and is the one whose `init` last succeeded. -/
def NetChoice.Live (s : NetChoice) : Prop :=
  s.chosenNetDrvOpen = true → ∃ drv, s.chosenNetDrv = some drv ∧ s.inited = some drv

/-- The driver is the first to claim a card: a PCI card before which no driver claims one, or with
none of these, and yes for an answer, an ISA card. -/
inductive FirstToClaim (pciDevice : List PciDevice) (i : MenuInput) (drv : NetworkDriver) : Prop
  | pci (index : ℕ) (pdev : PciDevice) (hpdev : pciDevice[index]? = some pdev)
      (hethernet : pdev.ethernet = true)
      (hclaim : netDrivers.find? (i.probe · (some index)) = some drv)
      (hbefore : ∀ k < index, ∀ pdev, pciDevice[k]? = some pdev → pdev.ethernet = true →
        ∀ drv ∈ netDrivers, i.probe drv (some k) = false)
  | isa
      (hnone : ∀ k pdev, pciDevice[k]? = some pdev → pdev.ethernet = true →
        ∀ drv ∈ netDrivers, i.probe drv (some k) = false)
      (hyes : i.answers.find? (0 < ·) = some 0x79)
      (hclaim : netDrivers.find? (i.probe · none) = some drv)

/-- The menu's `x` key is safe: the driver is not open, or is the first to claim a card again. -/
def NetChoice.Safe (pciDevice : List PciDevice) (s : NetChoice) (i : MenuInput) : Prop :=
  i.key = 0x78 → s.chosenNetDrvOpen = true →
    ∃ drv, s.chosenNetDrv = some drv ∧ FirstToClaim pciDevice i drv

end RemoteX86
