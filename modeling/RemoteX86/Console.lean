import RemoteX86.Device
import RemoteX86.PciTable
import RemoteX86.Screen

/-!
# The keyboard and the menus

`keyb8042_to_ascii`, `s_strtoul_dec`, `pci_bus_menu`, `change_ip_addr_ui` and `main_menu` of
`eth/c-main.c`, between one key read and the next.  What else writes to the screen, the text of the
main menu, the drivers and the network code, does so between two keys of the main menu; any text
stands for it.
-/

namespace RemoteX86

open Hex Emitting

/-! ## Keys -/

/-- `keyb8042_map`; none is -1, as all is behind the space bar. -/
def keyb8042Map : List (Option Byte) :=
  [none, some 27] ++ (ascii "1234567890-=").map some ++ [some 8, some 9]
    ++ (ascii "qwertyuiop[]").map some ++ [some 13, none]
    ++ (ascii "asdfghjkl;").map some ++ [some 0x27, some 0x60, none, some 0x5C]
    ++ (ascii "zxcvbnm,./*").map some ++ [none, some 0x20]

def keyb8042ToAscii (r : Byte) : Option Byte :=
  if 0x80 ≤ r then none else keyb8042Map.getD r.toNat none

/-! ## Entering an address -/

def strtoulDecLoop (val : BitVec 32) : List Byte → BitVec 32 × List Byte
  | [] => (val, [])
  | c :: p =>
    match chartohex c with
    | some digit =>
      if 10 ≤ digit then (val, c :: p) else strtoulDecLoop (val * 10 + BitVec.ofNat 32 digit) p
    | none => (val, c :: p)

def sStrtoulDec (p : List Byte) : BitVec 32 × List Byte := strtoulDecLoop 0 p

/-- What `change_ip_addr_ui` makes of the text. -/
def changeIpAddr (input : List Byte) (my : Ipv4Address) : Ipv4Address :=
  let a := sStrtoulDec input
  if a.2.headD 0 = 0x2E then
    let b := sStrtoulDec a.2.tail
    if b.2.headD 0 = 0x2E then
      let c := sStrtoulDec b.2.tail
      if c.2.headD 0 = 0x2E then
        let d := sStrtoulDec c.2.tail
        ⟨[a.1.setWidth 8, b.1.setWidth 8, c.1.setWidth 8, d.1.setWidth 8], rfl⟩
      else my
    else my
  else my

def changeIpTexts : List Byte :=
  ascii "\r\n" ++ ascii "Enter new IP address, or hit ENTER to cancel.\r\n"
    ++ ascii "IP address must follow the standard dotted notation 123.123.123.123\r\n"

/-- A digit or a dot. -/
def IsAddressChar (a : Byte) : Prop := (0x30 ≤ a ∧ a ≤ 0x39) ∨ a = 0x2E

instance : DecidablePred IsAddressChar := fun _ => inferInstanceAs (Decidable (_ ∨ _))

/-! ## The PCI devices -/

/-- The characters of `vga_writehex`. -/
def writehexText (val : BitVec 32) : ℕ → List Byte
  | 0 => []
  | digits + 1 =>
    hexes.getD ((val >>> (digits * 4)) &&& 0xF).toNat 0 :: writehexText val digits

/-- An occupied place of `pci_device`. -/
def pciEntry (t : PciTable) (idx : BitVec 32) : Option PciDeviceRecord :=
  if maxPciDevice ≤ idx.toNat then none
  else (t.devices[idx.toNat]?).filter fun dev => dev.deviceId != 0

def blankText : List Byte := List.replicate 64 0x20

def deviceText (dev : PciDeviceRecord) : List Byte :=
  writehexText (dev.bus.setWidth 32) 2 ++ ascii ":" ++ writehexText (dev.device.setWidth 32) 2
    ++ ascii "." ++ writehexText (dev.function.setWidth 32) 2 ++ ascii "  "
    ++ writehexText (dev.deviceId.setWidth 32) 4 ++ ascii ","
    ++ writehexText (dev.vendorId.setWidth 32) 4 ++ ascii ","
    ++ writehexText ((dev.classCode >>> 16) &&& 0xFF) 2
    ++ writehexText (dev.classCode &&& 0xFFFF) 4 ++ ascii " "

def barText (y : ℕ) (bar : PciBar) : List Byte :=
  if !bar.flags.present then []
  else writehexText (BitVec.ofNat 32 y) 2 ++ ascii ": "
    ++ (if bar.flags.io then ascii "I/O " else ascii "MEM ")
    ++ writehexText ((bar.start >>> 32).setWidth 32) 8 ++ writehexText (bar.start.setWidth 32) 8
    ++ ascii "-"
    ++ writehexText ((bar.last >>> 32).setWidth 32) 8 ++ writehexText (bar.last.setWidth 32) 8
    ++ ascii "\r\n"

def barsText (dev : PciDeviceRecord) : List Byte :=
  ascii "BARs\r\n"
    ++ (if dev.expansionRom ≠ 0 then
        ascii "Expansion ROM: " ++ writehexText dev.expansionRom 8 ++ ascii "\r\n"
      else [])
    ++ (List.range 6).flatMap fun y => barText y (dev.bar y)

section Menus

variable (g : TextMode) (t : PciTable)

def pciLines : BitVec 32 := g.rows - 8

/-- A round of the loop that redraws. -/
def pciLine (scroll : BitVec 32) (y : ℕ) : Cursor → Cursor × List CellStore :=
  andThen (silently fun _ => ⟨0, BitVec.ofNat 32 y + 1⟩)
    (vgaWrite g (match pciEntry t (BitVec.ofNat 32 y + scroll) with
      | some dev => deviceText dev
      | none => blankText))

def pciRedraw (scroll : BitVec 32) : Cursor → Cursor × List CellStore :=
  each (pciLine g t scroll) (List.range (pciLines g).toNat)

/-- The screen of one device. -/
def pciBars (select : BitVec 32) : Cursor → Cursor × List CellStore :=
  andThen (vgaClear g) (andThen vgaHome (vgaWrite g (match pciEntry t select with
    | some dev => barsText dev
    | none => blankText)))

/-- The loop that waits for the next key: that of `main_menu`, the two of `pci_bus_menu`, and that of
`change_ip_addr_ui`, with what has been entered. -/
inductive ConsoleLoop where
  | mainMenu
  | pciList (select scroll : BitVec 32)
  | pciBars (select scroll : BitVec 32)
  | changeIp (input : List Byte)
  deriving DecidableEq, Repr

structure Console where
  cursor : Cursor
  loop : ConsoleLoop
  myIpv4Address : Ipv4Address

/-- Write to the screen, and wait for a key. -/
def Console.draw (c : Console) (f : Cursor → Cursor × List CellStore) (loop : ConsoleLoop) :
    Console × List CellStore :=
  ({ c with cursor := (f c.cursor).1, loop }, (f c.cursor).2)

/-- Nothing happens on the screen. -/
def Console.wait (c : Console) (loop : ConsoleLoop) : Console × List CellStore := ({ c with loop }, [])

def pciListKey (select scroll : BitVec 32) (r : Byte) (c : Console) : Console × List CellStore :=
  if r = 1 then c.wait .mainMenu
  else if r = 0x48 then
    if 0 < select then
      let scroll' := if select - 1 < scroll then select - 1 else scroll
      c.draw (pciRedraw g t scroll') (.pciList (select - 1) scroll')
    else c.wait (.pciList select scroll)
  else if r = 0x50 then
    let scroll' := if scroll + pciLines g - 1 < select + 1 then scroll + 1 else scroll
    c.draw (pciRedraw g t scroll') (.pciList (select + 1) scroll')
  else if keyb8042ToAscii r = some 13 then c.draw (pciBars g t select) (.pciBars select scroll)
  else c.wait (.pciList select scroll)

def pciBarsKey (select scroll : BitVec 32) (r : Byte) (c : Console) : Console × List CellStore :=
  if r = 1 ∨ r = 0x1C then
    c.draw (andThen (vgaClear g) (pciRedraw g t scroll)) (.pciList select scroll)
  else c.wait (.pciBars select scroll)

def changeIpKey (input : List Byte) (r : Byte) (c : Console) : Console × List CellStore :=
  match keyb8042ToAscii r with
  | none => c.wait (.changeIp input)
  | some a =>
    if IsAddressChar a then
      if input.length < 63 then
        c.draw (andThen (silently fun cur => { cur with x := BitVec.ofNat 32 input.length })
          (vgaWritechar g a)) (.changeIp (input ++ [a]))
      else c.wait (.changeIp input)
    else if a = 8 then
      if 0 < input.length then
        c.draw (andThen (silently fun cur => { cur with x := cur.x - 1 })
          (andThen (vgaWritechar g 0x20) (silently fun cur => { cur with x := cur.x - 1 })))
          (.changeIp input.dropLast)
      else c.wait (.changeIp input)
    else if a = 13 then
      { c with myIpv4Address := changeIpAddr input c.myIpv4Address }.wait .mainMenu
    else c.wait (.changeIp input)

/-- `r`, `o`, `c` and `x` write nothing themselves. -/
def mainMenuKey (r : Byte) (c : Console) : Console × List CellStore :=
  match keyb8042ToAscii r with
  | none => c.wait .mainMenu
  | some a =>
    if a = 0x70 then
      if !t.present then c.draw (vgaWrite g (ascii " ! PCI bus not present\r\n")) .mainMenu
      else c.draw (andThen (vgaClear g) (andThen vgaHome
        (andThen (vgaWrite g (ascii "PCI devices present\r\n")) (pciRedraw g t 0)))) (.pciList 0 0)
    else if a = 0x69 then c.draw (vgaWrite g changeIpTexts) (.changeIp [])
    else if a ∈ ascii "rocx" then c.wait .mainMenu
    else c.draw (vgaWrite g (writehexText (r.setWidth 32) 8 ++ ascii " ")) .mainMenu

/-- A key, or text written by what runs between two keys of the main menu. -/
inductive ConsoleEvent where
  | key (r : Byte)
  | print (s : List Byte)

def Console.step (e : ConsoleEvent) (c : Console) : Console × List CellStore :=
  match e, c.loop with
  | .key r, .mainMenu => mainMenuKey g t r c
  | .key r, .pciList select scroll => pciListKey g t select scroll r c
  | .key r, .pciBars select scroll => pciBarsKey g t select scroll r c
  | .key r, .changeIp input => changeIpKey g input r c
  | .print s, .mainMenu => c.draw (vgaWrite g s) .mainMenu
  -- the other loops wait for a key and nothing else
  | .print _, loop => c.wait loop

def Console.run : List ConsoleEvent → Console → Console × List CellStore := each (Console.step g t)

end Menus

/-- A console as `vga_init` leaves it; what `c_start` prints comes next. -/
def Console.init (bios : BiosData) (my : Ipv4Address) : Console :=
  { cursor := vgaInit bios, loop := .mainMenu, myIpv4Address := my }

/-- An address is entered, up to ENTER. -/
def changeIpAddrUi (g : TextMode) (t : PciTable) (cursor : Cursor) (my : Ipv4Address)
    (keys : List Byte) : Ipv4Address :=
  (Console.run g t ((keys ++ [0x1C]).map .key) ⟨cursor, .changeIp [], my⟩).1.myIpv4Address

/-! ## What is asked of the menus -/

/-- A key changes the text entered. -/
def EditsAddress (input : List Byte) (r : Byte) : Prop :=
  (∃ a, keyb8042ToAscii r = some a ∧ IsAddressChar a ∧ input.length < 63)
    ∨ (keyb8042ToAscii r = some 8 ∧ 0 < input.length)

/-- The text entered is edited only while it is shorter than a row. -/
def Console.Fits (g : TextMode) (c : Console) : ConsoleEvent → Prop
  | .key r => ∀ input, c.loop = .changeIp input → EditsAddress input r →
      input.length < g.columns.toNat
  | .print _ => True

/-- The text a key leaves, as long as none ends it. -/
def typeKey (input : List Byte) (r : Byte) : List Byte :=
  match keyb8042ToAscii r with
  | none => input
  | some a =>
    if IsAddressChar a then (if input.length < 63 then input ++ [a] else input)
    else if a = 8 then input.dropLast
    else input

def typed (keys : List Byte) : List Byte := keys.foldl typeKey []

/-- What stands between the dots. -/
def addressParts (s : List Byte) : List (List Byte) := s.splitOn 0x2E

/-- The value of a decimal number. -/
def partValue (d : List Byte) : ℕ := d.foldl (fun v c => v * 10 + (c.toNat - 0x30)) 0

/-- Four decimal numbers up to 255. -/
def DottedQuad (s : List Byte) : Prop :=
  (addressParts s).length = 4 ∧ ∀ d ∈ addressParts s,
    d ≠ [] ∧ (∀ c ∈ d, 0x30 ≤ c ∧ c ≤ 0x39) ∧ partValue d ≤ 255

instance : DecidablePred DottedQuad := fun _ => inferInstanceAs (Decidable (_ ∧ _))

/-- The first four parts, modulo 256. -/
def addressBytes (s : List Byte) : List Byte :=
  ((addressParts s).take 4).map fun d => BitVec.ofNat 8 (partValue d)

/-- A dotted quad becomes the address, and any other text leaves it. -/
def TakesQuad (s : List Byte) (my my' : Ipv4Address) : Prop :=
  (DottedQuad s → my'.toList = addressBytes s) ∧ (¬ DottedQuad s → my' = my)

instance (s : List Byte) (my my' : Ipv4Address) : Decidable (TakesQuad s my my') :=
  inferInstanceAs (Decidable (_ ∧ _))

end RemoteX86
