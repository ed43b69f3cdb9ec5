import RemoteX86.Lib.Fill
import RemoteX86.Serial

/-!
# The page tables of the x64 part

What `_jmp_x64` writes before it turns long mode on: one PML4 page, one PML3 page and 64 PML2 pages
that lie behind each other as one array.  `walk` is the way of the processor through such tables.
Physical memory has 52-bit addresses here, the most the entries can name.
-/

namespace RemoteX86

open Hex Memory Fill

/-! ## Construction -/

def pml4Location : BitVec 32 := 0x10000

def pml3Location : BitVec 32 := pml4Location + 0x1000

def pml2Location : BitVec 32 := pml3Location + 0x1000

/-- The registers of the loops, which run before paging is on. -/
structure Stos where
  mem : Mem 52
  edi : BitVec 32
  ecx : BitVec 32
  edx : BitVec 32

namespace Stos

def stosd (s : Stos) (eax : BitVec 32) : Stos :=
  { s with mem := write s.mem (s.edi.setWidth 52) (dword eax), edi := s.edi + 4 }

/-- The body of `.pml4zero`, with the count of its `loop`. -/
def pml4zero (s : Stos) : Stos :=
  let s := (s.stosd 0).stosd 0
  { s with ecx := s.ecx - 1 }

def pml3loop (s : Stos) : Stos :=
  let eax := ((s.edx <<< 12) + pml2Location) ||| 7
  let s := (s.stosd eax).stosd 0
  { s with edx := s.edx + 1 }

def pml3zero (s : Stos) : Stos :=
  let s := (s.stosd 0).stosd 0
  { s with edx := s.edx + 1 }

def pml2loop (s : Stos) : Stos :=
  let eax := (s.edx <<< 21) ||| 0x87
  let s := (s.stosd eax).stosd 0
  { s with edx := s.edx + 1 }

end Stos

/-- From `cld` to the end of `.pml2loop`.  No loop runs more often than 32768 times. -/
def jmpX64Tables (mem : Mem 52) : Option (Mem 52) := do
  let fuel := 32768
  let s : Stos := { mem := mem, edi := pml4Location, ecx := 511, edx := 0 }
  let s := (s.stosd (pml3Location ||| 7)).stosd 0
  let s ← doWhile Stos.pml4zero (fun s => s.ecx != 0) fuel s
  let s ← doWhile Stos.pml3loop (fun s => s.edx < 64) fuel { s with edx := 0, edi := pml3Location }
  let s ← doWhile Stos.pml3zero (fun s => s.edx < 512) fuel s
  let s ← doWhile Stos.pml2loop (fun s => s.edx < 512 * 64) fuel
    { s with edx := 0, edi := pml2Location }
  return s.mem

/-! ## The walk -/

/-- Bit 0 of an entry. -/
def entryPresent (e : BitVec 64) : Bool := e.getLsbD 0

/-- Bit 1 of an entry. -/
def entryWriteable (e : BitVec 64) : Bool := e.getLsbD 1

/-- Bit 7 of an entry: it names a page, not a table. -/
def entryLarge (e : BitVec 64) : Bool := e.getLsbD 7

/-- The table an entry names. -/
def entryTable (e : BitVec 64) : BitVec 52 := BitVec.ofNat 52 (e.toNat / 2 ^ 12 * 2 ^ 12)

/-- The byte of `v` in the page of `2 ^ bits` bytes that an entry names. -/
def entryByte (e v : BitVec 64) (bits : ℕ) : BitVec 52 :=
  BitVec.ofNat 52 (e.toNat / 2 ^ bits * 2 ^ bits + v.toNat % 2 ^ bits)

/-- The entry for `v` in a table that is indexed by the nine bits from `bit` upwards, if it is
present. -/
def tableEntry (mem : Mem 52) (table : BitVec 52) (v : BitVec 64) (bit : ℕ) : Option (BitVec 64) :=
  let e := qwordAt mem (table + BitVec.ofNat 52 (8 * (v.toNat / 2 ^ bit % 512)))
  if entryPresent e then some e else none

/-- The upper 17 bits are all the same. -/
def canonical (v : BitVec 64) : Bool := v.toNat < 2 ^ 47 || 2 ^ 64 - 2 ^ 47 ≤ v.toNat

/-- Where a linear address leads, and whether every entry on the way lets it be written. -/
structure Page where
  phys : BitVec 52
  writeable : Bool
  deriving DecidableEq

/-- The 4-level walk with pages of 1 GB, 2 MB and 4 KB. -/
def walk (mem : Mem 52) (pml4 : BitVec 52) (v : BitVec 64) : Option Page :=
  if canonical v then
    (tableEntry mem pml4 v 39).bind fun e4 =>
    (tableEntry mem (entryTable e4) v 30).bind fun e3 =>
    if entryLarge e3 then
      some { phys := entryByte e3 v 30, writeable := entryWriteable e4 && entryWriteable e3 }
    else
      (tableEntry mem (entryTable e3) v 21).bind fun e2 =>
      let writeable := entryWriteable e4 && entryWriteable e3 && entryWriteable e2
      if entryLarge e2 then some { phys := entryByte e2 v 21, writeable := writeable }
      else (tableEntry mem (entryTable e2) v 12).map fun e1 =>
        { phys := entryByte e1 v 12, writeable := writeable && entryWriteable e1 }
  else none

end RemoteX86
