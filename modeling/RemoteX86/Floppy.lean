import RemoteX86.Lib.Hex

/-!
# The floppy boot sector

`stage1-floppy.asm` and `stage1-floppy-patch-sectorcount`.  INT 13h is the BIOS's: what it reports as
the geometry and whether a read sets the carry flag are parameters.
-/

namespace RemoteX86

open Hex

/-- A disk by cylinder, head and sector, of the sizes the boot sector is for. -/
structure Geometry where
  cylinders : ℕ
  heads : ℕ
  sectors : ℕ
  cylinders_le : cylinders ≤ 256
  heads_pos : 1 ≤ heads
  heads_le : heads ≤ 127
  sectors_ge : 2 ≤ sectors
  sectors_le : sectors ≤ 63

def Geometry.capacity (g : Geometry) : ℕ := g.cylinders * g.heads * g.sectors

/-- The registers of a one-sector read, INT 13h with `ax` = 0201h. -/
structure SectorRead where
  ch : Byte
  cl : Byte
  dh : Byte
  dl : Byte
  es : BitVec 16
  bx : BitVec 16
  deriving DecidableEq

namespace SectorRead

variable (r : SectorRead)

/-- The cylinder asked for: the two top bits of `cl` are its high bits. -/
def cylinder : ℕ := r.ch.toNat + 256 * (r.cl.toNat / 64)

def sector : ℕ := r.cl.toNat % 64

/-- The number of the sector on the disk, from 0; INT 13h counts the sectors of a track from 1. -/
def number (g : Geometry) : ℕ :=
  (r.cylinder * g.heads + r.dh.toNat) * g.sectors + (r.sector - 1)

/-- The physical address its data goes to. -/
def address : ℕ := 16 * r.es.toNat + r.bx.toNat

/-- The sector is there. -/
def OnDisk (g : Geometry) : Prop :=
  r.cylinder < g.cylinders ∧ r.dh.toNat < g.heads ∧ 1 ≤ r.sector ∧ r.sector ≤ g.sectors

instance (g : Geometry) : Decidable (r.OnDisk g) := inferInstanceAs (Decidable (_ ∧ _))

end SectorRead

/-- What INT 13h with `ah` = 8 leaves: the carry flag and the registers. -/
structure DriveParameters where
  cf : Bool
  ah : Byte
  ch : Byte
  cl : Byte
  dh : Byte

structure Int13 where
  parameters : Byte → DriveParameters
  readCf : SectorRead → Bool

/-- The geometry as it is reported: the last cylinder, with its high bits in `cl`, the sectors of a
track, and the last head. -/
def Geometry.parameters (g : Geometry) : DriveParameters where
  cf := false
  ah := 0
  ch := BitVec.ofNat 8 (g.cylinders - 1)
  cl := BitVec.ofNat 8 (g.sectors + 64 * ((g.cylinders - 1) / 256))
  dh := BitVec.ofNat 8 (g.heads - 1)

/-- The BIOS reports the geometry of the boot drive, and reads every sector it has. -/
structure Int13.Serves (int13 : Int13) (g : Geometry) : Prop where
  parameters : int13.parameters 0 = g.parameters
  reads : ∀ r, r.OnDisk g → int13.readCf r = false

/-- The variables of the boot sector, and `es:bx`. -/
structure Loader where
  bootDrive : Byte
  bootC : Byte
  bootH : Byte
  bootS : Byte
  readC : Byte
  readH : Byte
  readS : Byte
  stage2Size : BitVec 16
  es : BitVec 16
  bx : BitVec 16

/-- Where the boot sector ends up. -/
inductive Stage1Exit where
  /-- `puts`, and then `jmp short $` -/
  | stops (msg : List Byte)
  /-- `jc read_errmsg`: the text of the message is executed -/
  | readErrmsg
  | jumps (cs ip : BitVec 16)
  deriving DecidableEq

namespace Loader

variable (l : Loader)

def read : SectorRead := ⟨l.readC, l.readS, l.readH, l.bootDrive, l.es, l.bx⟩

/-- From the read to `load_loop2`. -/
def advance : Loader :=
  if l.bx.toNat + 0x200 < 2 ^ 16 then { l with bx := l.bx + 0x200 }
  else
    -- "if BX overflows, advance ES 64KB further": the sum is made in `bx`, and stays there
    { l with bx := l.es + 0x1000, es := l.es + 0x1000 }

/-- From `jz load_done` back to `load_loop`: `jle` and `jl` compare with sign. -/
def nextSector : Loader :=
  if (l.readS + 1).sle l.bootS then { l with readS := l.readS + 1 }
  else if (l.readH + 1).slt l.bootH then { l with readS := 1, readH := l.readH + 1 }
  else { l with readS := 1, readH := 0, readC := l.readC + 1 }

end Loader

/-- The reads it makes, and where it ends; none when the fuel has run out. -/
def loadLoop (int13 : Int13) : ℕ → Loader → Option (List SectorRead × Stage1Exit)
  | 0, _ => none
  | fuel + 1, l =>
    if int13.readCf l.read then some ([l.read], .readErrmsg)
    else
      let next : Loader := { l.advance with stage2Size := l.stage2Size - 1 }
      if next.stage2Size = 0 then some ([l.read], .jumps 0 0x8000)
      else (loadLoop int13 fuel next.nextSector).map fun rest => (l.read :: rest.1, rest.2)

/-- At `geo_ok`, with the variables as they are preset and the geometry stored. -/
def geoOk (p : DriveParameters) (stage2Size : BitVec 16) : Loader where
  bootDrive := 0
  bootC := p.ch + 1
  bootH := p.dh + 1
  bootS := p.cl
  readC := 0
  readH := 0
  readS := 2
  stage2Size := stage2Size
  es := 0x8000#16 >>> 4
  bx := 0

/-- The boot sector, entered at `cs:ip`. -/
def stage1 (int13 : Int13) (fuel : ℕ) (cs ip stage2Size : BitVec 16) :
    Option (List SectorRead × Stage1Exit) :=
  if cs ≠ 0 then some ([], .stops (ascii "Non-standard boot location"))
  else if ip + 3 ≠ 0x7C00 + 3 then some ([], .stops (ascii "Non-standard boot location"))
  else
    let p := int13.parameters 0
    if p.cf then some ([], .stops (ascii "Geometry N/A"))
    else if p.ah ≠ 0 then some ([], .stops (ascii "Geometry N/A"))
    else loadLoop int13 fuel (geoOk p stage2Size)

/-- `stage1-floppy-patch-sectorcount`, for a file of `size` bytes: what `pack("v", ..)` puts in
`stage2_size`.  It dies on an empty file. -/
def patchSectorcount (size : ℕ) : Option (BitVec 16) :=
  if size = 0 then none else some (BitVec.ofNat 16 ((size + 511) / 512))

/-- The boot sector, patched for a stage 2 of `size` bytes and started at 0000:7C00, reads its sectors
in order, one after the other from 8000h on, and jumps there. -/
def LoadsContiguously (g : Geometry) (int13 : Int13) (size : ℕ) : Prop :=
  ∃ stage2Size fuel reads, patchSectorcount size = some stage2Size
    ∧ stage1 int13 fuel 0 0x7C00 stage2Size = some (reads, .jumps 0 0x8000)
    ∧ reads.length = (size + 511) / 512
    ∧ ∀ (k : ℕ) (r : SectorRead), reads[k]? = some r →
      r.number g = k + 1 ∧ r.address = 0x8000 + 512 * k

end RemoteX86
