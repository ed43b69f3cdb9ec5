import RemoteX86.Lib.Memory

/-!
# The serial debugger's pointers

How the five parts of stage 2 (`stage2-8086.asm`, `-286`, `-386-16`, `-386-32`, `-x64`) turn the
address of a command into something they can load through, and how they step over it.  The 16-bit
parts step an offset and move the segment on by 64 KB when the carry flag is set after the step;
`inc` leaves that flag as the last call set it.

Physical addresses have 32 bits here: no pointer below reaches more.  Whether address line 20 is
open is not modelled.
-/

namespace RemoteX86

open Hex Memory

inductive Mode where
  | i8086
  | i286
  | i386x16
  | i386x32
  | x64
  deriving DecidableEq, Repr

/-- The width of AX, EAX or RAX, into which `strtohex` reads. -/
def Mode.bits : Mode → ℕ
  | .i8086 => 16
  | .i286 => 16
  | .i386x16 => 16
  | .i386x32 => 32
  | .x64 => 64

/-! ## Descriptors -/

/-- An entry of `_gdt_table`, by the stores the code makes to it. -/
structure Descriptor where
  limit : BitVec 16
  baseLow : BitVec 16
  baseMid : Byte
  access : Byte
  flags : Byte
  baseHigh : Byte
  deriving DecidableEq, Repr

def Descriptor.base (d : Descriptor) : BitVec 32 := d.baseHigh ++ d.baseMid ++ d.baseLow

/-- The ACCESS_SELECTOR entry of `gen_gdt_286`. -/
def accessSelector286 : Descriptor :=
  { limit := 0xFFFF, baseLow := 0, baseMid := 0, access := 0x92, flags := 0, baseHigh := 0 }

/-- The ACCESS_SELECTOR entry of `gen_gdt_386`. -/
def accessSelector386 : Descriptor :=
  { limit := 0xFFFF, baseLow := 0, baseMid := 0, access := 0x92, flags := 0x8F, baseHigh := 0 }

def dxAxPhysTo286seg (d : Descriptor) (dx ax : BitVec 16) : Descriptor :=
  { d with limit := 0xFFFF, baseLow := ax, baseMid := dx.setWidth 8 }

def dxAxPhysTo386seg (d : Descriptor) (dx ax : BitVec 16) : Descriptor :=
  { d with
    limit := 0xFFFF, baseLow := ax, baseMid := dx.setWidth 8, baseHigh := (dx >>> 8).setWidth 8 }

def acc286_64kBump (d : Descriptor) : Descriptor :=
  { d with limit := 0xFFFF, baseLow := 0, baseMid := d.baseMid + 1 }

def acc386_64kBump (d : Descriptor) : Descriptor :=
  let carry : Byte := if d.baseMid = 0xFF then 1 else 0
  { d with
    limit := 0xFFFF, baseLow := 0, baseMid := d.baseMid + 1, baseHigh := d.baseHigh + 1 + carry }

/-! ## Pointers -/

/-- ES:BX in real mode and through the ACCESS_SELECTOR descriptor, EBX, RBX. -/
inductive Pointer where
  | real (es bx : BitVec 16)
  | acc286 (es : Descriptor) (bx : BitVec 16)
  | acc386 (es : Descriptor) (bx : BitVec 16)
  | flat32 (ebx : BitVec 32)
  | flat64 (rbx : BitVec 64)
  deriving DecidableEq, Repr

/-- The pair ES:BX. -/
def dxAxPhysToReal (dx ax : BitVec 16) : Pointer :=
  .real ((dx <<< 12) ||| (ax >>> 4)) (ax &&& 0xF)

namespace Pointer

/-- The physical byte, or none where no page is present.  The page tables of the x64 part map
64 GB; the upper half of every entry is zero, so each 4 GB of them is the first 4 GB again. -/
def phys : Pointer → Option (BitVec 32)
  | .real es bx => some ((es.setWidth 32 <<< 4) + bx.setWidth 32)
  | .acc286 es bx => some (es.base + bx.setWidth 32)
  | .acc386 es bx => some (es.base + bx.setWidth 32)
  | .flat32 ebx => some ebx
  | .flat64 rbx => if rbx.toNat < 2 ^ 36 then some (rbx.setWidth 32) else none

/-- `inc` with the carry flag as it stands, and the step to the next 64 KB where it is set. -/
def next (cf : Bool) : Pointer → Pointer
  | .real es bx => .real (if cf then es + 0x1000 else es) (bx + 1)
  | .acc286 es bx => .acc286 (if cf then acc286_64kBump es else es) (bx + 1)
  | .acc386 es bx => .acc386 (if cf then acc386_64kBump es else es) (bx + 1)
  | .flat32 ebx => .flat32 (ebx + 1)
  | .flat64 rbx => .flat64 (rbx + 1)

/-- The parts with a flat pointer have nothing to move on: their WRITEB loop ends on a carry. -/
def flat : Pointer → Bool
  | .real _ _ => false
  | .acc286 _ _ => false
  | .acc386 _ _ => false
  | .flat32 _ => true
  | .flat64 _ => true

end Pointer

end RemoteX86
