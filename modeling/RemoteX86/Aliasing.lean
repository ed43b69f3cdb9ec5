import RemoteX86.Lib.Asking
import RemoteX86.Lib.Hex

/-!
# The aliasing tests

`run_memory_aliasing_tests` of `comm/tests/cpu_tests.c`.  It compares 512 bytes of memory with those at
the addresses that would be the same memory if fewer address bits were decoded, downward from the most
bits and upward from 21.  Memory is whatever READB answers: a range of 512 bytes by its address, or none
where `remote_rs232_read` fails, and the function returns 1.
-/

namespace RemoteX86

open Hex Asking

/-- The fields of `struct x86_test_results` that the tests read and set. -/
structure X86TestResults where
  std0to4EflagsRevision : Byte
  maxBasicMemoryAddressBits : ℕ
  maxUpperBiosBits : ℕ
  maxUpperBiosBitsUw : ℕ
  maxLegacyBiosBits : ℕ
  maxLegacyBiosBitsUw : ℕ
  maxLegacyVgaBits : ℕ
  maxLegacyVgaBitsUw : ℕ
  maxLegacyDosmemBits : ℕ
  maxLegacyDosmemBitsUw : ℕ
  maxExtmemBits : ℕ
  maxExtmemBitsUw : ℕ
  deriving DecidableEq, Repr

def maxBasicMemAddress (bits : ℕ) : BitVec 64 := (1#64 <<< bits) - 1

section Scans

variable (read : BitVec 64 → Option (List Byte)) (bits : ℕ)

/-- The loop of a downward scan; `addr` is the address compared for `max_bits`. -/
def downwardLoop (ref : List Byte) (addr : ℕ → BitVec 64) : ℕ → Asking (BitVec 64) ℕ
  -- not reached: the loop is left at 20
  | 0 => pure bits
  | maxBits + 1 => do
    let compare ← ask read (addr (maxBits + 1))
    if compare ≠ ref then pure (maxBits + 1 + 1)
    else if maxBits ≤ 20 then pure bits
    else downwardLoop ref addr maxBits

/-- The loop of an upward scan, with `left` turns to go until `max_bits` is 32. -/
def upwardLoop (ref : List Byte) (addr : ℕ → BitVec 64) : (left maxBits : ℕ) → Asking (BitVec 64) ℕ
  | 0, _ => pure bits
  | left + 1, maxBits => do
    let compare ← ask read (addr maxBits)
    if compare = ref then pure maxBits
    else if 32 ≤ maxBits + 1 then pure bits
    else upwardLoop ref addr left (maxBits + 1)

/-- The loop over the topmost BIOS, downward, which keeps `max` beside `max_bits`. -/
def upperBiosDownwardLoop (hirom : List Byte) : (max : BitVec 64) → ℕ → Asking (BitVec 64) ℕ
  | _, 0 => pure bits
  | max, maxBits + 1 => do
    let compare ← ask read (max + 1 - 512)
    if compare ≠ hirom then pure (maxBits + 1 + 1)
    else if maxBits ≤ 20 then pure bits
    else upperBiosDownwardLoop hirom (max >>> 1) maxBits

/-- The same upward; where it matches it reports one bit less. -/
def upperBiosUpwardLoop (hirom : List Byte) :
    (left : ℕ) → (max : BitVec 64) → (maxBits : ℕ) → Asking (BitVec 64) ℕ
  | 0, _, _ => pure bits
  | left + 1, max, maxBits => do
    let compare ← ask read (max + 1 - 512)
    if compare = hirom then pure (maxBits - 1)
    else if 32 ≤ maxBits + 1 then pure bits
    else upperBiosUpwardLoop hirom left (max <<< 1 ||| 1#64) (maxBits + 1)

def upperBiosDownward : Asking (BitVec 64) ℕ := do
  let hirom ← ask read (maxBasicMemAddress bits + 1 - 512)
  upperBiosDownwardLoop read bits hirom (maxBasicMemAddress bits >>> 1) (bits - 1)

-- the topmost BIOS is not what this one reads first
def upperBiosUpward : Asking (BitVec 64) ℕ := do
  let hirom ← ask read ((1#64 <<< 20) - 512)
  upperBiosUpwardLoop read bits hirom 11 ((1#64 <<< 21) - 1) 21

/-- The aliases of an address with all bits from `max_bits` on set. -/
def upperAlias (base : BitVec 64) (maxBits : ℕ) : BitVec 64 :=
  ((BitVec.allOnes 64 <<< maxBits) &&& maxBasicMemAddress bits) + base

/-- The aliases of an address with bit `max_bits` set. -/
def lowerAlias (base : BitVec 64) (maxBits : ℕ) : BitVec 64 := (1#64 <<< maxBits) + base

/-- The scans of a region by both aliases: `upper` and `lower`. -/
def downwardScan (base : BitVec 64) : Asking (BitVec 64) (ℕ × ℕ) := do
  let ref ← ask read base
  let upper ← downwardLoop read bits ref (upperAlias bits base) (bits - 1)
  let lower ← downwardLoop read bits ref (lowerAlias base) (bits - 1)
  pure (upper, lower)

def upwardScan (base : BitVec 64) : Asking (BitVec 64) (ℕ × ℕ) := do
  let ref ← ask read base
  let upper ← upwardLoop read bits ref (upperAlias bits base) 11 21
  let lower ← upwardLoop read bits ref (lowerAlias base) 11 21
  pure (upper, lower)

/-- 512 back from the 1MB boundary. -/
def legacyBios : BitVec 64 := 0x100000 - 512

def vgaDisplay : BitVec 64 := 0xB8000

def dosMemory : BitVec 64 := 0

def extendedMemory : BitVec 64 := 0x100000

/-- Extended memory is not scanned downward where DOS memory is the same every 1MB. -/
def extmemDownward (dosmem extmem : ℕ) : Asking (BitVec 64) ℕ :=
  if 20 < dosmem then do
    let r ← downwardScan read bits extendedMemory
    pure r.2
  else pure extmem

end Scans

/-- The results where the function returns 0.  `upper` is only compared with `lower`, for a warning. -/
def runMemoryAliasingTests (read : BitVec 64 → Option (List Byte)) (cpu : X86TestResults) :
    Asking (BitVec 64) X86TestResults := do
  let bits := cpu.maxBasicMemoryAddressBits
  if cpu.std0to4EflagsRevision < 2 then pure cpu
  else if bits < 20 then pure cpu
  else
    let upperBios ← upperBiosDownward read bits
    let upperBiosUw ← upperBiosUpward read bits
    let legacyBios' ← downwardScan read bits legacyBios
    let legacyBiosUw ← upwardScan read bits legacyBios
    let vga ← downwardScan read bits vgaDisplay
    let vgaUw ← upwardScan read bits vgaDisplay
    let dosmem ← downwardScan read bits dosMemory
    let dosmemUw ← upwardScan read bits dosMemory
    let extmem ← extmemDownward read bits dosmem.2 cpu.maxExtmemBits
    let extmemUw ← upwardScan read bits extendedMemory
    pure { cpu with
      maxUpperBiosBits := upperBios
      maxUpperBiosBitsUw := upperBiosUw
      maxLegacyBiosBits := legacyBios'.2
      maxLegacyBiosBitsUw := legacyBiosUw.2
      maxLegacyVgaBits := vga.2
      maxLegacyVgaBitsUw := vgaUw.2
      maxLegacyDosmemBits := dosmem.2
      maxLegacyDosmemBitsUw := dosmemUw.2
      maxExtmemBits := extmem
      maxExtmemBitsUw := extmemUw.2 }

/-! ## Memory -/

/-- The 512 bytes at an address. -/
def block (mem : ℕ → Byte) (a : ℕ) : List Byte := (List.range 512).map fun i => mem (a + i)

/-- Memory that decodes `k` address bits. -/
def decoded (f : ℕ → Byte) (k : ℕ) : ℕ → Byte := fun x => f (x % 2 ^ k)

/-- The last 512 bytes that `n` bits address. -/
def topBlock (n : ℕ) : BitVec 64 := (1#64 <<< n) - 512

/-- The pairs of addresses whose blocks a scan compares. -/
def compared (bits : ℕ) : List (BitVec 64 × BitVec 64) :=
  (List.range' 21 11).flatMap fun n =>
    [(topBlock bits, topBlock n), (topBlock 20, topBlock n)]
      ++ [legacyBios, vgaDisplay, dosMemory, extendedMemory].flatMap fun base =>
        [(base, upperAlias bits base n), (base, lowerAlias base n)]

/-- Compared addresses that are different with `k` bits have different blocks there. -/
def Distinct (f : ℕ → Byte) (k bits : ℕ) : Prop :=
  ∀ p ∈ compared bits, p.1.toNat % 2 ^ k ≠ p.2.toNat % 2 ^ k →
    block f (p.1.toNat % 2 ^ k) ≠ block f (p.2.toNat % 2 ^ k)

/-- Every scan reports `k` bits. -/
structure X86TestResults.Report (r : X86TestResults) (k : ℕ) : Prop where
  upperBios : r.maxUpperBiosBits = k
  legacyBios : r.maxLegacyBiosBits = k
  vga : r.maxLegacyVgaBits = k
  dosmem : r.maxLegacyDosmemBits = k
  extmem : r.maxExtmemBits = k
  upperBiosUw : r.maxUpperBiosBitsUw = k
  legacyBiosUw : r.maxLegacyBiosBitsUw = k
  vgaUw : r.maxLegacyVgaBitsUw = k
  dosmemUw : r.maxLegacyDosmemBitsUw = k
  extmemUw : r.maxExtmemBitsUw = k

/-- A range of 512 bytes that `bits` bits address. -/
def Addressable (bits : ℕ) (a : BitVec 64) : Prop := a.toNat + 512 ≤ 2 ^ bits

instance (bits : ℕ) : DecidablePred (Addressable bits) := fun _ => inferInstanceAs (Decidable (_ ≤ _))

/-- A machine with `bits` address bits: what READB answers beyond them, if anything, is `beyond`. -/
def answers (bits : ℕ) (mem : ℕ → Byte) (beyond : BitVec 64 → Option (List Byte)) (a : BitVec 64) :
    Option (List Byte) :=
  if Addressable bits a then some (block mem a.toNat) else beyond a

/-- The block in front of some boundary from 2MB to 16MB is that in front of 1MB. -/
def UpperBiosRepeats (mem : ℕ → Byte) : Prop :=
  ∃ n, 21 ≤ n ∧ n ≤ 24 ∧ block mem (2 ^ n - 512) = block mem (2 ^ 20 - 512)

/-- The block is found again 2MB, 4MB or 8MB higher. -/
def RegionRepeats (mem : ℕ → Byte) (base : ℕ) : Prop :=
  ∃ n, 21 ≤ n ∧ n ≤ 23 ∧ block mem (2 ^ n + base) = block mem base

end RemoteX86
