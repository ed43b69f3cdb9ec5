import RemoteX86.Device
import RemoteX86.NetMenu
import RemoteX86.Lib.Bump

/-!
# Memory for the network drivers

`eth/alloc.c`: `alloc` starts a little above the image and moves up with every `do_alloc` and
`align_alloc`.  Rings, pointer tables and packet buffers of all drivers come from it, whatever number
of times their `init` is tried, and LOW tells the host that everything from `alloc` on is free.
-/

namespace RemoteX86

open Hex

/-- The pointer returned, and `alloc` behind it. -/
def doAlloc (alloc n : BitVec 32) : BitVec 32 × BitVec 32 := (alloc, alloc + n)

/-- `last_byte` by its address. -/
def initAlloc (lastByte : BitVec 32) : BitVec 32 := lastByte + 0x20000

def alignAlloc (alloc sz : BitVec 32) : BitVec 32 := (alloc + sz - 1) &&& ~~~(sz - 1)

/-- A call into `alloc.c`; `alignAlloc k` is `align_alloc(1 << k)`, with an unsigned int of 32 bits. -/
inductive AllocCall where
  | doAlloc (n : BitVec 32)
  | alignAlloc (k : Fin 32)
  deriving DecidableEq

/-- `align_alloc(4)` -/
abbrev AllocCall.align4 : AllocCall := .alignAlloc 2

/-- `align_alloc(16)` -/
abbrev AllocCall.align16 : AllocCall := .alignAlloc 4

/-- `align_alloc(32)` -/
abbrev AllocCall.align32 : AllocCall := .alignAlloc 5

/-- `align_alloc(256)` -/
abbrev AllocCall.align256 : AllocCall := .alignAlloc 8

/-- `alloc`, and the blocks returned so far with their sizes, the oldest first. -/
structure Heap where
  alloc : BitVec 32
  blocks : List (BitVec 32 × BitVec 32)

def Heap.call (h : Heap) : AllocCall → Heap
  | .doAlloc n =>
    let r := RemoteX86.doAlloc h.alloc n
    { alloc := r.2, blocks := h.blocks ++ [(r.1, n)] }
  | .alignAlloc k => { h with alloc := RemoteX86.alignAlloc h.alloc ((1 : BitVec 32) <<< k.val) }

def Heap.calls (h : Heap) (cs : List AllocCall) : Heap := cs.foldl Heap.call h

def Heap.init (lastByte : BitVec 32) : Heap := { alloc := initAlloc lastByte, blocks := [] }

/-! ## The drivers -/

/-- What an attempt at a driver's `init` that gets that far allocates; `first` as long as the
pointers to its rings are null. -/
def NetworkDriver.initCalls (first : Bool) : NetworkDriver → List AllocCall
  | .pcnet32 =>
    .align16 :: (if first then
      [.doAlloc (16 * 16), .doAlloc (16 * 16), .doAlloc (16 * 4), .doAlloc (16 * 4)] else []) ++
    .align32 :: List.replicate 32 (.doAlloc 1600)
  | .rtl8101 =>
    .align256 :: (if first then [.doAlloc (4 * 16)] else []) ++
    .align256 :: (if first then [.doAlloc (4 * 16)] else []) ++
    .align16 :: (if first then [.doAlloc (4 * 4), .doAlloc (4 * 4)] else []) ++
    .align32 :: List.replicate 8 (.doAlloc 1600)
  | .rtl8139 => .align4 :: (if first then [.doAlloc (8192 + 16 + 1700)] else [])
  | .ne2000 => [.doAlloc 2048, .doAlloc 2049]

/-- Attempts one after another, behind those of `tried`. -/
def attemptCalls : List NetworkDriver → List NetworkDriver → List AllocCall
  | _, [] => []
  | tried, drv :: drvs =>
    drv.initCalls (decide (drv ∉ tried)) ++ attemptCalls (drv :: tried) drvs

/-! ## What the calls add up to -/

def AllocCall.bump : AllocCall → Bump.Call
  | .doAlloc n => .block n.toNat
  | .alignAlloc k => .align (2 ^ k.val) (Nat.two_pow_pos _)

/-- The region above the image, if addresses had no end. -/
def allocRegion (lastByte : BitVec 32) (cs : List AllocCall) : Bump.Region :=
  Bump.Region.run ⟨lastByte.toNat + 0x20000, []⟩ (cs.map AllocCall.bump)

/-- What the calls have given out is apart, in place and below what LOW reports. -/
structure AllocSound (lastByte : BitVec 32) (cs : List AllocCall) : Prop where
  disjoint : ((Heap.init lastByte).calls cs).blocks.Pairwise fun b c =>
    b.1.toNat + b.2.toNat ≤ c.1.toNat
  inside : ∀ b ∈ ((Heap.init lastByte).calls cs).blocks,
    lastByte.toNat + 0x20000 ≤ b.1.toNat
      ∧ b.1.toNat + b.2.toNat ≤ ((Heap.init lastByte).calls cs).alloc.toNat
  aligned : ∀ pre k n post, cs = pre ++ .alignAlloc k :: .doAlloc n :: post →
    ∃ p, (doAlloc ((Heap.init lastByte).calls (pre ++ [.alignAlloc k])).alloc n).1 = p
      ∧ (p, n) ∈ ((Heap.init lastByte).calls cs).blocks ∧ 2 ^ k.val ∣ p.toNat
  grows : ∀ pre post, cs = pre ++ post →
    ((Heap.init lastByte).calls pre).alloc.toNat ≤ ((Heap.init lastByte).calls cs).alloc.toNat
  low : ∀ dev : Device, dev.alloc = ((Heap.init lastByte).calls cs).alloc →
    ∃ low digits, (commandLow dev).reply = ascii "OK " ++ digits ∧ IsHex low digits
      ∧ ∀ b ∈ ((Heap.init lastByte).calls cs).blocks, b.1.toNat + b.2.toNat ≤ low

end RemoteX86
