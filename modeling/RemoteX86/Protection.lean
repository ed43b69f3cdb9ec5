import RemoteX86.Serial

/-!
# The processor under the parts

What the mode switches of stage 2, and the commands between them, do to the protection of a 386 or
later: `_gdt_table`, the table registers, CR0 and the segment registers with what the processor
keeps of the descriptors they were loaded with.  A load that makes the processor fault leads nowhere: no
part sets up an IDT.  Paging, with the faults that are its own, is left out, and so are FS, GS and the
accessed bit, which nobody reads.
-/

namespace RemoteX86

open Hex

/-! ## Descriptors -/

namespace Descriptor

variable (d : Descriptor)

/-- The last byte of the segment, in pages of 4 KB if bit 7 of the flags says so. -/
def last : BitVec 32 :=
  let limit : BitVec 20 := (d.flags.setWidth 4 : BitVec 4) ++ d.limit
  if d.flags.getLsbD 7 then limit ++ (0xFFF : BitVec 12) else limit.setWidth 32

def big : Bool := d.flags.getLsbD 6

def long : Bool := d.flags.getLsbD 5

/-- Present, and code for ring 0. -/
def isCode : Bool := d.access &&& 0xF8 == 0x98 && !(d.long && d.big)

/-- Present, and data or code that can be read. -/
def isReadable : Bool :=
  d.access &&& 0x90 == 0x90 && (!d.access.getLsbD 3 || d.access.getLsbD 1)

/-- Present, and data for ring 0 that can be written. -/
def isStack : Bool := d.access &&& 0xFA == 0x92

end Descriptor

/-- A segment register, with what the processor keeps of its descriptor. -/
structure SegReg where
  selector : BitVec 16
  base : BitVec 32
  last : BitVec 32
  access : Byte
  big : Bool
  long : Bool
  deriving DecidableEq, Repr

def Descriptor.segReg (d : Descriptor) (selector : BitVec 16) : SegReg where
  selector := selector
  base := d.base
  last := d.last
  access := d.access
  big := d.big
  long := d.long

/-- In real mode only the base comes of the value loaded. -/
def SegReg.loadReal (r : SegReg) (selector : BitVec 16) : SegReg :=
  { r with selector := selector, base := selector.setWidth 32 <<< 4 }

/-- What IDTR holds. -/
structure Idtr where
  limit : BitVec 16
  base : BitVec 32
  deriving DecidableEq, Repr

/-! ## The processor -/

def codeSelector : BitVec 16 := 0x08

def dataSelector : BitVec 16 := 0x10

def accessSelector : BitVec 16 := 0x18

def userCodeSelector : BitVec 16 := 0x20

/-- `code`, `data`, `access` and `userCode` are entries 1 to 4 of `_gdt_table`, and `gdtr` says that
GDTR names it.  `pe` is the bit of CR0, and `ia32e` that the processor is in IA-32e mode. -/
structure Protection where
  code : Descriptor
  data : Descriptor
  access : Descriptor
  userCode : Descriptor
  gdtr : Bool
  idtr : Idtr
  idtrRealmode : Idtr
  pe : Bool
  ia32e : Bool
  interrupts : Bool
  cs : SegReg
  ds : SegReg
  es : SegReg
  ss : SegReg
  deriving DecidableEq, Repr

namespace Protection

/-- The descriptor a selector names; the other entries are not present. -/
def descriptor (s : Protection) (selector : BitVec 16) : Option Descriptor :=
  if !s.gdtr then none
  else if selector = codeSelector then some s.code
  else if selector = dataSelector then some s.data
  else if selector = accessSelector then some s.access
  else if selector = userCodeSelector then some s.userCode
  else none

/-- What `r` holds when `selector` has been loaded into it. -/
def load (s : Protection) (ok : Descriptor → Bool) (r : SegReg) (selector : BitVec 16) :
    Option SegReg :=
  if s.pe then
    (s.descriptor selector).bind fun d => if ok d then some (d.segReg selector) else none
  else some (r.loadReal selector)

def movDs (selector : BitVec 16) (s : Protection) : Option Protection :=
  (s.load Descriptor.isReadable s.ds selector).map fun r => { s with ds := r }

def movEs (selector : BitVec 16) (s : Protection) : Option Protection :=
  (s.load Descriptor.isReadable s.es selector).map fun r => { s with es := r }

def movSs (selector : BitVec 16) (s : Protection) : Option Protection :=
  (s.load Descriptor.isStack s.ss selector).map fun r => { s with ss := r }

/-- A far jump, call or return. -/
def far (selector : BitVec 16) (s : Protection) : Option Protection :=
  (s.load Descriptor.isCode s.cs selector).map fun r => { s with cs := r }

/-- CR0 without PE and PG.  Paging cannot be turned off under 64-bit code. -/
def realMode (s : Protection) : Option Protection :=
  if s.ia32e && s.cs.long then none else some { s with pe := false, ia32e := false }

/-- CR0 with PG, and EFER with LME. -/
def longMode (s : Protection) : Option Protection :=
  if s.cs.long then none else some { s with ia32e := true }

/-- The interrupt table of real mode. -/
def realIdtr : Idtr := ⟨0x3FF, 0⟩

/-- An interrupt may come right behind it. -/
def sti (s : Protection) : Option Protection :=
  if s.pe || s.idtr != realIdtr then none else some { s with interrupts := true }

def cli (s : Protection) : Protection := { s with interrupts := false }

end Protection

/-! ## The parts -/

/-- What `gen_gdt_286` and `gen_gdt_386` have in common. -/
def gdtEntry (access flags : Byte) : Descriptor :=
  { limit := 0xFFFF, baseLow := 0, baseMid := 0, access := access, flags := flags, baseHigh := 0 }

namespace Protection

def genGdt (flags : Byte) (s : Protection) : Protection :=
  { s with code := gdtEntry 0x9A flags, data := gdtEntry 0x92 flags
           access := gdtEntry 0x92 flags, userCode := gdtEntry 0x9A flags }

def genGdt286 : Protection → Protection := genGdt 0

/-- `gen_gdt_386` of the 386-16 part -/
def genGdt386x16 : Protection → Protection := genGdt 0x8F

/-- `gen_gdt_386` of the 386-32 part -/
def genGdt386x32 : Protection → Protection := genGdt 0xCF

/-- `gen_gdt_32` of the x64 part, which writes three entries. -/
def genGdt32 (s : Protection) : Protection :=
  { s with code := gdtEntry 0x9A 0xCF, data := gdtEntry 0x92 0xCF }

/-- The byte at offset 6 of both entries. -/
def setFlags (flags : Byte) (s : Protection) : Protection :=
  { s with code := { s.code with flags := flags }, data := { s.data with flags := flags } }

/-- `_main_loop`, up to its first character. -/
def mainLoop (mode : Mode) (s : Protection) : Option Protection :=
  match mode with
  | .i8086 => s.cli.movEs s.cs.selector
  | .x64 => some s.cli
  | _ => s.cli.movEs dataSelector

/-- `.realmode` and `_jmp_8086`, which sends its greeting with interrupts on. -/
def jmp8086 (s : Protection) : Option Protection := do
  let s := s.cli
  let s ← s.movDs s.cs.selector
  let s ← s.movSs s.cs.selector
  let s ← s.sti
  s.mainLoop .i8086

/-- `_jmp_286`, `_jmp_386_16` and `_jmp_386_32` after their table is written. -/
def protect (mode : Mode) (s : Protection) : Option Protection := do
  let s ← far codeSelector { s with gdtr := true, pe := true }
  let s ← s.movDs dataSelector
  let s ← s.movEs dataSelector
  let s ← s.movSs dataSelector
  s.mainLoop mode

def jmp286 (s : Protection) : Option Protection := do
  let s ← s.cli.movDs s.cs.selector
  let s ← s.movSs s.cs.selector
  s.genGdt286.protect .i286

def jmp386x16 (s : Protection) : Option Protection := do
  let s ← s.cli.movDs s.cs.selector
  let s ← s.movSs s.cs.selector
  s.genGdt386x16.protect .i386x16

def jmp386x32 (s : Protection) : Option Protection := do
  let s ← s.cli.movDs s.cs.selector
  let s ← s.movSs s.cs.selector
  s.genGdt386x32.protect .i386x32

/-- From `_jmp_x64` to `.longmode`; the registers of data keep their 32-bit descriptor. -/
def jmpX64 (s : Protection) : Option Protection := do
  let s ← s.cli.movDs s.cs.selector
  let s ← s.movEs s.cs.selector
  let s ← s.movSs s.cs.selector
  let s := s.genGdt32
  let s ← far codeSelector { s with idtrRealmode := s.idtr, gdtr := true, pe := true }
  let s ← s.movDs dataSelector
  let s ← s.movEs dataSelector
  let s ← s.movSs dataSelector
  let s ← (s.setFlags 0xAF).longMode
  let s ← s.far codeSelector
  s.mainLoop .x64

/-- `.realmode` of every part. -/
def realmode (s : Protection) : Option Protection := do
  let s ← s.movDs 0
  let s ← s.movEs 0
  let s ← s.movSs 0
  let s ← s.far 0
  s.jmp8086

/-- The 286 part loads a table without a use on its way, and goes on without a jump. -/
def leave286 (s : Protection) : Option Protection := do
  let s := { s with gdtr := false, idtr := ⟨0, 0⟩ }
  let s ← realMode { s with idtr := s.idtrRealmode }
  s.realmode

def leave386x16 (s : Protection) : Option Protection := do
  let s ← realMode { s with gdtr := false, idtr := s.idtrRealmode }
  let s ← s.far 0
  s.realmode

/-- The 386-32 and the x64 part go through 16-bit protected mode. -/
def leave32 (s : Protection) : Option Protection := do
  let s := s.setFlags 0x8F
  let s ← s.movDs dataSelector
  let s ← s.movEs dataSelector
  let s ← s.movSs dataSelector
  let s ← s.far codeSelector
  s.leave386x16

/-- The command 8086. -/
def command8086 : Mode → Protection → Option Protection
  | .i8086 => jmp8086
  | .i286 => leave286
  | .i386x16 => leave386x16
  | .i386x32 => leave32
  | .x64 => leave32

/-- The commands of the 8086 part that name a part. -/
def jmp (hasX64 : Bool) (s : Protection) : Mode → Option (Mode × Protection)
  | .i8086 => s.jmp8086.map (.i8086, ·)
  | .i286 => s.jmp286.map (.i286, ·)
  | .i386x16 => s.jmp386x16.map (.i386x16, ·)
  | .i386x32 => s.jmp386x32.map (.i386x32, ·)
  -- the stub goes to `_jmp_8086`
  | .x64 => if hasX64 then s.jmpX64.map (.x64, ·) else s.jmp8086.map (.i8086, ·)

/-- A command that names a part, in the part that runs; the others know 8086 only. -/
def jump (hasX64 : Bool) (mode target : Mode) (s : Protection) : Option (Mode × Protection) :=
  if mode = .i8086 then s.jmp hasX64 target
  else if target = .i8086 then (s.command8086 mode).map (.i8086, ·)
  else (s.mainLoop mode).map (mode, ·)

/-! ## Commands -/

/-- The first 64 KB of a transfer from DX:AX. -/
def pointTo (mode : Mode) (dx ax : BitVec 16) (s : Protection) : Option Protection :=
  match mode with
  | .i8086 => s.movEs ((dx <<< 12) ||| (ax >>> 4))
  | .i286 => movEs accessSelector { s with access := dxAxPhysTo286seg s.access dx ax }
  | .i386x16 => movEs accessSelector { s with access := dxAxPhysTo386seg s.access dx ax }
  | _ => some s

/-- The next 64 KB. -/
def bump (mode : Mode) (s : Protection) : Option Protection :=
  match mode with
  | .i8086 => s.movEs (s.es.selector + 0x1000)
  | .i286 => movEs accessSelector { s with access := acc286_64kBump s.access }
  | .i386x16 => movEs accessSelector { s with access := acc386_64kBump s.access }
  | _ => some s

/-- The register a byte is reached through. -/
def through (mode : Mode) (s : Protection) : SegReg :=
  match mode with
  | .i386x32 => s.ds
  | .x64 => s.ds
  | _ => s.es

/-- What a transfer over so many more 64 KB is made through. -/
def transfer (mode : Mode) : ℕ → Protection → Option (Protection × List SegReg)
  | 0, s => some (s, [s.through mode])
  | n + 1, s => do
    let t ← s.bump mode
    let r ← t.transfer mode n
    return (r.1, s.through mode :: r.2)

/-- The far call of EXEC, with the segment the code runs in; its return loads CS again. -/
def call (selector : BitVec 16) (s : Protection) : Option (Protection × List SegReg) := do
  let s ← s.movEs selector
  let t ← s.far selector
  let u ← t.far s.cs.selector
  return (u, [t.cs])

/-- EXEC of what is at DX:AX, in the 8086 part at segment AX.  What is run leaves everything as it
was. -/
def exec (mode : Mode) (dx ax : BitVec 16) (s : Protection) : Option (Protection × List SegReg) :=
  match mode with
  | .i8086 => s.call ax
  | .i286 => call userCodeSelector { s with userCode := dxAxPhysTo286seg s.userCode dx ax }
  | .i386x16 => call userCodeSelector { s with userCode := dxAxPhysTo386seg s.userCode dx ax }
  | _ => some (s, [s.cs])

end Protection

/-- A line the part that runs has read. -/
inductive PartCommand where
  | jump (target : Mode)
  /-- READ, READB, WRITE or WRITEB at DX:AX, over so many more 64 KB. -/
  | transfer (dx ax : BitVec 16) (bumps : ℕ)
  | exec (dx ax : BitVec 16)
  | other
  deriving DecidableEq, Repr

/-- A command leads to the part that runs next, at its main loop, and comes with the registers that
memory was reached or code was run through. -/
def PartCommand.run (hasX64 : Bool) (mode : Mode) (s : Protection) :
    PartCommand → Option ((Mode × Protection) × List SegReg)
  | .jump target => (s.jump hasX64 mode target).map (·, [])
  | .transfer dx ax bumps => do
    let s ← s.pointTo mode dx ax
    let r ← s.transfer mode bumps
    let t ← r.1.mainLoop mode
    return ((mode, t), r.2)
  | .exec dx ax => do
    let r ← s.exec mode dx ax
    let t ← r.1.mainLoop mode
    return ((mode, t), r.2)
  | .other => (s.mainLoop mode).map fun t => ((mode, t), [])

/-- Commands one after another, each with the part that ran it and what it used. -/
def Protection.runAll (hasX64 : Bool) : List PartCommand → Mode × Protection →
    Option (List (Mode × PartCommand × List SegReg) × Mode × Protection)
  | [], s => some ([], s)
  | c :: cs, s => do
    let r ← c.run hasX64 s.1 s.2
    let rest ← Protection.runAll hasX64 cs r.1
    return ((s.1, c, r.2) :: rest.1, rest.2)

/-! ## What the parts rely on -/

/-- The last byte a part has addresses for in a segment. -/
def Mode.reach : Mode → BitVec 32
  | .i386x32 => 0xFFFFFFFF
  | .x64 => 0xFFFFFFFF
  | _ => 0xFFFF

/-- The processor at the main loop of a part: code of the part's size, everything from address 0 on,
nothing that can come in between, and the table for interrupts in real mode. -/
structure Protection.Fits (mode : Mode) (s : Protection) : Prop where
  pe : s.pe = decide (mode ≠ .i8086)
  ia32e : s.ia32e = decide (mode = .x64)
  cs : s.cs.base = 0 ∧ mode.reach ≤ s.cs.last
  big : s.cs.big = decide (mode = .i386x32)
  long : s.cs.long = decide (mode = .x64)
  ds : s.ds.base = 0 ∧ mode.reach ≤ s.ds.last
  es : s.es.base = 0 ∧ mode.reach ≤ s.es.last
  ss : mode.reach ≤ s.ss.last ∧ s.ss.big = decide (mode = .i386x32 ∨ mode = .x64)
  interrupts : s.interrupts = false
  idtr : s.idtr = Protection.realIdtr

/-- The processor as stage 2 finds it: in real mode, in a segment at address 0 and with segments of
64 KB at least.  `_idtr_realmode` is in the image. -/
structure Protection.Boots (s : Protection) : Prop extends s.Fits .i8086 where
  selector : s.cs.selector = 0
  idtrRealmode : s.idtrRealmode = Protection.realIdtr

/-- What a pointer is an offset from. -/
def Pointer.segmentBase : Pointer → BitVec 32
  | .real es _ => es.setWidth 32 <<< 4
  | .acc286 es _ => es.base
  | .acc386 es _ => es.base
  | .flat32 _ => 0
  | .flat64 _ => 0

/-- The pointer `Mode.address` makes of DX:AX. -/
def Mode.pointTo (mode : Mode) (dx ax : BitVec 16) : Pointer :=
  match mode with
  | .i8086 => dxAxPhysToReal dx ax
  | .i286 => .acc286 (dxAxPhysTo286seg accessSelector286 dx ax) 0
  | .i386x16 => .acc386 (dxAxPhysTo386seg accessSelector386 dx ax) 0
  | .i386x32 => .flat32 (dx ++ ax)
  | .x64 => .flat64 ((dx ++ ax).setWidth 64)

/-- The bases of a pointer that steps over so many more 64 KB. -/
def Pointer.bases : ℕ → Pointer → List (BitVec 32)
  | 0, p => [p.segmentBase]
  | n + 1, p => p.segmentBase :: (p.next true).bases n

/-- The base `Mode.entryPoint` names. -/
def Mode.entryBase (mode : Mode) (dx ax : BitVec 16) : BitVec 32 :=
  match mode with
  | .i8086 => ax.setWidth 32 <<< 4
  | .i286 => (dxAxPhysTo286seg { accessSelector286 with access := 0x9A } dx ax).base
  | .i386x16 => (dxAxPhysTo386seg { accessSelector386 with access := 0x9A } dx ax).base
  | _ => 0

/-- Memory is reached where the pointer says, whatever has been done before, and code is run in a
segment of the part's size at the base named. -/
def PartCommand.Uses (mode : Mode) : PartCommand → List SegReg → Prop
  | .transfer dx ax bumps, used =>
    used.map SegReg.base = (mode.pointTo dx ax).bases bumps ∧ ∀ r ∈ used, mode.reach ≤ r.last
  | .exec dx ax, used => ∃ cs, used = [cs] ∧ cs.base = mode.entryBase dx ax
    ∧ mode.reach ≤ cs.last ∧ cs.big = decide (mode = .i386x32) ∧ cs.long = decide (mode = .x64)
  | _, used => used = []

/-- The part a command leads to. -/
def PartCommand.part (hasX64 : Bool) (mode : Mode) : PartCommand → Mode
  | .jump target =>
    if mode = .i8086 ∨ target = .i8086 then
      (if target = .x64 ∧ ¬ hasX64 then .i8086 else target)
    else mode
  | _ => mode

end RemoteX86
