import RemoteX86.Lib.CallStack
import RemoteX86.Serial

/-!
# The code of the serial debugger

The five parts of stage 2, instruction by instruction as far as their calls, pushes, pops, jumps and
the carry flag go, from `_main_loop` to the routines that send and receive one byte.  They share
their labels; a location is a label of a part.  What an instruction does to registers, memory and
the serial line is a function of `Cpu`.

A pointer into `in_buf` or to a constant is the list of the bytes from there on, as in `Serial`.  A
test is written into the branch that follows it, and the carry flag of a shift is left out where the
next instruction sets the flag again.  The three 16-bit parts call the routines of
`stage2-8086.asm` that they share as if each had its own.
-/

namespace RemoteX86

open Hex Memory CallStack

/-! ## The machine -/

inductive Handler where
  | test
  | read
  | readb
  | write
  | writeb
  | exec
  | jump (target : Mode)
  | low
  deriving DecidableEq, Repr

inductive Label where
  | mainLoop
  | mainLoopRead
  | mainLoopReadAl
  | mainLoopProcess
  | mainLoopCommand
  | command (h : Handler)
  | addrOk (h : Handler)
  | loop (h : Handler)
  | loopEnd (h : Handler)
  | fail
  | responseOutput
  | responseOutputErr
  | strtohexGetdigit
  | numeral
  | ok
  | err
  | strtohex
  | strtohexLoop
  | strtohexEnd
  | strtohex32
  | strtohex32Loop
  | strtohex32End
  | dxAxPhysTo
  | dxAxPhysToCode
  | acc64kBump
  | strSkipWhitespace
  | skip
  | comPuthexDigit
  | comHex8Out
  | comHexOut
  | comCharIn
  | comCharOut
  | comStrOut
  | comStrOutL
  | comStrOutE
  | jumpHere
  deriving DecidableEq, Repr

/-- What a run is about: a handler recognises its command, a response begins, and
`_main_loop_command` comes back with a carry flag. -/
inductive Milestone where
  | heard (h : Handler)
  | answer
  | understood (cf : Bool)
  deriving DecidableEq, Repr

/-- Memory outside the debugger, the line, and the milestones so far. -/
structure World where
  mem : Mem 32
  input : List Byte
  out : List Byte
  log : List Milestone

/-- The registers that code started by EXEC may change.  DI is the number of bytes from there to
the end of what SI points into. -/
structure Registers where
  ax : BitVec 64
  bx : BitVec 64
  cx : BitVec 64
  dx : BitVec 64
  si : List Byte
  di : ℕ
  cf : Bool

/-- `buf` is what the reader has put into `in_buf`; `access` and `userCode` are the entries of
`_gdt_table` for ACCESS_SELECTOR and USER_CODE_SELECTOR. -/
structure Cpu extends Registers where
  es : BitVec 16
  access : Descriptor
  userCode : Descriptor
  buf : List Byte
  world : World

/-- What is pushed. -/
inductive Saved where
  | reg (x : BitVec 64)
  | si (p : List Byte)
  | di (n : ℕ)

abbrev Loc := Mode × Label

abbrev Code := List (Instr Loc Cpu Saved)

/-- Stage 2 with what the code started by EXEC leaves in the registers, or none where it does not
come back with the stack, the segment registers, the direction flag and the debugger's memory as
they were. -/
structure Image extends Stage2 where
  leaves : EntryPoint → Mem 32 → Option Registers

/-! ## Instructions -/

def al (x : BitVec 64) : Byte := x.setWidth 8

def withAl (x : BitVec 64) (b : Byte) : BitVec 64 := (x >>> 8 <<< 8) ||| b.setWidth 64

def Saved.regOr (x : BitVec 64) : Option Saved → BitVec 64
  | some (.reg y) => y
  | _ => x

section Instructions

def mov (f : Cpu → Cpu) : Instr Loc Cpu Saved := .op fun d => some (f d)

def pushAx (n : ℕ) : Instr Loc Cpu Saved := .push n fun d => .reg d.ax
def pushBx (n : ℕ) : Instr Loc Cpu Saved := .push n fun d => .reg d.bx
def pushCx (n : ℕ) : Instr Loc Cpu Saved := .push n fun d => .reg d.cx
def pushDx (n : ℕ) : Instr Loc Cpu Saved := .push n fun d => .reg d.dx
def pushSi (n : ℕ) : Instr Loc Cpu Saved := .push n fun d => .si d.si
def pushDi (n : ℕ) : Instr Loc Cpu Saved := .push n fun d => .di d.di

def popAx (n : ℕ) : Instr Loc Cpu Saved := .pop n fun d v => { d with ax := Saved.regOr d.ax v }
def popBx (n : ℕ) : Instr Loc Cpu Saved := .pop n fun d v => { d with bx := Saved.regOr d.bx v }
def popCx (n : ℕ) : Instr Loc Cpu Saved := .pop n fun d v => { d with cx := Saved.regOr d.cx v }
def popDx (n : ℕ) : Instr Loc Cpu Saved := .pop n fun d v => { d with dx := Saved.regOr d.dx v }

def popSi (n : ℕ) : Instr Loc Cpu Saved :=
  .pop n fun d v => { d with si := match v with | some (.si p) => p | _ => d.si }

def popDi (n : ℕ) : Instr Loc Cpu Saved :=
  .pop n fun d v => { d with di := match v with | some (.di p) => p | _ => d.di }

def clc : Instr Loc Cpu Saved := mov fun d => { d with cf := false }

def stc : Instr Loc Cpu Saved := mov fun d => { d with cf := true }

/-- `cmp al,c`. -/
def cmpAl (c : Byte) : Instr Loc Cpu Saved := mov fun d => { d with cf := decide (al d.ax < c) }

def lodsb : Instr Loc Cpu Saved :=
  mov fun d => { d with ax := withAl d.ax (d.si.getD 0 0), si := d.si.tail }

def movSi (p : List Byte) : Instr Loc Cpu Saved := mov fun d => { d with si := p }

def note (e : Milestone) (d : Cpu) : Cpu :=
  { d with world := { d.world with log := d.world.log ++ [e] } }

def cstr (s : String) : List Byte := ascii s ++ [0]

/-- The constant `crlf`. -/
def crlfZ : List Byte := crlf ++ [0]

/-- `mov si,ok_head` or `mov si,err_head`. -/
def movSiHead (s : String) : Instr Loc Cpu Saved :=
  mov fun d => note .answer { d with si := cstr s }

/-- A comparison of bytes at SI, low byte first, and the jump to `.fail`. -/
def cmpSi (mode : Mode) (off : ℕ) (c : List Byte) : Code :=
  [mov fun d => { d with
     cf := decide (Nat.ofDigits 256 (((d.si.drop off).take c.length).map BitVec.toNat)
       < Nat.ofDigits 256 (c.map BitVec.toNat)) },
   .branch (fun d => !c.isPrefixOf (d.si.drop off)) (mode, .fail)]

/-- The comparisons at the head of a handler. -/
def cmpWord (mode : Mode) : ℕ → List (List Byte) → Code
  | _, [] => []
  | off, c :: cs => cmpSi mode off c ++ cmpWord mode (off + c.length) cs

end Instructions

/-! ## Registers of a part -/

namespace Mode

variable (mode : Mode)

/-- The length of a near address, and of a register that is pushed whole. -/
def bytes : ℕ := mode.bits / 8

/-- The 386-32 part pushes some 16-bit registers. -/
def half : ℕ :=
  match mode with
  | .x64 => 8
  | _ => 2

def sixteen : Bool :=
  match mode with
  | .i8086 => true
  | .i286 => true
  | .i386x16 => true
  | .i386x32 => false
  | .x64 => false

/-- A value in a register of the part. -/
def reg (x : BitVec 64) : BitVec mode.bits := x.setWidth mode.bits

/-- ES:BX, EBX or RBX. -/
def pointer (d : Cpu) : Pointer :=
  match mode with
  | .i8086 => .real d.es (d.bx.setWidth 16)
  | .i286 => .acc286 d.access (d.bx.setWidth 16)
  | .i386x16 => .acc386 d.access (d.bx.setWidth 16)
  | .i386x32 => .flat32 (d.bx.setWidth 32)
  | .x64 => .flat64 d.bx

def incBx : Instr Loc Cpu Saved := mov fun d => { d with bx := (mode.reg d.bx + 1).setWidth 64 }

def decCx : Instr Loc Cpu Saved := mov fun d => { d with cx := (mode.reg d.cx - 1).setWidth 64 }

def shlAx4 : Instr Loc Cpu Saved :=
  mov fun d => { d with
    ax := (mode.reg d.ax <<< 4).setWidth 64, cf := (mode.reg d.ax).getLsbD (mode.bits - 4) }

def rolAx4 : Instr Loc Cpu Saved :=
  mov fun d => { d with
    ax := ((mode.reg d.ax).rotateLeft 4).setWidth 64
    cf := ((mode.reg d.ax).rotateLeft 4).getLsbD 0 }

/-- `mov al,[es:bx]`. -/
def loadAl : Instr Loc Cpu Saved :=
  .op fun d => (mode.pointer d).phys.map fun a => { d with ax := withAl d.ax (d.world.mem a) }

/-- `mov [es:bx],al`. -/
def storeAl : Instr Loc Cpu Saved :=
  .op fun d => (mode.pointer d).phys.map fun a =>
    { d with world := { d.world with mem := Function.update d.world.mem a (al d.ax) } }

end Mode

/-- `rol al,4`. -/
def rolAl4 : Instr Loc Cpu Saved :=
  mov fun d => { d with
    ax := withAl d.ax ((al d.ax).rotateLeft 4), cf := ((al d.ax).rotateLeft 4).getLsbD 0 }

/-- `or al,bl`. -/
def orAlBl : Instr Loc Cpu Saved :=
  mov fun d => { d with ax := d.ax ||| (al d.bx).setWidth 64, cf := false }

/-- `mov bl,al`. -/
def movBlAl : Instr Loc Cpu Saved := mov fun d => { d with bx := withAl d.bx (al d.ax) }

/-- `or cx,cx`, which only tests. -/
def orCx : Instr Loc Cpu Saved := mov fun d => { d with cf := false }

def xorAx : Instr Loc Cpu Saved := mov fun d => { d with ax := 0, cf := false }

def movBxAx : Instr Loc Cpu Saved := mov fun d => { d with bx := d.ax }

/-- `mov cl,4`. -/
def movCl (n : Byte) : Instr Loc Cpu Saved := mov fun d => { d with cx := withAl d.cx n }

/-! ## Commands -/

namespace Handler

/-- What a line has to begin with. -/
def word : Handler → List Byte
  | test => ascii "TEST" ++ [0]
  | read => ascii "READ "
  | readb => ascii "READB "
  | write => ascii "WRITE "
  | writeb => ascii "WRITEB "
  | exec => ascii "EXEC "
  | jump .x64 => ascii "x64" ++ [0]
  | jump .i386x32 => ascii "386-32" ++ [0]
  | jump .i386x16 => ascii "386-16" ++ [0]
  | jump .i286 => ascii "286" ++ [0]
  | jump .i8086 => ascii "8086" ++ [0]
  | low => ascii "LOW" ++ [0]

/-- The operands of the comparisons in the 16-bit parts. -/
def chunks16 : Handler → List (List Byte)
  | test => [ascii "TE", ascii "ST", [0]]
  | read => [ascii "RE", ascii "AD", ascii " "]
  | readb => [ascii "RE", ascii "AD", ascii "B "]
  | write => [ascii "WR", ascii "IT", ascii "E "]
  | writeb => [ascii "WR", ascii "IT", ascii "EB", ascii " "]
  | exec => [ascii "EX", ascii "EC", ascii " "]
  | jump .x64 => [ascii "x6", ascii "4", [0]]
  | jump .i386x32 => [ascii "38", ascii "6-", ascii "32", [0]]
  | jump .i386x16 => [ascii "38", ascii "6-", ascii "16", [0]]
  | jump .i286 => [ascii "28", ascii "6", [0]]
  | jump .i8086 => [ascii "80", ascii "86", [0]]
  | low => [ascii "LO", ascii "W", [0]]

/-- The same in the 386-32 and the x64 part, which have no jumps but that to the 8086 part. -/
def chunks32 : Handler → List (List Byte)
  | test => [ascii "TEST", [0]]
  | read => [ascii "READ", ascii " "]
  | readb => [ascii "READ", ascii "B "]
  | write => [ascii "WRIT", ascii "E "]
  | writeb => [ascii "WRIT", ascii "EB", ascii " "]
  | exec => [ascii "EXEC", ascii " "]
  | jump .i8086 => [ascii "8086", [0]]
  | jump target => [(jump target).word]
  | low => [ascii "LO", ascii "W", [0]]

def chunks (mode : Mode) (h : Handler) : List (List Byte) :=
  if mode.sixteen then h.chunks16 else h.chunks32

end Handler

/-- The handlers in the order in which `_main_loop_command` calls them. -/
def Mode.handlers : Mode → List Handler
  | .i8086 =>
    [.test, .read, .readb, .write, .writeb, .exec, .jump .x64, .jump .i386x32, .jump .i386x16,
      .jump .i286, .jump .i8086, .low]
  | _ => [.test, .read, .readb, .write, .writeb, .exec, .jump .i8086, .low]

/-! ## The listing -/

namespace Image

variable (img : Image) (mode : Mode)

def port : BitVec 16 := comports img.comport

def near (l : Label) : Instr Loc Cpu Saved := .call mode.bytes (mode, l)

def jmp (l : Label) : Instr Loc Cpu Saved := .jump (mode, l)

def jcc (c : Cpu → Bool) (l : Label) : Instr Loc Cpu Saved := .branch c (mode, l)

def return_ : Instr Loc Cpu Saved := .ret mode.bytes

/-- `dx_ax_phys_to_real`, `_286seg` and `_386seg`. -/
def physTo : Code :=
  match mode with
  | .i8086 =>
    [movCl 12, mov fun d => { d with dx := (d.dx.setWidth 16 <<< 12).setWidth 64 },
     pushAx 2, movCl 4, mov fun d => { d with ax := (d.ax.setWidth 16 >>> 4).setWidth 64 },
     mov fun d => { d with dx := d.dx ||| d.ax, cf := false },
     popAx 2, mov fun d => { d with ax := d.ax &&& 0xF, cf := false }, .ret 2]
  | .i286 =>
    [pushDi 2, mov fun d => { d with
       access := dxAxPhysTo286seg accessSelector286 (d.dx.setWidth 16) (d.ax.setWidth 16) },
     popDi 2, mov fun d => { d with dx := 0x18 }, xorAx, .ret 2]
  | .i386x16 =>
    [pushDi 2, mov fun d => { d with
       access := dxAxPhysTo386seg accessSelector386 (d.dx.setWidth 16) (d.ax.setWidth 16) },
     popDi 2, mov fun d => { d with dx := 0x18 }, xorAx, .ret 2]
  -- the other two have no segments
  | _ => [return_ mode]

/-- `dx_ax_phys_to_286seg_code` and `_386seg_code`. -/
def physToCode : Code :=
  match mode with
  | .i286 =>
    [pushDi 2, mov fun d => { d with
       userCode := dxAxPhysTo286seg { accessSelector286 with access := 0x9A }
         (d.dx.setWidth 16) (d.ax.setWidth 16) },
     popDi 2, mov fun d => { d with dx := 0x20 }, xorAx, .ret 2]
  | .i386x16 =>
    [pushDi 2, mov fun d => { d with
       userCode := dxAxPhysTo386seg { accessSelector386 with access := 0x9A }
         (d.dx.setWidth 16) (d.ax.setWidth 16) },
     popDi 2, mov fun d => { d with dx := 0x20 }, xorAx, .ret 2]
  | _ => [return_ mode]

/-- `acc286_64k_bump` and `acc386_64k_bump`. -/
def bump : Code :=
  match mode with
  | .i286 =>
    [pushDi 2, pushAx 2, mov fun d => { d with access := acc286_64kBump d.access },
     mov fun d => { d with ax := 0x18, es := 0x18 }, popAx 2, popDi 2, .ret 2]
  | .i386x16 =>
    [pushDi 2, pushAx 2, mov fun d => { d with access := acc386_64kBump d.access },
     mov fun d => { d with ax := 0x18, es := 0x18 }, popAx 2, popDi 2, .ret 2]
  | _ => [return_ mode]

/-- The step over the byte at the pointer, to the head of the loop. -/
def stepPointer (h : Handler) : Code :=
  match mode with
  | .i8086 =>
    [mode.incBx, jcc mode (fun d => !d.cf) (.loop h),
     mov fun d => { d with ax := d.es.setWidth 64 },
     mov fun d => { d with
       ax := (d.ax.setWidth 16 + 0x1000#16).setWidth 64
       cf := decide (2 ^ 16 ≤ (d.ax.setWidth 16).toNat + 0x1000) },
     mov fun d => { d with es := d.ax.setWidth 16 }, jmp mode (.loop h)]
  | .i286 => [mode.incBx, jcc mode (fun d => !d.cf) (.loop h), near mode .acc64kBump,
     jmp mode (.loop h)]
  | .i386x16 => [mode.incBx, jcc mode (fun d => !d.cf) (.loop h), near mode .acc64kBump,
     jmp mode (.loop h)]
  | _ => [mode.incBx, jmp mode (.loop h)]

/-- The same in WRITEB, where the flat parts leave the loop on a carry. -/
def stepPointerWriteb : Code :=
  if mode.sixteen then stepPointer mode .writeb
  else [mode.incBx, jcc mode (fun d => !d.cf) (.loop .writeb), jmp mode (.loopEnd .writeb)]

/-- From the head of READ, READB, WRITE and WRITEB to `.addrok`. -/
def parseAddress (h : Handler) : Code :=
  [mov fun d => { d with si := d.si.drop h.word.length, cf := false }, popAx mode.bytes] ++
    match mode with
    | .i8086 =>
      [near mode .strtohex32, mov fun d => { d with cf := decide (d.dx.setWidth 16 < 0x10#16) },
       jcc mode (·.cf) (.addrOk h), movSi (cstr "Invalid address"), jmp mode .responseOutputErr]
    | .i286 =>
      [near mode .strtohex32, mov fun d => { d with cf := decide (d.dx.setWidth 16 < 0x100#16) },
       jcc mode (·.cf) (.addrOk h), movSi (cstr "Invalid address"), jmp mode .responseOutputErr]
    -- no check in the other parts
    | .i386x16 => [near mode .strtohex32, jmp mode (.addrOk h)]
    | .i386x32 => [near mode .strtohex, jmp mode (.addrOk h)]
    | .x64 => [near mode .strtohex, jmp mode (.addrOk h)]

/-- The address in DX:AX, EAX or RAX as a pointer. -/
def setPointer : Code :=
  if mode.sixteen then
    [near mode .strSkipWhitespace, near mode .dxAxPhysTo,
     mov fun d => { d with es := d.dx.setWidth 16 }, movBxAx]
  else [near mode .strSkipWhitespace, movBxAx]

/-- The count, in CX. -/
def setCount : Code := [near mode .strtohex, mov fun d => { d with cx := d.ax }]

def addrOk : Handler → Code
  | .read => setPointer mode ++ setCount mode ++
    [movSiHead "OK ", near mode .comStrOut, jmp mode (.loop .read)]
  | .readb => setPointer mode ++ setCount mode ++
    [movSiHead "OK ", near mode .comStrOut, jmp mode (.loop .readb)]
  | .write => setPointer mode ++ [jmp mode (.loop .write)]
  | .writeb => setPointer mode ++ setCount mode ++ [jmp mode (.loop .writeb)]
  | _ => []

def loop : Handler → Code
  | .read =>
    [orCx, jcc mode (fun d => mode.reg d.cx == 0) (.loopEnd .read), mode.decCx, mode.loadAl,
     near mode .comHex8Out, mov fun d => { d with ax := withAl d.ax 0x20#8 },
     near mode .comCharOut] ++ stepPointer mode .read
  | .readb =>
    [orCx, jcc mode (fun d => mode.reg d.cx == 0) (.loopEnd .readb), mode.decCx, mode.loadAl,
     near mode .comCharOut] ++ stepPointer mode .readb
  | .write =>
    [near mode .strSkipWhitespace, mov fun d => { d with cf := decide (d.di < d.si.length) },
     jcc mode (fun d => decide (d.si.length ≤ d.di)) (.loopEnd .write), near mode .strtohex,
     near mode .strSkipWhitespace, mode.storeAl] ++ stepPointer mode .write
  | .writeb =>
    [orCx, jcc mode (fun d => mode.reg d.cx == 0) (.loopEnd .writeb), mode.decCx,
     near mode .comCharIn, mode.storeAl] ++ stepPointerWriteb mode
  | _ => []

def loopEnd : Handler → Code
  | .read => [movSi crlfZ, near mode .comStrOut, clc, return_ mode]
  | .readb => [movSi crlfZ, near mode .comStrOut, clc, return_ mode]
  | .write => [movSi (cstr "Accepted"), jmp mode .responseOutput]
  | .writeb => [movSi (cstr "Accepted"), jmp mode .responseOutput]
  | _ => []

/-- Where EXEC goes. -/
def entry (d : Cpu) : EntryPoint :=
  match mode with
  | .i8086 => .segOff d.es (d.bx.setWidth 16)
  | .i286 => .baseOff d.userCode.base (d.bx.setWidth 16)
  | .i386x16 => .baseOff d.userCode.base (d.bx.setWidth 16)
  | .i386x32 => .near ((d.bx.setWidth 32).setWidth 64)
  | .x64 => .near d.bx

/-- The call of EXEC. -/
def runCode (d : Cpu) : Option Cpu :=
  (img.leaves (entry mode d) d.world.mem).map fun r =>
    { d with
      toRegisters := r
      world := { d.world with mem := img.code (entry mode d) d.world.mem } }

/-- The 286 part tells the BIOS at 40:67 where to go on. -/
def resetVector (d : Cpu) : Cpu :=
  let vector := [img.realmode286.setWidth 8, (img.realmode286 >>> 8).setWidth 8, 0#8, 0#8]
  { d with world := { d.world with
      mem := if mode = .i286 then write d.world.mem 0x467 vector else d.world.mem } }

/-- What LOW prints. -/
def lowValue : BitVec 64 :=
  match mode with
  | .i386x32 => img.lastByte.setWidth 64
  | .x64 => finalLow
  | _ => (img.lastByte.setWidth 16).setWidth 64

/-- The operands of EXEC. -/
def parseEntry : Code :=
  match mode with
  | .i8086 =>
    [near mode .strtohex, mov fun d => { d with es := d.ax.setWidth 16 },
     near mode .strSkipWhitespace, near mode .strtohex, movBxAx]
  | .i286 =>
    [near mode .strtohex32, near mode .dxAxPhysToCode,
     mov fun d => { d with es := d.dx.setWidth 16 }, near mode .strSkipWhitespace,
     near mode .strtohex, movBxAx]
  | .i386x16 =>
    [near mode .strtohex32, near mode .dxAxPhysToCode,
     mov fun d => { d with es := d.dx.setWidth 16 }, near mode .strSkipWhitespace,
     near mode .strtohex, movBxAx]
  | .i386x32 => [near mode .strtohex, movBxAx]
  | .x64 => [near mode .strtohex, movBxAx]

/-- A handler behind its comparisons. -/
def accepted : Handler → Code
  | .test => [popAx mode.bytes, movSi (cstr "Test successful"), jmp mode .responseOutput]
  | .read => parseAddress mode .read
  | .readb => parseAddress mode .readb
  | .write => parseAddress mode .write
  | .writeb => parseAddress mode .writeb
  | .exec =>
    [mov fun d => { d with si := d.si.drop 5, cf := false }, popAx mode.bytes] ++
      parseEntry mode ++
      [.op (img.runCode mode), movSi (cstr "Function complete"), jmp mode .responseOutput]
  | .jump target =>
    [mov fun d => if target = .i8086 then img.resetVector mode d else d,
     -- the stub for the x64 part goes to the 8086 part
     .jump (if target = .x64 ∧ img.hasX64 = false then .i8086 else target, .jumpHere)]
  | .low =>
    [popAx mode.bytes, movSiHead "OK ", near mode .comStrOut,
     mov fun d => { d with ax := img.lowValue mode }, near mode .comHexOut, movSi crlfZ,
     near mode .comStrOut, return_ mode]

def command (h : Handler) : Code :=
  cmpWord mode 0 (h.chunks mode) ++ mov (note (.heard h)) :: img.accepted mode h

/-- `.loop` of `com_hex_out`, written out in the source. -/
def hexDigits : ℕ → Code
  | 0 => []
  | n + 1 => mode.rolAx4 :: near mode .comPuthexDigit :: hexDigits n

/-- What `_jmp_8086` and the others say. -/
def greeting : Mode → String
  | .i8086 => "8086"
  | .i286 => "286"
  | .i386x16 => "386-16"
  | .i386x32 => "386-32"
  | .x64 => "x64"

/-- The routines of a part. -/
def routine : Label → Code
  | .mainLoop =>
    (match mode with
    | .i8086 => [.push 2 fun _ => .reg 0, .pop 2 fun d v => { d with
        es := (Saved.regOr 0 v).setWidth 16 }]
    | .x64 => []
    | _ => [mov fun d => { d with ax := 0x10, es := 0x10 }]) ++
      [mov fun d => { d with buf := [], cf := false }, jmp mode .mainLoopRead]
  | .mainLoopRead =>
    [near mode .comCharIn, cmpAl 0x0A#8, jcc mode (fun d => al d.ax == 0x0A#8) .mainLoopProcess,
     cmpAl 0x0D#8, jcc mode (fun d => al d.ax == 0x0D#8) .mainLoopProcess,
     cmpAl 0x1B#8, jcc mode (fun d => al d.ax != 0x1B#8) .mainLoopReadAl,
     near mode .comCharIn, jmp mode .mainLoopReadAl]
  | .mainLoopReadAl =>
    [mov fun d => { d with cf := decide (d.buf.length < 256 - 1) },
     jcc mode (fun d => !d.cf) .mainLoopRead,
     mov fun d => { d with buf := d.buf ++ [al d.ax] }, jmp mode .mainLoopRead]
  | .mainLoopProcess =>
    [mov fun d => { d with
       si := img.inBuf d.buf, di := (img.inBuf d.buf).length - d.buf.length },
     pushDi mode.bytes, mov fun d => { d with ax := withAl d.ax 0, cf := false },
     -- `_main_loop_process_clr`
     mov fun d => { d with di := (img.inBuf d.buf).length - 256, cf := false }, popDi mode.bytes,
     mov fun d => { d with cf := decide (d.di < d.si.length) },
     jcc mode (fun d => d.si.length == d.di) .mainLoop,
     near mode .mainLoopCommand, mov fun d => note (.understood d.cf) d,
     jcc mode (fun d => !d.cf) .mainLoop,
     movSiHead "ERR ", near mode .comStrOut, movSi (ascii "Unknown command" ++ crlfZ),
     near mode .comStrOut, jmp mode .mainLoop]
  | .mainLoopCommand =>
    mode.handlers.map (fun h => near mode (.command h)) ++ [stc, return_ mode]
  | .command h => command img mode h
  | .addrOk h => addrOk mode h
  | .loop h => loop mode h
  | .loopEnd h => loopEnd mode h
  | .fail => [return_ mode]
  | .responseOutput => response "OK "
  | .responseOutputErr => response "ERR "
  | .strtohexGetdigit =>
    [pushAx mode.bytes, lodsb, cmpAl 0x30#8, jcc mode (·.cf) .err,
     mov fun d => { d with cf := decide (al d.ax < 0x39#8) },
     jcc mode (fun d => decide (al d.ax ≤ 0x39#8)) .numeral,
     mov fun d => { d with ax := withAl d.ax (al d.ax ||| 0x20#8), cf := false },
     cmpAl 0x61#8, jcc mode (·.cf) .err, cmpAl 0x66#8,
     jcc mode (fun d => decide (0x66#8 < al d.ax)) .err,
     mov fun d => { d with ax := withAl d.ax (al d.ax - 87#8), cf := decide (al d.ax < 87#8) },
     jmp mode .ok]
  | .numeral => [mov fun d => { d with
     ax := withAl d.ax (al d.ax - 0x30#8), cf := decide (al d.ax < 0x30#8) },
     jmp mode .ok]
  | .ok => [clc, movBlAl, popAx mode.bytes, return_ mode]
  | .err => [stc, popAx mode.bytes, return_ mode]
  | .strtohex =>
    (if mode.sixteen then [pushBx 2, pushCx 2] else [pushBx mode.bytes]) ++
      [xorAx, jmp mode .strtohexLoop]
  | .strtohexLoop =>
    [near mode .strtohexGetdigit, jcc mode (·.cf) .strtohexEnd] ++
      (if mode.sixteen then [movCl 4] else []) ++ [mode.shlAx4, orAlBl, jmp mode .strtohexLoop]
  | .strtohexEnd =>
    (if mode.sixteen then [popCx 2, popBx 2] else [popBx mode.bytes]) ++ [return_ mode]
  | .strtohex32 =>
    [pushBx 2, pushCx 2, xorAx, mov fun d => { d with dx := d.ax }, jmp mode .strtohex32Loop]
  | .strtohex32Loop =>
    [near mode .strtohexGetdigit, jcc mode (·.cf) .strtohex32End,
     pushBx 2, movCl 12, movBxAx,
     mov fun d => { d with bx := (d.bx.setWidth 16 >>> 12).setWidth 64 },
     movCl 4, mov fun d => { d with dx := (d.dx.setWidth 16 <<< 4).setWidth 64 },
     mov fun d => { d with dx := d.dx ||| (al d.bx).setWidth 64, cf := false }, popBx 2,
     mode.shlAx4, orAlBl, jmp mode .strtohex32Loop]
  | .strtohex32End => [popCx 2, popBx 2, return_ mode]
  | .dxAxPhysTo => physTo mode
  | .dxAxPhysToCode => physToCode mode
  | .acc64kBump => bump mode
  | .strSkipWhitespace =>
    [mov fun d => { d with cf := decide (d.si.getD 0 0 < 0x20#8) },
     jcc mode (fun d => d.si.getD 0 0 == 0x20#8) .skip, return_ mode]
  | .skip => [mov fun d => { d with si := d.si.tail }, jmp mode .strSkipWhitespace]
  | .comPuthexDigit =>
    [pushAx mode.half, pushBx mode.half, mov fun d => { d with ax := d.ax &&& 0xF, cf := false },
     movBxAx, mov fun d => { d with ax := withAl d.ax (hexdigits.getD d.bx.toNat 0) },
     near mode .comCharOut, popBx mode.half, popAx mode.half, return_ mode]
  | .comHex8Out =>
    [pushAx mode.half] ++ (if mode.sixteen then [pushCx 2, movCl 4] else []) ++
      [rolAl4, near mode .comPuthexDigit, rolAl4, near mode .comPuthexDigit] ++
      (if mode.sixteen then [popCx 2] else []) ++ [popAx mode.half, return_ mode]
  | .comHexOut =>
    [pushAx mode.bytes] ++ (if mode.sixteen then [pushCx 2, movCl 4] else []) ++
      hexDigits mode (mode.bits / 4) ++
      (if mode.sixteen then [popCx 2] else []) ++ [popAx mode.bytes, return_ mode]
  | .comCharIn =>
    [pushDx mode.half, mov fun d => { d with dx := img.port.setWidth 64 },
     mov fun d => { d with
       dx := (d.dx.setWidth 16 + 5#16).setWidth 64
       cf := decide (2 ^ 16 ≤ (d.dx.setWidth 16).toNat + 5) },
     -- until the line status says that there is a byte
     .op fun d => if d.world.input = [] then none
       else some { d with ax := withAl d.ax 1, cf := false },
     mov fun d => { d with
       dx := (d.dx.setWidth 16 - 5#16).setWidth 64, cf := decide (d.dx.setWidth 16 < 5#16) },
     .op fun d => match d.world.input with
       | [] => none
       | b :: input => some { d with
          ax := withAl d.ax b, world := { d.world with input := input } },
     popDx mode.half, return_ mode]
  | .comCharOut =>
    [pushDx mode.bytes, pushAx mode.bytes, pushCx mode.bytes,
     mov fun d => { d with dx := img.port.setWidth 64 },
     mov fun d => { d with
       dx := (d.dx.setWidth 16 + 5#16).setWidth 64
       cf := decide (2 ^ 16 ≤ (d.dx.setWidth 16).toNat + 5) },
     mov fun d => { d with cx := 0, cf := false },
     -- until the line status says that the transmitter is empty
     mov fun d => { d with ax := withAl d.ax 0x60 }, mov fun d => { d with cf := comCharOutCarry },
     mov fun d => { d with dx := img.port.setWidth 64 }, popCx mode.bytes, popAx mode.bytes,
     mov fun d => { d with world := { d.world with out := d.world.out ++ [al d.ax] } },
     popDx mode.bytes, return_ mode]
  | .comStrOut => [pushSi mode.bytes, pushAx mode.bytes, jmp mode .comStrOutL]
  | .comStrOutL =>
    [lodsb, mov fun d => { d with cf := false }, jcc mode (fun d => al d.ax == 0) .comStrOutE,
     near mode .comCharOut, jmp mode .comStrOutL]
  | .comStrOutE => [popAx mode.bytes, popSi mode.bytes, return_ mode]
  | .jumpHere =>
    [.reset, movSiHead "OK ", near mode .comStrOut, movSi (cstr (greeting mode)),
     near mode .comStrOut, movSi crlfZ, near mode .comStrOut, jmp mode .mainLoop]
where
  /-- `_main_loop_command_response_output` and `_err`. -/
  response (head : String) : Code :=
    [pushSi mode.bytes, movSiHead head, near mode .comStrOut, popSi mode.bytes,
     near mode .comStrOut, movSi crlfZ, near mode .comStrOut, clc, return_ mode]

/-- The code at a location. -/
def listing (l : Loc) : Code := img.routine l.1 l.2

end Image

end RemoteX86
