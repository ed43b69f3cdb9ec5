import RemoteX86.Pointer
import Mathlib.Data.Fin.VecNotation

/-!
# The serial debugger

Stage 2 as a machine that is fed one byte of the serial line at a time: `_main_loop` with its line
buffer, the commands, and the loop of WRITEB that takes its data from the line.  The five parts are
the same code but for their registers and pointers, so they are one definition over `Mode`; where
one part does something of its own the definition says so.

A pointer into `in_buf` is the list of the bytes from there on.  `mem` is memory outside the
debugger: its image with `in_buf` and `_gdt_table`, its stack and its page tables are no part of it.
-/

namespace RemoteX86

open Hex Memory

/-! ## Parsers -/

def strtohexGetdigit (al : Byte) : Option ℕ :=
  if al < 0x30#8 then none
  else if al ≤ 0x39#8 then some (al.toNat - 0x30)
  else
    let al := al ||| 0x20#8
    if al < 0x61#8 then none
    else if 0x66#8 < al then none
    else some (al.toNat - 0x61 + 10)

-- `lodsb` has stepped over the character that is no digit, so the scan goes on behind it
def strtohexLoop {w : ℕ} (ax : BitVec w) : List Byte → BitVec w × List Byte
  | [] => (ax, [])
  | al :: si =>
    match strtohexGetdigit al with
    | some bl => strtohexLoop ((ax <<< 4) ||| BitVec.ofNat w bl) si
    | none => (ax, si)

def strtohex {w : ℕ} (si : List Byte) : BitVec w × List Byte := strtohexLoop 0#w si

def strtohex32Loop (dx ax : BitVec 16) : List Byte → (BitVec 16 × BitVec 16) × List Byte
  | [] => ((dx, ax), [])
  | al :: si =>
    match strtohexGetdigit al with
    | some bl =>
      strtohex32Loop ((dx <<< 4) ||| (ax >>> 12)) ((ax <<< 4) ||| BitVec.ofNat 16 bl) si
    | none => ((dx, ax), si)

/-- The value in DX:AX. -/
def strtohex32 (si : List Byte) : (BitVec 16 × BitVec 16) × List Byte := strtohex32Loop 0 0 si

def strSkipWhitespace (si : List Byte) : List Byte := si.dropWhile (· == 0x20#8)

/-! ## The machine -/

/-- Where EXEC goes: a far call in real mode, a far call through a code segment with the given base,
a near call. -/
inductive EntryPoint where
  | segOff (seg off : BitVec 16)
  | baseOff (base : BitVec 32) (off : BitVec 16)
  | near (addr : BitVec 64)
  deriving DecidableEq, Repr

/-- The linked image and the machine it runs on: whether it holds the x64 part or its stub, the two
addresses the linker fills in, the port chosen at the start, the bytes behind `in_buf`, and what
code started by EXEC does to memory before it returns. -/
structure Stage2 where
  hasX64 : Bool
  lastByte : BitVec 32
  realmode286 : BitVec 16
  comport : Fin 4
  behind : List Byte
  code : EntryPoint → Mem 32 → Mem 32

/-- What the next byte of the line is for. -/
inductive Control where
  | line (buf : List Byte)
  | escape (buf : List Byte)
  | payload (ptr : Pointer) (left : ℕ)
  /-- An access to a page that is not present: no IDT is set up, so the machine resets. -/
  | fault
  deriving DecidableEq, Repr

structure Serial where
  mode : Mode
  mem : Mem 32
  ctl : Control
  out : List Byte

/-- A linked image with the x64 part, on the first port. -/
def stage2 : Stage2 where
  hasX64 := true
  lastByte := 0xC000
  realmode286 := 0x9000
  comport := 0
  behind := []
  code := fun _ mem => mem

/-- The machine when stage 2 has just started, with nothing in its memory. -/
def Serial.start : Serial where
  mode := .i8086
  mem := fun _ => 0
  ctl := .line []
  out := []

def comports : Fin 4 → BitVec 16 := ![0x3F8, 0x2F8, 0x3E8, 0x2E8]

/-- The carry flag `com_char_in` leaves: that of its `sub dx,5`. -/
def comCharInCarry (comport : BitVec 16) : Bool := decide (comport + 5 < 5)

/-- The carry flag `com_char_out` leaves: its `test` clears it. -/
def comCharOutCarry : Bool := false

def hexdigits : List Byte := ascii "0123456789ABCDEF"

/-- The first `n` digits of a register, which `rol` brings round one after another. -/
def comHexOut {w : ℕ} (ax : BitVec w) : ℕ → List Byte
  | 0 => []
  | n + 1 => hexdigits.getD (ax.rotateLeft 4 &&& 0xF).toNat 0 :: comHexOut (ax.rotateLeft 4) n

def comHex8Out (al : Byte) : List Byte := comHexOut al 2

def crlf : List Byte := [0x0D#8, 0x0A#8]

/-! ## Commands -/

namespace Serial

def responseOutput (s : Serial) (msg : List Byte) : Serial :=
  { s with ctl := .line [], out := s.out ++ (ascii "OK " ++ msg ++ crlf) }

def responseOutputErr (s : Serial) (msg : List Byte) : Serial :=
  { s with ctl := .line [], out := s.out ++ (ascii "ERR " ++ msg ++ crlf) }

end Serial

/-- The address of READ, READB, WRITE and WRITEB as a pointer, or none if it is refused, and what
is left of the line. -/
def Mode.address : Mode → List Byte → Option Pointer × List Byte
  | .i8086, si =>
    let r := strtohex32 si
    (if r.1.1 < 0x10 then some (dxAxPhysToReal r.1.1 r.1.2) else none, r.2)
  | .i286, si =>
    let r := strtohex32 si
    (if r.1.1 < 0x100 then some (.acc286 (dxAxPhysTo286seg accessSelector286 r.1.1 r.1.2) 0)
      else none, r.2)
  | .i386x16, si =>
    let r := strtohex32 si
    (some (.acc386 (dxAxPhysTo386seg accessSelector386 r.1.1 r.1.2) 0), r.2)
  | .i386x32, si =>
    let r := strtohex (w := 32) si
    (some (.flat32 r.1), r.2)
  | .x64, si =>
    let r := strtohex (w := 64) si
    (some (.flat64 r.1), r.2)

/-- The byte count behind the address: CX, ECX or RCX. -/
def Mode.count (mode : Mode) (si : List Byte) : ℕ :=
  (strtohex (w := mode.bits) (strSkipWhitespace si)).1.toNat

/-- The loop of READ and READB: what it sends, and whether it came to its end. -/
def readLoop (send : Byte → List Byte) (mem : Mem 32) : ℕ → Pointer → List Byte × Bool
  | 0, _ => ([], true)
  | cx + 1, ptr =>
    match ptr.phys with
    | none => ([], false)
    | some a =>
      let r := readLoop send mem cx (ptr.next comCharOutCarry)
      (send (mem a) ++ r.1, r.2)

namespace Serial

def readCommand (send : Byte → List Byte) (s : Serial) (si : List Byte) : Serial :=
  match s.mode.address si with
  | (none, _) => s.responseOutputErr (ascii "Invalid address")
  | (some ptr, si) =>
    let r := readLoop send s.mem (s.mode.count si) ptr
    if r.2 then s.responseOutput r.1
    else { s with ctl := .fault, out := s.out ++ (ascii "OK " ++ r.1) }

def commandRead : Serial → List Byte → Serial := readCommand fun al => comHex8Out al ++ [0x20#8]

def commandReadb : Serial → List Byte → Serial := readCommand fun al => [al]

end Serial

/-- The loop of WRITE; `di` counts the bytes from the end of the line on.  The flag the step goes by
is left by `str_skip_whitespace`, whose last comparison finds a character below the space. -/
def writeLoop (mode : Mode) (di : ℕ) : ℕ → Pointer → List Byte → Mem 32 → Mem 32 × Bool
  | 0, _, _, mem => (mem, true)
  | fuel + 1, ptr, si, mem =>
    let si := strSkipWhitespace si
    if si.length ≤ di then (mem, true)
    else
      let r := strtohex (w := mode.bits) si
      let si := strSkipWhitespace r.2
      match ptr.phys with
      | none => (mem, false)
      | some a =>
        writeLoop mode di fuel (ptr.next (decide (si.getD 0 0 < 0x20#8))) si
          (Function.update mem a (r.1.setWidth 8))

namespace Serial

def commandWrite (s : Serial) (si : List Byte) (di : ℕ) : Serial :=
  match s.mode.address si with
  | (none, _) => s.responseOutputErr (ascii "Invalid address")
  | (some ptr, si) =>
    -- every turn takes at least one byte, so the length of the line is fuel enough
    let r := writeLoop s.mode di si.length ptr si s.mem
    if r.2 then { s with mem := r.1 }.responseOutput (ascii "Accepted")
    else { s with mem := r.1, ctl := .fault }

/-- The head of the loop of WRITEB. -/
def writebLoop (s : Serial) (ptr : Pointer) (cx : ℕ) : Serial :=
  if cx = 0 then s.responseOutput (ascii "Accepted") else { s with ctl := .payload ptr cx }

def commandWriteb (s : Serial) (si : List Byte) : Serial :=
  match s.mode.address si with
  | (none, _) => s.responseOutputErr (ascii "Invalid address")
  | (some ptr, si) => s.writebLoop ptr (s.mode.count si)

/-- The greeting of a part that has been jumped to. -/
def jumpTo (s : Serial) (mode : Mode) (note : String) : Serial :=
  { s with mode := mode }.responseOutput (ascii note)

end Serial

def Mode.entryPoint : Mode → List Byte → EntryPoint
  | .i8086, si =>
    let r := strtohex (w := 16) si
    .segOff r.1 (strtohex (w := 16) (strSkipWhitespace r.2)).1
  | .i286, si =>
    let r := strtohex32 si
    let userCodeSelector := { accessSelector286 with access := 0x9A }
    .baseOff (dxAxPhysTo286seg userCodeSelector r.1.1 r.1.2).base
      (strtohex (w := 16) (strSkipWhitespace r.2)).1
  | .i386x16, si =>
    let r := strtohex32 si
    let userCodeSelector := { accessSelector386 with access := 0x9A }
    .baseOff (dxAxPhysTo386seg userCodeSelector r.1.1 r.1.2).base
      (strtohex (w := 16) (strSkipWhitespace r.2)).1
  | .i386x32, si => .near ((strtohex (w := 32) si).1.setWidth 64)
  | .x64, si => .near (strtohex (w := 64) si).1

/-- Where the page tables of the x64 part end, FINAL_LOW. -/
def finalLow : BitVec 64 := 0x52000

namespace Stage2

variable (m : Stage2)

def commandExec (s : Serial) (si : List Byte) : Serial :=
  { s with mem := m.code (s.mode.entryPoint si) s.mem }.responseOutput (ascii "Function complete")

/-- The stub of `_jmp_x64` goes to `_jmp_8086`. -/
def jmpX64 (s : Serial) : Serial :=
  if m.hasX64 then s.jumpTo .x64 "x64" else s.jumpTo .i8086 "8086"

/-- The 286 part has to reset the CPU to leave protected mode, and tells the BIOS at 40:67 where to
go on from there. -/
def command8086 (s : Serial) : Serial :=
  let vector := [m.realmode286.setWidth 8, (m.realmode286 >>> 8).setWidth 8, 0#8, 0#8]
  let mem := if s.mode = .i286 then write s.mem 0x467 vector else s.mem
  { s with mem := mem }.jumpTo .i8086 "8086"

def commandLow (s : Serial) : Serial :=
  s.responseOutput (match s.mode with
    | .i386x32 => comHexOut m.lastByte 8
    | .x64 => comHexOut finalLow 16
    | _ => comHexOut (m.lastByte.setWidth 16) 4)

/-- What SI points at when a command is looked for: the line, cleared to the end of `in_buf`, and
the bytes behind. -/
def inBuf (buf : List Byte) : List Byte :=
  buf ++ (List.replicate (256 - buf.length) 0 ++ m.behind)

def mainLoopCommand (s : Serial) (buf : List Byte) : Serial :=
  let si := m.inBuf buf
  let starts (word : List Byte) : Bool := word.isPrefixOf si
  if starts (ascii "TEST" ++ [0]) then s.responseOutput (ascii "Test successful")
  else if starts (ascii "READ ") then s.commandRead (si.drop 5)
  else if starts (ascii "READB ") then s.commandReadb (si.drop 6)
  else if starts (ascii "WRITE ") then s.commandWrite (si.drop 6) (si.length - buf.length)
  else if starts (ascii "WRITEB ") then s.commandWriteb (si.drop 7)
  else if starts (ascii "EXEC ") then m.commandExec s (si.drop 5)
  -- only the 8086 part can switch to another one
  else if s.mode = .i8086 ∧ starts (ascii "x64" ++ [0]) then m.jmpX64 s
  else if s.mode = .i8086 ∧ starts (ascii "386-32" ++ [0]) then s.jumpTo .i386x32 "386-32"
  else if s.mode = .i8086 ∧ starts (ascii "386-16" ++ [0]) then s.jumpTo .i386x16 "386-16"
  else if s.mode = .i8086 ∧ starts (ascii "286" ++ [0]) then s.jumpTo .i286 "286"
  else if starts (ascii "8086" ++ [0]) then m.command8086 s
  else if starts (ascii "LOW" ++ [0]) then m.commandLow s
  else s.responseOutputErr (ascii "Unknown command")

/-! ## The line -/

/-- One byte of WRITEB data. -/
def takePayload (s : Serial) (ptr : Pointer) (cx : ℕ) (al : Byte) : Serial :=
  match ptr.phys with
  | none => { s with ctl := .fault }
  | some a =>
    let s := { s with mem := Function.update s.mem a al }
    let cf := comCharInCarry (comports m.comport)
    if ptr.flat ∧ cf then s.responseOutput (ascii "Accepted")
    else s.writebLoop (ptr.next cf) (cx - 1)

/-- A character at the end of the line, if `in_buf` has room for it and the zero. -/
def store (buf : List Byte) (al : Byte) : List Byte :=
  if 256 - 1 ≤ buf.length then buf else buf ++ [al]

def feed (s : Serial) (al : Byte) : Serial :=
  match s.ctl with
  | .line buf =>
    if al = 0x0A#8 ∨ al = 0x0D#8 then
      if buf = [] then s else m.mainLoopCommand s buf
    else if al = 0x1B#8 then { s with ctl := .escape buf }
    else { s with ctl := .line (store buf al) }
  | .escape buf => { s with ctl := .line (store buf al) }
  | .payload ptr cx => m.takePayload s ptr cx al
  | .fault => s

def feedAll (s : Serial) (stream : List Byte) : Serial := stream.foldl m.feed s

end Stage2

end RemoteX86
