import RemoteX86.Lib.Fill
import RemoteX86.Serial

/-!
# The line in memory

`_main_loop` up to where a command is looked for, with the registers it uses and the data segment it
stores to: the loop that reads the line and the one that clears what is behind it in `in_buf`.  The
five parts differ in the width of the registers.  The stack is not part of the segment.
-/

namespace RemoteX86

open Hex Memory

def inBufSize : ℕ := 256

/-- Where the linker puts `in_buf`; its end is a constant of the 16-bit parts. -/
structure Layout where
  inBuf : ℕ
  end_lt : inBuf + inBufSize < 2 ^ 16

/-- The data segment, and the addresses of the stores made to it, the last one first. -/
structure Stores (w : ℕ) where
  mem : Mem w
  stored : List (BitVec w)

section Registers

variable {w : ℕ}

def Stores.put (s : Stores w) (a : BitVec w) (al : Byte) : Stores w :=
  { mem := Function.update s.mem a al, stored := a :: s.stored }

/-- From `_main_loop_read_al` to the next character. -/
def mainLoopReadAl (bx si : BitVec w) (s : Stores w) (al : Byte) : BitVec w × Stores w :=
  if BitVec.ofNat w (inBufSize - 1) ≤ si then (si, s) else (si + 1, s.put (bx + si) al)

/-- `_main_loop_read`, up to the end of the line if the stream has one. -/
def mainLoopRead (bx : BitVec w) :
    BitVec w → Stores w → List Byte → Option (BitVec w × Stores w × List Byte)
  | _, _, [] => none
  | si, s, al :: stream =>
    if al = 0x0A#8 then some (si, s, stream)
    else if al = 0x0D#8 then some (si, s, stream)
    else if al = 0x1B#8 then
      match stream with
      | [] => none
      | al :: stream =>
        let r := mainLoopReadAl bx si s al
        mainLoopRead bx r.1 r.2 stream
    else
      let r := mainLoopReadAl bx si s al
      mainLoopRead bx r.1 r.2 stream

/-- `stosb` with a zero in AL, on DI and the segment. -/
def stosb (r : BitVec w × Stores w) : BitVec w × Stores w := (r.1 + 1, r.2.put r.1 0)

def belowEnd (inBuf : BitVec w) (r : BitVec w × Stores w) : Bool :=
  decide (r.1 < BitVec.ofNat w inBufSize + inBuf)

def mainLoopProcessClr (inBuf : BitVec w) (di : BitVec w) (s : Stores w) :
    Option (BitVec w × Stores w) :=
  Fill.doWhile stosb (belowEnd inBuf) inBufSize (di, s)

/-- What a command finds: SI at the line, DI at its end, and the bytes that are still to come. -/
structure LineRead (w : ℕ) where
  si : BitVec w
  di : BitVec w
  stores : Stores w
  rest : List Byte

def mainLoopLine (inBuf : BitVec w) (mem : Mem w) (stream : List Byte) : Option (LineRead w) :=
  match mainLoopRead inBuf 0 { mem := mem, stored := [] } stream with
  | none => none
  | some (si, s, rest) =>
    let di := inBuf + si
    match mainLoopProcessClr inBuf di s with
    | none => none
    | some (_, s) => some { si := inBuf, di := di, stores := s, rest := rest }

end Registers

def mainLoop (mode : Mode) (l : Layout) : Mem mode.bits → List Byte → Option (LineRead mode.bits) :=
  mainLoopLine (BitVec.ofNat mode.bits l.inBuf)

/-! ## Lines -/

/-- How characters are sent: an ESC makes the next byte one, whatever it is. -/
inductive Encodes : List Byte → List Byte → Prop
  | nil : Encodes [] []
  | plain {c : Byte} {sent chars : List Byte} (h : c ≠ 0x0A#8 ∧ c ≠ 0x0D#8 ∧ c ≠ 0x1B#8) :
    Encodes sent chars → Encodes (c :: sent) (c :: chars)
  | escaped {c : Byte} {sent chars : List Byte} :
    Encodes sent chars → Encodes (0x1B#8 :: c :: sent) (c :: chars)

/-- The stream begins with a line of these characters. -/
def EndsLine (stream chars rest : List Byte) : Prop :=
  ∃ sent eol, Encodes sent chars ∧ (eol = 0x0A#8 ∨ eol = 0x0D#8) ∧ stream = sent ++ eol :: rest

/-- What is kept of a line. -/
def kept (chars : List Byte) : List Byte := chars.take (inBufSize - 1)

structure Assembled (mode : Mode) (l : Layout) (mem : Mem mode.bits) (chars rest : List Byte)
    (r : LineRead mode.bits) : Prop where
  buffer : Memory.read r.stores.mem (BitVec.ofNat mode.bits l.inBuf) inBufSize
    = kept chars ++ List.replicate (inBufSize - (kept chars).length) 0
  start : r.si.toNat = l.inBuf
  fin : r.di.toNat = l.inBuf + (kept chars).length
  inside : ∀ a ∈ r.stores.stored, l.inBuf ≤ a.toNat ∧ a.toNat < l.inBuf + inBufSize
  outside : ∀ a, ¬ (l.inBuf ≤ a.toNat ∧ a.toNat < l.inBuf + inBufSize) → r.stores.mem a = mem a
  rest : r.rest = rest

end RemoteX86
