import RemoteX86.Serial

/-!
# What the operand parsers read

The offsets in `in_buf` that the handlers of READ, READB, WRITE, WRITEB and EXEC read when they parse
a line.  Each function goes beside the parser of its name and follows the same bytes; `n` is the
number of bytes from `in_buf` on, so what is left of them gives the offset.
-/

namespace RemoteX86

open Hex Memory

/-- The digits, and the character that is none: `lodsb` reads it too. -/
def strtohexReads (n : ℕ) : List Byte → List ℕ
  | [] => [n]
  | al :: si =>
    (n - (si.length + 1)) :: if (strtohexGetdigit al).isSome then strtohexReads n si else []

def strSkipWhitespaceReads (n : ℕ) : List Byte → List ℕ
  | [] => [n]
  | al :: si =>
    (n - (si.length + 1)) :: if al = 0x20#8 then strSkipWhitespaceReads n si else []

/-- `str_skip_whitespace` and `strtohex`, for a second operand. -/
def secondReads (n : ℕ) (si : List Byte) : List ℕ :=
  strSkipWhitespaceReads n si ++ strtohexReads n (strSkipWhitespace si)

/-- READ, READB and WRITEB: the address, and the count if the address is taken. -/
def Mode.addressCountReads (mode : Mode) (n : ℕ) (si : List Byte) : List ℕ :=
  strtohexReads n si ++
    match mode.address si with
    | (none, _) => []
    | (some _, si) => secondReads n si

def writeLoopReads (mode : Mode) (n di : ℕ) : ℕ → Pointer → List Byte → List ℕ
  | 0, _, _ => []
  | fuel + 1, ptr, si =>
    strSkipWhitespaceReads n si ++
      let si := strSkipWhitespace si
      if si.length ≤ di then []
      else
        let r := strtohex (w := mode.bits) si
        strtohexReads n si ++ (strSkipWhitespaceReads n r.2 ++
          let si := strSkipWhitespace r.2
          match ptr.phys with
          | none => []
          | some _ => writeLoopReads mode n di fuel (ptr.next (decide (si.getD 0 0 < 0x20#8))) si)

def Mode.writeReads (mode : Mode) (n : ℕ) (si : List Byte) (di : ℕ) : List ℕ :=
  strtohexReads n si ++
    match mode.address si with
    | (none, _) => []
    | (some ptr, si) =>
      strSkipWhitespaceReads n si ++
        writeLoopReads mode n di (strSkipWhitespace si).length ptr (strSkipWhitespace si)

/-- The 16-bit parts have a segment and an offset to read, the others an address. -/
def Mode.execReads (mode : Mode) (n : ℕ) (si : List Byte) : List ℕ :=
  strtohexReads n si ++
    match mode with
    | .i8086 => secondReads n (strtohex (w := 16) si).2
    | .i286 => secondReads n (strtohex32 si).2
    | .i386x16 => secondReads n (strtohex32 si).2
    | .i386x32 => []
    | .x64 => []

namespace Stage2

variable (m : Stage2)

def operandReads (mode : Mode) (buf : List Byte) : List ℕ :=
  let si := m.inBuf buf
  let starts (word : List Byte) : Bool := word.isPrefixOf si
  if starts (ascii "READ ") then mode.addressCountReads si.length (si.drop 5)
  else if starts (ascii "READB ") then mode.addressCountReads si.length (si.drop 6)
  else if starts (ascii "WRITE ") then
    mode.writeReads si.length (si.drop 6) (si.length - buf.length)
  else if starts (ascii "WRITEB ") then mode.addressCountReads si.length (si.drop 7)
  else if starts (ascii "EXEC ") then mode.execReads si.length (si.drop 5)
  else []

/-- The parsers keep to `in_buf`, and what lies behind it has no say in what the command does. -/
structure ParsesInside (s : Serial) (buf : List Byte) : Prop where
  inside : ∀ i ∈ m.operandReads s.mode buf, i < 256
  independent : ∀ behind,
    { m with behind := behind }.mainLoopCommand s buf = m.mainLoopCommand s buf

end Stage2

end RemoteX86
