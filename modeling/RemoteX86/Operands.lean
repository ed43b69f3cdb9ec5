import RemoteX86.Device

/-!
# The grammar of two operands

READ, WRITE and EXEC take two numbers: spaces, an optional `0x`, digits, spaces, an optional `0x`,
digits.  `Scan` reads that grammar one character at a time and keeps what it has read of the two
values, so it can be stopped at the end of a datagram and asked what the next byte would do.
-/

namespace RemoteX86

open Hex

/-- Where the scan stands: before a number, behind a first digit `0`, or further inside it. -/
inductive Stage where
  | pre1
  | zero1
  | hex1
  | pre2
  | zero2
  | hex2
  deriving DecidableEq, Repr

structure Scan where
  stage : Stage
  fst : BitVec 32
  snd : BitVec 32
  deriving DecidableEq, Repr

namespace Scan

def start : Scan := { stage := .pre1, fst := 0#32, snd := 0#32 }

/-- One character, or none if the operands end before it. -/
def step (s : Scan) (c : Byte) : Option Scan :=
  match s.stage, digitVal c with
  | .pre1, some d =>
    some { s with stage := if d = 0 then .zero1 else .hex1, fst := shiftIn s.fst d }
  | .pre1, none => if c = 0x20#8 then some s else none
  | .zero1, some d => some { s with stage := .hex1, fst := shiftIn s.fst d }
  | .zero1, none =>
    if c = 0x78#8 then some { s with stage := .hex1 }
    else if c = 0x20#8 then some { s with stage := .pre2 } else none
  | .hex1, some d => some { s with fst := shiftIn s.fst d }
  | .hex1, none => if c = 0x20#8 then some { s with stage := .pre2 } else none
  | .pre2, some d =>
    some { s with stage := if d = 0 then .zero2 else .hex2, snd := shiftIn s.snd d }
  | .pre2, none => if c = 0x20#8 then some s else none
  | .zero2, some d => some { s with stage := .hex2, snd := shiftIn s.snd d }
  | .zero2, none => if c = 0x78#8 then some { s with stage := .hex2 } else none
  | .hex2, some d => some { s with snd := shiftIn s.snd d }
  | .hex2, none => none

/-- Scan on as far as the grammar goes: the scan there, and what is left. -/
def run : Scan → List Byte → Scan × List Byte
  | s, [] => (s, [])
  | s, c :: p =>
    match s.step c with
    | some s' => run s' p
    | none => (s, c :: p)

/-- The two values read, and what is left. -/
def result (r : Scan × List Byte) : BitVec 32 × BitVec 32 × List Byte := (r.1.fst, r.1.snd, r.2)

end Scan

/-- The operands end inside `text`: it holds the character that ends them. -/
def OperandsEnd (text : List Byte) : Prop := (Scan.start.run text).2 ≠ []

/-- The operands do not go on into `after`, the bytes behind `text`. -/
def OperandsStop (text after : List Byte) : Prop :=
  OperandsEnd text ∨ ∀ c, after.head? = some c → (Scan.start.run text).1.step c = none

end RemoteX86
