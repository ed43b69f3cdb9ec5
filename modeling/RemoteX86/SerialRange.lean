import RemoteX86.SerialClient

/-!
# What a memory command of the serial debugger is to do

READ, READB and WRITEB name a range of memory by an address and a count, WRITE by an address and the
bytes themselves.  `Transfers` and `Stores` say that exactly that range is moved; `Reports` says that
a line is answered with an error and nothing else happens.  Operands are digits in either case, with
leading zeros or without.
-/

namespace RemoteX86

open Hex Memory

/-- A line with an address and a count. -/
def operandLine (word addr count : List Byte) : List Byte := word ++ (addr ++ 0x20#8 :: count)

/-- The line of WRITE: each byte behind a space. -/
def writeLine (addr : List Byte) (data : List (List Byte)) : List Byte :=
  ascii "WRITE " ++ (addr ++ data.flatMap fun digits => 0x20#8 :: digits)

/-- What READ prints: two digits and a space for every byte. -/
def hexDump (bytes : List Byte) : List Byte :=
  bytes.flatMap fun b => [digit (b.toNat / 16), digit (b.toNat % 16), 0x20#8]

namespace Stage2

variable (m : Stage2)

/-- The commands with a count transfer the `n` bytes from `a` upwards and no others.  The line
buffer holds 255 characters. -/
structure Transfers (s : Serial) (a n : ℕ) : Prop where
  readb : ∀ {addr count : List Byte} {e : Byte}, IsHex a addr → IsHex n count → LineEnd e →
    (operandLine (ascii "READB ") addr count).length ≤ 255 →
      m.feedAll s (operandLine (ascii "READB ") addr count ++ [e])
        = s.responseOutput (read s.mem (BitVec.ofNat 32 a) n)
  read : ∀ {addr count : List Byte} {e : Byte}, IsHex a addr → IsHex n count → LineEnd e →
    (operandLine (ascii "READ ") addr count).length ≤ 255 →
      m.feedAll s (operandLine (ascii "READ ") addr count ++ [e])
        = s.responseOutput (hexDump (Memory.read s.mem (BitVec.ofNat 32 a) n))
  writeb : ∀ {addr count : List Byte} {e : Byte}, IsHex a addr → IsHex n count → LineEnd e →
    (operandLine (ascii "WRITEB ") addr count).length ≤ 255 →
      ∀ data : List Byte, data.length = n →
        (∀ k < n, (m.feedAll s
          (operandLine (ascii "WRITEB ") addr count ++ [e] ++ data.take k)).ctl.Data) ∧
        m.feedAll s (operandLine (ascii "WRITEB ") addr count ++ [e] ++ data)
          = { s with mem := write s.mem (BitVec.ofNat 32 a) data }.responseOutput
              (ascii "Accepted")

/-- WRITE puts the bytes of its line at `a` upwards and changes nothing else.  A number above FF
leaves its last byte. -/
def Stores (s : Serial) (a n : ℕ) : Prop :=
  ∀ {addr : List Byte} {data : List (List Byte)} {e : Byte}, IsHex a addr → data.length = n →
    (∀ digits ∈ data, IsHex (value 0 digits) digits) → LineEnd e →
    (writeLine addr data).length ≤ 255 →
      m.feedAll s (writeLine addr data ++ [e])
        = { s with
            mem := write s.mem (BitVec.ofNat 32 a) (data.map fun digits =>
              BitVec.ofNat 8 (value 0 digits)) }.responseOutput (ascii "Accepted")

/-- The line is answered with an error; what memory holds makes no difference to the answer, and
memory stays as it is. -/
def Reports (mode : Mode) (line : List Byte) : Prop :=
  ∃ msg, ∀ s : Serial, s.mode = mode → s.ctl = .line [] →
    m.feedAll s line = s.responseOutputErr msg

end Stage2

/-- The words in front of an address. -/
def addressWords : List (List Byte) :=
  [ascii "READ ", ascii "READB ", ascii "WRITE ", ascii "WRITEB "]

/-- Where memory ends for the parts that are documented to have a limit. -/
def Mode.limit : Mode → Option ℕ
  | .i8086 => some (2 ^ 20)
  | .i286 => some (2 ^ 24)
  | .i386x16 => none
  | .i386x32 => none
  | .x64 => some (2 ^ 36)

end RemoteX86
