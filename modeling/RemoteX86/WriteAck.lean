import RemoteX86.Client

/-!
# Whose acknowledgement a reply is

The branches of the command dispatcher by name, and the replies that `remote_eth_write_block` cannot
tell from the one it waits for.
-/

namespace RemoteX86

open Hex Memory

inductive CommandKind where
  | test
  | read
  | write
  | low
  | exec
  | unknown
  deriving DecidableEq, Repr

/-- Which command the dispatcher takes the data for. -/
def udpKind (data : List Byte) (dataLength : ℕ) : CommandKind :=
  if 4 ≤ dataLength ∧ memcmpEq data (ascii "TEST") then .test
  else if 5 ≤ dataLength ∧ memcmpEq data (ascii "READ ") then .read
  else if 6 ≤ dataLength ∧ memcmpEq data (ascii "WRITE ") then .write
  else if 3 ≤ dataLength ∧ memcmpEq data (ascii "LOW") then .low
  else if 5 ≤ dataLength ∧ memcmpEq data (ascii "EXEC ") then .exec
  else .unknown

section

variable (dev : Device) (data : List Byte) (dataLength : ℕ) (a s : BitVec 32)

/-- The memory a READ sends. -/
def readBytes : List Byte :=
  let ops := operands (data.drop 5)
  Memory.read dev.mem ops.1 (if 1400 < ops.2.1.toNat then 1400 else ops.2.1.toNat)

/-- The data is a WRITE to `a` with the sequence number `s`. -/
def IsWrite : Prop :=
  udpKind data dataLength = .write ∧ (operands (data.drop 5)).1 = a
    ∧ (operands (data.drop 5)).2.1 = s

/-- If the reply passes as the acknowledgement of a WRITE to `a` with sequence number `s`, it is the
reply to one. -/
def AckUnambiguous (code : BitVec 32 → Mem 32 → Mem 32) : Prop :=
  ∀ buf, (writeCall (a.setWidth 64) s buf).reply (udpCommand code dev data dataLength).reply
    = .done [] → IsWrite data dataLength a s

/-- A READ of `a` whose bytes spell `s`, or, for a sequence number of zero, a reply without a second
number whose first one is `a`: LOW has the address it gives, EXEC the C of its Complete, and TEST
nothing at all. -/
def Mistakable : Prop :=
  match udpKind data dataLength with
  | .test => a = 0 ∧ s = 0
  | .read => (operands (data.drop 5)).1 = a
      ∧ (strtoull (0x0A#8 :: readBytes dev data)).1 = s.setWidth 64
  | .write => False
  | .low => dev.alloc = a ∧ s = 0
  | .exec => a = 0xC ∧ s = 0
  | .unknown => False

end

end RemoteX86
