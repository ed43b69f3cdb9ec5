import RemoteX86.Lib.Memory

/-!
# The A20 test

`a20_enabled_mem_test` of `comm/tests/cpu_tests.c`: it compares 32 bytes with those 1 MB higher, which
are the same while address line 20 is held at 0, and writes to them where they look the same.  Each of
its transfers is done or fails, with any result and anything in the buffer of a read.
-/

namespace RemoteX86

open Hex Memory

/-- What a call of `remote_rs232_read` or `remote_rs232_write` comes to: it returns 1 and has done its
transfer, or it returns `ret`, with `buf` where a read should have put its data. -/
inductive TransferResult where
  | done
  | fails (ret : ℤ) (buf : ℕ → Byte)

/-- Memory behind the gate of address line 20. -/
structure GatedMemory where
  a20 : Bool
  mem : Mem 32

namespace GatedMemory

/-- The address that reaches memory: bit 20 is held at 0 where A20 is disabled. -/
def gate (dev : GatedMemory) (a : BitVec 32) : BitVec 32 :=
  if dev.a20 then a else a &&& ~~~(1#32 <<< 20)

/-- The bytes from an address on. -/
def bytes (dev : GatedMemory) (a : BitVec 32) (i : ℕ) : Byte := dev.mem (dev.gate (a + BitVec.ofNat 32 i))

def store (dev : GatedMemory) (a : BitVec 32) (buf : ℕ → Byte) : ℕ → GatedMemory
  | 0 => dev
  | n + 1 =>
    let dev := dev.store a buf n
    { dev with mem := Function.update dev.mem (dev.gate (a + BitVec.ofNat 32 n)) (buf n) }

def remoteRs232Read (dev : GatedMemory) (a : BitVec 32) : TransferResult → ℤ × (ℕ → Byte)
  | .done => (1, dev.bytes a)
  | .fails ret buf => (ret, buf)

def remoteRs232Write (dev : GatedMemory) (a : BitVec 32) (count : ℕ) (buf : ℕ → Byte) :
    TransferResult → ℤ × GatedMemory
  | .done => (1, dev.store a buf count)
  | .fails ret _ => (ret, dev)

end GatedMemory

/-- `!memcmp(p, q, n)`. -/
def memcmpFn (p q : ℕ → Byte) (n : ℕ) : Bool := (List.range n).all fun i => p i == q i

/-- The transfers of the test, in order. -/
structure A20Transfers where
  buf0 : TransferResult
  buf1 : TransferResult
  cross : TransferResult
  zero : TransferResult
  pattern : TransferResult
  check : TransferResult
  restore : TransferResult

/-- The pattern, `memset(nbuf0,'x',32)`. -/
def nbuf0 : ℕ → Byte := fun _ => 0x78#8

def a20EnabledMemTest (t : A20Transfers) (dev : GatedMemory) : ℤ × GatedMemory :=
  let buf0 := dev.remoteRs232Read 0x300 t.buf0
  if buf0.1 = 0 then (0, dev)
  else
    let buf1 := dev.remoteRs232Read (0x300#32 ||| 1#32 <<< 20) t.buf1
    if buf1.1 = 0 then (0, dev)
    else
      -- 64 bytes crossing the 1MB boundary
      let cross := dev.remoteRs232Read (0x100000 - 32) t.cross
      if cross.1 = 0 then (0, dev)
      else
        let zero := dev.remoteRs232Read 0 t.zero
        if zero.1 = 0 then (0, dev)
        else if memcmpFn zero.2 (fun i => cross.2 (32 + i)) 32 then (0, dev)
        else if memcmpFn buf0.2 buf1.2 32 then
          -- "it might just be a coincidence, try writing to the memory and see if the alias shows it"
          let pattern := dev.remoteRs232Write 0x300 32 nbuf0 t.pattern
          let dev := pattern.2
          if pattern.1 = 0 then (0, dev)
          else
            let buf1 := dev.remoteRs232Read (0x300#32 ||| 1#32 <<< 20) t.check
            if buf1.1 = 0 then (0, dev)
            else
              let restore := dev.remoteRs232Write 0x300 32 buf0.2 t.restore
              let dev := restore.2
              if restore.1 = 0 then (0, dev)
              else if memcmpFn nbuf0 buf1.2 32 then (0, dev)
              else (1, dev)
        else (1, dev)

/-- Every transfer is done. -/
def allDone : A20Transfers where
  buf0 := .done
  buf1 := .done
  cross := .done
  zero := .done
  pattern := .done
  check := .done
  restore := .done

/-- With every transfer done the test returns 1 exactly if A20 is enabled. -/
def Tells (dev : GatedMemory) : Prop :=
  (a20EnabledMemTest allDone dev).1 = 1 ↔ dev.a20 = true

def TransferResult.ret : TransferResult → ℤ
  | .done => 1
  | .fails ret _ => ret

namespace A20Transfers

variable (t : A20Transfers) (dev : GatedMemory)

/-- The bytes read do not settle it, and the pattern is to be written. -/
structure ReachesWrites : Prop where
  read : t.buf0.ret ≠ 0 ∧ t.buf1.ret ≠ 0 ∧ t.cross.ret ≠ 0 ∧ t.zero.ret ≠ 0
  differ : ¬ memcmpFn (dev.remoteRs232Read 0 t.zero).2
    (fun i => (dev.remoteRs232Read (0x100000 - 32) t.cross).2 (32 + i)) 32
  same : memcmpFn (dev.remoteRs232Read 0x300 t.buf0).2
    (dev.remoteRs232Read (0x300#32 ||| 1#32 <<< 20) t.buf1).2 32

/-- The last write is reached and done. -/
def Restores : Prop := t.pattern.ret ≠ 0 ∧ t.check.ret ≠ 0 ∧ t.restore = .done

end A20Transfers

end RemoteX86
