import RemoteX86.Destination
import RemoteX86.Lib.Answering
import RemoteX86.Lib.Store
import RemoteX86.Link

/-!
# What the Ethernet debugger is for

A machine whose memory is read and written from a distance, and that runs code when it is told to.
`EthMachine.Answers` says what each call of the library comes to in these terms, with no word of
blocks, datagrams, texts or retries; `ApiCall.answer` is the call itself, over a link that loses
nothing.
-/

namespace RemoteX86

open Hex Memory

structure EthMachine where
  mem : Mem 32
  /-- The clock at the last call of the code it has run. -/
  lastExec : BitVec 32

/-- What a call returns, and the clock when it was made. -/
structure ApiAnswer where
  buf : Option (List Byte)
  clock : BitVec 32
  deriving DecidableEq

/-- The call returns 1, with the bytes of the range if it reads one.  Code is run unless the clock is
that of the code run before. -/
def EthMachine.Answers (code : BitVec 32 → Mem 32 → Mem 32) (t : EthMachine) :
    ApiCall → ApiAnswer → EthMachine → Prop
  | .test, r, t' => r.buf = some [] ∧ t' = t
  | .read addr len, r, t' =>
    ∃ bs, r.buf = some bs ∧ Fetched t.mem addr.toNat len.toNat bs ∧ t' = t
  | .write addr buf _, r, t' =>
    r.buf = some [] ∧ Stored t.mem t'.mem addr.toNat buf ∧ t'.lastExec = t.lastExec
  | .exec addr, r, t' =>
    r.buf = some [] ∧
      t' = if r.clock = t.lastExec then t
        else { mem := code (addr.setWidth 32) t.mem, lastExec := r.clock }

/-- The range ends where the address space does or before, and the caller has as many bytes as it
says. -/
def ApiCall.InRange : ApiCall → Prop
  | .test => True
  | .read addr len => addr.toNat + len.toNat ≤ 2 ^ 32
  | .write addr buf len => addr.toNat + len.toNat ≤ 2 ^ 32 ∧ len = buf.length
  | .exec _ => True

instance : DecidablePred ApiCall.InRange
  | .test => isTrue trivial
  | .read addr len => inferInstanceAs (Decidable (addr.toNat + len.toNat ≤ 2 ^ 32))
  | .write addr buf len =>
    inferInstanceAs (Decidable (addr.toNat + len.toNat ≤ 2 ^ 32 ∧ len = buf.length))
  | .exec _ => isTrue trivial

/-- What lies behind a datagram does not go on with its last number. -/
def Host.EndsNumbers (h : Host) : Prop :=
  ∀ n, NoDigit (h.after n) ∧ (h.after n).head? ≠ some 0x78#8

section Call

variable (h : Host) (code : BitVec 32 → Mem 32 → Mem 32)

def ApiCall.answer (s : RemoteEthConnection × Link) (call : ApiCall) :
    ApiAnswer × (RemoteEthConnection × Link) :=
  let r := call.run (h.net code) s.1 s.2
  ({ buf := r.1, clock := h.time s.2.count }, r.2)

end Call

/-- What the device is to the library: its memory and the clock it remembers. -/
def Device.machine (dev : Device) : EthMachine := { mem := dev.mem, lastExec := dev.execLastSeq }

end RemoteX86
