import RemoteX86.Descriptor
import RemoteX86.Lib.Answering
import RemoteX86.Lib.Store
import RemoteX86.SerialHost

/-!
# What the serial debugger is for

A machine whose memory is read and written over a serial line, that runs code when it is told to and
that can be put into another mode.  `SerialMachine.Answers` says what each call of the library comes
to in these terms, with no word of lines, pieces or waits; `Stage2.answer` is the call itself, byte by
byte on a descriptor, against the debugger at the other end of a line that loses nothing.
-/

namespace RemoteX86

open Hex Memory

/-! ## Calls that read one line -/

/-- `!strncasecmp(p, s, n)` with `n` the length of `s`, which has no zero byte. -/
def HostMem.strncasecmpEq (mem : HostMem) (p : ℕ) (s : List Byte) : Bool :=
  HostMem.strncmpEq (fun a => tolower (mem a)) p (s.map tolower)

/-- `if (... != 1) return 0; return 1`. -/
def Outcome.verdict : Outcome → Outcome
  | .returned v => .returned (if v ≠ 1 then 0 else 1)
  | .aborted => .aborted
  | .pending => .pending

/-- What a call comes to that sends a command and waits for a line: its result, what has been
accepted, and what is left on the line. -/
structure LineCall where
  outcome : Outcome
  tx : List Byte
  rx : List Byte

namespace Tty

/-- `after` is what the call makes of a response that is an OK. -/
def ask (mem : HostMem) (line : ℕ) (cmd : List Byte) (timeout : BitVec 64)
    (answer : List Byte → List Byte) (after : Response → Outcome × List Byte) (tty : Tty) :
    LineCall :=
  let sent := remoteRs232SendCommand cmd tty.writes
  let rx := answer sent.tx
  if sent.outcome = .pending then { outcome := .pending, tx := sent.tx, rx := rx }
  else if sent.outcome = .returned 0 then { outcome := .returned 0, tx := sent.tx, rx := rx }
  else
    let r := remoteRs232GetResponse mem line 128 timeout { tty with rx := rx, writes := sent.writes }
    let v := if r.outcome = .returned 1 then after r else (r.outcome.verdict, r.tty.rx)
    { outcome := v.1, tx := sent.tx, rx := v.2 }

def remoteRs232Test (mem : HostMem) (line : ℕ) (answer : List Byte → List Byte) (tty : Tty) :
    LineCall :=
  tty.ask mem line (ascii "TEST") 1000000 answer fun r =>
    -- "Whoops! Did EXEC complete just after you opened this lib?"
    if HostMem.strncasecmpEq r.mem line (ascii "OK Function") then
      let r := remoteRs232GetResponse r.mem line 128 1000000 r.tty
      (r.outcome.verdict, r.tty.rx)
    else (.returned 1, r.tty.rx)

/-- The call for a mode. -/
def remoteRs232Mode (mem : HostMem) (line : ℕ) (target : Mode) (answer : List Byte → List Byte)
    (tty : Tty) : LineCall :=
  tty.ask mem line target.command 1000000 answer fun r => (.returned 1, r.tty.rx)

def remoteRs232ExecSegOff (mem : HostMem) (line : ℕ) (segment : BitVec 32) (offset : BitVec 64)
    (timeoutS : BitVec 32) (answer : List Byte → List Byte) (tty : Tty) : LineCall :=
  tty.ask mem line (ascii "EXEC " ++ numeral segment.toNat ++ ascii " " ++ numeral offset.toNat)
    ((timeoutS * 1000000).setWidth 64) answer fun r => (.returned 1, r.tty.rx)

def remoteRs232ExecOff (mem : HostMem) (line : ℕ) (offset : BitVec 64) (timeoutS : BitVec 32)
    (answer : List Byte → List Byte) (tty : Tty) : LineCall :=
  tty.ask mem line (ascii "EXEC " ++ numeral offset.toNat) ((timeoutS * 1000000).setWidth 64) answer
    fun r => (.returned 1, r.tty.rx)

end Tty

/-! ## Host and device -/

inductive SerialCall where
  | test
  | mode (target : Mode)
  | read (addr : BitVec 64) (count : BitVec 32)
  | write (addr : BitVec 64) (count : BitVec 32) (buf : ℤ → Byte)
  | execSegOff (segment : BitVec 32) (offset : BitVec 64) (timeoutS : BitVec 32)
  | execOff (offset : BitVec 64) (timeoutS : BitVec 32)

/-- A call with what it finds: its own buffer for a line in the host's memory, the clock, and what
read(2) and write(2) come to.  What comes in is what the device has sent. -/
structure SerialQuery where
  call : SerialCall
  mem : HostMem
  line : ℕ
  tty : Tty

/-- What a call returns, and the data it has read. -/
structure SerialAnswer where
  outcome : Outcome
  buf : List Byte
  deriving DecidableEq

namespace Stage2

variable (m : Stage2)

/-- The device when a call is over; `out` is what the host has not read. -/
def settle (s : Serial) (r : LineCall) : SerialAnswer × Serial :=
  ({ outcome := r.outcome, buf := [] }, { m.feedAll s r.tx with out := r.rx })

def answer (s : Serial) (q : SerialQuery) : SerialAnswer × Serial :=
  let sends (tx : List Byte) : List Byte := (m.feedAll s tx).out
  match q.call with
  | .test => m.settle s (q.tty.remoteRs232Test q.mem q.line sends)
  | .mode target => m.settle s (q.tty.remoteRs232Mode q.mem q.line target sends)
  | .read addr count =>
    let s := m.feedAll s (Tty.remoteRs232SendCommand (readbCommand addr count) q.tty.writes).tx
    let r := { q.tty with rx := s.out }.remoteRs232Read q.mem q.line addr count
      (if s.out = [] then 0 else 1)
    ({ outcome := r.outcome, buf := r.buf }, { s with out := r.rx })
  | .write addr count buf =>
    let r := q.tty.remoteRs232Write q.mem q.line addr count buf sends
    m.settle s { outcome := r.outcome, tx := r.tx, rx := r.rx }
  | .execSegOff segment offset timeoutS =>
    m.settle s (q.tty.remoteRs232ExecSegOff q.mem q.line segment offset timeoutS sends)
  | .execOff offset timeoutS =>
    m.settle s (q.tty.remoteRs232ExecOff q.mem q.line offset timeoutS sends)

end Stage2

/-! ## The machine -/

structure SerialMachine where
  mode : Mode
  mem : Mem 32

/-- What the debugger is to the library. -/
def Serial.machine (s : Serial) : SerialMachine := { mode := s.mode, mem := s.mem }

/-- The code at an offset in a segment: real mode's, or one that begins at a physical address. -/
def Mode.far (mode : Mode) (segment : BitVec 32) (offset : BitVec 64) : EntryPoint :=
  if mode = .i8086 then .segOff (segment.setWidth 16) (offset.setWidth 16)
  else .baseOff segment (offset.setWidth 16)

/-- Leaving 286 mode leaves the address the debugger goes on from behind in the BIOS data area. -/
def Stage2.resetVector (m : Stage2) : List Byte :=
  [m.realmode286.setWidth 8, (m.realmode286 >>> 8).setWidth 8, 0#8, 0#8]

/-- Every call returns 1 and does what it says, but for a mode that cannot be reached from the one the
machine is in: that call returns 0.  An image with the stub stays in real mode when it is told to go
to long mode. -/
def SerialMachine.Answers (m : Stage2) (t : SerialMachine) (q : SerialQuery) (r : SerialAnswer)
    (t' : SerialMachine) : Prop :=
  match q.call with
  | .test => r.outcome = .returned 1 ∧ t' = t
  | .mode target =>
    if t.mode = .i8086 ∨ target = .i8086 then
      r.outcome = .returned 1
        ∧ t'.mode = (if target = .x64 ∧ m.hasX64 = false then .i8086 else target)
        ∧ if t.mode = .i286 then Stored t.mem t'.mem 0x467 m.resetVector else t'.mem = t.mem
    else r.outcome = .returned 0 ∧ t' = t
  | .read addr count =>
    r.outcome = .returned 1 ∧ Fetched t.mem addr.toNat count.toNat r.buf ∧ t' = t
  | .write addr count buf =>
    r.outcome = .returned 1 ∧ t'.mode = t.mode
      ∧ Stored t.mem t'.mem addr.toNat (bytesAt buf 0 count.toNat)
  | .execSegOff segment offset _ =>
    r.outcome = .returned 1 ∧ t' = { t with mem := m.code (t.mode.far segment offset) t.mem }
  | .execOff offset _ =>
    r.outcome = .returned 1 ∧ t' = { t with mem := m.code (.near offset) t.mem }

/-! ## Calls that are answered -/

/-- The part has a pointer to every byte of the range and a register for the count, and the range ends
where its memory does or before. -/
def Mode.Reaches (a n : ℕ) : Mode → Prop
  | .i8086 => a < 2 ^ 20 ∧ a + n ≤ 2 ^ 20 ∧ a % 16 + n ≤ 2 ^ 16 ∧ n < 2 ^ 16
  | .i286 => a < 2 ^ 24 ∧ a + n ≤ 2 ^ 24 ∧ n < 2 ^ 16
  | .i386x16 => a + n ≤ 2 ^ 32 ∧ n < 2 ^ 16
  | .i386x32 => a + n ≤ 2 ^ 32
  | .x64 => a + n ≤ 2 ^ 32

instance (a n : ℕ) : DecidablePred (Mode.Reaches a n)
  | .i8086 => inferInstanceAs (Decidable (_ ∧ _))
  | .i286 => inferInstanceAs (Decidable (_ ∧ _))
  | .i386x16 => inferInstanceAs (Decidable (_ ∧ _))
  | .i386x32 => inferInstanceAs (Decidable (_ ≤ _))
  | .x64 => inferInstanceAs (Decidable (_ ≤ _))

/-- The call is one for the mode the machine is in.  A write of half the address space or more fails
at the first write(2). -/
def SerialCall.Suits (mode : Mode) : SerialCall → Prop
  | .test => True
  | .mode _ => True
  | .read addr count => mode.Reaches addr.toNat count.toNat
  | .write addr count _ => mode.Reaches addr.toNat count.toNat ∧ count.toNat < 2 ^ 31
  | .execSegOff segment offset _ =>
    mode = .i8086 ∧ segment.toNat < 2 ^ 16 ∧ offset.toNat < 2 ^ 16
      ∨ mode = .i286 ∧ segment.toNat < 2 ^ 24 ∧ offset.toNat < 2 ^ 16
      ∨ mode = .i386x16 ∧ offset.toNat < 2 ^ 16
  | .execOff offset _ => mode = .i386x32 ∧ offset.toNat < 2 ^ 32 ∨ mode = .x64

instance (mode : Mode) : DecidablePred (SerialCall.Suits mode)
  | .test => isTrue trivial
  | .mode _ => isTrue trivial
  | .read addr count => inferInstanceAs (Decidable (mode.Reaches addr.toNat count.toNat))
  | .write _ _ _ => inferInstanceAs (Decidable (_ ∧ _))
  | .execSegOff _ _ _ => inferInstanceAs (Decidable (_ ∨ _))
  | .execOff _ _ => inferInstanceAs (Decidable (_ ∨ _))

/-- What the call sends. -/
def SerialCall.sends : SerialCall → List Byte
  | .test => ascii "TEST" ++ [0x0A#8]
  | .mode target => target.command ++ [0x0A#8]
  | .read addr count => readbCommand addr count ++ [0x0A#8]
  | .write addr count buf => writebCommand addr count ++ [0x0A#8] ++ bytesAt buf 0 count.toNat
  | .execSegOff segment offset _ =>
    ascii "EXEC " ++ numeral segment.toNat ++ ascii " " ++ numeral offset.toNat ++ [0x0A#8]
  | .execOff offset _ => ascii "EXEC " ++ numeral offset.toNat ++ [0x0A#8]

/-- At most how many bytes answer it. -/
def SerialCall.receives : SerialCall → ℕ
  | .read _ count => count.toNat + 5
  | _ => 22

def SerialCall.timeout : SerialCall → BitVec 64
  | .execSegOff _ _ timeoutS => (timeoutS * 1000000).setWidth 64
  | .execOff _ timeoutS => (timeoutS * 1000000).setWidth 64
  | _ => 1000000

/-- None comes to 0, and as many as there are bytes move something. -/
structure Suffice (n : ℕ) (cs : List CallResult) : Prop where
  zero : .zero ∉ cs
  enough : n ≤ cs.countP fun c => c ≠ .error

/-- The descriptor takes what the call sends and brings what answers it before the time is over.  A
write(2) of data that comes to -1 fails an assertion. -/
structure SerialQuery.Served (q : SerialQuery) : Prop where
  writes : Suffice q.call.sends.length q.tty.writes
  data : ∀ addr count buf, q.call = .write addr count buf → .error ∉ q.tty.writes
  reads : Suffice q.call.receives q.tty.reads
  clock : ∃ now clock, q.tty.clock = now :: clock ∧ q.tty.reads.length ≤ clock.length
    ∧ ∀ t ∈ clock, ¬ (endTime now q.call.timeout).sle t

end RemoteX86
