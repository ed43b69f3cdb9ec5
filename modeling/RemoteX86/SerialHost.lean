import RemoteX86.Client
import RemoteX86.Lib.Transition
import RemoteX86.SerialClient

/-!
# Calls of the host library over the serial line

The calls of `comm/s_lib.c` that send a command and read one line in answer: TEST, the mode switches,
WRITEB and EXEC.  `remoteRs232Mode` is a mode switch against the device itself, on a line that loses
nothing and with no timeout.  `Rs232` is the host against any device that answers every command with
one line, where each wait may end in a timeout before the line has arrived.
-/

namespace RemoteX86

open Hex Memory Transition

/-! ## One response -/

/-- One byte into the buffer of `remote_rs232_get_response`.  As a signed character, a byte from 80
(hex) on is negative, so only those below the space are dropped. -/
def keepResponse (len : ℕ) (buf : List Byte) (c : Byte) : List Byte :=
  if 0x20#8 ≤ c ∧ buf.length < len - 1 then buf ++ [c] else buf

/-- The loop of `remote_rs232_get_response` without its clock: the buffer and what is left on the
line, or none if no line end arrives. -/
def remoteRs232GetResponseLoop (len : ℕ) (buf : List Byte) :
    List Byte → Option (List Byte × List Byte)
  | [] => none
  | c :: rx =>
    if c = 0x0A#8 then some (keepResponse len buf c, rx)
    else remoteRs232GetResponseLoop len (keepResponse len buf c) rx

/-- Its result for a line that has arrived. -/
def responseOk (buf : List Byte) : Bool := strncmpEq buf (ascii "OK")

def tolower (c : Byte) : Byte := if 0x41#8 ≤ c ∧ c ≤ 0x5A#8 then c + 0x20#8 else c

/-- `!strncasecmp(r, s, n)` with `n` the length of `s`. -/
def strncasecmpEq (r s : List Byte) : Bool := strncmpEq (r.map tolower) (s.map tolower)

/-! ## Mode switches -/

/-- The command of the call for a mode. -/
def Mode.command : Mode → List Byte
  | .i8086 => ascii "8086"
  | .i286 => ascii "286"
  | .i386x16 => ascii "386-16"
  | .i386x32 => ascii "386-32"
  | .x64 => ascii "x64"

namespace Stage2

variable (m : Stage2)

/-- The call for a mode: whether it returns 1, and the device behind it.  What the device has sent
and the host has not read yet stands in `out`. -/
def remoteRs232Mode (s : Serial) (mode : Mode) : Bool × Serial :=
  let s := m.feedAll s (remoteRs232SendCommand mode.command)
  match remoteRs232GetResponseLoop 128 [] s.out with
  | some (line, rx) => (responseOk line, { s with out := rx })
  | none => (false, { s with out := [] })

/-- In a sequence of calls every one that returns 1 leaves the device in the mode it names, and every
other one leaves the mode alone. -/
def ModesAgree : Serial → List Mode → Prop
  | _, [] => True
  | s, mode :: calls =>
    let r := m.remoteRs232Mode s mode
    (r.1 = true → r.2.mode = mode) ∧ (r.1 = false → r.2.mode = s.mode) ∧ ModesAgree r.2 calls

/-- Long mode is asked for in real mode only of an image that has it. -/
def AsksForX64 : Serial → List Mode → Prop
  | _, [] => True
  | s, mode :: calls =>
    (mode = .x64 → s.mode = .i8086 → m.hasX64 = true) ∧ AsksForX64 (m.remoteRs232Mode s mode).2 calls

end Stage2

/-! ## Calls with a timeout -/

/-- The calls that wait for one line. -/
inductive Rs232Call where
  | test
  | mode (target : Mode)
  | write (addr : BitVec 64) (count : BitVec 32) (buf : List Byte)
  | execSegOff (segment : BitVec 32) (offset : BitVec 64)
  | execOff (offset : BitVec 64)
  deriving DecidableEq

/-- What the call sends before it waits. -/
def Rs232Call.sends : Rs232Call → List Byte
  | .test => remoteRs232SendCommand (ascii "TEST")
  | .mode target => remoteRs232SendCommand target.command
  | .write addr count buf => remoteRs232WriteLine addr count ++ buf.take count.toNat
  | .execSegOff segment offset => remoteRs232SendCommand
      (ascii "EXEC " ++ numeral segment.toNat ++ ascii " " ++ numeral offset.toNat)
  | .execOff offset => remoteRs232SendCommand (ascii "EXEC " ++ numeral offset.toNat)

/-- One line: its end stands at its end and nowhere before. -/
def IsLine (p : List Byte) : Prop := ∃ body, 0x0A#8 ∉ body ∧ p = body ++ [0x0A#8]

instance (p : List Byte) : Decidable (IsLine p) :=
  decidable_of_iff (p.getLast? = some 0x0A#8 ∧ 0x0A#8 ∉ p.dropLast) <| by
    constructor
    · rintro ⟨hlast, hbody⟩
      obtain ⟨body, rfl⟩ := List.getLast?_eq_some_iff.1 hlast
      exact ⟨body, by simpa using hbody, rfl⟩
    · rintro ⟨body, hbody, rfl⟩
      simpa using hbody

/-- What the host is doing.  A wait has its buffer and the bytes it has read so far; TEST may wait
a second time. -/
inductive Rs232Phase where
  | ready
  | waiting (call : Rs232Call) (again : Bool) (buf : List Byte) (taken : List (ℕ × Byte))
  deriving DecidableEq

/-- A call that has returned: its number, whether it returned 1, and what its last wait had read. -/
structure Returned where
  call : ℕ
  ok : Bool
  taken : List (ℕ × Byte)
  deriving DecidableEq

/-- The host and its line.  Every byte that comes in carries the number of the call it answers, which
the host does not see; `sent` and `answers` are the commands and their answers, by that number. -/
structure Rs232 where
  sent : List (List Byte)
  answers : List (List Byte)
  rx : List (ℕ × Byte)
  phase : Rs232Phase
  returned : List Returned
  deriving DecidableEq

/-- A call begins, and the device will answer it with the line given; the next byte is read; the wait
times out.  An answer takes as long as the steps between them make it take. -/
inductive Rs232Action where
  | call (call : Rs232Call) (answer : List Byte)
  | receive
  | timeout
  deriving DecidableEq

namespace Rs232

def init : Rs232 := { sent := [], answers := [], rx := [], phase := .ready, returned := [] }

/-- The number of the call that has begun last. -/
def current (s : Rs232) : ℕ := s.answers.length - 1

/-- The call returns, with 1 if `ok`. -/
def returns (s : Rs232) (ok : Bool) (taken : List (ℕ × Byte)) : Rs232 :=
  { s with
    phase := .ready
    returned := { call := s.current, ok := ok, taken := taken } :: s.returned }

/-- The line is complete. -/
def lineRead (s : Rs232) (call : Rs232Call) (again : Bool) (buf : List Byte)
    (taken : List (ℕ × Byte)) : Rs232 :=
  if responseOk buf = false then s.returns false taken
  -- "Whoops! Did EXEC complete just after you opened this lib?"
  else if call = .test ∧ again = false ∧ strncasecmpEq buf (ascii "OK Function") = true then
    { s with phase := .waiting call true [] [] }
  else s.returns true taken

def step (s : Rs232) : Rs232Action → Option Rs232
  | .call call answer =>
    if s.phase = .ready ∧ IsLine answer then
      some { s with
        sent := s.sent ++ [call.sends]
        answers := s.answers ++ [answer]
        rx := s.rx ++ answer.map fun c => (s.answers.length, c)
        phase := .waiting call false [] [] }
    else none
  | .receive =>
    match s.phase, s.rx with
    | .waiting call again buf taken, b :: rx =>
      let buf := keepResponse 128 buf b.2
      let taken := taken ++ [b]
      if b.2 = 0x0A#8 then some ({ s with rx := rx }.lineRead call again buf taken)
      else some { s with rx := rx, phase := .waiting call again buf taken }
    | _, _ => none
  | .timeout =>
    match s.phase with
    | .waiting _ _ _ taken => some (s.returns false taken)
    | .ready => none

/-- Every call that returned 1 has read the answer to its own command. -/
def Matched (s : Rs232) : Prop :=
  ∀ r ∈ s.returned, r.ok = true →
    ∃ answer, s.answers[r.call]? = some answer ∧ r.taken = answer.map fun c => (r.call, c)

end Rs232

/-- The first line of what is on its way, and the rest. -/
def splitLine : List (ℕ × Byte) → List (ℕ × Byte) × List (ℕ × Byte)
  | [] => ([], [])
  | b :: rx => if b.2 = 0x0A#8 then ([b], rx) else (b :: (splitLine rx).1, (splitLine rx).2)

/-- What the buffer holds of a line. -/
def lineBuf (line : List (ℕ × Byte)) : List Byte :=
  line.foldl (fun buf b => keepResponse 128 buf b.2) []

/-- Nothing is on its way that the call could take for its answer: no line, or one that is no OK, or
for TEST an answer of EXEC with no OK behind it. -/
def Rs232Call.Clear (call : Rs232Call) (rx : List (ℕ × Byte)) : Prop :=
  rx = [] ∨ responseOk (lineBuf (splitLine rx).1) = false ∨
    (call = .test ∧ strncasecmpEq (lineBuf (splitLine rx).1) (ascii "OK Function") = true ∧
      ((splitLine rx).2 = [] ∨ responseOk (lineBuf (splitLine (splitLine rx).2).1) = false))

instance (call : Rs232Call) (rx : List (ℕ × Byte)) : Decidable (call.Clear rx) :=
  inferInstanceAs (Decidable (_ ∨ _))

/-- Calls begin on a clear line. -/
def Rs232.Clear (s : Rs232) : Rs232Action → Prop
  | .call call _ => call.Clear s.rx
  | .receive => True
  | .timeout => True

instance (s : Rs232) : DecidablePred s.Clear
  | .call call _ => inferInstanceAs (Decidable (call.Clear s.rx))
  | .receive => isTrue trivial
  | .timeout => isTrue trivial

end RemoteX86
