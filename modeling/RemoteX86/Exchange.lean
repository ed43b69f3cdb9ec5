import RemoteX86.Code
import RemoteX86.LineBuffer
import RemoteX86.Proofs.OperandReads
import RemoteX86.SerialClient

/-!
# One command, one response

A stream of bytes as a part of stage 2 takes it: empty lines, a line, and behind the line of a
WRITEB its data.  `Answered` is what the main loop is to do with one such command, from its head to
its head.
-/

namespace RemoteX86

open Hex Memory CallStack

/-! ## Commands -/

/-- The characters of a line, and what is behind its end. -/
def takeLine : List Byte → Option (List Byte × List Byte)
  | [] => none
  | al :: stream =>
    if LineEnd al then some ([], stream)
    else if al = 0x1B#8 then
      match stream with
      | [] => none
      | al :: stream => (takeLine stream).map fun r => (al :: r.1, r.2)
    else (takeLine stream).map fun r => (al :: r.1, r.2)

/-- What is left behind the empty lines. -/
def skipEmpty (stream : List Byte) : List Byte := stream.dropWhile fun al => decide (LineEnd al)

/-- What `in_buf` holds of a line, the part that is to carry it out, and the data behind it. -/
structure SerialCommand where
  mode : Mode
  line : List Byte
  data : List Byte
  deriving DecidableEq, Repr

namespace Image

variable (img : Image)

/-- The first handler whose word the line begins with. -/
def handler (mode : Mode) (line : List Byte) : Option Handler :=
  mode.handlers.find? fun h => h.word.isPrefixOf (img.inBuf line)

/-- How many bytes of data come behind the line. -/
def dataLength (mode : Mode) (line : List Byte) : ℕ :=
  match img.handler mode line with
  | some .writeb =>
    match mode.address ((img.inBuf line).drop 7) with
    | (none, _) => 0
    | (some _, si) => mode.count si
  | _ => 0

/-- The first command of the stream, if all of it is there. -/
def nextCommand (mode : Mode) (stream : List Byte) : Option (SerialCommand × List Byte) :=
  (takeLine (skipEmpty stream)).bind fun r =>
    let n := img.dataLength mode (kept r.1)
    if n ≤ r.2.length then some (⟨mode, kept r.1, r.2.take n⟩, r.2.drop n) else none

/-- Where a command for another mode leads. -/
def destination (target : Mode) : Mode :=
  if target = .x64 ∧ img.hasX64 = false then .i8086 else target

end Image

namespace SerialCommand

variable (img : Image) (c : SerialCommand)

def handler : Option Handler := img.handler c.mode c.line

/-- The part that takes the next command. -/
def next : Mode :=
  match c.handler img with
  | some (.jump target) => img.destination target
  | _ => c.mode

def SwitchesMode : Prop := ∃ target, c.handler img = some (.jump target)

/-- One handler or the unknown-command path, one response, and the right flag.  A jump does not come
back to `_main_loop`, so there is no flag. -/
def milestones : List Milestone :=
  match c.handler img with
  | some (.jump target) => [.heard (.jump target), .answer]
  | some h => [.heard h, .answer, .understood false]
  | none => [.understood true, .answer]

/-- How many bytes of memory the command goes through. -/
def span : Handler → ℕ
  | .read => c.mode.count (c.mode.address ((img.inBuf c.line).drop 5)).2
  | .readb => c.mode.count (c.mode.address ((img.inBuf c.line).drop 6)).2
  | .write => writeValues true (c.line.drop 6)
  | .writeb => c.mode.count (c.mode.address ((img.inBuf c.line).drop 7)).2
  | _ => 0

/-- Each of these bytes has a page. -/
def InReach : Prop :=
  ∀ h, c.handler img = some h → ∀ ptr,
    (c.mode.address ((img.inBuf c.line).drop h.word.length)).1 = some ptr →
      ptr.Present (c.span img h)

end SerialCommand

namespace Image

variable (img : Image)

/-- The commands of a stream, for a part that is given the first of them.  None is empty, so the
length of the stream is fuel enough. -/
def commandsLoop : ℕ → Mode → List Byte → List SerialCommand
  | 0, _, _ => []
  | fuel + 1, mode, stream =>
    match img.nextCommand mode stream with
    | none => []
    | some (c, rest) => c :: commandsLoop fuel (c.next img) rest

def commands (mode : Mode) (stream : List Byte) : List SerialCommand :=
  img.commandsLoop stream.length mode stream

/-! ## Answers -/

/-- Code started by EXEC comes back properly. -/
def Returning : Prop := ∀ e mem, (img.leaves e mem).isSome

end Image

def IsResponse (r : List Byte) : Prop :=
  ∃ msg, r = ascii "OK " ++ msg ++ crlf ∨ r = ascii "ERR " ++ msg ++ crlf

abbrev State := Machine Loc Cpu Saved

/-- One command taken from the line and answered once. -/
structure Answered (img : Image) (s : State) (c : SerialCommand) (t : State) : Prop where
  start : s.code = img.listing (c.mode, .mainLoop)
  takes : img.nextCommand c.mode s.data.world.input = some (c, t.data.world.input)
  runs : Runs img.listing s t
  loop : t.code = img.listing (c.next img, .mainLoop)
  milestones : t.data.world.log = s.data.world.log ++ c.milestones img
  response : ∃ r, IsResponse r ∧ t.data.world.out = s.data.world.out ++ r
  stack : ¬ c.SwitchesMode img → t.stack = s.stack
  /-- Also where the command is for the mode the machine is in. -/
  fresh : c.SwitchesMode img → t.stack = []

/-- One after another. -/
inductive AnsweredEach (img : Image) : State → List SerialCommand → State → Prop
  | nil {s : State} : AnsweredEach img s [] s
  | cons {s t u : State} {c : SerialCommand} {cs : List SerialCommand} :
    Answered img s c t → AnsweredEach img t cs u → AnsweredEach img s (c :: cs) u

/-- No command is left, and if there is no line either, nothing more is sent while the machine waits
for the rest of one. -/
structure AtRest (img : Image) (mode : Mode) (s : State) : Prop where
  loop : s.code = img.listing (mode, .mainLoop)
  left : img.nextCommand mode s.data.world.input = none
  silent : takeLine (skipEmpty s.data.world.input) = none → ∃ t, Runs img.listing s t ∧
    Stuck img.listing t ∧ t.data.world = { s.data.world with input := [] }

/-- The main loop answers every command of the stream exactly once. -/
def OneResponseEach (img : Image) (mode : Mode) (st : List (Word Loc Cpu Saved)) (d : Cpu) : Prop :=
  ∃ t mode', AnsweredEach img ⟨img.listing (mode, .mainLoop), st, d⟩
    (img.commands mode d.world.input) t ∧ AtRest img mode' t

end RemoteX86
