import RemoteX86.Client
import RemoteX86.Lib.Transition

/-!
# A client and the debugger, step by step

One client makes one call after another against the debugger.  Requests and replies are in flight in
two channels that keep their order but may lose, delay or double what they carry; the client's wait
may time out at any moment, so that its loop sends again.

`ι` says what a call asks for and `toCall` which command that is.  Every datagram in flight carries
the number of the call it belongs to, and the session keeps lists of the calls made, of what the
device handled and of the contents of its memory during the current call; none of these is seen
by client or device.
-/

namespace RemoteX86

open Hex Memory Transition

/-- What a round makes of its wait with `left` rounds to go: the call's result, or another round.
No datagram arrived if the wait timed out. -/
def afterWait (call : Call) (left : ℕ) (arrived : Option (List Byte)) :
    Option (Option (List Byte)) :=
  match (arrived.map call.reply).getD .again, left with
  | .fail, _ => some none
  | .done buf, _ => some (some buf)
  | .again, 0 => some none
  | .again, _ + 1 => none

inductive Phase (ι : Type*) where
  | ready
  | waiting (job : ι) (left : ℕ)
  | returned (job : ι) (result : Option (List Byte))
  deriving DecidableEq

structure Request (ι : Type*) where
  call : ℕ
  job : ι
  deriving DecidableEq

structure Reply (ι : Type*) where
  call : ℕ
  job : ι
  data : List Byte
  deriving DecidableEq

/-- A request the device handled, and the addresses it called for it. -/
structure Handled (ι : Type*) where
  call : ℕ
  job : ι
  ran : List (BitVec 32)
  deriving DecidableEq

structure Session (ι : Type*) where
  dev : Device
  jobs : List ι
  phase : Phase ι
  reqs : List (Request ι)
  reps : List (Reply ι)
  handled : List (Handled ι)
  moments : List (Mem 32)

inductive Action (ι : Type*) where
  | start (job : ι)
  | timeout
  | receive
  | deliver (after : List Byte)
  | loseReq (k : ℕ)
  | loseRep (k : ℕ)
  | dupReq (k : ℕ)
  | dupRep (k : ℕ)
  | poke (mem : Mem 32)

namespace Session

variable {ι : Type*}

def init (dev : Device) : Session ι :=
  { dev := dev, jobs := [], phase := .ready, reqs := [], reps := [], handled := [], moments := [] }

/-- The number of the current call. -/
def current (s : Session ι) : ℕ := s.jobs.length - 1

/-- What the current call asks for. -/
def job? (s : Session ι) : Option ι :=
  match s.phase with
  | .ready => none
  | .waiting job _ => some job
  | .returned job _ => some job

/-- A call begins: its first round sends the request. -/
def start (s : Session ι) (job : ι) : Session ι :=
  { s with
    jobs := s.jobs ++ [job]
    phase := .waiting job 2
    reqs := s.reqs ++ [{ call := s.jobs.length, job := job }]
    moments := [s.dev.mem] }

/-- The moments of the current call, with one more if it is still waiting. -/
def note (s : Session ι) (mem : Mem 32) : List (Mem 32) :=
  match s.phase with
  | .waiting _ _ => s.moments ++ [mem]
  | _ => s.moments

variable (toCall : ι → Call) (code : BitVec 32 → Mem 32 → Mem 32)

/-- The client's wait is over. -/
def proceed (s : Session ι) (job : ι) (left : ℕ) (arrived : Option (List Byte)) : Session ι :=
  match afterWait (toCall job) left arrived with
  | some result => { s with phase := .returned job result }
  | none =>
    { s with
      phase := .waiting job (left - 1)
      reqs := s.reqs ++ [{ call := s.current, job := job }] }

/-- The command the device runs for a request with `after` behind it in the receive buffer. -/
def command (s : Session ι) (after : List Byte) (r : Request ι) : Command :=
  udpCommand code s.dev ((toCall r.job).request ++ after) (toCall r.job).request.length

/-- The device handles the request `r` and answers. -/
def handle (s : Session ι) (after : List Byte) (r : Request ι) (reqs : List (Request ι)) :
    Session ι :=
  let c := s.command toCall code after r
  { s with
    dev := c.dev
    reqs := reqs
    reps := s.reps ++ [{ call := r.call, job := r.job, data := c.reply }]
    handled := { call := r.call, job := r.job, ran := c.calls } :: s.handled
    moments := s.note c.dev.mem }

def step (s : Session ι) : Action ι → Option (Session ι)
  | .start job =>
    match s.phase with
    | .waiting _ _ => none
    | _ => some (s.start job)
  | .timeout =>
    match s.phase with
    | .waiting job left => some (s.proceed toCall job left none)
    | _ => none
  | .receive =>
    match s.phase, s.reps with
    | .waiting job left, r :: reps =>
      some ({ s with reps := reps }.proceed toCall job left (some r.data))
    | _, _ => none
  | .deliver after =>
    match s.reqs with
    | [] => none
    | r :: reqs => some (s.handle toCall code after r reqs)
  | .loseReq k => some { s with reqs := s.reqs.eraseIdx k }
  | .loseRep k => some { s with reps := s.reps.eraseIdx k }
  | .dupReq k => some { s with reqs := dupAt s.reqs k }
  | .dupRep k => some { s with reps := dupAt s.reps k }
  | .poke mem =>
    some { s with dev := { s.dev with mem := mem }, moments := s.note mem }

end Session

/-! ## The three kinds of session -/

structure ExecJob where
  addr : BitVec 64
  seq : BitVec 32
  deriving DecidableEq

structure ReadJob where
  addr : BitVec 64
  len : ℕ
  len_le : len ≤ 1400
  deriving DecidableEq

structure WriteJob where
  addr : BitVec 64
  seq : BitVec 32
  buf : List Byte
  len_le : buf.length ≤ 1400
  deriving DecidableEq

def ExecJob.call (j : ExecJob) : Call := execCall j.addr j.seq

def ReadJob.call (j : ReadJob) : Call := readCall j.addr j.len

def WriteJob.call (j : WriteJob) : Call := writeCall j.addr j.seq j.buf

/-! ## What is asked of the steps -/

/-- The device reads the address and the sequence number the datagram was sent with, whatever lies
behind it. -/
def ExecJob.ParsedAsSent (j : ExecJob) (after : List Byte) : Prop :=
  (operands ((j.call.request ++ after).drop 5)).1 = j.addr.setWidth 32
    ∧ (operands ((j.call.request ++ after).drop 5)).2.1 = j.seq

instance (j : ExecJob) (after : List Byte) : Decidable (j.ParsedAsSent after) :=
  inferInstanceAs (Decidable (_ ∧ _))

/-- Every datagram delivered is parsed as it was sent. -/
def Session.ParsesExec (s : Session ExecJob) : Action ExecJob → Prop
  | .deliver after => ∀ r ∈ s.reqs.head?, r.job.ParsedAsSent after
  | _ => True

instance (s : Session ExecJob) (a : Action ExecJob) : Decidable (s.ParsesExec a) :=
  match a with
  | .deliver _ => inferInstanceAs (Decidable (∀ r ∈ s.reqs.head?, _))
  | .start _ | .timeout | .receive | .loseReq _ | .loseRep _ | .dupReq _ | .dupRep _ | .poke _ =>
    isTrue trivial

/-- The device's reply to an EXEC with this sequence number. -/
def execAck (seq : BitVec 32) : List Byte := ascii "OK Complete " ++ hexToStr seq 8

/-- A call begins with an address the device can reach and a sequence number that the device did not
see last and that nothing in flight carries, a datagram delivered is parsed as it was sent, and the
reply taken is one to the call's own sequence number. -/
def Session.FreshExec (s : Session ExecJob) : Action ExecJob → Prop
  | .start job => job.addr.toNat < 2 ^ 32 ∧ job.seq ≠ s.dev.execLastSeq
      ∧ (∀ r ∈ s.reqs, r.job.seq ≠ job.seq) ∧ ∀ r ∈ s.reps, r.data ≠ execAck job.seq
  | .deliver after => ∀ r ∈ s.reqs.head?, r.job.ParsedAsSent after
  | .receive => ∀ job ∈ s.job?, ∀ r ∈ s.reps.head?, r.data = execAck job.seq
  | _ => True

instance (s : Session ExecJob) (a : Action ExecJob) : Decidable (s.FreshExec a) :=
  match a with
  | .start _ => inferInstanceAs (Decidable (_ ∧ _))
  | .deliver _ => inferInstanceAs (Decidable (∀ r ∈ s.reqs.head?, _))
  | .receive => inferInstanceAs (Decidable (∀ job ∈ s.job?, _))
  | .timeout | .loseReq _ | .loseRep _ | .dupReq _ | .dupRep _ | .poke _ => isTrue trivial

/-- The link loses and delays but does not double, and the clock the sequence numbers are taken from
does not go back. -/
def Session.ClockExec (s : Session ExecJob) : Action ExecJob → Prop
  | .start job => ∀ prev ∈ s.job?, prev.seq ≤ job.seq
  | .deliver _ | .receive | .timeout | .loseReq _ | .loseRep _ => True
  | .dupReq _ | .dupRep _ | .poke _ => False

instance (s : Session ExecJob) (a : Action ExecJob) : Decidable (s.ClockExec a) :=
  match a with
  | .start _ => inferInstanceAs (Decidable (∀ prev ∈ s.job?, _))
  | .deliver _ | .receive | .timeout | .loseReq _ | .loseRep _ => isTrue trivial
  | .dupReq _ | .dupRep _ | .poke _ => isFalse id

/-- The addresses the device called because of datagrams of call `i`. -/
def Session.runsOf {ι : Type*} (s : Session ι) (i : ℕ) : List (BitVec 32) :=
  s.handled.flatMap fun e => if e.call = i then e.ran else []

/-- When a call begins, no reply to an earlier read of the same address is on its way. -/
def Session.FreshRead (s : Session ReadJob) : Action ReadJob → Prop
  | .start job => ∀ r ∈ s.reps, r.job.addr.setWidth 32 ≠ job.addr.setWidth 32
  | _ => True

instance (s : Session ReadJob) (a : Action ReadJob) : Decidable (s.FreshRead a) :=
  match a with
  | .start _ => inferInstanceAs (Decidable (∀ r ∈ s.reps, _))
  | .deliver _ | .receive | .timeout | .loseReq _ | .loseRep _ | .dupReq _ | .dupRep _ | .poke _ =>
    isTrue trivial

/-- The link loses and delays but does not double. -/
def Session.Lossy {ι : Type*} (_ : Session ι) : Action ι → Prop
  | .dupReq _ | .dupRep _ => False
  | _ => True

instance {ι : Type*} (s : Session ι) (a : Action ι) : Decidable (s.Lossy a) :=
  match a with
  | .dupReq _ | .dupRep _ => isFalse id
  | .start _ | .deliver _ | .receive | .timeout | .loseReq _ | .loseRep _ | .poke _ =>
    isTrue trivial

/-- The steps of a session of write calls: every call's region lies below `2 ^ 32`, its sequence
number follows the one before it (`seq` before the first call, and the clock says `time i` at call
`i`) and is not zero, and nothing but the session changes memory. -/
def Session.WriteSteps (seq : BitVec 32) (time : ℕ → BitVec 32) (s : Session WriteJob) :
    Action WriteJob → Prop
  | .start job => job.addr.toNat + job.buf.length ≤ 2 ^ 32 ∧ job.seq ≠ 0
      ∧ job.seq = nextSeq ((s.job?.map (·.seq)).getD seq) (time s.jobs.length)
  | .poke _ => False
  | _ => True

instance (seq : BitVec 32) (time : ℕ → BitVec 32) (s : Session WriteJob) (a : Action WriteJob) :
    Decidable (s.WriteSteps seq time a) :=
  match a with
  | .start _ => inferInstanceAs (Decidable (_ ∧ _))
  | .poke _ => isFalse id
  | .deliver _ | .receive | .timeout | .loseReq _ | .loseRep _ | .dupReq _ | .dupRep _ =>
    isTrue trivial

/-- If the last call returned 1, the device has handled one of its datagrams and its data is in
memory. -/
def Session.WriteApplied (s : Session WriteJob) : Prop :=
  ∀ job buf, s.phase = .returned job (some buf) →
    (∃ e ∈ s.handled, e.call = s.current)
      ∧ read s.dev.mem (job.addr.setWidth 32) job.buf.length = job.buf

/-- If the call returned 1, its bytes were in memory at one moment between its start and its
return. -/
def Session.ReadFresh (s : Session ReadJob) : Prop :=
  ∀ job buf, s.phase = .returned job (some buf) →
    job.addr.toNat < 2 ^ 32 ∧ ∃ m ∈ s.moments, buf = read m (job.addr.setWidth 32) job.len

/-- If the call returned 1, the device has run the code at its address because of its datagrams. -/
def Session.ExecAcked (s : Session ExecJob) : Prop :=
  ∀ job buf, s.phase = .returned job (some buf) →
    ∃ a ∈ s.runsOf s.current, a.setWidth 64 = job.addr

end RemoteX86
