import RemoteX86.SerialClient
import RemoteX86.Lib.Pieces

/-!
# The calls of the host library on a descriptor

`comm/s_lib.c` byte by byte, on a descriptor whose read(2) and write(2) come to anything they may come
to: everything asked for, a part of it, nothing, or -1.  What they come to, what comes in on the line
and what the clock says are lists, the next first; a call that has used one up has not returned yet.
-/

namespace RemoteX86

open Hex Memory

/-! ## System calls -/

/-- What read(2) or write(2) comes to: -1, 0, or at most `k + 1` bytes.  No call moves more than
7FFFF000 (hex). -/
inductive CallResult where
  | error
  | zero
  | bytes (k : Fin 0x7FFFF000)
  deriving DecidableEq, Repr

/-- write(2) of `n` bytes.  More than SSIZE_MAX are an error. -/
def CallResult.write (c : CallResult) (n : ℕ) : ℤ :=
  if 2 ^ 63 ≤ n then -1
  else
    match c with
    | .error => -1
    | .zero => 0
    | .bytes k => min (k.val + 1) n

/-- read(2) of `n` bytes from what has come in: its result and the bytes.  None while there is
nothing to read. -/
def CallResult.read (c : CallResult) (n : ℕ) (rx : List Byte) : Option (ℤ × List Byte) :=
  match c with
  | .error => some (-1, [])
  | .zero => some (0, [])
  | .bytes k =>
    let data := rx.take (min (k.val + 1) n)
    if data = [] then none else some (data.length, data)

/-- A call has returned, or an assertion of it has failed, or it has not returned yet. -/
inductive Outcome where
  | returned (v : ℤ)
  | aborted
  | pending
  deriving DecidableEq, Repr

/-- What the calls find on the descriptor from now on. -/
structure Tty where
  clock : List (BitVec 64)
  reads : List CallResult
  rx : List Byte
  writes : List CallResult

/-! ## Reading a line -/

/-- The host's memory, by address. -/
abbrev HostMem := ℕ → Byte

/-- `!strncmp(p, s, n)` with `n` the length of `s`, which has no zero byte. -/
def HostMem.strncmpEq (mem : HostMem) (p : ℕ) : List Byte → Bool
  | [] => true
  | c :: s => mem p == c && HostMem.strncmpEq mem (p + 1) s

/-- The `n` bytes from an address on. -/
def HostMem.read (mem : HostMem) (p n : ℕ) : List Byte := (List.range n).map fun i => mem (p + i)

inductive ResponseEnd where
  | newline
  | timeout
  | eof
  deriving DecidableEq, Repr

/-- The loop of `remote_rs232_get_response`: where it stores next, the addresses it has stored to and
the bytes it has read. -/
structure Reader where
  mem : HostMem
  wp : ℕ
  stored : List ℕ
  taken : List Byte
  tty : Tty

/-- One byte: kept if it is no control character, as a signed character, and there is room. -/
def Reader.take (b : Reader) (fence : ℕ) (c : Byte) : Reader :=
  if (32 ≤ c.toInt ∨ c.toInt < 0) ∧ b.wp < fence then
    { b with
      mem := Function.update b.mem b.wp c
      wp := b.wp + 1
      stored := b.stored ++ [b.wp]
      taken := b.taken ++ [c] }
  else { b with taken := b.taken ++ [c] }

/-- The loop, and how it ends if it does. -/
def getResponseLoop (fence : ℕ) (et : BitVec 64) :
    List (BitVec 64) → Reader → Reader × Option ResponseEnd
  | [], b => ({ b with tty := { b.tty with clock := [] } }, none)
  | t :: clock, b =>
    let b := { b with tty := { b.tty with clock := clock } }
    if et.sle t then (b, some .timeout)
    else
      match b.tty.reads with
      | [] => (b, none)
      | c :: reads =>
        match c.read 1 b.tty.rx with
        | none => (b, none)
        | some (rd, data) =>
          let b := { b with tty := { b.tty with reads := reads, rx := b.tty.rx.drop data.length } }
          if rd = 0 then (b, some .eof)
          -- the loop is tested with `c` still zero
          else if rd < 0 then getResponseLoop fence et clock b
          else
            let c := data.headD 0
            let b := b.take fence c
            if c = 0x0A#8 then (b, some .newline) else getResponseLoop fence et clock b

/-- What a call of `remote_rs232_get_response` comes to. -/
structure Response where
  outcome : Outcome
  ended : Option ResponseEnd
  mem : HostMem
  stored : List ℕ
  taken : List Byte
  tty : Tty

/-- When the call gives up: `timeout` microseconds, rounded up, and two seconds from now. -/
def endTime (now timeout : BitVec 64) : BitVec 64 := now + ((timeout + 999999) / 1000000) + 1 + 1

def remoteRs232GetResponse (mem : HostMem) (buf len : ℕ) (timeout : BitVec 64) (tty : Tty) :
    Response :=
  match tty.clock with
  | [] => { outcome := .pending, ended := none, mem := mem, stored := [], taken := [], tty := tty }
  | now :: clock =>
    let r := getResponseLoop (buf + len - 1) (endTime now timeout) clock
      { mem := mem, wp := buf, stored := [], taken := [], tty := { tty with clock := clock } }
    match r.2 with
    | none =>
      { outcome := .pending, ended := none, mem := r.1.mem, stored := r.1.stored
        taken := r.1.taken, tty := r.1.tty }
    | some ended =>
      let mem := Function.update r.1.mem r.1.wp 0
      let ret : ℤ := if ended = .newline then 0 else -1
      let ret := if ret = 0 ∧ HostMem.strncmpEq mem buf (ascii "OK") = true then 1 else ret
      { outcome := .returned ret, ended := some ended, mem := mem
        stored := r.1.stored ++ [r.1.wp], taken := r.1.taken, tty := r.1.tty }

/-- What a buffer of `len` bytes keeps of some characters: those that are no control characters, as
far as they fit in front of the zero. -/
def keptOf (len : ℕ) (taken : List Byte) : List Byte :=
  (taken.filter (0x20#8 ≤ ·)).take (len - 1)

/-- The call stays in its buffer, stops at the first newline and has a text there when it returns. -/
structure Response.ReadsLine (mem : HostMem) (buf len : ℕ) (rx : List Byte) (r : Response) :
    Prop where
  inside : ∀ a ∈ r.stored, buf ≤ a ∧ a < buf + len
  outside : ∀ a, a < buf ∨ buf + len ≤ a → r.mem a = mem a
  consumed : r.taken ++ r.tty.rx = rx
  line : r.ended = some .newline → ∃ body, r.taken = body ++ [0x0A#8] ∧ 0x0A#8 ∉ body
  noLine : r.ended ≠ some .newline → 0x0A#8 ∉ r.taken
  text : r.outcome ≠ .pending →
    r.mem.read buf ((keptOf len r.taken).length + 1) = keptOf len r.taken ++ [0]
  result : r.outcome = match r.ended with
    | none => .pending
    | some .newline => .returned (if ascii "OK" <+: keptOf len r.taken then 1 else 0)
    | some .timeout => .returned (-1)
    | some .eof => .returned (-1)

/-- Every read(2) up to the last look at the clock comes to something. -/
def Tty.Answers (tty : Tty) : Prop :=
  tty.clock.length ≤ tty.reads.length
    ∧ (tty.reads.filter fun c => c ≠ .error ∧ c ≠ .zero).length ≤ tty.rx.length

/-! ## Reading data -/

/-- What a loop that reads has stored, and how it ended. -/
structure Collected where
  outcome : Outcome
  buf : List Byte
  reads : List CallResult
  rx : List Byte

def readForcedLoop (sz r : ℕ) (buf : List Byte) (rx : List Byte) : List CallResult → Collected
  | [] =>
    { outcome := if sz = 0 then .returned r else .pending, buf := buf, reads := [], rx := rx }
  | c :: reads =>
    if sz = 0 then { outcome := .returned r, buf := buf, reads := c :: reads, rx := rx }
    else
      match c.read sz rx with
      | none => { outcome := .pending, buf := buf, reads := c :: reads, rx := rx }
      | some (rd, data) =>
        if rd = 0 then
          { outcome := .returned (if r = 0 then -1 else r), buf := buf, reads := reads, rx := rx }
        else if rd < 0 then readForcedLoop sz r buf rx reads
        else
          readForcedLoop (sz - rd.toNat) (r + rd.toNat) (buf ++ data) (rx.drop data.length) reads

def readForced (sz : ℕ) (reads : List CallResult) (rx : List Byte) : Collected :=
  readForcedLoop sz 0 [] rx reads

/-- The loop of `remote_rs232_read` over the data, with `r` bytes to go; it leaves with 1 where it
falls through. -/
def readDataLoop (r : BitVec 32) (buf : List Byte) (rx : List Byte) : List CallResult → Collected
  | [] =>
    { outcome := if r = 0 then .returned 1 else .pending, buf := buf, reads := [], rx := rx }
  | c :: reads =>
    if r = 0 then { outcome := .returned 1, buf := buf, reads := c :: reads, rx := rx }
    else
      match c.read r.toNat rx with
      | none => { outcome := .pending, buf := buf, reads := c :: reads, rx := rx }
      | some (rd, data) =>
        if rd = 0 then { outcome := .returned (-1), buf := buf, reads := reads, rx := rx }
        else if rd < 0 then readDataLoop r buf rx reads
        else if ¬ BitVec.ofInt 32 rd ≤ r then
          { outcome := .aborted, buf := buf, reads := reads, rx := rx }
        else readDataLoop (r - BitVec.ofInt 32 rd) (buf ++ data) (rx.drop data.length) reads

/-! ## Sending -/

/-- What a loop that writes has got accepted, and how it ended. -/
structure Sent where
  outcome : Outcome
  tx : List Byte
  writes : List CallResult

/-- The loop of `remote_rs232_send_command` over the command; it leaves with 1 where it falls through
or breaks. -/
def sendCommandLoop (cmd tx : List Byte) : List CallResult → Sent
  | [] => { outcome := if cmd = [] then .returned 1 else .pending, tx := tx, writes := [] }
  | c :: writes =>
    if cmd = [] then { outcome := .returned 1, tx := tx, writes := c :: writes }
    else
      let wd := c.write cmd.length
      if 0 < wd then sendCommandLoop (cmd.drop wd.toNat) (tx ++ cmd.take wd.toNat) writes
      else if wd = 0 then { outcome := .returned 1, tx := tx, writes := writes }
      else sendCommandLoop cmd tx writes

/-- The loop over the newline. -/
def sendNewlineLoop (tx : List Byte) : List CallResult → Sent
  | [] => { outcome := .pending, tx := tx, writes := [] }
  | c :: writes =>
    let wd := c.write 1
    if wd = -1 then sendNewlineLoop tx writes
    else if wd = 0 then { outcome := .returned 0, tx := tx, writes := writes }
    else { outcome := .returned 1, tx := tx ++ [0x0A#8], writes := writes }

namespace Tty

def remoteRs232SendCommand (cmd : List Byte) (writes : List CallResult) : Sent :=
  let r := sendCommandLoop cmd [] writes
  if r.outcome = .pending then r else sendNewlineLoop r.tx r.writes

end Tty

/-- The loop of `remote_rs232_write` over the data: how far the pointer is behind `buf`, every value
it has had, how many bytes are to go, and what has been accepted. -/
structure Sending where
  p : ℤ
  visited : List ℤ
  r : BitVec 32
  tx : List Byte

/-- The `n` bytes from an offset on. -/
def bytesAt (buf : ℤ → Byte) (p : ℤ) (n : ℕ) : List Byte :=
  (List.range n).map fun i : ℕ => buf (p + i)

/-- The loop leaves with 1 where it falls through. -/
def writeDataLoop (buf : ℤ → Byte) :
    List CallResult → Sending → Sending × Outcome × List CallResult
  | [], b => (b, if b.r = 0 then .returned 1 else .pending, [])
  | c :: writes, b =>
    if b.r = 0 then (b, .returned 1, c :: writes)
    else
      -- `const int wr = r`, which write(2) takes as a size_t
      let wr := b.r.toInt
      let wd := c.write (BitVec.ofInt 64 wr).toNat
      let b := { b with tx := b.tx ++ bytesAt buf b.p wd.toNat }
      if wd = 0 then (b, .returned (-1), writes)
      -- the assertion compares as unsigned
      else if ¬ BitVec.ofInt 32 wd ≤ b.r then (b, .aborted, writes)
      else
        writeDataLoop buf writes
          { b with p := b.p + wd, visited := b.visited ++ [b.p + wd]
                   r := b.r - BitVec.ofInt 32 wd }

/-! ## READB and WRITEB -/

/-- What a call of `remote_rs232_read` comes to: its result, what it has stored from `buf` on, and
what is left on the line. -/
structure ReadCall where
  outcome : Outcome
  buf : List Byte
  rx : List Byte

/-- What a call of `remote_rs232_write` comes to: its result, what has been accepted, the values of
its pointer, and what is left on the line. -/
structure WriteCall where
  outcome : Outcome
  tx : List Byte
  visited : List ℤ
  rx : List Byte

def readbCommand (addr : BitVec 64) (count : BitVec 32) : List Byte :=
  ascii "READB " ++ numeral addr.toNat ++ ascii " " ++ numeral count.toNat

def writebCommand (addr : BitVec 64) (count : BitVec 32) : List Byte :=
  ascii "WRITEB " ++ numeral addr.toNat ++ ascii " " ++ numeral count.toNat

namespace Tty

/-- The data and the line end of a READB, once its OK has been read. -/
def readBody (count : BitVec 32) (reads : List CallResult) (rx : List Byte) : ReadCall :=
  let data := readDataLoop count [] rx reads
  if data.outcome ≠ .returned 1 then { outcome := data.outcome, buf := data.buf, rx := data.rx }
  else
    let trailer := readForced 2 data.reads data.rx
    if trailer.outcome = .pending then { outcome := .pending, buf := data.buf, rx := trailer.rx }
    else if trailer.outcome ≠ .returned 2 ∨ trailer.buf ≠ crlf then
      { outcome := .returned (-1), buf := data.buf, rx := trailer.rx }
    else { outcome := .returned 1, buf := data.buf, rx := trailer.rx }

/-- `line` is the address of the call's own buffer in the host's memory. -/
def remoteRs232Read (mem : HostMem) (line : ℕ) (addr : BitVec 64) (count : BitVec 32)
    (select : ℤ) (tty : Tty) : ReadCall :=
  let sent := remoteRs232SendCommand (readbCommand addr count) tty.writes
  if sent.outcome = .pending then { outcome := .pending, buf := [], rx := tty.rx }
  else if sent.outcome = .returned 0 then { outcome := .returned 0, buf := [], rx := tty.rx }
  else if select ≠ 1 then { outcome := .returned (-1), buf := [], rx := tty.rx }
  else
    let front := readForced 3 tty.reads tty.rx
    if front.outcome = .pending then { outcome := .pending, buf := [], rx := front.rx }
    else if front.outcome ≠ .returned 3 then { outcome := .returned (-1), buf := [], rx := front.rx }
    else if front.buf ≠ ascii "OK " then
      let r := remoteRs232GetResponse mem line 128 1000000
        { tty with reads := front.reads, rx := front.rx, writes := sent.writes }
      { outcome := r.outcome, buf := [], rx := r.tty.rx }
    else readBody count front.reads front.rx

/-- `answer` is what comes in on the line for what has been accepted. -/
def remoteRs232Write (mem : HostMem) (line : ℕ) (addr : BitVec 64) (count : BitVec 32)
    (buf : ℤ → Byte) (answer : List Byte → List Byte) (tty : Tty) : WriteCall :=
  let sent := remoteRs232SendCommand (writebCommand addr count) tty.writes
  if sent.outcome = .pending then
    { outcome := .pending, tx := sent.tx, visited := [], rx := answer sent.tx }
  else if sent.outcome = .returned 0 then
    { outcome := .returned 0, tx := sent.tx, visited := [], rx := answer sent.tx }
  else
    let data := writeDataLoop buf sent.writes { p := 0, visited := [0], r := count, tx := sent.tx }
    let tx := data.1.tx
    if data.2.1 ≠ .returned 1 then
      { outcome := data.2.1, tx := tx, visited := data.1.visited, rx := answer tx }
    else
      let r := remoteRs232GetResponse mem line 128 1000000
        { tty with rx := answer tx, writes := data.2.2 }
      let outcome := match r.outcome with
        | .returned v => .returned (if v ≠ 1 then 0 else 1)
        | o => o
      { outcome := outcome, tx := tx, visited := data.1.visited, rx := r.tty.rx }

end Tty

/-! ## What write(2) comes to -/

/-- A loop that tries again after -1. -/
def CallResult.offer : CallResult → Pieces.Offer
  | .error => .stall
  | .zero => .stop
  | .bytes k => .piece k.val

/-- A write(2) comes to 0 before all of `n` bytes have been accepted. -/
def CutShort (n : ℕ) (writes : List CallResult) : Prop :=
  ∃ after, Pieces.StopsBefore n (writes.map CallResult.offer) after

/-- The loop over a command of `n` characters ends: it has been accepted, or cut short. -/
def CommandEnds (n : ℕ) (writes : List CallResult) : Prop :=
  Pieces.Fills n (writes.map CallResult.offer)
    ∨ Pieces.StopsBefore n (writes.map CallResult.offer) []

/-- The newline has been accepted. -/
def NewlineSent (writes : List CallResult) : Prop :=
  ∃ errors k, writes = errors ++ [.bytes k] ∧ ∀ c ∈ errors, c = .error

/-- The write(2) of the newline comes to 0. -/
def NewlineRefused (writes : List CallResult) : Prop :=
  ∃ errors after, writes = errors ++ .zero :: after ∧ ∀ c ∈ errors, c = .error

/-- A command of `n` characters has been accepted, or cut short, and the newline behind it. -/
def CommandSent (n : ℕ) (writes : List CallResult) : Prop :=
  ∃ text newline, writes = text ++ newline ∧ NewlineSent newline ∧ CommandEnds n text

/-- The newline behind a command has been refused. -/
def CommandRefused (n : ℕ) (writes : List CallResult) : Prop :=
  ∃ text newline, writes = text ++ newline ∧ NewlineRefused newline ∧ CommandEnds n text

/-- A write(2) comes to `c` before all of `n` bytes have been accepted, the first that does not accept
any. -/
def MetBefore (c : CallResult) (n : ℕ) (writes : List CallResult) : Prop :=
  ∃ before after, writes = before ++ c :: after ∧ (∀ d ∈ before, ∃ k, d = .bytes k)
    ∧ Pieces.total (before.map CallResult.offer) < n

/-- A write(2) of `n` bytes comes to -1.  From 80000000 (hex) bytes on the first one does. -/
def DataError (n : ℕ) (writes : List CallResult) : Prop :=
  if 2 ^ 31 ≤ n then writes ≠ [] else MetBefore .error n writes

/-- A write(2) of the data of a WRITEB comes to -1. -/
def WriteError (addr : BitVec 64) (count : BitVec 32) (writes : List CallResult) : Prop :=
  ∃ sent data, writes = sent ++ data ∧ CommandSent (writebCommand addr count).length sent
    ∧ DataError count.toNat data

/-- A write(2) of the data of a WRITEB comes to 0. -/
def WriteZero (addr : BitVec 64) (count : BitVec 32) (writes : List CallResult) : Prop :=
  ∃ sent data, writes = sent ++ data ∧ CommandSent (writebCommand addr count).length sent
    ∧ MetBefore .zero count.toNat data

/-- No assertion fails and the pointer stays in the buffer or at its end. -/
def WriteCall.Safe (r : WriteCall) (count : BitVec 32) : Prop :=
  r.outcome ≠ .aborted ∧ ∀ p ∈ r.visited, 0 ≤ p ∧ p ≤ count.toNat

/-! ## What read(2) comes to -/

/-- A line comes in while the clock is short of `et`; `body` are its characters. -/
inductive LineInTime (et : BitVec 64) :
    List (BitVec 64) → List CallResult → List Byte → List Byte → Prop
  | newline {t clock k reads rx} (ht : ¬ et.sle t) :
      LineInTime et (t :: clock) (.bytes k :: reads) (0x0A#8 :: rx) []
  | byte {t clock k reads c rx body} (ht : ¬ et.sle t) (hc : c ≠ 0x0A#8)
      (h : LineInTime et clock reads rx body) :
      LineInTime et (t :: clock) (.bytes k :: reads) (c :: rx) (c :: body)
  | wait {t clock reads rx body} (ht : ¬ et.sle t) (h : LineInTime et clock reads rx body) :
      LineInTime et (t :: clock) (.error :: reads) rx body

/-- No line comes in before the clock is at `et`, or before read(2) comes to 0; `body` are the
characters that do. -/
inductive BreaksOff (et : BitVec 64) :
    ResponseEnd → List (BitVec 64) → List CallResult → List Byte → List Byte → Prop
  | timeout {t clock reads rx} (ht : et.sle t) : BreaksOff et .timeout (t :: clock) reads rx []
  | eof {t clock reads rx} (ht : ¬ et.sle t) :
      BreaksOff et .eof (t :: clock) (.zero :: reads) rx []
  | byte {e t clock k reads c rx body} (ht : ¬ et.sle t) (hc : c ≠ 0x0A#8)
      (h : BreaksOff et e clock reads rx body) :
      BreaksOff et e (t :: clock) (.bytes k :: reads) (c :: rx) (c :: body)
  | wait {e t clock reads rx body} (ht : ¬ et.sle t) (h : BreaksOff et e clock reads rx body) :
      BreaksOff et e (t :: clock) (.error :: reads) rx body

/-- How the call ends is up to the clock, to read(2) and to what comes in. -/
structure Response.EndsBy (timeout : BitVec 64) (tty : Tty) (r : Response) : Prop where
  newline : r.ended = some .newline ↔ ∃ now clock body, tty.clock = now :: clock
    ∧ LineInTime (endTime now timeout) clock tty.reads tty.rx body
  timedOut : r.ended = some .timeout ↔ ∃ now clock body, tty.clock = now :: clock
    ∧ BreaksOff (endTime now timeout) .timeout clock tty.reads tty.rx body
  eof : r.ended = some .eof ↔ ∃ now clock body, tty.clock = now :: clock
    ∧ BreaksOff (endTime now timeout) .eof clock tty.reads tty.rx body

/-- The response comes in without an end of file, in the three parts in which it is read. -/
def Tty.Arrives (tty : Tty) (count : BitVec 32) : Prop :=
  (∃ data rest, tty.rx = ascii "OK " ++ data ++ crlf ++ rest ∧ data.length = count.toNat)
    ∧ ∃ front data trailer after, tty.reads = front ++ data ++ trailer ++ after
      ∧ Pieces.Fills 3 (front.map CallResult.offer)
      ∧ Pieces.Fills count.toNat (data.map CallResult.offer)
      ∧ Pieces.Fills 2 (trailer.map CallResult.offer)

/-- The first three characters are others, and the rest of their line comes in within a second or so and
does not begin with OK. -/
def Tty.ErrorLine (tty : Tty) : Prop :=
  3 ≤ tty.rx.length ∧ tty.rx.take 3 ≠ ascii "OK "
    ∧ ∃ front after, tty.reads = front ++ after ∧ Pieces.Fills 3 (front.map CallResult.offer)
      ∧ ∃ now clock body, tty.clock = now :: clock
        ∧ LineInTime (endTime now 1000000) clock after (tty.rx.drop 3) body
        ∧ ¬ ascii "OK" <+: keptOf 128 body

/-- What has been read is OK, `count` bytes and the line end, and the buffer holds these bytes. -/
def ReadCall.Delivered (r : ReadCall) (count : BitVec 32) (rx : List Byte) : Prop :=
  rx = ascii "OK " ++ r.buf ++ crlf ++ r.rx ∧ r.buf.length = count.toNat

end RemoteX86
