import RemoteX86.Device

/-!
# The host library for the Ethernet debugger

`comm/e_lib.c`: the four commands, each a loop of up to three rounds that sends the request, waits
for a datagram and looks at it, and the transfers that cut a range into blocks of 1400 bytes.

The socket is a `Net`: what `sendto` returns, and what the wait for data that follows it brings.
The loops are written over any such socket, so the same code runs against a device, against a
script of arriving datagrams, or step by step.
-/

namespace RemoteX86

open Hex Memory

/-! ## The C library -/

/-- `!strncmp(r, s, n)` with `n` the length of `s`, of a buffer ended by a zero byte. -/
def strncmpEq (r s : List Byte) : Bool := s.isPrefixOf r

/-- From the first `c` on, if it comes before the end of the string. -/
def strchr (c : Byte) : List Byte → Option (List Byte)
  | [] => none
  | b :: p => if b = c then some (b :: p) else if b = 0 then none else strchr c p

def isspace (c : Byte) : Bool := c == 0x20#8 || (decide (0x09#8 ≤ c) && decide (c ≤ 0x0D#8))

/-- The digits of a number in base 16, and what follows them. -/
def takeDigits (p : List Byte) : List Byte × List Byte :=
  p.span fun c => (digitVal c).isSome

/-- `strtoull(p, &p, 16)`, and `strtoul` where `long` has 64 bits: white space, a sign, `0x` before
a digit, digits; no digits leave the pointer where it was, and a value that does not fit is
`ULLONG_MAX`. -/
def strtoull (p : List Byte) : BitVec 64 × List Byte :=
  let q := p.dropWhile isspace
  let neg := q.head? == some 0x2D#8
  let q := if neg || q.head? == some 0x2B#8 then q.drop 1 else q
  let hex := (strncmpEq q (ascii "0x") || strncmpEq q (ascii "0X")) &&
    !(takeDigits (q.drop 2)).1.isEmpty
  let ds := takeDigits (if hex then q.drop 2 else q)
  if ds.1.isEmpty then (0, p)
  else
    let v := value 0 ds.1
    (if 2 ^ 64 ≤ v then BitVec.allOnes 64
      else if neg then - BitVec.ofNat 64 v else BitVec.ofNat 64 v, ds.2)

/-! ## Requests and replies -/

/-- What a round of a retry loop makes of the datagram it took: give up, return 1 with what is
copied to the caller, or go round again. -/
inductive Verdict where
  | fail
  | done (buf : List Byte)
  | again
  deriving DecidableEq

/-- `recvfrom` into a buffer of `size` bytes, of which the last is kept for the zero. -/
def recvfrom (size : ℕ) (check : List Byte → Verdict) (datagram : List Byte) : Verdict :=
  let r := datagram.take (size - 1)
  if r.length = 0 then .fail else check r

/-- A command as its loop sees it: the datagram every round sends, and the look at a reply. -/
structure Call where
  request : List Byte
  reply : List Byte → Verdict

def testCall : Call where
  request := ascii "TEST"
  reply := recvfrom 64 fun r => if strncmpEq r (ascii "OK ") then .done [] else .again

/-- The check of `remote_eth_write_block`: the echoed address, then the echoed sequence number. -/
def writeReply (addr : BitVec 64) (seq : BitVec 32) (r : List Byte) : Verdict :=
  if !strncmpEq r (ascii "OK ") then .fail
  else
    let a := strtoull (r.drop 3)
    if a.1 ≠ addr then .fail
    else if (strtoull (a.2.dropWhile (· == 0x20#8))).1 ≠ seq.setWidth 64 then .fail
    else .done []

def writeCall (addr : BitVec 64) (seq : BitVec 32) (buf : List Byte) : Call where
  request :=
    ascii "WRITE " ++ numeral addr.toNat ++ [0x20#8] ++ numeral seq.toNat ++ [0x0A#8] ++ buf
  reply := recvfrom 2200 (writeReply addr seq)

/-- The check of `remote_eth_read_block`: the text before the first newline is the header, what
follows it is data. -/
def readReply (addr : BitVec 64) (len : ℕ) (r : List Byte) : Verdict :=
  match strchr 0x0A#8 r with
  | none => .again
  | some q =>
    let data := q.drop 1
    let hdr := r.take (r.length - q.length)
    if data.length < len then .fail
    else if !strncmpEq hdr (ascii "OK ") then .fail
    else if (strtoull (hdr.drop 3)).1 ≠ addr then .fail
    else .done (data.take len)

def readCall (addr : BitVec 64) (len : ℕ) : Call where
  request := ascii "READ " ++ numeral addr.toNat ++ [0x20#8] ++ numeral len
  reply := recvfrom 2000 (readReply addr len)

def execCall (addr : BitVec 64) (seq : BitVec 32) : Call where
  request := ascii "EXEC " ++ numeral addr.toNat ++ [0x20#8] ++ numeral seq.toNat
  reply := recvfrom 64 fun r => if strncmpEq r (ascii "OK ") then .done [] else .again

/-! ## The socket and the loops -/

structure SockAddr where
  addr : Ipv4Address
  port : BitVec 16
  deriving DecidableEq

/-- What a wait for data and the `recvfrom` after it come to. -/
inductive Wait where
  | timeout
  | error
  | datagram (data : List Byte) (sender : SockAddr)

structure Net (σ : Type*) where
  sendto : σ → SockAddr → List Byte → σ × ℤ
  wait : σ → σ × Wait
  time : σ → BitVec 32

/-- A socket that takes every datagram sent, and at which what `script` says arrives. -/
def scriptNet : Net (List Wait) where
  sendto script _ data := (script, data.length)
  wait
    | [] => ([], .timeout)
    | w :: script => (script, w)
  time _ := 1

/-- The connection, and the sequence number `remote_eth_write_block` keeps between calls. -/
structure RemoteEthConnection where
  ipAddr : SockAddr
  seq : BitVec 32

def remoteEthSocket (addr : Ipv4Address) : RemoteEthConnection :=
  { ipAddr := { addr := addr, port := 777 }, seq := 0 }

section Loops

variable {σ : Type*} (net : Net σ)

/-- The rounds a command has left.  `sendto`'s result is compared as an unsigned number, and
`recvfrom` leaves the sender's address where the destination was. -/
def retryLoop (call : Call) : ℕ → RemoteEthConnection → σ →
    Option (List Byte) × RemoteEthConnection × σ
  | 0, c, s => (none, c, s)
  | retry + 1, c, s =>
    let sent := net.sendto s c.ipAddr call.request
    if (BitVec.ofInt 64 sent.2).toNat < call.request.length then (none, c, sent.1)
    else
      match net.wait sent.1 with
      | (s, .timeout) => retryLoop call retry c s
      | (s, .error) => (none, c, s)
      | (s, .datagram data sender) =>
        let c := { c with ipAddr := sender }
        match call.reply data with
        | .fail => (none, c, s)
        | .done buf => (some buf, c, s)
        | .again => retryLoop call retry c s

def remoteEthTest (c : RemoteEthConnection) (s : σ) :
    Option (List Byte) × RemoteEthConnection × σ :=
  retryLoop net testCall 3 c s

/-- The sequence number of the next block. -/
def nextSeq (seq time : BitVec 32) : BitVec 32 := if seq = 0 then time else seq + 1

/-- `buf` is the caller's memory from the pointer on, and `len` an `int`. -/
def remoteEthWriteBlock (addr : BitVec 64) (buf : List Byte) (len : ℤ) (c : RemoteEthConnection)
    (s : σ) : Option (List Byte) × RemoteEthConnection × σ :=
  if len < 0 ∨ 1400 < len then (none, c, s)
  else
    let seq := nextSeq c.seq (net.time s)
    retryLoop net (writeCall addr seq (buf.take len.toNat)) 3 { c with seq := seq } s

def remoteEthReadBlock (addr : BitVec 64) (len : ℤ) (c : RemoteEthConnection) (s : σ) :
    Option (List Byte) × RemoteEthConnection × σ :=
  if len < 0 ∨ 1400 < len then (none, c, s)
  else retryLoop net (readCall addr len.toNat) 3 c s

def remoteEthExec (addr : BitVec 64) (c : RemoteEthConnection) (s : σ) :
    Option (List Byte) × RemoteEthConnection × σ :=
  retryLoop net (execCall addr (net.time s)) 3 c s

def remoteEthRead (addr : BitVec 64) (len : ℤ) (c : RemoteEthConnection) (s : σ) :
    Option (List Byte) × RemoteEthConnection × σ :=
  if 1400 ≤ len then
    match remoteEthReadBlock net addr 1400 c s with
    | (none, c, s) => (none, c, s)
    | (some buf, c, s) =>
      let r := remoteEthRead (addr + 1400#64) (len - 1400) c s
      (r.1.map (buf ++ ·), r.2)
  else if 0 < len then remoteEthReadBlock net addr len c s
  else (some [], c, s)
  termination_by len.toNat
  decreasing_by omega

def remoteEthWrite (addr : BitVec 64) (buf : List Byte) (len : ℤ) (c : RemoteEthConnection)
    (s : σ) : Option (List Byte) × RemoteEthConnection × σ :=
  if 1400 ≤ len then
    match remoteEthWriteBlock net addr buf 1400 c s with
    | (none, c, s) => (none, c, s)
    | (some _, c, s) => remoteEthWrite (addr + 1400#64) (buf.drop 1400) (len - 1400) c s
  else if 0 < len then remoteEthWriteBlock net addr buf len c s
  else (some [], c, s)
  termination_by len.toNat
  decreasing_by omega

end Loops

end RemoteX86
