import RemoteX86.Client

/-!
# Where the library's commands go

A sequence of calls on one connection over any socket, with a log of the addresses commands were
sent to and the addresses datagrams were taken from, the newest first.
-/

namespace RemoteX86

open Hex

inductive ApiCall where
  | test
  | read (addr : BitVec 64) (len : ℤ)
  | write (addr : BitVec 64) (buf : List Byte) (len : ℤ)
  | exec (addr : BitVec 64)

inductive Event where
  | sent (dst : SockAddr)
  | taken (sender : SockAddr)
  deriving DecidableEq

section Calls

variable {σ : Type*} (net : Net σ)

def ApiCall.run (c : RemoteEthConnection) (s : σ) :
    ApiCall → Option (List Byte) × RemoteEthConnection × σ
  | .test => remoteEthTest net c s
  | .read addr len => remoteEthRead net addr len c s
  | .write addr buf len => remoteEthWrite net addr buf len c s
  | .exec addr => remoteEthExec net addr c s

def runCalls (c : RemoteEthConnection) (s : σ) : List ApiCall → RemoteEthConnection × σ
  | [] => (c, s)
  | call :: calls =>
    let r := call.run net c s
    runCalls r.2.1 r.2.2 calls

/-- The same socket, keeping a log. -/
def Net.logged : Net (σ × List Event) where
  sendto s dst data :=
    let r := net.sendto s.1 dst data
    ((r.1, .sent dst :: s.2), r.2)
  wait s :=
    match net.wait s.1 with
    | (s', .datagram data sender) => ((s', .taken sender :: s.2), .datagram data sender)
    | (s', .timeout) => ((s', s.2), .timeout)
    | (s', .error) => ((s', s.2), .error)
  time s := net.time s.1

end Calls

/-- Every command went to `dst`, and the next one would. -/
def AllSentTo (dst : SockAddr) (c : RemoteEthConnection) (log : List Event) : Prop :=
  (∀ d, .sent d ∈ log → d = dst) ∧ c.ipAddr = dst

/-- Every datagram taken came from `dst`. -/
def AllTakenFrom (dst : SockAddr) (log : List Event) : Prop :=
  ∀ d, .taken d ∈ log → d = dst

end RemoteX86
