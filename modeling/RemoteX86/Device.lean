import RemoteX86.Lib.Memory
import Mathlib.Data.Vector.Defs

/-!
# The Ethernet debugger's commands

`eth/c-main.c` from the UDP datagram inwards: the operand parsers, the commands of port 777 and the
checks of `net_on_ipv4_udp`.

A pointer into the receive buffer is the list of the bytes from there on, as far as memory goes;
what lies behind the list reads as zero.  The parsers get such a list and nothing else, so they
see the bytes after the datagram exactly as the code does.

`mem` is the machine's memory outside the debugger.  The image, the stack and the packet buffers
are no part of it: what becomes of a debugger that has overwritten itself is not modelled.
-/

namespace RemoteX86

open Hex Memory

/-! ## Bytes of a packet -/

def peek (p : List Byte) (i n : ℕ) : List Byte := (List.range n).map fun k => p.getD (i + k) 0

/-- `!memcmp(p, s, n)` with `n` the length of `s`. -/
def memcmpEq (p s : List Byte) : Bool := peek p 0 s.length == s

def load16 (p : List Byte) (i : ℕ) : BitVec 16 := p.getD (i + 1) 0 ++ p.getD i 0

def ntoh16 (x : BitVec 16) : BitVec 16 := (x <<< 8) ||| (x >>> 8)

def net16 (p : List Byte) (i : ℕ) : BitVec 16 := ntoh16 (load16 p i)

def chksumAdd (chksum : BitVec 32) (wd : BitVec 16) : BitVec 32 :=
  let chksum := chksum + wd.setWidth 32
  let chksum := chksum + (chksum >>> 16)
  chksum &&& 0xFFFF

/-- The running checksum of the first `n` words, leaving out word `skip`. -/
def chksumWords (skip : Option ℕ) (n : ℕ) (p : List Byte) (chksum : BitVec 32) : BitVec 32 :=
  (List.range n).foldl
    (fun c i => if skip = some i then c else chksumAdd c (net16 p (2 * i))) chksum

/-! ## Operands -/

def skipWhitespace (p : List Byte) : List Byte := p.dropWhile (· == 0x20#8)

def chartohex (c : Byte) : Option ℕ :=
  if 0x30#8 ≤ c ∧ c ≤ 0x39#8 then some (c.toNat - 0x30)
  else if 0x61#8 ≤ c ∧ c ≤ 0x66#8 then some ((c.toNat - 0x61) + 10)
  else if 0x41#8 ≤ c ∧ c ≤ 0x46#8 then some ((c.toNat - 0x41) + 10)
  else none

def strtoulHexLoop (val : BitVec 32) : List Byte → BitVec 32 × List Byte
  | [] => (val, [])
  | c :: p =>
    match chartohex c with
    | some digit => strtoulHexLoop ((val <<< 4) ||| BitVec.ofNat 32 digit) p
    | none => (val, c :: p)

def sStrtoulHex (p : List Byte) : BitVec 32 × List Byte :=
  strtoulHexLoop 0#32 (if memcmpEq p (ascii "0x") then p.drop 2 else p)

def hexes : List Byte := ascii "0123456789ABCDEF"

def hexToStr (x : BitVec 32) : ℕ → List Byte
  | 0 => []
  | digits + 1 => hexes.getD (x >>> 28).toNat 0 :: hexToStr (x <<< 4) digits

/-- The two operands of READ, WRITE and EXEC, and the pointer behind them. -/
def operands (p : List Byte) : BitVec 32 × BitVec 32 × List Byte :=
  let a := sStrtoulHex (skipWhitespace p)
  let b := sStrtoulHex (skipWhitespace a.2)
  (a.1, b.1, b.2)

/-! ## The device -/

/-- The drivers whose `init` can succeed and whose `get_packet` can return a frame. -/
inductive NetDriver where
  | pcnet32
  | rtl8101
  | ne2000
  deriving DecidableEq, Repr

/-- Whether `prepare_send_packet(sz, ..)` returns a buffer. -/
def NetDriver.prepareSendPacket : NetDriver → ℕ → Bool
  | .pcnet32, sz => !decide (1600 - 14 < sz)
  | .rtl8101, sz => !decide (1600 - 14 < sz)
  | .ne2000, sz => !decide (1520 ≤ sz)

abbrev Ipv4Address := List.Vector Byte 4

abbrev EthMac := List.Vector Byte 6

def ipv4 (a b c d : Byte) : Ipv4Address := ⟨[a, b, c, d], rfl⟩

def mac (a b c d e f : Byte) : EthMac := ⟨[a, b, c, d, e, f], rfl⟩

structure Device where
  myIpv4Address : Ipv4Address
  myEthMac : EthMac
  chosenNetDrv : NetDriver
  chosenNetDrvOpen : Bool
  alloc : BitVec 32
  execLastSeq : BitVec 32
  mem : Mem 32

/-- A machine right after it started, with nothing in its memory. -/
def debugger : Device where
  myIpv4Address := ipv4 192 168 0 2
  myEthMac := mac 2 0 0 0 0 2
  chosenNetDrv := .ne2000
  chosenNetDrvOpen := true
  alloc := 0x100000
  execLastSeq := 0xFFFFFFFF
  mem := fun _ => 0

/-- `type` is the field as the machine loads it, so in the byte order of the wire. -/
structure EthernetFrameHeader where
  dstMac : EthMac
  srcMac : EthMac
  type : BitVec 16
  deriving DecidableEq

structure Frame where
  hdr : EthernetFrameHeader
  payload : List Byte
  deriving DecidableEq

/-! ## Commands -/

/-- What a command does: the memory it leaves, the copies into memory and the calls it made on the
way, and the data of its reply. -/
structure Command where
  dev : Device
  writes : List (BitVec 32 × List Byte)
  calls : List (BitVec 32)
  reply : List Byte

/-- Move `p` to the first newline before the fence, which is `left` bytes away. -/
def seekNewline : ℕ → List Byte → List Byte
  | 0, p => p
  | _ + 1, [] => []
  | left + 1, c :: p => if c ≠ 0x0A#8 then seekNewline left p else c :: p

/-- Where the data of a WRITE begins: the operands are parsed without regard to the fence, then the
first newline before it is looked for. -/
def writeData (data : List Byte) (dataLength : ℕ) : List Byte :=
  let p := (operands (data.drop 5)).2.2
  let p := seekNewline (dataLength - (data.length - p.length)) p
  if data.length - p.length < dataLength ∧ p.head? = some 0x0A#8 then p.drop 1 else p

def writeDataLen (data : List Byte) (dataLength : ℕ) : ℕ :=
  (BitVec.ofNat 32 dataLength
    - BitVec.ofNat 32 (data.length - (writeData data dataLength).length)).toNat

section Commands

variable (code : BitVec 32 → Mem 32 → Mem 32)

def commandTest (dev : Device) : Command :=
  { dev := dev, writes := [], calls := [], reply := ascii "OK x86-32" }

def commandRead (dev : Device) (data : List Byte) : Command :=
  let ops := operands (data.drop 5)
  let address := ops.1
  let size := if 1400 < ops.2.1.toNat then 1400 else ops.2.1.toNat
  { dev := dev, writes := [], calls := []
    reply := ascii "OK " ++ hexToStr address 8 ++ [0x0A#8] ++ read dev.mem address size }

def commandWrite (dev : Device) (data : List Byte) (dataLength : ℕ) : Command :=
  let ops := operands (data.drop 5)
  let address := ops.1
  let seq := ops.2.1
  let src := peek (writeData data dataLength) 0 (writeDataLen data dataLength)
  { dev := { dev with mem := write dev.mem address src }
    writes := if 0 < writeDataLen data dataLength then [(address, src)] else []
    calls := []
    reply := ascii "OK " ++ hexToStr address 8 ++ [0x20#8] ++ hexToStr seq 8 }

def commandLow (dev : Device) : Command :=
  { dev := dev, writes := [], calls := [], reply := ascii "OK " ++ hexToStr dev.alloc 8 }

/-- `code address` is what the code at `address` does to memory before it returns. -/
def commandExec (dev : Device) (data : List Byte) : Command :=
  let ops := operands (data.drop 5)
  let address := ops.1
  let seq := ops.2.1
  let reply := ascii "OK Complete " ++ hexToStr seq 8
  if seq ≠ dev.execLastSeq then
    { dev := { dev with mem := code address dev.mem, execLastSeq := seq }
      writes := [], calls := [address], reply := reply }
  else
    { dev := dev, writes := [], calls := [], reply := reply }

def commandUnknown (dev : Device) : Command :=
  { dev := dev, writes := [], calls := [], reply := ascii "ERR Unknown command" }

def udpCommand (dev : Device) (data : List Byte) (dataLength : ℕ) : Command :=
  if 4 ≤ dataLength ∧ memcmpEq data (ascii "TEST") then commandTest dev
  else if 5 ≤ dataLength ∧ memcmpEq data (ascii "READ ") then commandRead dev data
  else if 6 ≤ dataLength ∧ memcmpEq data (ascii "WRITE ") then commandWrite dev data dataLength
  else if 3 ≤ dataLength ∧ memcmpEq data (ascii "LOW") then commandLow dev
  else if 5 ≤ dataLength ∧ memcmpEq data (ascii "EXEC ") then commandExec code dev data
  else commandUnknown dev

end Commands

/-! ## UDP -/

def udpChksum (my : Ipv4Address) (srcIp pkt : List Byte) (len : ℕ) : BitVec 32 :=
  let pseudo := srcIp ++ my.toList ++
    [0x00, 0x11, BitVec.ofNat 8 (len >>> 8), BitVec.ofNat 8 len]
  let chksum := chksumWords none 6 pseudo 0
  let chksum := chksumWords (some 3) (len >>> 1) pkt chksum
  let chksum := if len &&& 1 ≠ 0 then chksumAdd chksum (pkt.getD (len - 1) 0 ++ 0#8) else chksum
  (~~~ chksum) &&& 0xFFFF

def udpChksumOk (my : Ipv4Address) (srcIp pkt : List Byte) (len : ℕ) : Bool :=
  net16 pkt 6 == 0 || udpChksum my srcIp pkt len == (net16 pkt 6).setWidth 32

def udpDataLength (pkt : List Byte) (len : ℕ) : ℕ :=
  if len - 8 < (net16 pkt 4).toNat then len - 8 else (net16 pkt 4).toNat

/-- The 20 bytes of the IPv4 header the debugger answers with. -/
def ipv4Header (my : Ipv4Address) (srcIp : List Byte) (proto : Byte) (total : ℕ) : List Byte :=
  let hdr := [0x45#8, 0, BitVec.ofNat 8 (total >>> 8), BitVec.ofNat 8 total, 0, 0, 0x40#8, 0,
    0x40#8, proto, 0, 0] ++ my.toList ++ srcIp
  let chksum := (~~~ chksumWords (some 5) 10 hdr 0).setWidth 16
  (hdr.set 10 ((chksum >>> 8).setWidth 8)).set 11 (chksum.setWidth 8)

def hton16Bytes (x : BitVec 16) : List Byte := [(x >>> 8).setWidth 8, x.setWidth 8]

def cannotConstruct : List Byte := ascii "ARP: cannot construct packet to answer\r\n"

/-- The answer's frame around `data`, if the driver has a buffer for it, and what goes on the
screen. -/
def makeUdpResponse (dev : Device) (eth : EthernetFrameHeader) (srcIp : List Byte)
    (srcPort dstPort : BitVec 16) (data : List Byte) : Option Frame × List Byte :=
  if 1600 - 20 < data.length then (none, [])
  else if dev.chosenNetDrv.prepareSendPacket (0x14 + 8 + data.length) then
    (some
      { hdr := { dstMac := eth.srcMac, srcMac := dev.myEthMac, type := ntoh16 0x0800 }
        payload := ipv4Header dev.myIpv4Address srcIp 0x11#8 (0x14 + 8 + data.length) ++
          hton16Bytes dstPort ++ hton16Bytes srcPort ++
          hton16Bytes (BitVec.ofNat 16 (data.length + 8)) ++ [0, 0] ++ data }, [])
  -- the source returns without a value here; no reply of port 777 is long enough to get here
  else (none, cannotConstruct)

/-- What a round of the debugger does besides changing its state. -/
structure Effect where
  sent : List Frame
  writes : List (BitVec 32 × List Byte)
  calls : List (BitVec 32)
  vga : List Byte
  deriving DecidableEq

def Effect.none : Effect := { sent := [], writes := [], calls := [], vga := [] }

/-- The last `digits` digits of `val`, as `vga_writehex` prints them. -/
def vgaWritehex (val : ℕ) (digits : ℕ) : List Byte :=
  (List.range digits).reverse.map fun d => hexes.getD ((val >>> (d * 4)) &&& 0xF) 0

def netOnIpv4Udp (code : BitVec 32 → Mem 32 → Mem 32) (dev : Device) (eth : EthernetFrameHeader)
    (srcIp pkt : List Byte) (len : ℕ) : Device × Effect :=
  if len < 8 then (dev, .none)
  else if !udpChksumOk dev.myIpv4Address srcIp pkt len then (dev, .none)
  else
    let data := pkt.drop 8
    let dataLength := udpDataLength pkt len
    let srcPort := net16 pkt 0
    let dstPort := net16 pkt 2
    if dstPort = 777 then
      let c := udpCommand code dev data dataLength
      let r := makeUdpResponse dev eth srcIp srcPort dstPort c.reply
      (c.dev, { sent := r.1.toList, writes := c.writes, calls := c.calls, vga := r.2 })
    else
      (dev, { Effect.none with
        vga := ascii "UDP sport=" ++ vgaWritehex srcPort.toNat 4 ++ ascii " dport=" ++
          vgaWritehex dstPort.toNat 4 ++ ascii " len=" ++ vgaWritehex dataLength 8 ++
          ascii "\r\n" ++ peek data 0 dataLength ++ ascii "\r\n" })

end RemoteX86
