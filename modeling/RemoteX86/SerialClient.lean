import RemoteX86.Serial

/-!
# The host library for the serial debugger

What `comm/s_lib.c` sends for READB and WRITEB, and what it takes for granted about the bytes that
follow the line: that the device uses the count the host printed, and that the data of a WRITEB is
data even when the device refuses the address.
-/

namespace RemoteX86

open Hex Memory

def remoteRs232SendCommand (cmd : List Byte) : List Byte := cmd ++ [0x0A#8]

def remoteRs232ReadLine (addr : BitVec 64) (count : BitVec 32) : List Byte :=
  remoteRs232SendCommand
    (ascii "READB " ++ numeral addr.toNat ++ ascii " " ++ numeral count.toNat)

def remoteRs232WriteLine (addr : BitVec 64) (count : BitVec 32) : List Byte :=
  remoteRs232SendCommand
    (ascii "WRITEB " ++ numeral addr.toNat ++ ascii " " ++ numeral count.toNat)

/-! ## Framing -/

/-- The character ends a line. -/
def LineEnd (al : Byte) : Prop := al = 0x0A#8 ∨ al = 0x0D#8

instance : DecidablePred LineEnd := fun _ => inferInstanceAs (Decidable (_ ∨ _))

/-- The next byte is stored as data. -/
def Control.Data : Control → Prop
  | .payload _ _ => True
  | _ => False

instance : DecidablePred Control.Data
  | .payload _ _ => isTrue trivial
  | .line _ => isFalse id
  | .escape _ => isFalse id
  | .fault => isFalse id

/-- The line's address is not answered with an error. -/
def Mode.Accepts (mode : Mode) (addr : BitVec 64) : Prop :=
  (mode.address (numeral addr.toNat ++ ascii " ")).1.isSome

instance (mode : Mode) (addr : BitVec 64) : Decidable (mode.Accepts addr) :=
  inferInstanceAs (Decidable (_ = true))

namespace Stage2

variable (m : Stage2)

/-- Behind the line of WRITEB exactly `count` bytes are taken as data, and the next one starts a
line. -/
def FramesWrite (s : Serial) (addr : BitVec 64) (count : BitVec 32) : Prop :=
  let s' := m.feedAll s (remoteRs232WriteLine addr count)
  ∀ data : List Byte, data.length = count.toNat →
    (∀ k < data.length, (m.feedAll s' (data.take k)).ctl.Data) ∧
      (m.feedAll s' data).ctl = .line []

/-- READB is answered with `count` bytes between `OK ` and the line end. -/
def FramesRead (s : Serial) (addr : BitVec 64) (count : BitVec 32) : Prop :=
  let s' := m.feedAll s (remoteRs232ReadLine addr count)
  s'.ctl = .line [] ∧ ∃ data : List Byte, data.length = count.toNat ∧
    s'.out = s.out ++ (ascii "OK " ++ data ++ crlf)

/-! ## Refused data -/

/-- Sent behind `text`, the bytes of `payload` are read and dropped: none of them becomes part of a
command, memory and mode are as before, and what follows is read as if they had not been sent. -/
structure InSync (s : Serial) (text payload : List Byte) : Prop where
  ignored : ∀ k ≤ payload.length, (m.feedAll s (text ++ payload.take k)).ctl = .line []
  mem : (m.feedAll s (text ++ payload)).mem = s.mem
  mode : (m.feedAll s (text ++ payload)).mode = s.mode
  next : ∀ command, m.feedAll s (text ++ payload ++ command) = m.feedAll s (text ++ command)

end Stage2

/-- The register holds the count, and the x64 part finds a page for every byte of the range. -/
def Mode.FitsCount (mode : Mode) (addr : BitVec 64) (count : BitVec 32) : Prop :=
  count.toNat < 2 ^ mode.bits ∧
    (mode = .x64 → count.toNat = 0 ∨ addr.toNat + count.toNat ≤ 2 ^ 36)

instance (mode : Mode) (addr : BitVec 64) (count : BitVec 32) :
    Decidable (mode.FitsCount addr count) :=
  inferInstanceAs (Decidable (_ ∧ _))

end RemoteX86
