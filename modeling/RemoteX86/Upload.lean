import RemoteX86.Descriptor

/-!
# Uploading a program

`upload_code` of `comm/tests/cpu_tests.c`: a file goes to the device in blocks of at most 4096 bytes,
one WRITEB each.  The device is the serial debugger itself, and what it answers is what comes in; what
the system calls come to and what the clock says is given for each turn of the loop.
-/

namespace RemoteX86

open Hex Memory

/-- read(2) of `n` bytes of a file, of which `rest` is left. -/
def CallResult.readFile (c : CallResult) (n : ℕ) (rest : List Byte) : ℤ × List Byte :=
  (c.read n rest).getD (0, [])

/-- What one turn of the loop meets: what read(2) of the file comes to, and what its block meets on the
descriptor. -/
structure UploadTurn where
  file : CallResult
  tty : Tty

/-- The loop between two turns: `sz` and `retr`, what is left of the file, and the device, whose `out` is
what the host has not read yet.  `failed` is not the host's: whether a block has failed. -/
structure Upload where
  sz : ℤ
  retr : ℤ
  rest : List Byte
  dev : Serial
  failed : Bool

section UploadCode

variable (m : Stage2) (mem : HostMem) (line : ℕ)

/-- One block to the device: the call's outcome, and the device behind it. -/
def uploadBlock (addr : BitVec 32) (block : List Byte) (tty : Tty) (dev : Serial) :
    Outcome × Serial :=
  let r := tty.remoteRs232Write mem line (addr.setWidth 64) (BitVec.ofNat 32 block.length)
    (fun i => block.getD i.toNat 0) (fun tx => (m.feedAll dev tx).out)
  (r.outcome, { m.feedAll dev r.tx with out := r.rx })

def uploadCodeLoop (addr : BitVec 32) : List UploadTurn → Upload → Outcome × Upload
  | [], u => (if 0 < u.sz then .pending else .returned u.retr, u)
  | t :: turns, u =>
    if 0 < u.sz then
      let blksz := if 4096 < u.sz then 4096 else u.sz
      let file := t.file.readFile blksz.toNat u.rest
      let rd := file.1
      if rd < blksz then (.returned 0, { u with failed := true })
      else
        let r := uploadBlock m mem line addr file.2 t.tty u.dev
        match r.1 with
        | .returned v =>
          if v = 0 then (.returned 0, { u with dev := r.2, failed := true })
          else
            -- `addr` stays as it is
            uploadCodeLoop addr turns
              { sz := u.sz - rd, retr := u.retr + rd, rest := u.rest.drop file.2.length, dev := r.2
                failed := u.failed || v != 1 }
        | o => (o, { u with dev := r.2 })
    else (.returned u.retr, u)

/-- `fd` is what open(2) comes to; the size is an int. -/
def uploadCode (fd : ℤ) (file : List Byte) (addr : BitVec 32) (dev : Serial)
    (turns : List UploadTurn) : Outcome × Upload :=
  let u : Upload :=
    { sz := (BitVec.ofNat 32 file.length).toInt, retr := 0, rest := file, dev := dev, failed := false }
  if fd < 0 then (.returned 0, u) else uploadCodeLoop m mem line addr turns u

end UploadCode

/-- What is returned for a file at `addr`: its size only if all of it and nothing else has been stored,
and 0 if a block has failed. -/
structure Uploaded (file : List Byte) (addr : BitVec 32) (dev : Serial) (v : ℤ) (u : Upload) :
    Prop where
  whole : v ≠ 0 → v = file.length ∧ u.dev.mem = write dev.mem addr file
  failed : u.failed = true → v = 0

/-- Where memory ends for a part. -/
def Mode.memoryEnd : Mode → ℕ
  | .i8086 => 2 ^ 20
  | .i286 => 2 ^ 24
  | .i386x16 => 2 ^ 32
  | .i386x32 => 2 ^ 32
  | .x64 => 2 ^ 32

/-- The size of block `j` of a file. -/
def blockSize (size j : ℕ) : ℕ := min 4096 (size - 4096 * j)

/-- Something happens in the write(2) calls of a block of the file. -/
def InBlock (P : BitVec 64 → BitVec 32 → List CallResult → Prop) (size : ℕ) (addr : BitVec 32)
    (turns : List UploadTurn) : Prop :=
  ∃ j t, 4096 * j < size ∧ turns[j]? = some t
    ∧ P (addr.setWidth 64) (BitVec.ofNat 32 (blockSize size j)) t.tty.writes

/-- The command of a block is cut short. -/
def BlockCut (size : ℕ) (addr : BitVec 32) (turns : List UploadTurn) : Prop :=
  InBlock (fun addr count => CutShort (writebCommand addr count).length) size addr turns

/-- A write(2) of the data of a block comes to 0. -/
def BlockZero (size : ℕ) (addr : BitVec 32) (turns : List UploadTurn) : Prop :=
  InBlock WriteZero size addr turns

/-- The blocks of a file one over another: at each place the last that reaches it. -/
def lastBytes (file : List Byte) : List Byte :=
  (List.range (min 4096 file.length)).map fun i =>
    file.getD (i + 4096 * ((file.length - 1 - i) / 4096)) 0

/-- The blocks one over another look like the front of the file, and the rest of it is already there. -/
def Coincides (file : List Byte) (addr : BitVec 32) (mem : Mem 32) : Prop :=
  ∀ i (h : i < file.length),
    ((lastBytes file)[i]?).getD (mem (addr + BitVec.ofNat 32 i)) = file[i]

end RemoteX86
