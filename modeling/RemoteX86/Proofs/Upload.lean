import RemoteX86.Upload
import RemoteX86.Proofs.Transmit
import RemoteX86.Proofs.SerialRange

/-!
# What `upload_code` stores

One block that is accepted is stored at the address of its WRITEB, and that is the same for every block:
a run that returns its size has laid the blocks one over another.  A block whose data are cut short by a
zero makes `remote_rs232_write` return -1, which is counted as a block sent.
-/

namespace RemoteX86

open Hex Memory

/-! ## Blocks of a file -/

theorem CallResult.readFile_full {c : CallResult} {n : ℕ} {rest : List Byte} (hn : 0 < n)
    (h : ¬ (c.readFile n rest).1 < n) :
    n ≤ rest.length ∧ c.readFile n rest = ((n : ℤ), rest.take n) := by
  rcases c with - | - | k
  · simp only [readFile, CallResult.read, Option.getD_some] at h
    omega
  · simp only [readFile, CallResult.read, Option.getD_some] at h
    omega
  · simp only [readFile, CallResult.read] at h ⊢
    split_ifs at h ⊢ with hdata
    · simp only [Option.getD_none] at h
      omega
    · simp only [Option.getD_some, List.length_take] at h ⊢
      have hmin : min (k.val + 1) n = n := by omega
      rw [hmin] at h ⊢
      have hle : n ≤ rest.length := by omega
      rw [min_eq_left hle]
      exact ⟨hle, rfl⟩

theorem length_lastBytes (file : List Byte) : (lastBytes file).length = min 4096 file.length := by
  simp [lastBytes]

theorem getElem?_lastBytes {file : List Byte} {i : ℕ} (h : i < min 4096 file.length) :
    (lastBytes file)[i]? = some (file.getD (i + 4096 * ((file.length - 1 - i) / 4096)) 0) := by
  rw [lastBytes, List.getElem?_map, List.getElem?_range h]
  rfl

/-- The later blocks lie over the first. -/
theorem lastBytes_eq (file : List Byte) :
    lastBytes file = lastBytes (file.drop 4096)
      ++ (file.take 4096).drop (lastBytes (file.drop 4096)).length := by
  have hlast := length_lastBytes (file.drop 4096)
  rw [List.length_drop] at hlast
  refine List.ext_getElem? fun i => ?_
  rcases Nat.lt_or_ge i (min 4096 (file.length - 4096)) with hlow | hlow
  · rw [getElem?_lastBytes (by omega), List.getElem?_append_left (by omega),
      getElem?_lastBytes (by rw [List.length_drop]; exact hlow), List.length_drop,
      List.getD_eq_getElem?_getD, List.getD_eq_getElem?_getD, List.getElem?_drop]
    have hturn : (file.length - 1 - i) / 4096 = (file.length - 4096 - 1 - i) / 4096 + 1 := by omega
    rw [hturn]
    congr 3
    omega
  · rw [List.getElem?_append_right (by omega), List.getElem?_drop, hlast, Nat.add_sub_cancel' hlow]
    rcases Nat.lt_or_ge i (min 4096 file.length) with hhigh | hhigh
    · have hturn : (file.length - 1 - i) / 4096 = 0 := Nat.div_eq_of_lt (by omega)
      rw [getElem?_lastBytes hhigh, hturn, List.getElem?_take_of_lt (by omega), Nat.mul_zero,
        Nat.add_zero, List.getD_eq_getElem?_getD, List.getElem?_eq_getElem (by omega)]
      rfl
    · rw [List.getElem?_eq_none (by rw [length_lastBytes]; exact hhigh),
        List.getElem?_eq_none (by rw [List.length_take]; exact hhigh)]

theorem write_lastBytes (mem : Mem 32) (a : BitVec 32) {file : List Byte} {n : ℕ}
    (hn : n = min 4096 file.length) :
    write (write mem a (file.take n)) a (lastBytes (file.drop n)) = write mem a (lastBytes file) := by
  have htake : file.take n = file.take 4096 := by
    rw [hn, ← List.take_take, List.take_length]
  have hdrop : file.drop n = file.drop 4096 := by
    rcases Nat.le_total file.length 4096 with hsmall | hlarge
    · rw [List.drop_eq_nil_of_le (by omega), List.drop_eq_nil_of_le (by omega)]
    · rw [hn, min_eq_left hlarge]
  have hblock : (file.take 4096).length ≤ 2 ^ 32 := by
    rw [List.length_take]
    omega
  have hlast : (lastBytes (file.drop 4096)).length ≤ 2 ^ 32 := by
    rw [length_lastBytes]
    omega
  rw [htake, hdrop, write_write mem a hblock hlast, ← lastBytes_eq]

/-- What happens in a block happens in the first one or in one of the others. -/
theorem inBlock_cons {P : BitVec 64 → BitVec 32 → List CallResult → Prop} {size : ℕ}
    {addr : BitVec 32} {t : UploadTurn} {turns : List UploadTurn} (h : 0 < size) :
    InBlock P size addr (t :: turns)
      ↔ P (addr.setWidth 64) (BitVec.ofNat 32 (blockSize size 0)) t.tty.writes
        ∨ InBlock P (size - 4096) addr turns := by
  have hshift : ∀ j, blockSize (size - 4096) j = blockSize size (j + 1) := by
    intro j
    simp only [blockSize]
    omega
  constructor
  · rintro ⟨j, t', hj, ht, hP⟩
    rcases j with - | j
    · obtain rfl := Option.some.inj ht
      exact .inl hP
    · exact .inr ⟨j, t', by omega, ht, by rw [hshift]; exact hP⟩
  · rintro (hP | ⟨j, t', hj, ht, hP⟩)
    · exact ⟨0, t, h, rfl, hP⟩
    · exact ⟨j + 1, t', by omega, ht, by rw [← hshift]; exact hP⟩

section Block

variable (m : Stage2) (mem : HostMem) (line : ℕ) (addr : BitVec 32)

theorem bytesAt_getD (block : List Byte) :
    bytesAt (fun i => block.getD i.toNat 0) 0 block.length = block := by
  refine List.ext_getElem? fun i => ?_
  rw [bytesAt, List.getElem?_map]
  rcases Nat.lt_or_ge i block.length with hi | hi
  · rw [List.getElem?_range hi, List.getElem?_eq_getElem hi]
    simp [hi]
  · rw [List.getElem?_eq_none (by simpa using hi), List.getElem?_eq_none hi]
    rfl

/-- In its range a part gets through every block. -/
theorem Mode.covers_of_range {mode : Mode} {n : ℕ} (hn : 0 < n) (hsmall : n ≤ 4096)
    (h : addr.toNat + n ≤ mode.memoryEnd) :
    mode.Covers addr.toNat n ∧ n < 2 ^ mode.bits := by
  cases mode with
  | i8086 | i286 | i386x16 | x64 =>
    simp only [memoryEnd, Covers, bits] at h ⊢
    omega
  | i386x32 => exact ⟨trivial, hsmall.trans_lt (by decide)⟩

/-- The device stores a block whose bytes have all come. -/
theorem feedAll_block {block : List Byte} {dev : Serial} (hctl : dev.ctl = .line [])
    (hblock : block ≠ []) (hsmall : block.length ≤ 4096)
    (hrange : addr.toNat + block.length ≤ dev.mode.memoryEnd) :
    let count := BitVec.ofNat 32 block.length
    m.feedAll dev (writebCommand (addr.setWidth 64) count ++ [0x0A#8]
        ++ bytesAt (fun i => block.getD i.toNat 0) 0 count.toNat)
      = { dev with mem := write dev.mem addr block }.responseOutput (ascii "Accepted") := by
  intro count
  have hcount : count.toNat = block.length := by
    rw [BitVec.toNat_ofNat]
    omega
  have haddr : (addr.setWidth 64).toNat = addr.toNat := by
    rw [BitVec.toNat_setWidth]
    exact Nat.mod_eq_of_lt (addr.isLt.trans (by decide))
  obtain ⟨hcov, hbits⟩ :=
    Mode.covers_of_range addr (List.length_pos_iff.2 hblock) hsmall hrange
  have hstored := ((transfers_of_covers m hctl hcov hbits).writeb (isHex_numeral _)
    (isHex_numeral _) (.inl rfl) (haddr ▸ hcount ▸ length_operands (by decide) _ _) block rfl).2
  have hline : writebCommand (addr.setWidth 64) count ++ [0x0A#8]
        ++ bytesAt (fun i => block.getD i.toNat 0) 0 count.toNat
      = operandLine (ascii "WRITEB ") (numeral addr.toNat) (numeral block.length) ++ [0x0A#8]
        ++ block := by
    rw [hcount, bytesAt_getD, writebCommand, haddr, hcount, operandLine]
    simp [ascii]
  rw [hline, hstored, BitVec.ofNat_toNat, BitVec.setWidth_eq]

/-- A block for which the call returns 1 is stored, and the device waits for the next command. -/
theorem uploadBlock_stored {block : List Byte} {tty : Tty} {dev : Serial}
    (hctl : dev.ctl = .line []) (hblock : block ≠ []) (hsmall : block.length ≤ 4096)
    (hrange : addr.toNat + block.length ≤ dev.mode.memoryEnd)
    (hcut : ¬ CutShort
      (writebCommand (addr.setWidth 64) (BitVec.ofNat 32 block.length)).length tty.writes)
    (hret : (uploadBlock m mem line addr block tty dev).1 = .returned 1) :
    (uploadBlock m mem line addr block tty dev).2.ctl = .line []
      ∧ (uploadBlock m mem line addr block tty dev).2.mode = dev.mode
      ∧ (uploadBlock m mem line addr block tty dev).2.mem = write dev.mem addr block := by
  have herror := (remoteRs232Write_stops_iff mem line (addr.setWidth 64)
    (BitVec.ofNat 32 block.length) (fun i => block.getD i.toNat 0)
    (fun tx => (m.feedAll dev tx).out) tty (by rw [BitVec.toNat_ofNat]; omega)).2 hret
  have htx := (remoteRs232Write_tx_iff mem line _ _ _ _ _ hret).2 ⟨hcut, herror⟩
  simp only [uploadBlock]
  rw [htx, feedAll_block m addr hctl hblock hsmall hrange]
  exact ⟨rfl, rfl, rfl⟩

/-- A block that does not return 0 is stored, or a write(2) of its data came to 0. -/
theorem uploadBlock_returned {block : List Byte} {tty : Tty} {dev : Serial} {w : ℤ}
    (hctl : dev.ctl = .line []) (hblock : block ≠ []) (hsmall : block.length ≤ 4096)
    (hrange : addr.toNat + block.length ≤ dev.mode.memoryEnd)
    (hcut : ¬ CutShort
      (writebCommand (addr.setWidth 64) (BitVec.ofNat 32 block.length)).length tty.writes)
    (hret : (uploadBlock m mem line addr block tty dev).1 = .returned w) (hw : w ≠ 0) :
    let dev' := (uploadBlock m mem line addr block tty dev).2
    let zero := WriteZero (addr.setWidth 64) (BitVec.ofNat 32 block.length) tty.writes
    (w = 1 ∧ ¬ zero ∧ dev'.ctl = .line [] ∧ dev'.mode = dev.mode ∧ dev'.mem = write dev.mem addr block)
      ∨ (w = -1 ∧ zero) := by
  have hstops := (remoteRs232Write_stops_iff mem line (addr.setWidth 64)
    (BitVec.ofNat 32 block.length) (fun i => block.getD i.toNat 0)
    (fun tx => (m.feedAll dev tx).out) tty (by rw [BitVec.toNat_ofNat]; omega)).1
  rcases remoteRs232Write_returned mem line _ _ _ _ _ hret with rfl | rfl | rfl
  · have hzero : ¬ WriteZero (addr.setWidth 64) (BitVec.ofNat 32 block.length) tty.writes := by
      intro hzero
      have hboth := hret.symm.trans (hstops.2 hzero)
      exact absurd (Outcome.returned.inj hboth) (by decide)
    exact .inl ⟨rfl, hzero, uploadBlock_stored m mem line addr hctl hblock hsmall hrange hcut hret⟩
  · exact absurd rfl hw
  · exact .inr ⟨rfl, hstops.1 hret⟩

end Block

/-! ## The loop -/

section Loop

variable (m : Stage2) (mem : HostMem) (line : ℕ) (addr : BitVec 32)

/-- The turns of the loop: it goes on, with the block just sent counted, or ends. -/
theorem uploadCodeLoop_cons {t : UploadTurn} {turns : List UploadTurn} {u : Upload} {v : ℤ}
    (hsz : 0 < u.sz) (h : (uploadCodeLoop m mem line addr (t :: turns) u).1 = .returned v) (hv : v ≠ 0) :
    let n := min 4096 u.sz.toNat
    let r := uploadBlock m mem line addr (u.rest.take n) t.tty u.dev
    ∃ w : ℤ, r.1 = .returned w ∧ w ≠ 0 ∧ n ≤ u.rest.length
      ∧ uploadCodeLoop m mem line addr (t :: turns) u
        = uploadCodeLoop m mem line addr turns
          { sz := u.sz - n, retr := u.retr + n, rest := u.rest.drop n, dev := r.2
            failed := u.failed || w != 1 } := by
  intro n r
  have hblksz : (if 4096 < u.sz then 4096 else u.sz) = (n : ℤ) := by
    split_ifs <;> omega
  rw [uploadCodeLoop, if_pos hsz] at h ⊢
  dsimp only at h ⊢
  rw [hblksz, Int.toNat_natCast] at h ⊢
  by_cases hshort : (t.file.readFile n u.rest).1 < n
  · rw [if_pos hshort] at h
    exact absurd (Outcome.returned.inj h).symm hv
  · rw [if_neg hshort] at h ⊢
    have hn : 0 < n := by omega
    obtain ⟨hle, hfull⟩ := CallResult.readFile_full hn hshort
    rw [hfull] at h ⊢
    rw [List.length_take, min_eq_left hle]
    dsimp only at h ⊢
    have hblock : uploadBlock m mem line addr (u.rest.take n) t.tty u.dev = r := rfl
    rw [hblock] at h ⊢
    clear_value r
    rcases hr : r.1 with w | - | -
    · rw [hr] at h
      by_cases hw : w = 0
      · rw [hw] at h
        exact absurd (Outcome.returned.inj h).symm hv
      · refine ⟨w, rfl, hw, hle, ?_⟩
        dsimp only
        rw [if_neg hw]
    · rw [hr] at h
      cases h
    · rw [hr] at h
      cases h

theorem uploadCodeLoop_end {turns : List UploadTurn} {u : Upload} (hsz : ¬ 0 < u.sz) :
    uploadCodeLoop m mem line addr turns u = (.returned u.retr, u) := by
  rcases turns with - | ⟨t, turns⟩
  · rw [uploadCodeLoop, if_neg hsz]
  · rw [uploadCodeLoop, if_neg hsz]

/-- What is returned, if it is not 0, is what there was to send, and a block that has failed has not been
forgotten. -/
theorem uploadCodeLoop_returned : ∀ (turns : List UploadTurn) (u : Upload) {v : ℤ},
    (uploadCodeLoop m mem line addr turns u).1 = .returned v → v ≠ 0 →
      v = u.retr + max u.sz 0
        ∧ (u.failed = true → (uploadCodeLoop m mem line addr turns u).2.failed = true)
  | turns, u, v, h, hv => by
    by_cases hsz : 0 < u.sz
    · rcases turns with - | ⟨t, turns⟩
      · rw [uploadCodeLoop, if_pos hsz] at h
        cases h
      · obtain ⟨w, -, -, -, heq⟩ := uploadCodeLoop_cons m mem line addr hsz h hv
        rw [heq] at h ⊢
        obtain ⟨hret, hfailed⟩ := uploadCodeLoop_returned turns _ h hv
        refine ⟨?_, fun hu => hfailed (by rw [hu]; rfl)⟩
        dsimp only at hret
        omega
    · rw [uploadCodeLoop_end m mem line addr hsz] at h ⊢
      refine ⟨?_, id⟩
      rw [← Outcome.returned.inj h]
      omega

/-- From a waiting device on, with no command cut short: a block has failed exactly if a zero came among
its data, and without one the device has the blocks one over another. -/
theorem uploadCodeLoop_stores : ∀ (turns : List UploadTurn) (u : Upload) {v : ℤ},
    u.sz = u.rest.length → u.failed = false → u.dev.ctl = .line [] →
    addr.toNat + u.rest.length ≤ u.dev.mode.memoryEnd →
    ¬ BlockCut u.rest.length addr turns →
    (uploadCodeLoop m mem line addr turns u).1 = .returned v → v ≠ 0 →
      ((uploadCodeLoop m mem line addr turns u).2.failed = true
          ↔ BlockZero u.rest.length addr turns)
        ∧ ((uploadCodeLoop m mem line addr turns u).2.failed = false →
          (uploadCodeLoop m mem line addr turns u).2.dev.mem
            = write u.dev.mem addr (lastBytes u.rest))
  | turns, u, v, hsz, hfail, hctl, hrange, hcut, h, hv => by
    by_cases hpos : 0 < u.sz
    · rcases turns with - | ⟨t, turns⟩
      · rw [uploadCodeLoop, if_pos hpos] at h
        cases h
      · obtain ⟨w, hret, hw, hle, heq⟩ := uploadCodeLoop_cons m mem line addr hpos h hv
        obtain ⟨n, hn⟩ : ∃ n, n = min 4096 u.sz.toNat := ⟨_, rfl⟩
        rw [← hn] at hret hle heq
        have hlen : 0 < u.rest.length := by omega
        have hblock : (u.rest.take n).length = n := by rw [List.length_take, min_eq_left hle]
        have hsize : blockSize u.rest.length 0 = (u.rest.take n).length := by
          rw [hblock, blockSize]
          omega
        have hleft : (u.rest.drop n).length = u.rest.length - 4096 := by
          rw [List.length_drop]
          omega
        rw [BlockCut, inBlock_cons hlen, hsize, not_or] at hcut
        rw [BlockZero, inBlock_cons hlen, hsize]
        rw [heq] at h ⊢
        rcases uploadBlock_returned m mem line addr hctl (List.ne_nil_of_length_pos (by omega))
            (by omega) (by omega) hcut.1 hret hw with
          ⟨rfl, hzero, hctl', hmode, hmem⟩ | ⟨rfl, hzero⟩
        · rw [or_iff_right hzero, ← hleft]
          obtain ⟨hfailed, hstored⟩ := uploadCodeLoop_stores turns
            { sz := u.sz - n, retr := u.retr + n, rest := u.rest.drop n
              dev := (uploadBlock m mem line addr (u.rest.take n) t.tty u.dev).2
              failed := u.failed || (1 : ℤ) != 1 }
            (by dsimp only; omega) (by rw [hfail]; rfl) hctl'
            (by dsimp only; rw [hmode]; omega) (by dsimp only; rw [hleft]; exact hcut.2) h hv
          refine ⟨hfailed, fun hnot => ?_⟩
          rw [hstored hnot, hmem]
          exact write_lastBytes _ _ (by omega)
        · have hfailed := (uploadCodeLoop_returned m mem line addr turns _ h hv).2
            (by rw [hfail]; rfl)
          exact ⟨iff_of_true hfailed (.inl hzero), fun hnot => by rw [hfailed] at hnot; cases hnot⟩
    · rw [uploadCodeLoop_end m mem line addr hpos] at h ⊢
      have hnil : u.rest = [] := List.length_eq_zero_iff.1 (by omega)
      rw [hfail, hnil]
      refine ⟨iff_of_false Bool.false_ne_true ?_, fun _ => rfl⟩
      rintro ⟨j, t, hj, -, -⟩
      exact absurd hj (Nat.not_lt_zero _)

theorem uploaded_iff {fd v : ℤ} {file : List Byte} {dev : Serial} {turns : List UploadTurn}
    (hctl : dev.ctl = .line []) (hrange : addr.toNat + file.length ≤ dev.mode.memoryEnd)
    (h : (uploadCode m mem line fd file addr dev turns).1 = .returned v) (hv : v ≠ 0)
    (hcut : ¬ BlockCut file.length addr turns) :
    Uploaded file addr dev v (uploadCode m mem line fd file addr dev turns).2
      ↔ ¬ BlockZero file.length addr turns ∧ file.length < 2 ^ 31
        ∧ Coincides file addr dev.mem := by
  have hfd : ¬ fd < 0 := by
    intro hfd
    rw [uploadCode, if_pos hfd] at h
    exact hv (Outcome.returned.inj h).symm
  rw [uploadCode, if_neg hfd] at h ⊢
  obtain ⟨hret, -⟩ := uploadCodeLoop_returned m mem line addr turns _ h hv
  have hint := (BitVec.ofNat 32 file.length).toInt_lt
  dsimp only at hret
  rw [zero_add] at hret
  by_cases hlen : file.length < 2 ^ 31
  · have hsz : (BitVec.ofNat 32 file.length).toInt = file.length := by
      rw [BitVec.toInt_eq_toNat_of_lt (by rw [BitVec.toNat_ofNat]; omega), BitVec.toNat_ofNat,
        Nat.mod_eq_of_lt (by omega)]
    obtain ⟨hfailed, hstored⟩ := uploadCodeLoop_stores m mem line addr turns _ hsz rfl hctl hrange
      hcut h hv
    have hwhole : v = file.length := by omega
    have hcoincides := write_eq_write_iff dev.mem addr (p := lastBytes file) (q := file)
      (by rw [length_lastBytes]; exact min_le_right _ _) (by omega)
    constructor
    · intro hup
      have hnot : ¬ BlockZero file.length addr turns := fun hzero => hv (hup.failed (hfailed.2 hzero))
      have hclean := Bool.eq_false_iff.2 (mt hfailed.1 hnot)
      exact ⟨hnot, hlen, hcoincides.1 ((hstored hclean).symm.trans (hup.whole hv).2)⟩
    · rintro ⟨hnot, -, hsame⟩
      have hclean := Bool.eq_false_iff.2 (mt hfailed.1 hnot)
      refine ⟨fun _ => ⟨hwhole, (hstored hclean).trans (hcoincides.2 hsame)⟩, fun hfail => ?_⟩
      exact absurd (hfailed.1 hfail) hnot
  · refine iff_of_false (fun hup => ?_) fun hall => hlen hall.2.1
    have hwhole := (hup.whole hv).1
    omega

/-- A run that returns something other than 0, and in which no block's command is cut short, has stored
the file exactly if no zero came among the data of its blocks, the size is an int, and the blocks one
over another happen to look like the file. -/
theorem uploads_iff {fd v : ℤ} {file : List Byte} {dev : Serial} {turns : List UploadTurn}
    (hctl : dev.ctl = .line []) (hrange : addr.toNat + file.length ≤ dev.mode.memoryEnd)
    (h : (uploadCode m mem line fd file addr dev turns).1 = .returned v) :
    (v = 0 → Uploaded file addr dev v (uploadCode m mem line fd file addr dev turns).2)
      ∧ (v ≠ 0 → ¬ BlockCut file.length addr turns →
        (Uploaded file addr dev v (uploadCode m mem line fd file addr dev turns).2
          ↔ ¬ BlockZero file.length addr turns ∧ file.length < 2 ^ 31
            ∧ Coincides file addr dev.mem)) :=
  ⟨fun hv => ⟨fun hne => absurd hv hne, fun _ => hv⟩, uploaded_iff m mem line addr hctl hrange h⟩

end Loop

/-- Two bytes to 20000 (hex). -/
theorem uploads_iff_two :
    let tty : Tty :=
      { clock := List.replicate 14 0, reads := List.replicate 13 (.bytes 0), rx := []
        writes := [.bytes 40, .bytes 0, .bytes 1] }
    Uploaded [0x12#8, 0x34#8] 0x20000 .start 2
      (uploadCode stage2 (fun _ => 0) 0 3 [0x12#8, 0x34#8] 0x20000 .start [⟨.bytes 4095, tty⟩]).2 := by
  intro tty
  have h : (uploadCode stage2 (fun _ => 0) 0 3 [0x12#8, 0x34#8] 0x20000 .start
      [⟨.bytes 4095, tty⟩]).1 = .returned 2 := by decide
  have hturn : ∀ {j : ℕ} {t : UploadTurn}, [(⟨.bytes 4095, tty⟩ : UploadTurn)][j]? = some t → t.tty = tty := by
    intro j t ht
    have hmem := List.mem_of_getElem? ht
    rw [List.mem_singleton.1 hmem]
  refine ((uploads_iff stage2 _ 0 0x20000 rfl (by decide) h).2 (by decide) ?_).2 ⟨?_, by decide, ?_⟩
  · rintro ⟨j, t, -, ht, hcut⟩
    rw [hturn ht] at hcut
    exact not_cutShort (by decide) hcut
  · rintro ⟨j, t, -, ht, hzero⟩
    rw [hturn ht] at hzero
    exact not_writeZero (by decide) hzero
  · intro i hi
    have hcases : i = 0 ∨ i = 1 := by
      simp only [List.length_cons, List.length_nil] at hi
      omega
    rcases hcases with rfl | rfl <;> rfl

/-! ## A file of 4097 bytes -/

/-- The calls for a block when all goes well. -/
def smoothTurn : UploadTurn where
  file := .bytes 4095
  tty :=
    { clock := List.replicate 14 0, reads := List.replicate 13 (.bytes 0), rx := []
      writes := [.bytes 40, .bytes 0, .bytes 4095] }

theorem writeDataLoop_whole (buf : ℤ → Byte) (tx : List Byte) {n : ℕ} (h0 : 0 < n) (h : n ≤ 4096) :
    let r := writeDataLoop buf [.bytes 4095] ⟨0, [0], BitVec.ofNat 32 n, tx⟩
    r.2 = (.returned 1, []) ∧ r.1.tx = tx ++ bytesAt buf 0 n := by
  have hn : (BitVec.ofNat 32 n).toNat = n := by
    rw [BitVec.toNat_ofNat]
    omega
  have hint : (BitVec.ofNat 32 n).toInt = n := by
    rw [BitVec.toInt_eq_toNat_of_lt (by omega), hn]
  have hwd : (CallResult.bytes 4095).write (BitVec.ofInt 64 n).toNat = n := by
    have hwr : (BitVec.ofInt 64 n).toNat = n := by
      rw [BitVec.toNat_ofInt]
      omega
    rw [hwr, CallResult.write_bytes (n := n) (by omega), Nat.cast_inj]
    exact min_eq_right h
  have hne : BitVec.ofNat 32 n ≠ 0 := by
    intro hzero
    have hzeros : (0 : BitVec 32).toNat = 0 := rfl
    rw [hzero] at hn
    omega
  have hle : BitVec.ofInt 32 (n : ℤ) ≤ BitVec.ofNat 32 n := by
    rw [BitVec.ofInt_natCast]
    exact BitVec.le_refl _
  have hleft : BitVec.ofNat 32 n - BitVec.ofInt 32 (n : ℤ) = 0 := by
    rw [BitVec.ofInt_natCast]
    exact BitVec.sub_self _
  rw [writeDataLoop, if_neg hne]
  dsimp only
  have hsome : ¬ (n : ℤ) = 0 := by omega
  rw [hint, hwd, if_neg hsome, if_neg (not_not.2 hle), hleft]
  exact ⟨rfl, rfl⟩

theorem remoteRs232SendCommand_smooth {cmd : List Byte} (hlen : cmd.length ≤ 41) (hcmd : cmd ≠ []) :
    Tty.remoteRs232SendCommand cmd smoothTurn.tty.writes
      = ⟨.returned 1, cmd ++ [0x0A#8], [.bytes 4095]⟩ := by
  have hwd : (CallResult.bytes 40).write cmd.length = cmd.length := by
    rw [CallResult.write_bytes (by omega), Nat.cast_inj]
    exact min_eq_right hlen
  have hpos : (0 : ℤ) < cmd.length := Int.natCast_pos.2 (List.length_pos_iff.2 hcmd)
  have hloop : sendCommandLoop cmd [] smoothTurn.tty.writes
      = ⟨.returned 1, cmd, [.bytes 0, .bytes 4095]⟩ := by
    unfold smoothTurn
    rw [sendCommandLoop, if_neg hcmd]
    dsimp only
    rw [hwd, if_pos hpos, Int.toNat_natCast, List.drop_length, List.take_length, sendCommandLoop,
      if_pos rfl]
    rfl
  unfold Tty.remoteRs232SendCommand
  dsimp only
  rw [hloop, if_neg Outcome.noConfusion]
  rfl

/-- A block for which all goes well is stored, and nothing is left on the line. -/
theorem uploadBlock_smooth (m : Stage2) (addr : BitVec 32) (block : List Byte) (dev : Serial)
    (hctl : dev.ctl = .line []) (hout : dev.out = []) (hblock : block ≠ [])
    (hsmall : block.length ≤ 4096) (hrange : addr.toNat + block.length ≤ dev.mode.memoryEnd)
    (hcommand : (writebCommand (addr.setWidth 64) (BitVec.ofNat 32 block.length)).length ≤ 41) :
    let r := uploadBlock m (fun _ => 0) 0 addr block smoothTurn.tty dev
    r.1 = .returned 1 ∧ r.2.ctl = .line [] ∧ r.2.out = [] ∧ r.2.mode = dev.mode := by
  have hsend := remoteRs232SendCommand_smooth hcommand (by simp [writebCommand, ascii])
  obtain ⟨hdata, htx⟩ := writeDataLoop_whole (fun i => block.getD i.toNat 0)
    (writebCommand (addr.setWidth 64) (BitVec.ofNat 32 block.length) ++ [0x0A#8])
    (List.length_pos_iff.2 hblock) hsmall
  have hfeed := feedAll_block m addr hctl hblock hsmall hrange
  have hcount : (BitVec.ofNat 32 block.length).toNat = block.length := by
    rw [BitVec.toNat_ofNat]
    omega
  dsimp only at hfeed
  rw [hcount] at hfeed
  obtain ⟨hrtx, hrx, hone⟩ := remoteRs232Write_accepted (fun _ => 0) 0 (addr.setWidth 64)
    (BitVec.ofNat 32 block.length) (fun i => block.getD i.toNat 0)
    (fun tx => (m.feedAll dev tx).out) smoothTurn.tty hsend rfl rfl (congrArg Prod.fst hdata)
  have hout' : (m.feedAll dev (writebCommand (addr.setWidth 64) (BitVec.ofNat 32 block.length)
      ++ [0x0A#8] ++ bytesAt (fun i => block.getD i.toNat 0) 0 block.length)).out
      = ascii "OK Accepted" ++ crlf := by
    rw [hfeed, Serial.responseOutput, hout]
    rfl
  dsimp only at hrtx hrx hone
  rw [htx, hout', hdata] at hrx hone
  rw [htx] at hrtx
  simp only [uploadBlock]
  rw [hrtx, hfeed, hrx]
  exact ⟨hone (by decide), rfl, by decide, rfl⟩

theorem uploadCodeLoop_smooth (m : Stage2) (mem : HostMem) (line : ℕ) (addr : BitVec 32)
    (turns : List UploadTurn) {u : Upload} (hsz : u.sz = u.rest.length) (hrest : u.rest ≠ [])
    (hret : (uploadBlock m mem line addr (u.rest.take 4096) smoothTurn.tty u.dev).1 = .returned 1) :
    uploadCodeLoop m mem line addr (smoothTurn :: turns) u
      = uploadCodeLoop m mem line addr turns
        { sz := (u.rest.drop 4096).length, retr := u.retr + (u.rest.take 4096).length
          rest := u.rest.drop 4096
          dev := (uploadBlock m mem line addr (u.rest.take 4096) smoothTurn.tty u.dev).2
          failed := u.failed } := by
  have hlen := List.length_pos_iff.2 hrest
  have hblock : (u.rest.take 4096).length = min 4096 u.rest.length := List.length_take
  have hleft : (u.rest.drop 4096).length = u.rest.length - 4096 := List.length_drop
  have hblksz : (if 4096 < u.sz then 4096 else u.sz) = ((u.rest.take 4096).length : ℤ) := by
    split_ifs <;> omega
  have hfile : smoothTurn.file.readFile (u.rest.take 4096).length u.rest
      = (((u.rest.take 4096).length : ℤ), u.rest.take 4096) := by
    have hmin : u.rest.take (min 4096 (u.rest.take 4096).length) = u.rest.take 4096 := by
      rw [min_eq_right (by omega), hblock, ← List.take_take, List.take_length]
    have hne : u.rest.take 4096 ≠ [] := List.ne_nil_of_length_pos (by omega)
    unfold CallResult.readFile CallResult.read smoothTurn
    dsimp only
    rw [show (4095 : Fin 0x7FFFF000).val + 1 = 4096 from rfl, hmin, if_neg hne]
    rfl
  have hdrop : u.rest.drop (u.rest.take 4096).length = u.rest.drop 4096 := by
    rcases Nat.le_total u.rest.length 4096 with hsmall | hlarge
    · rw [List.drop_eq_nil_of_le (by omega), List.drop_eq_nil_of_le (by omega)]
    · rw [hblock, min_eq_left hlarge]
  rw [uploadCodeLoop, if_pos (by omega)]
  dsimp only
  rw [hblksz, Int.toNat_natCast, hfile]
  dsimp only
  rw [if_neg (lt_irrefl _), hret, hdrop]
  dsimp only
  rw [if_neg one_ne_zero]
  congr 2
  · omega
  · simp

theorem uploadCode_two_blocks (first : List Byte) (b : Byte) (hfirst : first.length = 4096) :
    (uploadCode stage2 (fun _ => 0) 0 3 (first ++ [b]) 0x20000 .start [smoothTurn, smoothTurn]).1
      = .returned 4097 := by
  have hlen : (first ++ [b]).length = 4097 := by rw [List.length_append, hfirst, List.length_singleton]
  have htake : (first ++ [b]).take 4096 = first := by rw [← hfirst, List.take_left]
  have hdrop : (first ++ [b]).drop 4096 = [b] := by rw [← hfirst, List.drop_left]
  have hcommand : (writebCommand ((0x20000 : BitVec 32).setWidth 64)
      (BitVec.ofNat 32 first.length)).length ≤ 41 := by
    rw [hfirst]
    decide
  obtain ⟨hret, hctl, hout, hmode⟩ := uploadBlock_smooth stage2 0x20000 first .start rfl rfl
    (List.ne_nil_of_length_pos (by omega)) (by omega)
    (by rw [hfirst]; decide) hcommand
  have hlast := uploadBlock_smooth stage2 0x20000 [b]
    (uploadBlock stage2 (fun _ => 0) 0 0x20000 first smoothTurn.tty .start).2 hctl hout
    (List.cons_ne_nil _ _) (by simp) (by rw [hmode, List.length_singleton]; decide)
    (by rw [List.length_singleton]; decide)
  have hturns := uploadCodeLoop_smooth stage2 (fun _ => 0) 0 0x20000 [smoothTurn]
    (u := ⟨4097, 0, first ++ [b], .start, false⟩) (by rw [hlen]; rfl) (by simp)
    (by rw [htake]; exact hret)
  rw [htake, hdrop, hfirst] at hturns
  unfold uploadCode
  dsimp only
  rw [if_neg (by decide), hlen]
  rw [show (BitVec.ofNat 32 4097).toInt = 4097 from by decide, hturns, uploadCodeLoop_smooth,
    uploadCodeLoop_end]
  · simp
  · simp
  · rfl
  · exact List.cons_ne_nil _ _
  · rw [List.take_of_length_le (by simp)]
    exact hlast.1

theorem not_coincides_two_blocks {first : List Byte} {b c : Byte} {addr : BitVec 32} {mem : Mem 32}
    (hfirst : first.length = 4096) (hhead : first[0]? = some c) (hne : b ≠ c) :
    ¬ Coincides (first ++ [b]) addr mem := by
  intro h
  have hlen : (first ++ [b]).length = 4097 := by rw [List.length_append, hfirst, List.length_singleton]
  have hpos : 0 < (first ++ [b]).length := by omega
  have hplace := h 0 hpos
  have hindex : 0 + 4096 * (((first ++ [b]).length - 1 - 0) / 4096) = 4096 := by rw [hlen]
  have hlast : (first ++ [b]).getD 4096 0 = b := by
    rw [List.getD_eq_getElem?_getD, List.getElem?_append_right hfirst.le, hfirst]
    rfl
  have hzero : (first ++ [b])[0]? = some c := by
    rw [List.getElem?_append_left (by omega), hhead]
  rw [List.getElem?_eq_getElem hpos] at hzero
  rw [getElem?_lastBytes (by omega), hindex, hlast, Option.some.inj hzero] at hplace
  exact hne hplace

theorem not_uploaded_of_length (first : List Byte) (b c : Byte) (hfirst : first.length = 4096)
    (hhead : first[0]? = some c) (hne : b ≠ c) :
    ¬ Uploaded (first ++ [b]) 0x20000 .start 4097
      (uploadCode stage2 (fun _ => 0) 0 3 (first ++ [b]) 0x20000 .start [smoothTurn, smoothTurn]).2 := by
  intro hup
  have hret := uploadCode_two_blocks first b hfirst
  have hrange : (0x20000 : BitVec 32).toNat + (first ++ [b]).length ≤ Serial.start.mode.memoryEnd := by
    rw [List.length_append, hfirst, List.length_singleton]
    decide
  have hcut : ¬ BlockCut (first ++ [b]).length 0x20000 [smoothTurn, smoothTurn] := by
    rintro ⟨j, t, -, ht, hcut⟩
    have hturn : t = smoothTurn := by simpa using List.mem_of_getElem? ht
    rw [hturn] at hcut
    exact not_cutShort (by decide) hcut
  have hsame := (uploaded_iff stage2 _ 0 0x20000 rfl hrange hret (by decide) hcut).1 hup
  exact not_coincides_two_blocks hfirst hhead hne hsame.2.2

/-- The second block of a file of 4097 bytes goes over the first. -/
theorem not_uploaded_two_blocks :
    (uploadCode stage2 (fun _ => 0) 0 3 (List.replicate 4096 1#8 ++ [2#8]) 0x20000 .start
        [smoothTurn, smoothTurn]).1 = .returned 4097
      ∧ ¬ Uploaded (List.replicate 4096 1#8 ++ [2#8]) 0x20000 .start 4097
        (uploadCode stage2 (fun _ => 0) 0 3 (List.replicate 4096 1#8 ++ [2#8]) 0x20000 .start
          [smoothTurn, smoothTurn]).2 := by
  have hhead : (List.replicate 4096 1#8)[0]? = some 1#8 := by
    rw [List.getElem?_replicate, if_pos (by decide)]
  exact ⟨uploadCode_two_blocks _ _ List.length_replicate,
    not_uploaded_of_length _ _ _ List.length_replicate hhead (by decide)⟩

end RemoteX86
