import RemoteX86.Proofs.Serial

/-!
# Framing of READB and WRITEB

The host prints the count with eight digits at most; the device reads it into CX, ECX or RCX.  The
loops then run exactly as often as that register says, for no step of them sees a carry flag, unless
an access of the x64 part faults.
-/

namespace RemoteX86

open Hex Memory

/-! ## The loops -/

theorem comCharInCarry_comports : ∀ comport, comCharInCarry (comports comport) = false := by
  decide

theorem readLoop_done_iff (send : Byte → List Byte) (mem : Mem 32) : ∀ (n : ℕ) (ptr : Pointer),
    (readLoop send mem n ptr).2 = true ↔ ptr.Present n
  | 0, _ => by simp [readLoop, Pointer.Present]
  | n + 1, ptr => by
    rw [readLoop, Pointer.Present]
    rcases hptr : ptr.phys with - | a
    · simp
    · simpa [comCharOutCarry] using readLoop_done_iff send mem n (ptr.next false)

theorem length_readLoop (mem : Mem 32) : ∀ (n : ℕ) (ptr : Pointer), ptr.Present n →
    (readLoop (fun al => [al]) mem n ptr).1.length = n
  | 0, _, _ => rfl
  | n + 1, ptr, ⟨hphys, hrest⟩ => by
    obtain ⟨a, ha⟩ := Option.isSome_iff_exists.1 hphys
    rw [readLoop, ha]
    simpa [comCharOutCarry] using length_readLoop mem n _ hrest

namespace Stage2

variable (m : Stage2)

/-- One byte of data leaves the loop with one byte fewer to go. -/
theorem feed_writebLoop (s : Serial) {ptr : Pointer} {a : BitVec 32} (ha : ptr.phys = some a)
    {n : ℕ} (hn : n ≠ 0) (b : Byte) :
    m.feed (s.writebLoop ptr n) b
      = { s with mem := Function.update s.mem a b }.writebLoop (ptr.next false) (n - 1) := by
  rw [Serial.writebLoop, if_neg hn]
  simp only [feed, takePayload, ha, comCharInCarry_comports, Bool.false_eq_true, and_false,
    if_false, Serial.writebLoop, Serial.responseOutput]

/-- The loop takes bytes as data for as long as it has to and can. -/
theorem feedAll_writebLoop : ∀ (data : List Byte) (s : Serial) (ptr : Pointer) {n : ℕ},
    data.length ≤ n → ptr.Present data.length →
      ∃ mem ptr', m.feedAll (s.writebLoop ptr n) data
        = { s with mem := mem }.writebLoop ptr' (n - data.length)
  | [], s, ptr, n, _, _ => ⟨s.mem, ptr, rfl⟩
  | b :: data, s, ptr, n, hlen, ⟨hphys, hrest⟩ => by
    rw [List.length_cons] at hlen
    obtain ⟨a, ha⟩ := Option.isSome_iff_exists.1 hphys
    obtain ⟨mem, ptr', ih⟩ := feedAll_writebLoop data
      { s with mem := Function.update s.mem a b } (ptr.next false) (by omega : data.length ≤ n - 1)
      hrest
    refine ⟨mem, ptr', ?_⟩
    rw [feedAll, List.foldl_cons, m.feed_writebLoop s ha (by omega)]
    rw [List.length_cons, Nat.add_comm, ← Nat.sub_sub]
    exact ih

end Stage2

theorem Serial.data_writebLoop (s : Serial) (ptr : Pointer) {n : ℕ} (h : n ≠ 0) :
    (s.writebLoop ptr n).ctl.Data := by
  rw [writebLoop, if_neg h]
  trivial

/-! ## The host's lines -/

theorem length_operands {word : List Byte} (hword : word.length ≤ 7) (addr : BitVec 64)
    (count : BitVec 32) :
    (operandLine word (numeral addr.toNat) (numeral count.toNat)).length ≤ 255 := by
  have ha := numeral_length_le (k := 16) (by omega) addr.isLt
  have hc := numeral_length_le (k := 8) (by omega) count.isLt
  simp only [operandLine, List.length_append, List.length_cons]
  omega

section Lines

variable (m : Stage2) {s : Serial} (addr : BitVec 64) (count : BitVec 32)

theorem feedAll_readLine (hs : s.ctl = .line []) :
    ∃ q, m.feedAll s (remoteRs232ReadLine addr count)
      = s.commandReadb (numeral addr.toNat ++ 0x20#8 :: (numeral count.toNat ++ 0#8 :: q)) := by
  have hline : remoteRs232ReadLine addr count
      = operandLine (ascii "READB ") (numeral addr.toNat) (numeral count.toNat) ++ [0x0A#8] := by
    simp [remoteRs232ReadLine, remoteRs232SendCommand, operandLine, ascii]
  have hword : ∀ c ∈ ascii "READB ", Plain c := plain_of_all rfl
  obtain ⟨q, hq, hfeed⟩ := m.feedAll_operandLine s hword (isHex_numeral _) (isHex_numeral _)
    (.inl rfl) (length_operands (by decide) addr count) hs
  refine ⟨q, ?_⟩
  rw [hline, hfeed, m.mainLoopCommand_readb _ hq]
  rfl

theorem feedAll_writeLine (hs : s.ctl = .line []) :
    ∃ q, m.feedAll s (remoteRs232WriteLine addr count)
      = s.commandWriteb (numeral addr.toNat ++ 0x20#8 :: (numeral count.toNat ++ 0#8 :: q)) := by
  have hline : remoteRs232WriteLine addr count
      = operandLine (ascii "WRITEB ") (numeral addr.toNat) (numeral count.toNat) ++ [0x0A#8] := by
    simp [remoteRs232WriteLine, remoteRs232SendCommand, operandLine, ascii]
  have hword : ∀ c ∈ ascii "WRITEB ", Plain c := plain_of_all rfl
  obtain ⟨q, hq, hfeed⟩ := m.feedAll_operandLine s hword (isHex_numeral _) (isHex_numeral _)
    (.inl rfl) (length_operands (by decide) addr count) hs
  refine ⟨q, ?_⟩
  rw [hline, hfeed, m.mainLoopCommand_writeb _ hq]
  rfl

end Lines

/-! ## Framing -/

/-- The other parts have nothing mapped. -/
theorem address_ne_flat64 {mode : Mode} (hmode : mode ≠ .x64) {p : List Byte} {ptr : Pointer}
    (h : (mode.address p).1 = some ptr) (rbx : BitVec 64) : ptr ≠ .flat64 rbx := by
  rintro rfl
  revert h
  cases mode with
  | x64 => exact absurd rfl hmode
  | i8086 => simp only [Mode.address]; split_ifs <;> simp [dxAxPhysToReal]
  | i286 => simp only [Mode.address]; split_ifs <;> simp
  | i386x16 | i386x32 => simp [Mode.address]

/-- Which bytes behind an accepted address are there. -/
theorem present_address {mode : Mode} {addr : BitVec 64} {ptr : Pointer}
    (h : (mode.address (numeral addr.toNat ++ [0x20#8])).1 = some ptr) (n : ℕ) :
    ptr.Present n ↔ (mode = .x64 → n = 0 ∨ addr.toNat + n ≤ 2 ^ 36) := by
  by_cases hmode : mode = .x64
  · subst hmode
    rw [Mode.address, strtohex_numeral _ digitVal_space, BitVec.ofNat_toNat, BitVec.setWidth_eq,
      Option.some.injEq] at h
    rw [← h, present_flat64]
    exact ⟨fun hp _ => hp, fun hp => hp rfl⟩
  · exact iff_of_true (present_of_ne_flat64 n (address_ne_flat64 hmode h)) fun he => absurd he hmode

section Framing

variable (m : Stage2) {s : Serial} {addr : BitVec 64} (count : BitVec 32)

/-- What the two lines do at an accepted address, with the count cut to the register. -/
theorem feedAll_lines (hs : s.ctl = .line []) {ptr : Pointer}
    (hptr : (s.mode.address (numeral addr.toNat ++ [0x20#8])).1 = some ptr) :
    m.feedAll s (remoteRs232WriteLine addr count)
        = s.writebLoop ptr (count.toNat % 2 ^ s.mode.bits)
      ∧ m.feedAll s (remoteRs232ReadLine addr count)
        = let r := readLoop (fun al => [al]) s.mem (count.toNat % 2 ^ s.mode.bits) ptr
          if r.2 then s.responseOutput r.1
          else { s with ctl := .fault, out := s.out ++ (ascii "OK " ++ r.1) } := by
  obtain ⟨q, hwrite⟩ := feedAll_writeLine m addr count hs
  obtain ⟨q', hread⟩ := feedAll_readLine m addr count hs
  refine ⟨?_, ?_⟩
  · rw [hwrite, Serial.commandWriteb, address_numeral _ _ digitVal_space, hptr]
    simp only []
    rw [count_numeral _ _ digitVal_nul]
  · rw [hread, Serial.commandReadb, Serial.readCommand, address_numeral _ _ digitVal_space, hptr]
    simp only []
    rw [count_numeral _ _ digitVal_nul]

theorem framesWrite_of_fits (hs : s.ctl = .line []) {ptr : Pointer}
    (hptr : (s.mode.address (numeral addr.toNat ++ [0x20#8])).1 = some ptr)
    (hfits : s.mode.FitsCount addr count) : m.FramesWrite s addr count := by
  have hpresent := (present_address hptr count.toNat).2 hfits.2
  rw [Stage2.FramesWrite, (feedAll_lines m count hs hptr).1, Nat.mod_eq_of_lt hfits.1]
  intro data hdata
  rw [← hdata] at hpresent ⊢
  refine ⟨fun k hk => ?_, ?_⟩
  · have hlen : (data.take k).length = k := by
      rw [List.length_take]
      omega
    obtain ⟨mem, ptr', hfeed⟩ := m.feedAll_writebLoop (data.take k) s ptr
      (by omega : (data.take k).length ≤ data.length) (hlen.symm ▸ hpresent.mono hk.le)
    rw [hfeed, hlen]
    exact Serial.data_writebLoop _ _ (by omega)
  · obtain ⟨mem, ptr', hfeed⟩ := m.feedAll_writebLoop data s ptr le_rfl hpresent
    rw [hfeed, Nat.sub_self]
    rfl

theorem framesRead_iff_fits (hs : s.ctl = .line []) {ptr : Pointer}
    (hptr : (s.mode.address (numeral addr.toNat ++ [0x20#8])).1 = some ptr) :
    m.FramesRead s addr count ↔ s.mode.FitsCount addr count := by
  have hsmall : count.toNat % 2 ^ s.mode.bits < 2 ^ s.mode.bits :=
    Nat.mod_lt _ (by positivity)
  rw [Stage2.FramesRead, (feedAll_lines m count hs hptr).2, Mode.FitsCount]
  generalize hn : count.toNat % 2 ^ s.mode.bits = n at hsmall
  constructor
  · intro ⟨hctl, data, hdata, hout⟩
    have hdone : (readLoop (fun al => [al]) s.mem n ptr).2 = true := by
      by_contra hfault
      simp [hfault] at hctl
    have hpresent := (readLoop_done_iff _ _ _ _).1 hdone
    have hlen := length_readLoop s.mem n ptr hpresent
    simp only [hdone, if_true, Serial.responseOutput, List.append_cancel_left_eq,
      List.append_cancel_right_eq, List.append_assoc] at hout
    rw [hout, hdata] at hlen
    rw [hlen]
    exact ⟨hsmall, (present_address hptr n).1 hpresent⟩
  · intro ⟨hlt, hmap⟩
    rw [Nat.mod_eq_of_lt hlt] at hn
    rw [hn] at hmap
    have hpresent := (present_address hptr n).2 hmap
    have hdone := (readLoop_done_iff (fun al => [al]) s.mem n ptr).2 hpresent
    simp only [hdone, if_true]
    exact ⟨rfl, _, (length_readLoop s.mem n ptr hpresent).trans hn.symm, rfl⟩

end Framing

/-- Host and device frame the transfer alike exactly when the register can hold the count, and in
the x64 part the pages of the range are there. -/
theorem frames_iff (m : Stage2) (s : Serial) (hs : s.ctl = .line []) (addr : BitVec 64)
    (haccepts : s.mode.Accepts addr) (count : BitVec 32) :
    m.FramesWrite s addr count ∧ m.FramesRead s addr count ↔ s.mode.FitsCount addr count := by
  obtain ⟨ptr, hptr⟩ := Option.isSome_iff_exists.1 haccepts
  rw [framesRead_iff_fits m count hs hptr]
  exact ⟨And.right, fun hfits => ⟨framesWrite_of_fits m count hs hptr hfits, hfits⟩⟩

theorem frames_largest_8086 :
    stage2.FramesWrite .start 0x500#64 0xFFFF#32 ∧ stage2.FramesRead .start 0x500#64 0xFFFF#32 :=
  (frames_iff stage2 .start rfl 0x500#64 (by decide) 0xFFFF#32).2 (by decide)

/-- At 10000 (hex) bytes the 8086 part reads a count of zero: the first byte of data starts a
command. -/
theorem not_frames_64k_8086 :
    Serial.start.mode.Accepts 0x500#64 ∧ ¬ stage2.FramesWrite .start 0x500#64 0x10000#32
      ∧ ¬ stage2.FramesRead .start 0x500#64 0x10000#32 := by
  have hptr : (Serial.start.mode.address (numeral (0x500#64).toNat ++ [0x20#8])).1
      = some (.real 0x50 0) := by decide
  refine ⟨by decide, ?_, ?_⟩
  · rw [Stage2.FramesWrite, (feedAll_lines stage2 0x10000#32 rfl hptr).1]
    intro hall
    exact (hall (List.replicate 0x10000 0) List.length_replicate).1 0
      (by rw [List.length_replicate]; decide)
  · rw [framesRead_iff_fits stage2 0x10000#32 rfl hptr]
    decide

end RemoteX86
