import RemoteX86.SerialRange

/-!
# Reading and carrying out a line

What the parsers make of a numeral, which handler a line goes to, and how bytes that are no line end
gather in the buffer.
-/

namespace RemoteX86

open Hex Memory

/-! ## Parsers -/

theorem strtohexGetdigit_eq (c : Byte) : strtohexGetdigit c = digitVal c := by
  revert c
  decide

theorem strtohexLoop_eq {w : ℕ} : ∀ (p : List Byte) (ax : BitVec w),
    strtohexLoop ax p = ((scan ax p).1, (scan ax p).2.drop 1)
  | [], _ => rfl
  | c :: p, ax => by
    rw [strtohexLoop, scan, strtohexGetdigit_eq]
    cases hc : digitVal c with
    | none => rfl
    | some d => exact strtohexLoop_eq p _

/-- A run of digits is read, and the character behind it is gone. -/
theorem strtohex_digits {w : ℕ} {ds : List Byte} (hds : ∀ e ∈ ds, ∃ d, digitVal e = some d)
    {c : Byte} (hc : digitVal c = none) (p : List Byte) :
    strtohex (w := w) (ds ++ c :: p) = (BitVec.ofNat w (value 0 ds), p) := by
  have hno : NoDigit (c :: p) := by
    intro e he
    rw [List.head?_cons, Option.some.injEq] at he
    rw [← he, hc]
  have hscan := scan_append (w := w) ds 0 (c :: p) hds
  rw [scan_noDigit _ hno] at hscan
  rw [strtohex, strtohexLoop_eq, hscan]
  rfl

theorem strtohex_numeral {w : ℕ} (n : ℕ) {c : Byte} (hc : digitVal c = none) (p : List Byte) :
    strtohex (w := w) (numeral n ++ c :: p) = (BitVec.ofNat w n, p) := by
  rw [strtohex_digits (fun _ he => digitVal_of_mem_numeral he) hc, value_numeral]

/-- One digit shifted into DX:AX. -/
theorem shiftIn_pair (a : ℕ) {d : ℕ} (hd : d < 16) :
    (BitVec.ofNat 16 (a / 2 ^ 16) <<< 4) ||| (BitVec.ofNat 16 a >>> 12)
      = BitVec.ofNat 16 ((a * 16 + d) / 2 ^ 16) := by
  have hhigh : BitVec.ofNat 16 a >>> 12 = BitVec.ofNat 16 (a % 2 ^ 16 / 2 ^ 12) := by
    apply BitVec.eq_of_toNat_eq
    rw [BitVec.toNat_ushiftRight, BitVec.toNat_ofNat, BitVec.toNat_ofNat,
      Nat.shiftRight_eq_div_pow]
    omega
  have hstep := shiftIn_ofNat (w := 16) (a / 2 ^ 16) (d := a % 2 ^ 16 / 2 ^ 12) (by omega)
  rw [hhigh]
  refine hstep.trans (congrArg (BitVec.ofNat 16) ?_)
  omega

theorem strtohex32Loop_digits : ∀ (ds : List Byte) (a : ℕ) {c : Byte} (p : List Byte),
    (∀ e ∈ ds, ∃ d, digitVal e = some d) → digitVal c = none →
      strtohex32Loop (BitVec.ofNat 16 (a / 2 ^ 16)) (BitVec.ofNat 16 a) (ds ++ c :: p)
        = ((BitVec.ofNat 16 (value a ds / 2 ^ 16), BitVec.ofNat 16 (value a ds)), p)
  | [], a, c, p, _, hc => by
    rw [List.nil_append, strtohex32Loop, strtohexGetdigit_eq, hc]
    rfl
  | e :: ds, a, c, p, h, hc => by
    obtain ⟨d, hd⟩ := h e List.mem_cons_self
    have hv : value a (e :: ds) = value (a * 16 + d) ds := by simp [value, hd]
    have hlow : (BitVec.ofNat 16 a <<< 4) ||| BitVec.ofNat 16 d = BitVec.ofNat 16 (a * 16 + d) :=
      shiftIn_ofNat a (digitVal_lt hd)
    rw [List.cons_append, strtohex32Loop, strtohexGetdigit_eq, hd, hv]
    simp only []
    rw [shiftIn_pair a (digitVal_lt hd), hlow]
    exact strtohex32Loop_digits ds _ p (fun f hf => h f (List.mem_cons_of_mem _ hf)) hc

/-- The value of a run of digits in DX:AX. -/
theorem strtohex32_digits {ds : List Byte} (hds : ∀ e ∈ ds, ∃ d, digitVal e = some d)
    {c : Byte} (hc : digitVal c = none) (p : List Byte) :
    strtohex32 (ds ++ c :: p)
      = ((BitVec.ofNat 16 (value 0 ds / 2 ^ 16), BitVec.ofNat 16 (value 0 ds)), p) :=
  strtohex32Loop_digits ds 0 p hds hc

theorem strSkipWhitespace_digits {ds : List Byte} (hds : ∀ e ∈ ds, ∃ d, digitVal e = some d)
    (hne : ds ≠ []) (p : List Byte) : strSkipWhitespace (ds ++ p) = ds ++ p := by
  obtain ⟨c, q, rfl⟩ := List.exists_cons_of_ne_nil hne
  have hc : c ≠ 0x20#8 := by
    rintro rfl
    obtain ⟨d, hd⟩ := hds _ List.mem_cons_self
    rw [digitVal_space] at hd
    cases hd
  rw [strSkipWhitespace, List.cons_append, List.dropWhile_cons_of_neg (by simpa using hc)]

/-- The count is read modulo the register. -/
theorem count_isHex (mode : Mode) {n : ℕ} {ds : List Byte} (h : IsHex n ds) {c : Byte}
    (hc : digitVal c = none) (p : List Byte) : mode.count (ds ++ c :: p) = n % 2 ^ mode.bits := by
  rw [Mode.count, strSkipWhitespace_digits h.digits h.ne_nil, strtohex_digits h.digits hc,
    BitVec.toNat_ofNat, h.value_eq]

theorem count_numeral (mode : Mode) (n : ℕ) {c : Byte} (hc : digitVal c = none) (p : List Byte) :
    mode.count (numeral n ++ c :: p) = n % 2 ^ mode.bits :=
  count_isHex mode (isHex_numeral n) hc p

/-- What stands behind an operand and one character does not matter to the address. -/
theorem address_digits (mode : Mode) {ds : List Byte}
    (hds : ∀ e ∈ ds, ∃ d, digitVal e = some d) {c : Byte} (hc : digitVal c = none)
    (p : List Byte) : mode.address (ds ++ c :: p) = ((mode.address (ds ++ [c])).1, p) := by
  cases mode <;>
    simp only [Mode.address, strtohex32_digits hds hc, strtohex_digits hds hc]

theorem address_numeral (mode : Mode) (n : ℕ) {c : Byte} (hc : digitVal c = none)
    (p : List Byte) :
    mode.address (numeral n ++ c :: p) = ((mode.address (numeral n ++ [c])).1, p) :=
  address_digits mode (fun _ he => digitVal_of_mem_numeral he) hc p

theorem address_eq_of_fst {mode : Mode} {si : List Byte} {ptr : Option Pointer}
    (h : (mode.address si).1 = ptr) : mode.address si = (ptr, (mode.address si).2) :=
  Prod.ext h rfl

/-! ## The loop of WRITE -/

theorem length_strtohexLoop {w : ℕ} : ∀ (si : List Byte) (ax : BitVec w), si ≠ [] →
    (strtohexLoop ax si).2.length < si.length
  | [], _, h => absurd rfl h
  | al :: si, ax, _ => by
    rw [strtohexLoop]
    rcases strtohexGetdigit al with - | bl
    · exact Nat.lt_succ_self _
    · rcases eq_or_ne si [] with rfl | hsi
      · exact Nat.one_pos
      · exact (length_strtohexLoop si _ hsi).trans (Nat.lt_succ_self _)

/-- Fuel for every byte left is enough: more of it changes nothing. -/
theorem writeLoop_fuel (mode : Mode) (di : ℕ) : ∀ (n k : ℕ) (ptr : Pointer) (si : List Byte)
    (mem : Mem 32), si.length ≤ n →
      writeLoop mode di (n + k) ptr si mem = writeLoop mode di n ptr si mem
  | 0, 0, _, _, _, _ => rfl
  | 0, k + 1, ptr, si, mem, h => by
    rw [List.eq_nil_of_length_eq_zero (Nat.le_zero.1 h), Nat.zero_add]
    unfold writeLoop
    simp [strSkipWhitespace]
  | n + 1, k, ptr, si, mem, h => by
    have hskip : ∀ p, (strSkipWhitespace p).length ≤ p.length := List.length_dropWhile_le _
    rw [Nat.add_right_comm]
    unfold writeLoop
    simp only []
    split_ifs with hend
    · rfl
    · have hne : strSkipWhitespace si ≠ [] := by
        rintro hnil
        rw [hnil] at hend
        exact hend (Nat.zero_le di)
      have hlt := length_strtohexLoop _ (BitVec.ofNat mode.bits 0) hne
      have hle := (hskip (strtohex (w := mode.bits) (strSkipWhitespace si)).2).trans
        (Nat.le_of_lt_succ (hlt.trans_le ((hskip si).trans h)))
      rcases ptr.phys with - | a
      · rfl
      · exact writeLoop_fuel mode di n k _ _ _ hle

/-! ## Pages -/

/-- The next `n` bytes are all on pages that are present. -/
def Pointer.Present : ℕ → Pointer → Prop
  | 0, _ => True
  | n + 1, ptr => ptr.phys.isSome ∧ Present n (ptr.next false)

theorem Pointer.Present.mono : ∀ {n k : ℕ} {ptr : Pointer}, ptr.Present n → k ≤ n → ptr.Present k
  | _, 0, _, _, _ => trivial
  | n + 1, k + 1, _, ⟨hphys, hrest⟩, h => ⟨hphys, hrest.mono (by omega)⟩

/-- Outside long mode nothing is mapped, so every byte is there. -/
theorem present_of_ne_flat64 : ∀ (n : ℕ) {ptr : Pointer}, (∀ rbx, ptr ≠ .flat64 rbx) →
    ptr.Present n
  | 0, _, _ => trivial
  | n + 1, ptr, h => by
    have hnext : ∀ rbx, ptr.next false ≠ .flat64 rbx := by
      intro rbx
      cases ptr with
      | flat64 rbx' => exact absurd rfl (h rbx')
      | _ => simp [Pointer.next]
    refine ⟨?_, present_of_ne_flat64 n hnext⟩
    cases ptr with
    | flat64 rbx => exact absurd rfl (h rbx)
    | _ => rfl

theorem present_flat64 : ∀ (n : ℕ) (rbx : BitVec 64),
    (Pointer.flat64 rbx).Present n ↔ n = 0 ∨ rbx.toNat + n ≤ 2 ^ 36
  | 0, _ => by simp [Pointer.Present]
  | n + 1, rbx => by
    have hphys : (Pointer.flat64 rbx).phys.isSome ↔ rbx.toNat < 2 ^ 36 := by
      rw [Pointer.phys]
      split_ifs with h
      · exact iff_of_true rfl h
      · exact iff_of_false (by simp) h
    rw [Pointer.Present, hphys, Pointer.next, present_flat64 n]
    constructor
    · rintro ⟨hlt, hrest⟩
      have hstep : (rbx + 1).toNat = rbx.toNat + 1 := by
        rw [BitVec.toNat_add]
        exact Nat.mod_eq_of_lt (by simp; omega)
      omega
    · rintro (h | h)
      · omega
      · have hstep : (rbx + 1).toNat = rbx.toNat + 1 := by
          rw [BitVec.toNat_add]
          exact Nat.mod_eq_of_lt (by simp; omega)
        omega


/-! ## Lines -/

/-- The character is neither a line end nor the escape. -/
def Plain (c : Byte) : Prop := c ≠ 0x0A#8 ∧ c ≠ 0x0D#8 ∧ c ≠ 0x1B#8

instance : DecidablePred Plain := fun _ => inferInstanceAs (Decidable (_ ∧ _))

theorem plain_of_all {text : List Byte} (h : text.all (fun c => decide (Plain c)) = true) :
    ∀ c ∈ text, Plain c := fun c hc => of_decide_eq_true (List.all_eq_true.1 h c hc)

theorem plain_of_digit {c : Byte} {d : ℕ} (h : digitVal c = some d) : Plain c := by
  revert c d
  decide

theorem plain_of_isHex {v : ℕ} {ds : List Byte} (h : IsHex v ds) {c : Byte} (hc : c ∈ ds) :
    Plain c := by
  obtain ⟨d, hd⟩ := h.digits c hc
  exact plain_of_digit hd

theorem plain_space : Plain 0x20#8 := by decide

namespace Stage2

variable (m : Stage2) (s : Serial)

theorem feedAll_append (p q : List Byte) :
    m.feedAll s (p ++ q) = m.feedAll (m.feedAll s p) q := by
  rw [feedAll, feedAll, feedAll, List.foldl_append]

/-- Plain characters gather in the buffer, and those it has no room for are lost. -/
theorem feedAll_plain_take : ∀ (text buf : List Byte), (∀ c ∈ text, Plain c) →
    buf.length ≤ 255 →
      m.feedAll { s with ctl := .line buf } text
        = { s with ctl := .line ((buf ++ text).take 255) }
  | [], buf, _, hlen => by
    rw [List.append_nil, List.take_of_length_le hlen]
    rfl
  | c :: text, buf, h, hlen => by
    obtain ⟨hlf, hcr, hesc⟩ := h c List.mem_cons_self
    have hstep : m.feed { s with ctl := .line buf } c
        = { s with ctl := .line (store buf c) } := by
      unfold feed
      simp only [hlf, hcr, hesc, or_self, if_false]
    have ih := feedAll_plain_take text (store buf c) (fun e he => h e (List.mem_cons_of_mem _ he))
    rw [feedAll, List.foldl_cons, hstep]
    unfold store at ih ⊢
    split_ifs at ih ⊢ with hfull
    · rw [List.take_append_of_le_length (by omega)] at ih ⊢
      exact ih hlen
    · rw [List.append_assoc, List.singleton_append] at ih
      exact ih (by rw [List.length_append, List.length_singleton]; omega)

/-- A line of plain characters is carried out, as far as the buffer holds it. -/
theorem feedAll_command {text : List Byte} (hplain : ∀ c ∈ text, Plain c) (hne : text ≠ [])
    {e : Byte} (he : LineEnd e) (hs : s.ctl = .line []) :
    m.feedAll s (text ++ [e])
      = m.mainLoopCommand { s with ctl := .line (text.take 255) } (text.take 255) := by
  have hstart : s = { s with ctl := .line [] } := by rw [← hs]
  have htake : text.take 255 ≠ [] := by simpa using hne
  rw [feedAll_append, hstart, m.feedAll_plain_take s text [] hplain (by simp), List.nil_append]
  simp only [feedAll, List.foldl_cons, List.foldl_nil, feed, if_neg htake]
  exact if_pos he

/-- A line of plain characters that fits is carried out. -/
theorem feedAll_sendCommand {text : List Byte} (hplain : ∀ c ∈ text, Plain c)
    (hlen : text.length < 256) (hne : text ≠ []) (hs : s.ctl = .line []) :
    m.feedAll s (remoteRs232SendCommand text)
      = m.mainLoopCommand { s with ctl := .line text } text := by
  rw [remoteRs232SendCommand, m.feedAll_command s hplain hne (.inl rfl) hs,
    List.take_of_length_le (by omega)]

/-- Behind a line that fits stands a zero. -/
theorem inBuf_eq {buf : List Byte} (h : buf.length < 256) : ∃ q, m.inBuf buf = buf ++ 0#8 :: q := by
  obtain ⟨k, hk⟩ : ∃ k, 256 - buf.length = k + 1 := ⟨_, (Nat.succ_pred (by omega)).symm⟩
  refine ⟨List.replicate k 0 ++ m.behind, ?_⟩
  rw [inBuf, hk, List.replicate_succ, List.cons_append]
  rfl

/-- A line with two operands, as it is looked at when it is carried out. -/
theorem feedAll_operandLine {word addr count : List Byte} {a n : ℕ}
    (hword : ∀ c ∈ word, Plain c) (haddr : IsHex a addr) (hcount : IsHex n count) {e : Byte}
    (he : LineEnd e) (hlen : (operandLine word addr count).length ≤ 255) (hs : s.ctl = .line []) :
    ∃ q, m.inBuf (operandLine word addr count)
        = word ++ (addr ++ 0x20#8 :: (count ++ 0#8 :: q)) ∧
      m.feedAll s (operandLine word addr count ++ [e])
        = m.mainLoopCommand { s with ctl := .line (operandLine word addr count) }
            (operandLine word addr count) := by
  have hplain : ∀ c ∈ operandLine word addr count, Plain c := by
    intro c hc
    simp only [operandLine, List.mem_append, List.mem_cons] at hc
    rcases hc with hc | hc | rfl | hc
    · exact hword c hc
    · exact plain_of_isHex haddr hc
    · exact plain_space
    · exact plain_of_isHex hcount hc
  obtain ⟨q, hq⟩ := m.inBuf_eq (Nat.lt_succ_of_le hlen)
  refine ⟨q, ?_, ?_⟩
  · rw [hq, operandLine, List.append_assoc, List.append_assoc, List.cons_append]
  · rw [m.feedAll_command s hplain (by simp [operandLine]) he hs, List.take_of_length_le hlen]

/-! ## Dispatch -/

section Dispatch

variable {buf : List Byte}

theorem mainLoopCommand_read {q : List Byte} (h : m.inBuf buf = ascii "READ " ++ q) :
    m.mainLoopCommand s buf = s.commandRead q := by
  rw [mainLoopCommand, h]
  simp [ascii, List.isPrefixOf]

theorem mainLoopCommand_readb {q : List Byte} (h : m.inBuf buf = ascii "READB " ++ q) :
    m.mainLoopCommand s buf = s.commandReadb q := by
  rw [mainLoopCommand, h]
  simp [ascii, List.isPrefixOf]

theorem mainLoopCommand_write {q : List Byte} (h : m.inBuf buf = ascii "WRITE " ++ q) :
    m.mainLoopCommand s buf = s.commandWrite q ((m.inBuf buf).length - buf.length) := by
  rw [mainLoopCommand, h]
  simp [ascii, List.isPrefixOf]

theorem mainLoopCommand_writeb {q : List Byte} (h : m.inBuf buf = ascii "WRITEB " ++ q) :
    m.mainLoopCommand s buf = s.commandWriteb q := by
  rw [mainLoopCommand, h]
  simp [ascii, List.isPrefixOf]

theorem mainLoopCommand_8086 {q : List Byte} (h : m.inBuf buf = ascii "8086" ++ 0#8 :: q) :
    m.mainLoopCommand s buf = m.command8086 s := by
  rw [mainLoopCommand, h]
  simp [ascii, List.isPrefixOf]

theorem mainLoopCommand_286 {q : List Byte} (h : m.inBuf buf = ascii "286" ++ 0#8 :: q) :
    m.mainLoopCommand s buf = if s.mode = .i8086 then s.jumpTo .i286 "286"
      else s.responseOutputErr (ascii "Unknown command") := by
  rw [mainLoopCommand, h]
  simp [ascii, List.isPrefixOf]

theorem mainLoopCommand_386_16 {q : List Byte} (h : m.inBuf buf = ascii "386-16" ++ 0#8 :: q) :
    m.mainLoopCommand s buf = if s.mode = .i8086 then s.jumpTo .i386x16 "386-16"
      else s.responseOutputErr (ascii "Unknown command") := by
  rw [mainLoopCommand, h]
  simp [ascii, List.isPrefixOf]

theorem mainLoopCommand_386_32 {q : List Byte} (h : m.inBuf buf = ascii "386-32" ++ 0#8 :: q) :
    m.mainLoopCommand s buf = if s.mode = .i8086 then s.jumpTo .i386x32 "386-32"
      else s.responseOutputErr (ascii "Unknown command") := by
  rw [mainLoopCommand, h]
  simp [ascii, List.isPrefixOf]

theorem mainLoopCommand_x64 {q : List Byte} (h : m.inBuf buf = ascii "x64" ++ 0#8 :: q) :
    m.mainLoopCommand s buf = if s.mode = .i8086 then m.jmpX64 s
      else s.responseOutputErr (ascii "Unknown command") := by
  rw [mainLoopCommand, h]
  simp [ascii, List.isPrefixOf]

end Dispatch

end Stage2

end RemoteX86
