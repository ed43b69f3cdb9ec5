import RemoteX86.Proofs.Replies
import RemoteX86.Proofs.Routines

/-!
# Printers and parsers of hexadecimal text

`hex_to_str` and the host print what `s_strtoul_hex` and the `strtohex` routines of the five parts
of stage 2 read, each in its own registers.  A text longer than the register is read modulo its
width.
-/

namespace RemoteX86

open Hex Memory CallStack

/-- What stands behind a number: a space, a newline or the end of the text. -/
def TextEnd (e : Byte) : Prop := e = 0x20#8 ∨ e = 0x0A#8 ∨ e = 0x00#8

theorem TextEnd.digitVal {e : Byte} (h : TextEnd e) : digitVal e = none := by
  rcases h with rfl | rfl | rfl <;> rfl

theorem TextEnd.ne_x {e : Byte} (h : TextEnd e) : e ≠ 0x78#8 := by
  rcases h with rfl | rfl | rfl <;> decide

/-- A parser into `w` bits, by the text it gets and the value it leaves. -/
structure ReadsHex (w : ℕ) (reads : List Byte → BitVec w → Prop) : Prop where
  numeral : ∀ (v : BitVec w) {e : Byte} (p : List Byte), TextEnd e →
    reads (numeral v.toNat ++ e :: p) v
  digits : ∀ {ds : List Byte} {e : Byte} (p : List Byte), (∀ c ∈ ds, ∃ d, digitVal c = some d) →
    TextEnd e → reads (ds ++ e :: p) (BitVec.ofNat w (value 0 ds))

/-- A numeral is a run of digits. -/
theorem readsHex_of_digits {w : ℕ} {reads : List Byte → BitVec w → Prop}
    (h : ∀ {ds : List Byte} {e : Byte} (p : List Byte), (∀ c ∈ ds, ∃ d, digitVal c = some d) →
      TextEnd e → reads (ds ++ e :: p) (BitVec.ofNat w (value 0 ds))) : ReadsHex w reads := by
  refine ⟨fun v e p he => ?_, h⟩
  have hread := @h (numeral v.toNat) e p (fun c hc => digitVal_of_mem_numeral hc) he
  rwa [value_numeral, BitVec.ofNat_toNat, BitVec.setWidth_eq] at hread

/-! ## The Ethernet debugger -/

/-- The second character of a run of digits is no x, so no `0x` is skipped. -/
theorem sStrtoulHex_digits {ds : List Byte} (hds : ∀ c ∈ ds, ∃ d, digitVal c = some d) {e : Byte}
    (he : digitVal e = none) (hx : ds.length = 1 → e ≠ 0x78#8) (p : List Byte) :
    sStrtoulHex (ds ++ e :: p) = (BitVec.ofNat 32 (value 0 ds), e :: p) := by
  have hscan := scan_append (w := 32) ds 0 (e :: p) hds
  have hno : NoDigit (e :: p) := by
    intro c hc
    rw [List.head?_cons, Option.some.injEq] at hc
    rw [← hc, he]
  rw [scan_noDigit _ hno] at hscan
  rcases ds with _ | ⟨c, ds⟩
  · rw [List.nil_append, sStrtoulHex_of_not_digit he]
    rfl
  · have hprefix : ¬ (c = 0x30#8 ∧ (ds ++ e :: p).head? = some 0x78#8) := by
      rintro ⟨-, hhead⟩
      rcases ds with _ | ⟨c', ds⟩
      · exact hx rfl (by simpa using hhead)
      · obtain ⟨d, hd⟩ := hds c' (by simp)
        obtain rfl : c' = 0x78#8 := by simpa using hhead
        rw [digitVal_x] at hd
        cases hd
    rw [List.cons_append, sStrtoulHex_cons, if_neg hprefix]
    exact hscan

/-- What `hex_to_str` prints is read back, up to the character behind it. -/
theorem sStrtoulHex_hexToStr (v : BitVec 32) {e : Byte} (he : digitVal e = none) (p : List Byte) :
    sStrtoulHex (hexToStr v 8 ++ e :: p) = (v, e :: p) := by
  have hlen := length_hexToStr 8 v
  have hvalue := value_hexToStr 8 v 0 le_rfl
  rw [sStrtoulHex_digits (digit_of_mem_hexToStr 8 v) he (by omega), hvalue]
  simp

theorem readsHex_sStrtoulHex : ReadsHex 32 fun si v => (sStrtoulHex si).1 = v :=
  readsHex_of_digits fun p hds he => by
    rw [sStrtoulHex_digits hds he.digitVal (fun _ => he.ne_x)]

/-! ## Stage 2 -/

/-- The routine at `l`, called with SI at a text, returns with `v` in the registers `reg`. -/
def Image.Reads (img : Image) (mode : Mode) (l : Label) {w : ℕ} (reg : Cpu → BitVec w)
    (si : List Byte) (v : BitVec w) : Prop :=
  ∀ d : Cpu, d.si = si → ∃ d', Returns img.listing mode.bytes (mode, l) d d' ∧ reg d' = v

variable (img : Image) (mode : Mode)

theorem readsHex_strtohex :
    ReadsHex mode.bits (img.Reads mode .strtohex fun d => d.ax.setWidth mode.bits) := by
  refine readsHex_of_digits fun p hds he d hd => ⟨_, strtohex_returns img mode d, ?_⟩
  simp only [hd, strtohex_digits hds he.digitVal]
  exact reg_setWidth mode _

/-- The pair DX:AX is the value cut to 32 bits. -/
theorem append_ofNat (n : ℕ) :
    BitVec.ofNat 16 (n / 2 ^ 16) ++ BitVec.ofNat 16 n = BitVec.ofNat 32 n := by
  refine BitVec.eq_of_toNat_eq ?_
  rw [toNat_append_add, BitVec.toNat_ofNat, BitVec.toNat_ofNat, BitVec.toNat_ofNat]
  omega

theorem readsHex_strtohex32 (hs : mode.sixteen = true) :
    ReadsHex 32 (img.Reads mode .strtohex32 fun d => d.dx.setWidth 16 ++ d.ax.setWidth 16) := by
  refine readsHex_of_digits fun p hds he d hd => ⟨_, strtohex32_returns img mode hs d, ?_⟩
  simp only [hd, strtohex32_digits hds he.digitVal]
  rw [BitVec.setWidth_setWidth_of_le _ (by decide), BitVec.setWidth_setWidth_of_le _ (by decide),
    BitVec.setWidth_eq, BitVec.setWidth_eq, append_ofNat]

/-- All of them read what the device and the host print. -/
theorem hexText_agrees :
    (∀ (v : BitVec 32) (e : Byte) (p : List Byte), digitVal e = none →
      sStrtoulHex (hexToStr v 8 ++ e :: p) = (v, e :: p)) ∧
    ReadsHex 32 (fun si v => (sStrtoulHex si).1 = v) ∧
    ∀ img : Image,
      (∀ mode : Mode, mode.sixteen = true →
        ReadsHex 16 (img.Reads mode .strtohex fun d => d.ax.setWidth 16) ∧
        ReadsHex 32 (img.Reads mode .strtohex32 fun d => d.dx.setWidth 16 ++ d.ax.setWidth 16)) ∧
      ReadsHex 32 (img.Reads .i386x32 .strtohex fun d => d.ax.setWidth 32) ∧
      ReadsHex 64 (img.Reads .x64 .strtohex fun d => d.ax.setWidth 64) := by
  refine ⟨fun v e p he => sStrtoulHex_hexToStr v he p, readsHex_sStrtoulHex,
    fun img => ⟨fun mode hs => ⟨?_, readsHex_strtohex32 img mode hs⟩,
      readsHex_strtohex img .i386x32, readsHex_strtohex img .x64⟩⟩
  cases mode with
  | i8086 => exact readsHex_strtohex img .i8086
  | i286 => exact readsHex_strtohex img .i286
  | i386x16 => exact readsHex_strtohex img .i386x16
  | i386x32 | x64 => cases hs

end RemoteX86
