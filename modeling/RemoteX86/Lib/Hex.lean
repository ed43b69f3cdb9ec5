import Mathlib.Data.Nat.Digits.Lemmas
import Mathlib.Data.List.TakeWhile
import Mathlib.Tactic.IntervalCases

/-!
# Hexadecimal text

Bytes as characters, the upper-case numeral of a number with no leading zero, and the reader that
shifts one digit after another into a register of a fixed width.  A reader of width `w` leaves the
value of the digits modulo `2 ^ w` and stops at the first character that is no digit
(`scan_append`), so it reads every numeral below `2 ^ w` back (`scan_numeral`).
-/

namespace Hex

abbrev Byte := BitVec 8

/-- The characters of a string as bytes. -/
def ascii (s : String) : List Byte := s.toList.map fun c => BitVec.ofNat 8 c.toNat

/-- The value of a hexadecimal digit, in either case. -/
def digitVal (c : Byte) : Option ℕ :=
  if 0x30#8 ≤ c ∧ c ≤ 0x39#8 then some (c.toNat - 0x30)
  else if 0x61#8 ≤ c ∧ c ≤ 0x66#8 then some (c.toNat - 0x61 + 10)
  else if 0x41#8 ≤ c ∧ c ≤ 0x46#8 then some (c.toNat - 0x41 + 10)
  else none

/-- The upper-case character of a digit. -/
def digit (d : ℕ) : Byte := if d < 10 then BitVec.ofNat 8 (0x30 + d) else BitVec.ofNat 8 (0x37 + d)

/-- The upper-case numeral of `n`, with no leading zero. -/
def numeral (n : ℕ) : List Byte :=
  if n = 0 then [digit 0] else (Nat.digits 16 n).reverse.map digit

/-- What a list of digits adds to the value `acc` read before it. -/
def value (acc : ℕ) (ds : List Byte) : ℕ :=
  ds.foldl (fun a c => a * 16 + (digitVal c).getD 0) acc

/-- One digit shifted into a register of width `w`. -/
def shiftIn {w : ℕ} (v : BitVec w) (d : ℕ) : BitVec w := (v <<< 4) ||| BitVec.ofNat w d

/-- Shift digits in until the first character that is none: the register and what is left. -/
def scan {w : ℕ} (v : BitVec w) : List Byte → BitVec w × List Byte
  | [] => (v, [])
  | c :: p =>
    match digitVal c with
    | some d => scan (shiftIn v d) p
    | none => (v, c :: p)

/-- Digits that name `v`, in either case and with any number of leading zeros. -/
structure IsHex (v : ℕ) (ds : List Byte) : Prop where
  ne_nil : ds ≠ []
  digits : ∀ c ∈ ds, ∃ d, digitVal c = some d
  value_eq : value 0 ds = v

/-- No digit stands first. -/
def NoDigit (p : List Byte) : Prop := ∀ c, p.head? = some c → digitVal c = none

instance (p : List Byte) : Decidable (NoDigit p) :=
  match p with
  | [] => isTrue (by simp [NoDigit])
  | c :: q => decidable_of_iff (digitVal c = none) (by simp [NoDigit])

/-! ## Digits -/

theorem digitVal_lt {c : Byte} {d : ℕ} (h : digitVal c = some d) : d < 16 := by
  revert c d
  decide

theorem digitVal_space : digitVal 0x20#8 = none := rfl

theorem digitVal_nul : digitVal 0x00#8 = none := rfl

theorem digitVal_digit {d : ℕ} (h : d < 16) : digitVal (digit d) = some d := by
  interval_cases d <;> rfl

theorem digit_eq_zero_iff {d : ℕ} (h : d < 16) : digit d = 0x30#8 ↔ d = 0 := by
  interval_cases d <;> decide

theorem numeral_zero : numeral 0 = [0x30#8] := rfl

theorem numeral_pos {n : ℕ} (h : 0 < n) : numeral n = (Nat.digits 16 n).reverse.map digit := by
  rw [numeral, if_neg (by omega)]

theorem numeral_digits (n : ℕ) : ∀ c ∈ numeral n, ∃ d < 16, c = digit d := by
  intro c hc
  unfold numeral at hc
  split_ifs at hc with h
  · exact ⟨0, by decide, by simpa using hc⟩
  · simp only [List.mem_map, List.mem_reverse] at hc
    obtain ⟨d, hd, rfl⟩ := hc
    exact ⟨d, Nat.digits_lt_base (by decide) hd, rfl⟩

theorem digitVal_of_mem_numeral {n : ℕ} {c : Byte} (h : c ∈ numeral n) :
    ∃ d, digitVal c = some d := by
  obtain ⟨d, hd, rfl⟩ := numeral_digits n c h
  exact ⟨d, digitVal_digit hd⟩

theorem numeral_ne_nil (n : ℕ) : numeral n ≠ [] := by
  unfold numeral
  split_ifs with h
  · simp
  · simpa using Nat.digits_ne_nil_iff_ne_zero.2 h

/-- A numeral starts with a zero only when it is the numeral of zero. -/
theorem numeral_head {n : ℕ} (h : 0 < n) (p : List Byte) :
    (numeral n ++ p).head? ≠ some 0x30#8 := by
  have hne : Nat.digits 16 n ≠ [] := Nat.digits_ne_nil_iff_ne_zero.2 h.ne'
  have hlast := Nat.getLast_digit_ne_zero 16 h.ne'
  have hlt : (Nat.digits 16 n).getLast hne < 16 :=
    Nat.digits_lt_base (by decide) (List.getLast_mem hne)
  rw [List.head?_append_of_ne_nil _ (numeral_ne_nil n), numeral_pos h, List.head?_map,
    List.head?_reverse, List.getLast?_eq_getLast_of_ne_nil hne]
  simp only [Option.map_some, ne_eq, Option.some.injEq]
  exact fun hd => hlast ((digit_eq_zero_iff hlt).1 hd)

theorem numeral_length_le {n k : ℕ} (hk : 0 < k) (h : n < 16 ^ k) : (numeral n).length ≤ k := by
  unfold numeral
  split_ifs with h0
  · exact hk
  · rw [List.length_map, List.length_reverse]
    exact (Nat.digits_length_le_iff (by decide) n).2 h

/-! ## Values -/

theorem value_append (acc : ℕ) (ds es : List Byte) :
    value acc (ds ++ es) = value (value acc ds) es := by
  simp [value]

theorem value_digits : ∀ (l : List ℕ), (∀ d ∈ l, d < 16) →
    value 0 (l.reverse.map digit) = Nat.ofDigits 16 l
  | [], _ => rfl
  | d :: l, h => by
    have ih := value_digits l fun e he => h e (List.mem_cons_of_mem _ he)
    rw [List.reverse_cons, List.map_append, value_append, ih, Nat.ofDigits_cons]
    simp only [value, List.map_cons, List.map_nil, List.foldl_cons, List.foldl_nil,
      digitVal_digit (h d List.mem_cons_self), Option.getD_some]
    omega

theorem value_numeral (n : ℕ) : value 0 (numeral n) = n := by
  unfold numeral
  split_ifs with h
  · simp [h, value, digitVal_digit]
  · rw [value_digits _ fun d hd => Nat.digits_lt_base (by decide) hd, Nat.ofDigits_digits]

theorem isHex_numeral (n : ℕ) : IsHex n (numeral n) :=
  ⟨numeral_ne_nil n, fun _ hc => digitVal_of_mem_numeral hc, value_numeral n⟩

/-! ## The reader -/

theorem shiftIn_ofNat {w : ℕ} (a : ℕ) {d : ℕ} (h : d < 16) :
    shiftIn (BitVec.ofNat w a) d = BitVec.ofNat w (a * 16 + d) := by
  have hor : a * 16 + d = a <<< 4 ||| d := by
    rw [← Nat.shiftLeft_add_eq_or_of_lt (by omega : d < 2 ^ 4), Nat.shiftLeft_eq]
  apply BitVec.eq_of_toNat_eq
  simp only [shiftIn, BitVec.toNat_or, BitVec.toNat_shiftLeft, BitVec.toNat_ofNat]
  rw [hor, Nat.or_mod_two_pow, Nat.shiftLeft_eq, Nat.shiftLeft_eq, Nat.mod_mul_mod]

theorem scan_noDigit {w : ℕ} (v : BitVec w) {p : List Byte} (h : NoDigit p) :
    scan v p = (v, p) := by
  cases p with
  | nil => rfl
  | cons c p =>
    have hc : digitVal c = none := h c rfl
    simp only [scan, hc]

/-- The reader takes a run of digits whole and goes on behind it. -/
theorem scan_append {w : ℕ} : ∀ (ds : List Byte) (a : ℕ) (p : List Byte),
    (∀ c ∈ ds, ∃ d, digitVal c = some d) →
      scan (BitVec.ofNat w a) (ds ++ p) = scan (BitVec.ofNat w (value a ds)) p
  | [], _, _, _ => rfl
  | c :: ds, a, p, h => by
    obtain ⟨d, hd⟩ := h c List.mem_cons_self
    have hv : value a (c :: ds) = value (a * 16 + d) ds := by simp [value, hd]
    rw [List.cons_append, scan, hd, hv]
    simp only []
    rw [shiftIn_ofNat a (digitVal_lt hd)]
    exact scan_append ds _ p fun e he => h e (List.mem_cons_of_mem _ he)

/-- A register of width `w` reads the numeral of `n` as `n` modulo `2 ^ w`. -/
theorem scan_numeral {w : ℕ} (n : ℕ) {p : List Byte} (h : NoDigit p) :
    scan 0#w (numeral n ++ p) = (BitVec.ofNat w n, p) := by
  have := scan_append (w := w) (numeral n) 0 p fun c hc => digitVal_of_mem_numeral hc
  rw [value_numeral, scan_noDigit _ h] at this
  exact this

end Hex
