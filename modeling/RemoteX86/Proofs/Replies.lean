import RemoteX86.Proofs.Requests
import RemoteX86.Proofs.Packet

/-!
# What the library makes of the device's replies

The device prints 32 bits as eight digits, and the library reads them back with `strtoull`.  So of
the replies to a WRITE it accepts those with its own address and sequence number and no other, of
the replies to a READ those with its own address and enough data, and of the replies to an EXEC
every one.
-/

namespace RemoteX86

open Hex Memory

/-- What `sendto` returns when it takes all of it, as `retryLoop` compares it. -/
theorem not_sent_short (data : List Byte) (h : data.length < 2 ^ 64) :
    ¬ (BitVec.ofInt 64 (data.length : ℤ)).toNat < data.length := by
  rw [BitVec.ofInt_natCast, BitVec.toNat_ofNat, Nat.mod_eq_of_lt h]
  exact lt_irrefl _

theorem hexes_digitVal {i : ℕ} (h : i < 16) : digitVal (hexes.getD i 0) = some i := by
  interval_cases i <;> rfl

theorem digit_of_mem_hexToStr : ∀ (n : ℕ) (x : BitVec 32), ∀ c ∈ hexToStr x n,
    ∃ d, digitVal c = some d
  | 0, x, c, h => by simp [hexToStr] at h
  | n + 1, x, c, h => by
    rw [hexToStr, List.mem_cons] at h
    rcases h with rfl | h
    · refine ⟨_, hexes_digitVal ?_⟩
      have := x.isLt
      rw [BitVec.toNat_ushiftRight, Nat.shiftRight_eq_div_pow]
      omega
    · exact digit_of_mem_hexToStr n _ c h

/-- The first `n` of eight digits are the value without its last `8 - n` digits. -/
theorem value_hexToStr : ∀ (n : ℕ) (x : BitVec 32) (acc : ℕ), n ≤ 8 →
    value acc (hexToStr x n) = acc * 16 ^ n + x.toNat / 16 ^ (8 - n)
  | 0, x, acc, _ => by
    have := x.isLt
    simp only [hexToStr, value, List.foldl_nil]
    omega
  | n + 1, x, acc, hn => by
    have hx := x.isLt
    obtain ⟨k, hk⟩ : ∃ k, 7 = n + k := ⟨7 - n, by omega⟩
    have hd : (x >>> 28).toNat = x.toNat / 16 ^ 7 := by
      rw [BitVec.toNat_ushiftRight, Nat.shiftRight_eq_div_pow]
      norm_num
    have hlt : (x >>> 28).toNat < 16 := by omega
    have hshl : (x <<< 4).toNat = 16 * (x.toNat % 16 ^ 7) := by
      rw [BitVec.toNat_shiftLeft, Nat.shiftLeft_eq]
      omega
    have hsplit : x.toNat / 16 ^ k = x.toNat % 16 ^ 7 / 16 ^ k + x.toNat / 16 ^ 7 * 16 ^ n := by
      rw [← Nat.add_mul_div_right _ _ (by positivity : 0 < 16 ^ k), Nat.mul_assoc, ← pow_add, ← hk,
        Nat.mod_add_div']
    have hcons : value acc (hexToStr x (n + 1))
        = value (acc * 16 + x.toNat / 16 ^ 7) (hexToStr (x <<< 4) n) := by
      simp only [hexToStr, value, List.foldl_cons, hexes_digitVal hlt, Option.getD_some]
      rw [hd]
    rw [hcons, value_hexToStr n _ _ (by omega), hshl, show 8 - n = k + 1 by omega,
      show 8 - (n + 1) = k by omega, pow_succ' 16 k, Nat.mul_div_mul_left _ _ (by omega), hsplit,
      pow_succ' 16 n]
    ring

/-! ## `strtoull` -/

theorem not_isspace_of_digit {c : Byte} {d : ℕ} (h : digitVal c = some d) : isspace c = false := by
  revert c d
  decide

theorem ne_of_digit {c e : Byte} {d : ℕ} (h : digitVal c = some d) (he : digitVal e = none) :
    c ≠ e := by
  rintro rfl
  rw [h] at he
  simp at he

theorem takeDigits_append {ds p : List Byte} (hds : ∀ c ∈ ds, ∃ d, digitVal c = some d)
    (hp : NoDigit p) : takeDigits (ds ++ p) = (ds, p) := by
  have hall : ∀ c ∈ ds, (digitVal c).isSome = true := by
    intro c hc
    obtain ⟨d, hd⟩ := hds c hc
    rw [hd]
    rfl
  unfold takeDigits
  rw [List.span_eq_takeWhile_dropWhile, List.takeWhile_append_of_pos hall,
    List.dropWhile_append_of_pos hall]
  cases p with
  | nil => simp
  | cons c p =>
    have hc : digitVal c = none := hp c rfl
    simp [hc]

/-- Digits that are not too many are read as their value, if no `x` makes a `0x` of the first. -/
theorem strtoull_of_digits {ds p : List Byte} (hds : ∀ b ∈ ds, ∃ d, digitVal b = some d)
    (hne : ds ≠ []) (hx : (ds ++ p)[1]? ≠ some 0x78#8 ∧ (ds ++ p)[1]? ≠ some 0x58#8)
    (hp : NoDigit p) (hv : value 0 ds < 2 ^ 64) :
    strtoull (ds ++ p) = (BitVec.ofNat 64 (value 0 ds), p) := by
  match ds, hne with
  | c :: ds, _ => ?_
  obtain ⟨d, hd⟩ := hds c List.mem_cons_self
  have htake := takeDigits_append hds hp
  generalize hq : c :: ds ++ p = q at htake hx
  have hsp : q.dropWhile isspace = q := by
    rw [← hq, List.cons_append,
      List.dropWhile_cons_of_neg (by rw [not_isspace_of_digit hd]; simp)]
  have hneg : (q.head? == some 0x2D#8) = false := by
    rw [← hq]
    simpa using ne_of_digit hd (by decide)
  have hpos : (q.head? == some 0x2B#8) = false := by
    rw [← hq]
    simpa using ne_of_digit hd (by decide)
  have hno : ∀ b, q[1]? ≠ some b → strncmpEq q [0x30#8, b] = false := by
    intro b hb
    rw [strncmpEq, ← Bool.not_eq_true, List.isPrefixOf_iff_prefix]
    rintro ⟨t, ht⟩
    rw [← ht] at hb
    exact hb rfl
  have h0x : strncmpEq q (ascii "0x") = false := hno _ hx.1
  have h0X : strncmpEq q (ascii "0X") = false := hno _ hx.2
  unfold strtoull
  simp only [hsp, hneg, hpos, h0x, h0X, htake, Bool.or_self, Bool.false_and, Bool.false_eq_true,
    if_false, List.isEmpty_cons]
  rw [if_neg (by omega)]

/-- The second of two digits or more is no `x`. -/
theorem strtoull_digits {ds p : List Byte} (hds : ∀ b ∈ ds, ∃ d, digitVal b = some d)
    (h2 : 2 ≤ ds.length) (hp : NoDigit p) (hv : value 0 ds < 2 ^ 64) :
    strtoull (ds ++ p) = (BitVec.ofNat 64 (value 0 ds), p) := by
  obtain ⟨d, hd⟩ := hds ds[1] (List.getElem_mem h2)
  have h1 : (ds ++ p)[1]? = some ds[1] := by
    rw [List.getElem?_append_left h2, List.getElem?_eq_getElem h2]
  refine strtoull_of_digits hds (List.ne_nil_of_length_pos (by omega)) ?_ hp hv
  rw [h1]
  exact ⟨fun h => ne_of_digit hd (by decide) (Option.some.inj h),
    fun h => ne_of_digit hd (by decide) (Option.some.inj h)⟩

/-- `strtoull` reads back what `hex_to_str` printed. -/
theorem strtoull_hexToStr (x : BitVec 32) {p : List Byte} (hp : NoDigit p) :
    strtoull (hexToStr x 8 ++ p) = (x.setWidth 64, p) := by
  have hx := x.isLt
  have hv : value 0 (hexToStr x 8) = x.toNat := by
    rw [value_hexToStr 8 x 0 le_rfl]
    simp
  rw [strtoull_digits (digit_of_mem_hexToStr 8 x) (by rw [length_hexToStr]; omega) hp
    (by omega), hv, BitVec.ofNat_toNat]

/-! ## Replies -/

theorem setWidth_inj {x y : BitVec 32} : x.setWidth 64 = y.setWidth 64 ↔ x = y := by
  constructor
  · intro h
    have := congrArg (BitVec.setWidth 32) h
    simpa using this
  · exact congrArg _

theorem strncmpEq_append (s p : List Byte) : strncmpEq (s ++ p) s = true :=
  List.isPrefixOf_iff_prefix.2 (List.prefix_append s p)

theorem recvfrom_short {size : ℕ} {check : List Byte → Verdict} {r : List Byte}
    (h : r.length ≤ size - 1) (h0 : 0 < r.length) : recvfrom size check r = check r := by
  rw [recvfrom, List.take_of_length_le h]
  exact if_neg (by omega)

/-- Of the replies to writes, the library accepts those to its own address and sequence number. -/
theorem writeCall_reply (addr : BitVec 64) (seq : BitVec 32) (buf : List Byte) (a s : BitVec 32) :
    (writeCall addr seq buf).reply (ascii "OK " ++ hexToStr a 8 ++ [0x20#8] ++ hexToStr s 8)
      = if a.setWidth 64 = addr ∧ s = seq then .done [] else .fail := by
  have h3 : (ascii "OK ").length = 3 := rfl
  have hr : ascii "OK " ++ hexToStr a 8 ++ [0x20#8] ++ hexToStr s 8
      = ascii "OK " ++ (hexToStr a 8 ++ 0x20#8 :: hexToStr s 8) := by simp
  have hsp : NoDigit (0x20#8 :: hexToStr s 8) := by
    intro c hc
    simp only [List.head?_cons, Option.some.injEq] at hc
    rw [← hc, digitVal_space]
  have hseq : strtoull (hexToStr s 8) = (s.setWidth 64, []) := by
    have := strtoull_hexToStr s (p := []) (by simp [NoDigit])
    rwa [List.append_nil] at this
  have hskip : (0x20#8 :: hexToStr s 8).dropWhile (· == 0x20#8) = hexToStr s 8 := by
    have hd := digit_of_mem_hexToStr 8 s
    have hl := length_hexToStr 8 s
    rw [List.dropWhile_cons_of_pos (by rfl)]
    match hexToStr s 8, hd, hl with
    | c :: ds, hd, _ =>
      obtain ⟨d, hd⟩ := hd c List.mem_cons_self
      rw [List.dropWhile_cons_of_neg (by simpa using ne_of_digit hd digitVal_space)]
  have hlen : (ascii "OK " ++ (hexToStr a 8 ++ 0x20#8 :: hexToStr s 8)).length = 20 := by
    simp [h3, length_hexToStr]
  rw [hr]
  unfold writeCall
  simp only []
  rw [recvfrom_short (by omega) (by omega)]
  simp only [writeReply, strncmpEq_append, Bool.not_true, Bool.false_eq_true, if_false,
    List.drop_left' h3, strtoull_hexToStr a hsp, hskip, hseq, ne_eq, setWidth_inj]
  by_cases ha : a.setWidth 64 = addr <;> by_cases hs : s = seq <;> simp [ha, hs]

theorem strchr_append {c : Byte} : ∀ (s p : List Byte), c ∉ s → (0 : Byte) ∉ s →
    strchr c (s ++ c :: p) = some (c :: p)
  | [], p, _, _ => by simp [strchr]
  | b :: s, p, hc, h0 => by
    have hb : b ≠ c := fun e => hc (e ▸ List.mem_cons_self)
    have hb0 : b ≠ 0 := fun e => h0 (e ▸ List.mem_cons_self)
    rw [List.cons_append, strchr, if_neg hb, if_neg hb0]
    exact strchr_append s p (fun h => hc (List.mem_cons_of_mem _ h))
      fun h => h0 (List.mem_cons_of_mem _ h)

theorem not_mem_hexToStr {c : Byte} (hc : digitVal c = none) (x : BitVec 32) (n : ℕ) :
    c ∉ hexToStr x n := by
  intro h
  obtain ⟨d, hd⟩ := digit_of_mem_hexToStr n x c h
  rw [hc] at hd
  simp at hd

/-- Of the replies to reads, the library accepts those from its own address that are long
enough. -/
theorem readCall_reply (addr : BitVec 64) (len : ℕ) (a : BitVec 32) {data : List Byte}
    (hdata : data.length ≤ 1400) :
    (readCall addr len).reply (ascii "OK " ++ hexToStr a 8 ++ [0x0A#8] ++ data)
      = if len ≤ data.length ∧ a.setWidth 64 = addr then .done (data.take len) else .fail := by
  have h3 : (ascii "OK ").length = 3 := rfl
  have hr : ascii "OK " ++ hexToStr a 8 ++ [0x0A#8] ++ data
      = (ascii "OK " ++ hexToStr a 8) ++ 0x0A#8 :: data := by simp
  have hhdr : (ascii "OK " ++ hexToStr a 8).length = 11 := by simp [h3, length_hexToStr]
  have hlen : ((ascii "OK " ++ hexToStr a 8) ++ 0x0A#8 :: data).length = 12 + data.length := by
    rw [List.length_append, hhdr, List.length_cons]
    omega
  have hchr : strchr 0x0A#8 ((ascii "OK " ++ hexToStr a 8) ++ 0x0A#8 :: data)
      = some (0x0A#8 :: data) := by
    refine strchr_append _ _ ?_ ?_
    · simpa [ascii] using not_mem_hexToStr (by decide) a 8
    · simpa [ascii] using not_mem_hexToStr (by decide) a 8
  have htake : ((ascii "OK " ++ hexToStr a 8) ++ 0x0A#8 :: data).take
      (12 + data.length - (data.length + 1)) = ascii "OK " ++ hexToStr a 8 := by
    rw [show 12 + data.length - (data.length + 1) = 11 by omega, List.take_left' hhdr]
  have haddr : strtoull (hexToStr a 8) = (a.setWidth 64, []) := by
    have := strtoull_hexToStr a (p := []) (by simp [NoDigit])
    rwa [List.append_nil] at this
  rw [hr]
  unfold readCall
  simp only []
  rw [recvfrom_short (by omega) (by omega)]
  unfold readReply
  simp only [hchr, hlen, htake, List.length_cons, List.drop_succ_cons, List.drop_zero,
    strncmpEq_append, Bool.not_true, Bool.false_eq_true, if_false, List.drop_left' h3, haddr, ne_eq]
  by_cases hl : len ≤ data.length <;> by_cases ha : a.setWidth 64 = addr <;>
    simp [hl, ha, Nat.not_lt.2, Nat.lt_of_not_le]

end RemoteX86
