import RemoteX86.Lib.Hex
import Mathlib.Algebra.BigOperators.Group.List.Basic
import Mathlib.Data.List.Induction
import Mathlib.Data.Nat.ModEq

/-!
# The Internet checksum

One's complement sums of 16-bit words, with an end-around carry, over bytes high byte first.  Such a
sum is its plain total modulo 65535, where a total that is not zero is never shown as zero
(`sum_eq_repr`), so the order of the words and where they are split do not matter, and what verifies
a checksum can be read off the totals (`repr_add_eq_max_iff`).
-/

namespace Checksum

open Hex (Byte)

/-- Addition with an end-around carry. -/
def add (a b : ℕ) : ℕ := if a + b < 65536 then a + b else a + b - 65535

/-- The one's complement sum of words. -/
def sum (ws : List ℕ) : ℕ := ws.foldl add 0

/-- The words of a run of bytes, padded with a zero byte if their number is odd. -/
def words : List Byte → List ℕ
  | [] => []
  | [a] => [a.toNat * 256]
  | a :: b :: p => (a.toNat * 256 + b.toNat) :: words p

/-- The one's complement sum of a run of bytes. -/
def sumBytes (p : List Byte) : ℕ := sum (words p)

/-! ## Totals -/

/-- The word that stands for a total. -/
def repr (n : ℕ) : ℕ := if n = 0 then 0 else (n - 1) % 65535 + 1

theorem repr_le (n : ℕ) : repr n ≤ 65535 := by
  rw [repr]
  split_ifs <;> omega

theorem repr_of_le {n : ℕ} (h : n ≤ 65535) : repr n = n := by
  rw [repr]
  split_ifs with h0
  · exact h0.symm
  · rw [Nat.mod_eq_of_lt (by omega)]
    omega

theorem repr_pos {n : ℕ} (h : 0 < n) : 0 < repr n := by
  rw [repr, if_neg h.ne']
  omega

theorem repr_eq_zero_iff (n : ℕ) : repr n = 0 ↔ n = 0 := by
  rcases Nat.eq_zero_or_pos n with rfl | hn
  · simp [repr]
  · have := repr_pos hn
    omega

theorem add_repr (m n : ℕ) : add (repr m) (repr n) = repr (m + n) := by
  unfold add repr
  split_ifs <;> omega

theorem sum_eq_repr {ws : List ℕ} (h : ∀ w ∈ ws, w < 65536) : sum ws = repr ws.sum := by
  induction ws using List.reverseRecOn with
  | nil => rfl
  | append_singleton ws w ih =>
    have hw : w ≤ 65535 := by
      have := h w (by simp)
      omega
    rw [sum] at ih ⊢
    rw [List.foldl_append, ih fun v hv => h v (by simp [hv]), List.foldl_cons, List.foldl_nil,
      List.sum_append, List.sum_singleton, ← add_repr, repr_of_le hw]

/-- What a word has to be for a total to come out as all ones. -/
theorem repr_add_eq_max_iff {s f : ℕ} (hs : 0 < s) (hf : f ≤ 65535) :
    repr (s + f) = 65535 ↔ f = 65535 - repr s ∨ f = 65535 ∧ repr s = 65535 := by
  rw [repr, repr, if_neg (by omega), if_neg hs.ne']
  omega

/-- The complement of a sum makes it verify. -/
theorem repr_add_complement (s : ℕ) : repr (s + (65535 - repr s)) = 65535 := by
  rcases Nat.eq_zero_or_pos s with rfl | hs
  · rfl
  · exact (repr_add_eq_max_iff hs (by omega)).2 (Or.inl rfl)

/-! ## The other byte order -/

/-- A word with its two bytes exchanged. -/
def swap (w : ℕ) : ℕ := w % 256 * 256 + w / 256

/-- The word depends on the total modulo 65535, and on whether it is zero. -/
theorem repr_congr {m n : ℕ} (hzero : m = 0 ↔ n = 0) (h : m ≡ n [MOD 65535]) : repr m = repr n := by
  rw [Nat.ModEq] at h
  unfold repr
  split_ifs <;> omega

/-- Exchanging the bytes multiplies by 256. -/
theorem swap_modEq (w : ℕ) : swap w ≡ 256 * w [MOD 65535] := by
  have hw : 256 * w = swap w + 65535 * (w / 256) := by
    unfold swap
    omega
  rw [hw]
  exact (Nat.add_mul_mod_self_left _ _ _).symm

theorem swap_eq_zero_iff (w : ℕ) : swap w = 0 ↔ w = 0 := by
  unfold swap
  omega

theorem sum_map_swap_modEq (ws : List ℕ) : (ws.map swap).sum ≡ 256 * ws.sum [MOD 65535] := by
  induction ws with
  | nil => rfl
  | cons w ws ih =>
    rw [List.map_cons, List.sum_cons, List.sum_cons, Nat.mul_add]
    exact (swap_modEq w).add ih

theorem sum_map_swap_eq_zero_iff (ws : List ℕ) : (ws.map swap).sum = 0 ↔ ws.sum = 0 := by
  induction ws with
  | nil => rfl
  | cons w ws ih =>
    rw [List.map_cons, List.sum_cons, List.sum_cons, Nat.add_eq_zero_iff, Nat.add_eq_zero_iff, ih,
      swap_eq_zero_iff]

/-- The bytes of a sum are exchanged with those of the words. -/
theorem repr_sum_map_swap (ws : List ℕ) : repr (ws.map swap).sum = swap (repr ws.sum) := by
  have htotal : repr (ws.map swap).sum = repr (256 * repr ws.sum) := by
    have hrepr : repr ws.sum ≡ ws.sum [MOD 65535] := by
      rw [Nat.ModEq, repr]
      split_ifs <;> omega
    refine repr_congr ?_ ((sum_map_swap_modEq ws).trans (hrepr.symm.mul_left 256))
    have hzero := repr_eq_zero_iff ws.sum
    rw [sum_map_swap_eq_zero_iff]
    omega
  have hle := repr_le ws.sum
  have hswap : swap (repr ws.sum) ≤ 65535 := by
    unfold swap
    omega
  have hzero : 256 * repr ws.sum = 0 ↔ swap (repr ws.sum) = 0 := by
    rw [swap_eq_zero_iff]
    omega
  rw [htotal, repr_congr hzero (swap_modEq _).symm, repr_of_le hswap]

/-! ## Bytes -/

theorem words_lt : ∀ (p : List Byte), ∀ w ∈ words p, w < 65536
  | [], w, h => by simp [words] at h
  | [a], w, h => by
    have := a.isLt
    simp only [words, List.mem_singleton] at h
    omega
  | a :: b :: p, w, h => by
    have ha := a.isLt
    have hb := b.isLt
    simp only [words, List.mem_cons] at h
    rcases h with rfl | h
    · omega
    · exact words_lt p w h

theorem sumBytes_eq_repr (p : List Byte) : sumBytes p = repr (words p).sum :=
  sum_eq_repr (words_lt p)

theorem words_append : ∀ (p q : List Byte), p.length % 2 = 0 → words (p ++ q) = words p ++ words q
  | [], q, _ => rfl
  | [a], q, h => by simp at h
  | a :: b :: p, q, h => by
    have hp : p.length % 2 = 0 := by
      rw [List.length_cons, List.length_cons] at h
      omega
    rw [List.cons_append, List.cons_append, words, words, words_append p q hp, List.cons_append]

end Checksum
