import RemoteX86.Lib.Checksum
import RemoteX86.Proofs.Packet

/-!
# The device's checksum loops

What a loop over the words of a packet leaves in `chksum` is the one's complement sum of the words it
does not skip.
-/

namespace RemoteX86

open Hex Memory

/-- The total of the first `n` words, leaving out word `skip`. -/
def wordTotal (skip : Option ℕ) (p : List Byte) : ℕ → ℕ
  | 0 => 0
  | n + 1 => wordTotal skip p n + if skip = some n then 0 else (net16 p (2 * n)).toNat

theorem toNat_net16 (p : List Byte) (i : ℕ) :
    (net16 p i).toNat = (p.getD i 0).toNat * 256 + (p.getD (i + 1) 0).toNat := by
  rw [net16_eq, toNat_append_add]
  rfl

/-! ## One word -/

/-- One word more, with the carry brought round. -/
theorem toNat_chksumAdd {c : BitVec 32} (wd : BitVec 16) (hc : c.toNat ≤ 65535) :
    (chksumAdd c wd).toNat = Checksum.add c.toNat wd.toNat := by
  have hwd := wd.isLt
  have hsum : (c + wd.setWidth 32).toNat = c.toNat + wd.toNat := by
    rw [BitVec.toNat_add, BitVec.toNat_setWidth]
    omega
  unfold chksumAdd
  simp only []
  rw [BitVec.toNat_and, BitVec.toNat_add, BitVec.toNat_ushiftRight, hsum,
    Nat.shiftRight_eq_div_pow, show (0xFFFF : BitVec 32).toNat = 2 ^ 16 - 1 from rfl,
    Nat.and_two_pow_sub_one_eq_mod, Checksum.add]
  split_ifs <;> omega

theorem toNat_chksumAdd_repr {c : BitVec 32} {t : ℕ} (hc : c.toNat = Checksum.repr t)
    (wd : BitVec 16) : (chksumAdd c wd).toNat = Checksum.repr (t + wd.toNat) := by
  have hle := Checksum.repr_le t
  have hwd := wd.isLt
  rw [toNat_chksumAdd wd (by omega), hc, ← Checksum.add_repr,
    Checksum.repr_of_le (by omega : wd.toNat ≤ 65535)]

/-! ## The fold -/

/-- What the loops leave in `chksum` for some words. -/
def chksumFold (chksum : BitVec 32) (ws : List (BitVec 16)) : BitVec 32 := ws.foldl chksumAdd chksum

/-- The words the loop over `n` words reads, without word `skip`. -/
def chksumLoopWords (skip : Option ℕ) (n : ℕ) (p : List Byte) : List (BitVec 16) :=
  ((List.range n).filter fun i => skip ≠ some i).map fun i => net16 p (2 * i)

theorem chksumWords_eq_fold (skip : Option ℕ) (p : List Byte) (c : BitVec 32) : ∀ n,
    chksumWords skip n p c = chksumFold c (chksumLoopWords skip n p)
  | 0 => rfl
  | n + 1 => by
    have ih := chksumWords_eq_fold skip p c n
    rw [chksumWords, chksumFold, chksumLoopWords] at ih ⊢
    rw [List.range_succ, List.foldl_append, ih, List.filter_append, List.map_append,
      List.foldl_append]
    by_cases hskip : skip = some n <;> simp [hskip]

/-- The fold adds the words' total. -/
theorem toNat_chksumFold (ws : List (BitVec 16)) : ∀ {c : BitVec 32} {t : ℕ},
    c.toNat = Checksum.repr t →
      (chksumFold c ws).toNat = Checksum.repr (t + (ws.map BitVec.toNat).sum) := by
  induction ws with
  | nil => exact fun hc => hc
  | cons w ws ih =>
    intro c t hc
    have hstep := ih (toNat_chksumAdd_repr hc w)
    rwa [Nat.add_assoc] at hstep

theorem toNat_chksumFold_zero (ws : List (BitVec 16)) :
    (chksumFold 0 ws).toNat = Checksum.repr (ws.map BitVec.toNat).sum := by
  have h := toNat_chksumFold ws (c := 0) (t := 0) rfl
  rwa [Nat.zero_add] at h

theorem toNat_ntoh16 (x : BitVec 16) : (ntoh16 x).toNat = Checksum.swap x.toNat := by
  have hx : x = (x >>> 8).setWidth 8 ++ x.setWidth 8 := by
    refine BitVec.eq_of_toNat_eq ?_
    have := x.isLt
    rw [toNat_append_add, BitVec.toNat_setWidth, BitVec.toNat_setWidth, BitVec.toNat_ushiftRight,
      Nat.shiftRight_eq_div_pow]
    omega
  conv_lhs => rw [hx]
  have := x.isLt
  rw [ntoh16_append, toNat_append_add, BitVec.toNat_setWidth, BitVec.toNat_setWidth,
    BitVec.toNat_ushiftRight, Nat.shiftRight_eq_div_pow, Checksum.swap]
  omega

/-- A running checksum that is the one's complement sum of its words. -/
structure OnesComplementSum (fold : BitVec 32 → List (BitVec 16) → BitVec 32) : Prop where
  value : ∀ ws, (fold 0 ws).toNat =
    if ∀ w ∈ ws, w = 0 then 0 else ((ws.map BitVec.toNat).sum - 1) % 65535 + 1
  perm : ∀ vs ws, vs.Perm ws → fold 0 vs = fold 0 ws
  append : ∀ vs ws, fold 0 (vs ++ ws) = fold (fold 0 vs) ws
    ∧ (fold (fold 0 vs) ws).toNat = Checksum.add (fold 0 vs).toNat (fold 0 ws).toNat
  swap : ∀ ws, fold 0 (ws.map ntoh16) = (ntoh16 ((fold 0 ws).setWidth 16)).setWidth 32

theorem sum_toNat_eq_zero_iff (ws : List (BitVec 16)) :
    (ws.map BitVec.toNat).sum = 0 ↔ ∀ w ∈ ws, w = 0 := by
  induction ws with
  | nil => simp
  | cons w ws ih =>
    have hw : w.toNat = 0 ↔ w = 0 := BitVec.toNat_inj (y := 0)
    simp only [List.map_cons, List.sum_cons, Nat.add_eq_zero_iff, ih, List.forall_mem_cons, hw]

/-- The fold is the one's complement sum of its words, and every loop is the fold of the words it
reads. -/
theorem chksumFold_onesComplementSum :
    OnesComplementSum chksumFold ∧ ∀ skip n p chksum,
      chksumWords skip n p chksum = chksumFold chksum (chksumLoopWords skip n p) := by
  refine ⟨⟨fun ws => ?_, fun vs ws hperm => ?_, fun vs ws => ⟨?_, ?_⟩, fun ws => ?_⟩,
    fun skip n p chksum => chksumWords_eq_fold skip p chksum n⟩
  · rw [toNat_chksumFold_zero, Checksum.repr]
    exact if_congr (sum_toNat_eq_zero_iff ws) rfl rfl
  · rw [← BitVec.toNat_inj, toNat_chksumFold_zero, toNat_chksumFold_zero,
      (hperm.map BitVec.toNat).sum_eq]
  · exact List.foldl_append
  · rw [toNat_chksumFold ws (toNat_chksumFold_zero vs), toNat_chksumFold_zero,
      toNat_chksumFold_zero, Checksum.add_repr]
  · have hle := Checksum.repr_le (ws.map BitVec.toNat).sum
    have hwide : ((chksumFold 0 ws).setWidth 16).toNat = Checksum.repr (ws.map BitVec.toNat).sum := by
      rw [BitVec.toNat_setWidth, toNat_chksumFold_zero]
      omega
    have hmap : (ws.map ntoh16).map BitVec.toNat = (ws.map BitVec.toNat).map Checksum.swap := by
      rw [List.map_map, List.map_map]
      exact List.map_congr_left fun w _ => toNat_ntoh16 w
    have hlt := (ntoh16 ((chksumFold 0 ws).setWidth 16)).isLt
    rw [← BitVec.toNat_inj, toNat_chksumFold_zero, hmap, Checksum.repr_sum_map_swap,
      BitVec.toNat_setWidth, Nat.mod_eq_of_lt (by omega), toNat_ntoh16, hwide]

/-- The loop adds the words it does not skip. -/
theorem toNat_chksumWords (skip : Option ℕ) (p : List Byte) {c : BitVec 32} {t : ℕ}
    (hc : c.toNat = Checksum.repr t) : ∀ n,
      (chksumWords skip n p c).toNat = Checksum.repr (t + wordTotal skip p n)
  | 0 => hc
  | n + 1 => by
    have ih := toNat_chksumWords skip p hc n
    rw [chksumWords] at ih ⊢
    rw [List.range_succ, List.foldl_append, List.foldl_cons, List.foldl_nil, wordTotal]
    split_ifs with hskip
    · exact ih
    · rw [toNat_chksumAdd_repr ih, Nat.add_assoc]

/-- The word left out is what is missing. -/
theorem wordTotal_some (p : List Byte) (k : ℕ) : ∀ n, k < n →
    wordTotal (some k) p n + (net16 p (2 * k)).toNat = wordTotal none p n
  | 0, h => absurd h (Nat.not_lt_zero k)
  | n + 1, h => by
    have hbelow : ∀ m ≤ k, wordTotal (some k) p m = wordTotal none p m := by
      intro m hm
      induction m with
      | zero => rfl
      | succ m ih =>
        have hne : some k ≠ some m := by
          rw [Ne, Option.some.injEq]
          omega
        rw [wordTotal, wordTotal, ih (by omega), if_neg hne, if_neg nofun]
    rw [wordTotal, wordTotal, if_neg (nofun : none ≠ some n)]
    by_cases hk : k = n
    · subst hk
      rw [if_pos rfl, hbelow k le_rfl, Nat.add_zero]
    · have hne : some k ≠ some n := by rwa [Ne, Option.some.injEq]
      have ih := wordTotal_some p k n (by omega)
      rw [if_neg hne]
      omega

theorem wordTotal_cons (a b : Byte) (p : List Byte) : ∀ n,
    wordTotal none (a :: b :: p) (n + 1) = a.toNat * 256 + b.toNat + wordTotal none p n
  | 0 => by
    rw [wordTotal, wordTotal, wordTotal, if_neg nofun, toNat_net16]
    simp
  | n + 1 => by
    have hnet : net16 (a :: b :: p) (2 * (n + 1)) = net16 p (2 * n) := by
      rw [net16_eq, net16_eq, show 2 * (n + 1) = 2 * n + 1 + 1 by omega, List.getD_cons_succ,
        List.getD_cons_succ, List.getD_cons_succ, List.getD_cons_succ]
    rw [wordTotal, wordTotal_cons a b p n, wordTotal, hnet, if_neg nofun, if_neg nofun,
      Nat.add_assoc]

/-- The words of a run of bytes, as the loops see them, and the odd byte at its end. -/
theorem sum_words_take : ∀ (len : ℕ) (p : List Byte), len ≤ p.length →
    (Checksum.words (p.take len)).sum =
      wordTotal none p (len / 2) + if len % 2 = 1 then (p.getD (len - 1) 0).toNat * 256 else 0
  | 0, p, _ => by simp [Checksum.words, wordTotal]
  | 1, [], h => absurd h (by decide)
  | 1, a :: p, _ => by simp [Checksum.words, wordTotal]
  | len + 2, [], h => absurd h (Nat.not_succ_le_zero _)
  | len + 2, [a], h => by simp at h
  | len + 2, a :: b :: p, h => by
    have hle : len ≤ p.length := by
      rw [List.length_cons, List.length_cons] at h
      omega
    have hodd : (if (len + 2) % 2 = 1 then ((a :: b :: p).getD (len + 2 - 1) 0).toNat * 256 else 0)
        = if len % 2 = 1 then (p.getD (len - 1) 0).toNat * 256 else 0 := by
      rw [Nat.add_mod_right]
      split_ifs with hlen
      · obtain ⟨k, rfl⟩ : ∃ k, len = k + 1 := ⟨len - 1, by omega⟩
        rfl
      · rfl
    rw [List.take_succ_cons, List.take_succ_cons, Checksum.words, List.sum_cons,
      sum_words_take len p hle, hodd, Nat.add_div_right len Nat.two_pos, wordTotal_cons,
      ← Nat.add_assoc]

theorem wordTotal_agree {m : ℕ} {p q : List Byte} (h : Agree m p q) (skip : Option ℕ) : ∀ n,
    2 * n ≤ m → wordTotal skip p n = wordTotal skip q n
  | 0, _ => rfl
  | n + 1, hn => by
    rw [wordTotal, wordTotal, wordTotal_agree h skip n (by omega), h.net16 (by omega)]

theorem agree_peek (p : List Byte) (n : ℕ) : Agree n (peek p 0 n) p := by
  intro i hi
  simp [peek, List.getD_eq_getElem?_getD, hi]

/-- The same for what memory holds from `p` on. -/
theorem sum_words_peek (p : List Byte) (len : ℕ) :
    (Checksum.words (peek p 0 len)).sum =
      wordTotal none p (len / 2) + if len % 2 = 1 then (p.getD (len - 1) 0).toNat * 256 else 0 := by
  have hlen : (peek p 0 len).length = len := by simp [peek]
  have hagree := agree_peek p len
  have h := sum_words_take len (peek p 0 len) hlen.ge
  rw [List.take_of_length_le hlen.le, wordTotal_agree hagree none (len / 2) (by omega)] at h
  rw [h]
  split_ifs with hodd
  · rw [hagree (len - 1) (by omega)]
  · rfl

/-- The loop's result, complemented and compared. -/
theorem complement_eq_iff {c : BitVec 32} (hc : c.toNat ≤ 65535) (x : BitVec 16) :
    (~~~ c) &&& 0xFFFF = x.setWidth 32 ↔ x.toNat = 65535 - c.toNat := by
  have hx := x.isLt
  have hcomp : ((~~~ c) &&& 0xFFFF).toNat = 65535 - c.toNat := by
    rw [BitVec.toNat_and, BitVec.toNat_not, show (0xFFFF : BitVec 32).toNat = 2 ^ 16 - 1 from rfl,
      Nat.and_two_pow_sub_one_eq_mod]
    omega
  have hwide : (x.setWidth 32).toNat = x.toNat := by
    rw [BitVec.toNat_setWidth]
    omega
  rw [← BitVec.toNat_inj, hcomp, hwide, eq_comm]

end RemoteX86
