import RemoteX86.Lib.Memory

/-!
# Copies within a memory

A copy that moves `n` units of `k` bytes, lowest address first, each read when it is its turn.
Unless the destination begins inside the source, it leaves there what the source held before
(`copyUp_eq`).  `write_offset` tells a byte of a block after a write into the block.
-/

namespace Memory

open Hex (Byte)

variable {w : ℕ}

/-- `rep movs` with the direction flag clear. -/
def copyUp (k : ℕ) (m : Mem w) (dst src : BitVec w) : ℕ → Mem w
  | 0 => m
  | n + 1 =>
    copyUp k (write m dst (read m src k)) (dst + BitVec.ofNat w k) (src + BitVec.ofNat w k) n

theorem add_ofNat_add (a : BitVec w) (i j : ℕ) :
    a + BitVec.ofNat w i + BitVec.ofNat w j = a + BitVec.ofNat w (i + j) := by
  rw [BitVec.ofNat_add, BitVec.add_assoc]

/-- A copy onto itself. -/
theorem write_read (m : Mem w) (a : BitVec w) {n : ℕ} (hn : n ≤ 2 ^ w) :
    write m a (read m a n) = m := by
  funext x
  rw [write_apply _ _ _ _ (by rw [length_read]; exact hn)]
  rcases Nat.lt_or_ge (x - a).toNat n with hlt | hge
  · rw [getElem?_read _ _ _ _ hlt, BitVec.ofNat_toNat, BitVec.setWidth_eq, BitVec.add_comm,
      BitVec.sub_add_cancel]
    rfl
  · rw [List.getElem?_eq_none (by rwa [length_read])]
    rfl

/-- What lies `n` bytes or more below the destination is not reached by a write of `k` there. -/
theorem read_write_ahead (m : Mem w) (dst src : BitVec w) {bs : List Byte} {n : ℕ}
    (hbs : bs.length + n ≤ 2 ^ w) (hsrc : bs.length + n ≤ (dst - src).toNat) :
    read (write m dst bs) (src + BitVec.ofNat w bs.length) n
      = read m (src + BitVec.ofNat w bs.length) n := by
  refine read_congr fun i hi => ?_
  have hout : bs.length ≤ (src + BitVec.ofNat w bs.length + BitVec.ofNat w i - dst).toNat := by
    have hd := (dst - src).isLt
    have hk : (BitVec.ofNat w (bs.length + i)).toNat = bs.length + i := by
      rw [BitVec.toNat_ofNat, Nat.mod_eq_of_lt (by omega)]
    have hsub : src + BitVec.ofNat w bs.length + BitVec.ofNat w i - dst
        = BitVec.ofNat w (bs.length + i) - (dst - src) := by
      rw [add_ofNat_add, sub_sub_eq_add_sub, BitVec.add_comm src]
    rw [hsub, BitVec.toNat_sub_of_lt (BitVec.lt_def.2 (by omega)), hk]
    omega
  rw [write_apply _ _ _ _ (by omega), List.getElem?_eq_none hout]
  rfl

/-- A copy whose destination does not begin inside the source. -/
theorem copyUp_eq (k : ℕ) : ∀ (n : ℕ) (m : Mem w) (dst src : BitVec w), k * n ≤ 2 ^ w →
    (dst = src ∨ k * n ≤ (dst - src).toNat) →
    copyUp k m dst src n = write m dst (read m src (k * n))
  | 0, m, dst, src, _, _ => rfl
  | n + 1, m, dst, src, hn, h => by
    rw [Nat.mul_succ] at hn h
    have hlen : (read m src k).length = k := length_read m k src
    have hnext : dst + BitVec.ofNat w k = src + BitVec.ofNat w k
        ∨ k * n ≤ (dst + BitVec.ofNat w k - (src + BitVec.ofNat w k)).toNat := by
      rcases h with rfl | h
      · exact .inl rfl
      · right
        rw [add_sub_add_right_eq_sub]
        omega
    have hread : read (write m dst (read m src k)) (src + BitVec.ofNat w k) (k * n)
        = read m (src + BitVec.ofNat w k) (k * n) := by
      rcases h with rfl | h
      · rw [write_read m dst (by omega)]
      · have hahead := @read_write_ahead w m dst src (read m src k) (k * n)
          (by omega) (by omega)
        rwa [hlen] at hahead
    rw [copyUp, copyUp_eq k n _ _ _ (by omega) hnext, hread, Nat.mul_succ, Nat.add_comm (k * n),
      read_add, write_append, hlen]

/-- A byte of a block after a write `i` bytes into the block. -/
theorem write_offset (m : Mem w) (a : BitVec w) {bs : List Byte} {i j : ℕ}
    (hi : i + bs.length ≤ 2 ^ w) (hj : j < 2 ^ w) :
    write m (a + BitVec.ofNat w i) bs (a + BitVec.ofNat w j)
      = if i ≤ j then (bs[j - i]?).getD (m (a + BitVec.ofNat w j))
        else m (a + BitVec.ofNat w j) := by
  rcases Nat.eq_zero_or_pos bs.length with hempty | hpos
  · rw [List.length_eq_zero_iff.1 hempty]
    simp [write]
  have hi' : (BitVec.ofNat w i).toNat = i := by
    rw [BitVec.toNat_ofNat, Nat.mod_eq_of_lt (by omega)]
  have hj' : (BitVec.ofNat w j).toNat = j := by
    rw [BitVec.toNat_ofNat, Nat.mod_eq_of_lt hj]
  rw [write_apply _ _ _ _ (by omega), add_sub_add_left_eq_sub]
  split_ifs with hle
  · rw [BitVec.toNat_sub_of_le (BitVec.le_def.2 (by omega)), hi', hj']
  · rw [BitVec.toNat_sub_of_lt (BitVec.lt_def.2 (by omega)), hi', hj',
      List.getElem?_eq_none (by omega)]
    rfl

/-- A byte outside a block is left by a write into the block. -/
theorem write_outside (m : Mem w) (a x : BitVec w) {bs : List Byte} {i n : ℕ}
    (hi : i + bs.length ≤ n) (hx : n ≤ (x - a).toNat) :
    write m (a + BitVec.ofNat w i) bs x = m x := by
  have hlt := (x - a).isLt
  have hat : x = a + BitVec.ofNat w (x - a).toNat := by
    rw [BitVec.ofNat_toNat, BitVec.setWidth_eq, BitVec.add_comm, BitVec.sub_add_cancel]
  rw [hat, write_offset m a (by omega) hlt, if_pos (by omega), List.getElem?_eq_none (by omega)]
  rfl

end Memory
