import RemoteX86.Lib.Memory

/-!
# What a copy into memory is to do

`Stored` and `Fetched` say of a memory, byte by byte, what it means that a range has been written or
read, without saying how.  `write` and `read` do it (`stored_write`, `fetched_read`).
-/

namespace Memory

open Hex (Byte)

variable {w : ℕ}

/-- The bytes from `a` on are these, and every other is as it was. -/
structure Stored (m m' : Mem w) (a : ℕ) (bs : List Byte) : Prop where
  inside : ∀ i b, bs[i]? = some b → m' (BitVec.ofNat w (a + i)) = b
  outside : ∀ x : BitVec w, x.toNat < a ∨ a + bs.length ≤ x.toNat → m' x = m x

/-- These are the `n` bytes from `a` on. -/
structure Fetched (m : Mem w) (a n : ℕ) (bs : List Byte) : Prop where
  length : bs.length = n
  byte : ∀ i < n, bs[i]? = some (m (BitVec.ofNat w (a + i)))

theorem stored_write (m : Mem w) {a : ℕ} {bs : List Byte} (h : a + bs.length ≤ 2 ^ w) :
    Stored m (write m (BitVec.ofNat w a) bs) a bs where
  inside i b hb := by
    have hi : i < bs.length := (List.getElem?_eq_some_iff.1 hb).1
    rw [write_apply _ _ _ _ (by omega), BitVec.ofNat_add, sub_left_toNat _ (by omega), hb]
    rfl
  outside x hx := by
    rcases bs with - | ⟨b, bs⟩
    · rfl
    · rw [List.length_cons] at h hx
      have ha : (BitVec.ofNat w a).toNat = a := by
        rw [BitVec.toNat_ofNat]
        exact Nat.mod_eq_of_lt (by omega)
      rw [write_range _ _ _ (by rw [ha]; exact h), ha]
      split_ifs with hle
      · rw [List.getElem?_eq_none (by rw [List.length_cons]; omega)]
        rfl
      · rfl

theorem fetched_read (m : Mem w) (a n : ℕ) : Fetched m a n (read m (BitVec.ofNat w a) n) where
  length := length_read _ _ _
  byte i hi := by rw [getElem?_read _ _ _ _ hi, BitVec.ofNat_add]

end Memory
