import RemoteX86.Lib.Memory

/-!
# Loops that fill a table

A loop whose test stands behind its body, and tables of 64-bit entries laid out low byte first.
`doWhile_invariant` is the rule for such a loop when a counter decides it; `Fills` says that a table
of `n` entries has been written at an address and nothing else, and fills of neighbouring tables
compose (`Fills.trans`).
-/

namespace Fill

open Hex Memory

/-! ## Loops -/

section Loops

variable {σ : Type*}

/-- The body, and again while the test holds; none when the fuel has run out. -/
def doWhile (body : σ → σ) (again : σ → Bool) : ℕ → σ → Option σ
  | 0, _ => none
  | fuel + 1, s => if again (body s) then doWhile body again fuel (body s) else some (body s)

/-- A loop that is to run `n` times keeps an invariant that counts its rounds. -/
theorem doWhile_invariant {body : σ → σ} {again : σ → Bool} (Inv : ℕ → σ → Prop) {n : ℕ}
    (hstep : ∀ k s, k < n → Inv k s →
      Inv (k + 1) (body s) ∧ (again (body s) = true ↔ k + 1 < n)) :
    ∀ (fuel k : ℕ) (s : σ), k < n → n ≤ k + fuel → Inv k s →
      ∃ s', doWhile body again fuel s = some s' ∧ Inv n s'
  | 0, k, s, hk, hfuel, _ => by omega
  | fuel + 1, k, s, hk, hfuel, h => by
    obtain ⟨hinv, hagain⟩ := hstep k s hk h
    unfold doWhile
    by_cases hlast : k + 1 < n
    · rw [if_pos (hagain.2 hlast)]
      exact doWhile_invariant Inv hstep fuel (k + 1) _ hlast (by omega) hinv
    · have hn : k + 1 = n := by omega
      rw [if_neg (mt hagain.1 hlast)]
      exact ⟨_, rfl, hn ▸ hinv⟩

end Loops

/-! ## Tables -/

variable {w : ℕ}

/-- The four bytes of a doubleword. -/
def dword (x : BitVec 32) : List Byte :=
  [x.extractLsb' 0 8, x.extractLsb' 8 8, x.extractLsb' 16 8, x.extractLsb' 24 8]

/-- The doubleword at an address. -/
def dwordAt (m : Mem w) (a : BitVec w) : BitVec 32 :=
  m (a + 3#w) ++ m (a + 2#w) ++ m (a + 1#w) ++ m a

/-- The quadword at an address. -/
def qwordAt (m : Mem w) (a : BitVec w) : BitVec 64 := dwordAt m (a + 4#w) ++ dwordAt m a

/-- `n` entries have been written from `base` upwards, and nothing else. -/
structure Fills (m m' : Mem w) (base n : ℕ) (entry : ℕ → BitVec 64) : Prop where
  entries : ∀ i < n, qwordAt m' (BitVec.ofNat w (base + 8 * i)) = entry i
  frame : ∀ a : BitVec w, a.toNat < base ∨ base + 8 * n ≤ a.toNat → m' a = m a

theorem dword_append (x : BitVec 32) :
    x.extractLsb' 24 8 ++ x.extractLsb' 16 8 ++ x.extractLsb' 8 8 ++ x.extractLsb' 0 8 = x := by
  have hx := x.isLt
  apply BitVec.eq_of_toNat_eq
  simp only [toNat_append_add, BitVec.extractLsb'_toNat, Nat.shiftRight_eq_div_pow]
  omega

theorem dwordAt_congr {m m' : Mem w} {a : ℕ}
    (h : ∀ j < 4, m' (BitVec.ofNat w (a + j)) = m (BitVec.ofNat w (a + j))) :
    dwordAt m' (BitVec.ofNat w a) = dwordAt m (BitVec.ofNat w a) := by
  have h0 := h 0 (by omega)
  unfold dwordAt
  rw [← BitVec.ofNat_add, ← BitVec.ofNat_add, ← BitVec.ofNat_add, h 3 (by omega), h 2 (by omega),
    h 1 (by omega)]
  rw [Nat.add_zero] at h0
  rw [h0]

theorem qwordAt_congr {m m' : Mem w} {a : ℕ}
    (h : ∀ j < 8, m' (BitVec.ofNat w (a + j)) = m (BitVec.ofNat w (a + j))) :
    qwordAt m' (BitVec.ofNat w a) = qwordAt m (BitVec.ofNat w a) := by
  have hhigh : dwordAt m' (BitVec.ofNat w (a + 4)) = dwordAt m (BitVec.ofNat w (a + 4)) :=
    dwordAt_congr fun j hj => Nat.add_assoc a 4 j ▸ h (4 + j) (by omega)
  unfold qwordAt
  rw [← BitVec.ofNat_add, hhigh, dwordAt_congr fun j hj => h j (by omega)]

/-! ## Stores -/

section Stores

variable {a : ℕ} (h : a + 4 ≤ 2 ^ w) (m : Mem w) (x : BitVec 32)

include h

theorem write_dword_of_ne {b : BitVec w} (hb : b.toNat < a ∨ a + 4 ≤ b.toNat) :
    write m (BitVec.ofNat w a) (dword x) b = m b := by
  have ha : (BitVec.ofNat w a).toNat = a := Nat.mod_eq_of_lt (by omega)
  rw [write_range _ _ _ (by rw [ha]; exact h), ha]
  split_ifs with hle
  · rw [List.getElem?_eq_none (by unfold dword; simp; omega)]
    rfl
  · rfl

theorem write_dword_apply {j : ℕ} (hj : j < 4) :
    write m (BitVec.ofNat w a) (dword x) (BitVec.ofNat w (a + j)) = x.extractLsb' (8 * j) 8 := by
  have ha : (BitVec.ofNat w a).toNat = a := Nat.mod_eq_of_lt (by omega)
  have haj : (BitVec.ofNat w (a + j)).toNat = a + j := Nat.mod_eq_of_lt (by omega)
  rw [write_range _ _ _ (by rw [ha]; exact h), ha, haj, if_pos (by omega), Nat.add_sub_cancel_left]
  interval_cases j <;> rfl

theorem dwordAt_write : dwordAt (write m (BitVec.ofNat w a) (dword x)) (BitVec.ofNat w a) = x := by
  have h0 := write_dword_apply h m x (j := 0) (by omega)
  rw [Nat.add_zero] at h0
  unfold dwordAt
  rw [← BitVec.ofNat_add, ← BitVec.ofNat_add, ← BitVec.ofNat_add,
    write_dword_apply h m x (by omega), write_dword_apply h m x (by omega),
    write_dword_apply h m x (by omega), h0]
  exact dword_append x

end Stores

/-! ## Fills -/

theorem fills_zero (m : Mem w) (base : ℕ) (entry : ℕ → BitVec 64) : Fills m m base 0 entry :=
  ⟨fun _ h => absurd h (Nat.not_lt_zero _), fun _ _ => rfl⟩

/-- Two doublewords make one entry. -/
theorem fills_one {a : ℕ} (h : a + 8 ≤ 2 ^ w) (m : Mem w) (low high : BitVec 32) :
    Fills m (write (write m (BitVec.ofNat w a) (dword low)) (BitVec.ofNat w (a + 4)) (dword high))
      a 1 (fun _ => high ++ low) where
  entries i hi := by
    obtain rfl : i = 0 := by omega
    simp only [Nat.mul_zero, Nat.add_zero]
    unfold qwordAt
    have hlow : ∀ j < 4, write (write m (BitVec.ofNat w a) (dword low)) (BitVec.ofNat w (a + 4))
        (dword high) (BitVec.ofNat w (a + j))
          = write m (BitVec.ofNat w a) (dword low) (BitVec.ofNat w (a + j)) := by
      intro j hj
      have haj : (BitVec.ofNat w (a + j)).toNat = a + j := Nat.mod_eq_of_lt (by omega)
      exact write_dword_of_ne (by omega) _ _ (.inl (by omega))
    rw [← BitVec.ofNat_add, dwordAt_write (by omega), dwordAt_congr hlow,
      dwordAt_write (by omega)]
  frame b hb := by
    rw [write_dword_of_ne (by omega) _ _ (by omega), write_dword_of_ne (by omega) _ _ (by omega)]

/-- A fill goes on where another has ended. -/
theorem Fills.trans {m m' m'' : Mem w} {base base' j k n : ℕ} {entry entry' : ℕ → BitVec 64}
    (hj : Fills m m' base j entry) (hk : Fills m' m'' base' k entry')
    (hbase : base + 8 * j = base') (hn : j + k = n) (hentry : ∀ i < k, entry' i = entry (j + i))
    (hw : base + 8 * n ≤ 2 ^ w) : Fills m m'' base n entry where
  entries i hi := by
    by_cases hij : i < j
    · have hkeep : ∀ b < 8, m'' (BitVec.ofNat w (base + 8 * i + b))
          = m' (BitVec.ofNat w (base + 8 * i + b)) := by
        intro b hb
        have hlt : (BitVec.ofNat w (base + 8 * i + b)).toNat = base + 8 * i + b :=
          Nat.mod_eq_of_lt (by omega)
        exact hk.frame _ (.inl (by omega))
      rw [qwordAt_congr hkeep, hj.entries i hij]
    · obtain ⟨l, rfl⟩ := Nat.exists_eq_add_of_le (not_lt.1 hij)
      have hl : l < k := by omega
      rw [Nat.mul_add, ← Nat.add_assoc, hbase, hk.entries l hl, hentry l hl]
  frame a ha := by
    rw [hk.frame a (by omega), hj.frame a (by omega)]

end Fill
