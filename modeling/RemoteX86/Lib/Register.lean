import Mathlib.Data.Nat.Bitwise

/-!
# Registers with read-only bits

A register some bits of which can be written while the others are fixed, and the windows of an
address space that such registers place: `2 ^ log` addresses from a base which is a multiple of
that.  The register of a window (`Register.ofWindow`) holds the base; below the size its bits are
fixed, so what it reads once ones have been written tells the size (`Window.toNat_base_or_not_mask`).
-/

namespace Registers

variable {w : ℕ}

/-! ## Registers -/

structure Register (w : ℕ) where
  writable : BitVec w
  fixed : BitVec w
  value : BitVec w
  fixed_and : fixed &&& writable = 0#w
  value_and : value &&& writable = value

namespace Register

variable (r : Register w)

def read : BitVec w := r.value ||| r.fixed

def write (v : BitVec w) : Register w where
  writable := r.writable
  fixed := r.fixed
  value := v &&& r.writable
  fixed_and := r.fixed_and
  value_and := by rw [BitVec.and_assoc, BitVec.and_self]

@[simp] theorem write_write (u v : BitVec w) : (r.write u).write v = r.write v := rfl

/-- To write back what was read changes nothing. -/
@[simp] theorem write_read_self : r.write r.read = r := by
  have h : r.read &&& r.writable = r.value := by
    rw [read, BitVec.and_or_distrib_right, r.fixed_and, r.value_and, BitVec.or_zero]
  obtain ⟨writable, fixed, value, _, _⟩ := r
  simp only [write, mk.injEq, true_and]
  exact h

@[simp] theorem read_write_zero : (r.write 0#w).read = r.fixed := by simp [read, write]

@[simp] theorem read_write_allOnes : (r.write (BitVec.allOnes w)).read = r.writable ||| r.fixed := by
  simp [read, write]

/-- All bits read as zeros. -/
def zero : Register w where
  writable := 0#w
  fixed := 0#w
  value := 0#w
  fixed_and := BitVec.zero_and
  value_and := BitVec.zero_and

/-- The `k` bits of a register from bit `s` on. -/
def extract (s k : ℕ) : Register k where
  writable := r.writable.extractLsb' s k
  fixed := r.fixed.extractLsb' s k
  value := r.value.extractLsb' s k
  fixed_and := by rw [← BitVec.extractLsb'_and, r.fixed_and]; simp
  value_and := by rw [← BitVec.extractLsb'_and, r.value_and]

end Register

/-! ## Windows -/

/-- `2 ^ log` addresses from a base aligned to that. -/
structure Window (w : ℕ) where
  base : BitVec w
  log : ℕ
  log_lt : log < w
  aligned : 2 ^ log ∣ base.toNat

namespace Window

variable (win : Window w)

def last : ℕ := win.base.toNat + 2 ^ win.log - 1

/-- The bits of an address that the base decides. -/
def mask : BitVec w := BitVec.allOnes w <<< win.log

theorem getLsbD_mask (i : ℕ) : win.mask.getLsbD i = decide (win.log ≤ i ∧ i < w) := by
  unfold mask
  rw [BitVec.getLsbD_shiftLeft, BitVec.getLsbD_allOnes]
  by_cases h : i < win.log
  · simp [h]
  · by_cases hw : i < w
    · simp [h, hw]
      omega
    · simp [hw]

theorem getLsbD_base {i : ℕ} (hi : i < win.log) : win.base.getLsbD i = false := by
  obtain ⟨c, hc⟩ := win.aligned
  rw [BitVec.getLsbD, hc, Nat.testBit_two_pow_mul]
  simp [hi]

theorem base_and_mask : win.base &&& win.mask = win.base := by
  apply BitVec.eq_of_getLsbD_eq
  intro i hi
  rw [BitVec.getLsbD_and, getLsbD_mask]
  by_cases h : i < win.log
  · simp [win.getLsbD_base h]
  · simp [hi]
    omega

/-- What lies below the size has no bit of the mask. -/
theorem and_mask_of_lt {x : BitVec w} (hx : x.toNat < 2 ^ win.log) : x &&& win.mask = 0#w := by
  apply BitVec.eq_of_getLsbD_eq
  intro i hi
  rw [BitVec.getLsbD_and, getLsbD_mask]
  by_cases h : i < win.log
  · simp
    omega
  · have hbit : x.getLsbD i = false :=
      Nat.testBit_lt_two_pow (hx.trans_le (Nat.pow_le_pow_right (by decide) (by omega)))
    simp [hbit]

theorem base_and_of_lt {x : BitVec w} (hx : x.toNat < 2 ^ win.log) : win.base &&& x = 0#w := by
  rw [← win.base_and_mask, BitVec.and_assoc, BitVec.and_comm win.mask, win.and_mask_of_lt hx,
    BitVec.and_zero]

theorem toNat_not_mask : (~~~win.mask).toNat = 2 ^ win.log - 1 := by
  apply Nat.eq_of_testBit_eq
  intro i
  rw [Nat.testBit_two_pow_sub_one]
  change (~~~win.mask).getLsbD i = _
  rw [BitVec.getLsbD_not, getLsbD_mask]
  have := win.log_lt
  grind

/-- The base with every bit below the size set is the last address. -/
theorem toNat_base_or_not_mask : (win.base ||| ~~~win.mask).toNat = win.last := by
  have hpos := Nat.two_pow_pos win.log
  obtain ⟨c, hc⟩ := win.aligned
  rw [BitVec.toNat_or, toNat_not_mask, last, hc,
    ← Nat.two_pow_add_eq_or_of_lt (by omega : 2 ^ win.log - 1 < 2 ^ win.log)]
  omega

end Window

/-- The register of a window, with `fixed` in bits below its size. -/
def Register.ofWindow (win : Window w) (fixed : BitVec w) (h : fixed.toNat < 2 ^ win.log) :
    Register w where
  writable := win.mask
  fixed := fixed
  value := win.base
  fixed_and := win.and_mask_of_lt h
  value_and := win.base_and_mask

/-- Type bits taken off again. -/
theorem or_and_not {v x m : BitVec w} (hv : v &&& m = 0#w) (hx : x &&& ~~~m = 0#w) :
    (v ||| x) &&& ~~~m = v := by
  rw [BitVec.and_or_distrib_right, hx, BitVec.or_zero]
  apply BitVec.eq_of_getLsbD_eq
  intro i hi
  have hbit : (v &&& m).getLsbD i = false := by rw [hv]; simp
  rw [BitVec.getLsbD_and] at hbit
  rw [BitVec.getLsbD_and, BitVec.getLsbD_not]
  grind

end Registers
