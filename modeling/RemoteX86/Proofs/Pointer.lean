import RemoteX86.Pointer
import Mathlib.Logic.Function.Iterate

/-!
# Moving the access descriptor on

`acc286_64k_bump` and `acc386_64k_bump` are to move the base of the ACCESS_SELECTOR descriptor up by
64 KB.  Both clear the lower word of the base, and the one for the 386 counts the upper byte up every
time, by what should only be the carry.  So the base is right behind any number of them only where its
lower word is zero, and for the 386 only every 256 times 64 KB.
-/

namespace RemoteX86

open Hex Memory

namespace Descriptor

/-- The descriptor has base `a + k * 64K` of `w` bits, and else what it had. -/
structure Stepped (w a k : ℕ) (before after : Descriptor) : Prop where
  base : after.base.toNat % 2 ^ w = (a + k * 0x10000) % 2 ^ w
  limit : after.limit = 0xFFFF
  access : after.access = before.access
  flags : after.flags = before.flags

theorem toNat_base (d : Descriptor) : d.base.toNat =
    d.baseHigh.toNat * 2 ^ 24 + d.baseMid.toNat * 2 ^ 16 + d.baseLow.toNat := by
  rw [base, toNat_append_add, toNat_append_add]
  omega

/-- The two upper bytes of the base. -/
def upper (d : Descriptor) : ℕ := d.baseHigh.toNat * 2 ^ 8 + d.baseMid.toNat

end Descriptor

variable (d : Descriptor)

/-! ## The 286 -/

/-- Every step but none clears the lower word. -/
theorem acc286_64kBump_iterate (k : ℕ) : acc286_64kBump^[k + 1] d =
    { d with limit := 0xFFFF, baseLow := 0, baseMid := d.baseMid + BitVec.ofNat 8 (k + 1) } := by
  induction k with
  | zero => rfl
  | succ k ih =>
    rw [Function.iterate_succ_apply', ih]
    simp only [acc286_64kBump, Descriptor.mk.injEq, and_true, true_and]
    rw [BitVec.add_assoc]
    exact congrArg _ (BitVec.ofNat_add (k + 1) 1).symm

theorem stepped286_iff (a : BitVec 24) (k : ℕ) :
    d.Stepped 24 a.toNat k
        (acc286_64kBump^[k] (dxAxPhysTo286seg d ((a >>> 16).setWidth 16) (a.setWidth 16)))
      ↔ k = 0 ∨ a.toNat % 0x10000 = 0 := by
  have ha := a.isLt
  rcases k with _ | k
  · refine ⟨fun _ => .inl rfl, fun _ => ⟨?_, rfl, rfl, rfl⟩⟩
    rw [Function.iterate_zero_apply, Descriptor.toNat_base]
    simp [dxAxPhysTo286seg, Nat.shiftRight_eq_div_pow]
    omega
  · have hbase : (acc286_64kBump^[k + 1]
        (dxAxPhysTo286seg d ((a >>> 16).setWidth 16) (a.setWidth 16))).base.toNat % 2 ^ 24
          = (a.toNat / 0x10000 + (k + 1)) % 0x100 * 0x10000 := by
      rw [acc286_64kBump_iterate, Descriptor.toNat_base]
      simp [dxAxPhysTo286seg, Nat.shiftRight_eq_div_pow]
      omega
    constructor
    · intro h
      have := h.base
      omega
    · rintro (h | h)
      · cases h
      · refine ⟨by omega, ?_, ?_, ?_⟩ <;> rw [acc286_64kBump_iterate] <;> rfl

/-! ## The 386 -/

/-- A step adds 101h to the two upper bytes. -/
theorem upper_acc386_64kBump : (acc386_64kBump d).upper = (d.upper + 0x101) % 0x10000 := by
  have hhigh := d.baseHigh.isLt
  have hmid := d.baseMid.isLt
  have hone : (1 : Byte).toNat = 1 := rfl
  have hzero : (0 : Byte).toNat = 0 := rfl
  unfold acc386_64kBump Descriptor.upper
  by_cases h : d.baseMid = 0xFF
  · have hmid : d.baseMid.toNat = 0xFF := congrArg BitVec.toNat h
    rw [if_pos h]
    simp only [BitVec.toNat_add, hone]
    omega
  · have hne : d.baseMid.toNat ≠ 0xFF := fun e => h (BitVec.eq_of_toNat_eq e)
    rw [if_neg h]
    simp only [BitVec.toNat_add, hone, hzero]
    omega

theorem acc386_64kBump_iterate (k : ℕ) :
    (acc386_64kBump^[k + 1] d).upper = (d.upper + 0x101 * (k + 1)) % 0x10000
      ∧ (acc386_64kBump^[k + 1] d).baseLow = 0 ∧ (acc386_64kBump^[k + 1] d).limit = 0xFFFF
      ∧ (acc386_64kBump^[k + 1] d).access = d.access
      ∧ (acc386_64kBump^[k + 1] d).flags = d.flags := by
  induction k with
  | zero => exact ⟨upper_acc386_64kBump d, rfl, rfl, rfl, rfl⟩
  | succ k ih =>
    obtain ⟨hupper, -, -, haccess, hflags⟩ := ih
    rw [Function.iterate_succ_apply']
    refine ⟨?_, rfl, rfl, haccess, hflags⟩
    rw [upper_acc386_64kBump, hupper]
    omega

theorem stepped386_iff (a : BitVec 32) (k : ℕ) :
    d.Stepped 32 a.toNat k
        (acc386_64kBump^[k] (dxAxPhysTo386seg d ((a >>> 16).setWidth 16) (a.setWidth 16)))
      ↔ k = 0 ∨ a.toNat % 0x10000 = 0 ∧ 256 ∣ k := by
  have ha := a.isLt
  rcases k with _ | k
  · refine ⟨fun _ => .inl rfl, fun _ => ⟨?_, rfl, rfl, rfl⟩⟩
    rw [Function.iterate_zero_apply, Descriptor.toNat_base]
    simp [dxAxPhysTo386seg, Nat.shiftRight_eq_div_pow]
    omega
  · obtain ⟨hupper, hlow, hlimit, haccess, hflags⟩ := acc386_64kBump_iterate
      (dxAxPhysTo386seg d ((a >>> 16).setWidth 16) (a.setWidth 16)) k
    have hstart : (dxAxPhysTo386seg d ((a >>> 16).setWidth 16) (a.setWidth 16)).upper
        = a.toNat / 0x10000 := by
      simp [dxAxPhysTo386seg, Descriptor.upper, Nat.shiftRight_eq_div_pow]
      omega
    rw [hstart, Descriptor.upper] at hupper
    have hbase := Descriptor.toNat_base
      (acc386_64kBump^[k + 1] (dxAxPhysTo386seg d ((a >>> 16).setWidth 16) (a.setWidth 16)))
    rw [hlow, show (0 : BitVec 16).toNat = 0 from rfl] at hbase
    constructor
    · intro h
      have := h.base
      omega
    · rintro (h | ⟨hdvd, k', hk'⟩)
      · cases h
      · exact ⟨by omega, hlimit, haccess, hflags⟩

/-! ## Both -/

/-- How far the base is right behind `k` steps from any address. -/
theorem stepped_iff (d : Descriptor) (k : ℕ) :
    (∀ a : BitVec 24,
      d.Stepped 24 a.toNat k
          (acc286_64kBump^[k] (dxAxPhysTo286seg d ((a >>> 16).setWidth 16) (a.setWidth 16)))
        ↔ k = 0 ∨ a.toNat % 0x10000 = 0) ∧
    ∀ a : BitVec 32,
      d.Stepped 32 a.toNat k
          (acc386_64kBump^[k] (dxAxPhysTo386seg d ((a >>> 16).setWidth 16) (a.setWidth 16)))
        ↔ k = 0 ∨ a.toNat % 0x10000 = 0 ∧ 256 ∣ k :=
  ⟨fun a => stepped286_iff d a k, fun a => stepped386_iff d a k⟩

/-- From 012345 the 286 goes on at 020000, and from 00010000 the 386 at 01020000. -/
theorem not_stepped_once :
    (acc286_64kBump (dxAxPhysTo286seg accessSelector286 0x01 0x2345)).base = 0x020000#32
      ∧ (acc386_64kBump (dxAxPhysTo386seg accessSelector386 0x0001 0x0000)).base = 0x01020000#32
      ∧ ¬ accessSelector286.Stepped 24 0x012345 1
          (acc286_64kBump (dxAxPhysTo286seg accessSelector286 0x01 0x2345))
      ∧ ¬ accessSelector386.Stepped 32 0x00010000 1
          (acc386_64kBump (dxAxPhysTo386seg accessSelector386 0x0001 0x0000)) :=
  ⟨rfl, rfl, fun h => absurd h.base (by decide), fun h => absurd h.base (by decide)⟩

end RemoteX86
