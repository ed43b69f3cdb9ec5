import Mathlib.Data.List.Basic
import Mathlib.Algebra.BigOperators.Group.List.Basic

/-!
# Odometers

A row of wheels, the fastest first, each a digit and its radix, under a top count that no radix
bounds.  A tick turns the fastest wheel, which carries into the next where it comes round; it adds one
to the number the odometer shows (`Odometer.value_tick`).
-/

namespace Odometer

/-- The number shown by wheels under a top count. -/
def value : List (ℕ × ℕ) → ℕ → ℕ
  | [], top => top
  | (d, r) :: ws, top => d + r * value ws top

def tick : List (ℕ × ℕ) → ℕ → List (ℕ × ℕ) × ℕ
  | [], top => ([], top + 1)
  | (d, r) :: ws, top =>
    if d + 1 < r then ((d + 1, r) :: ws, top)
    else ((0, r) :: (tick ws top).1, (tick ws top).2)

/-- Every digit is below its radix. -/
def Fits (ws : List (ℕ × ℕ)) : Prop := ∀ w ∈ ws, w.1 < w.2

theorem Fits.tick : ∀ {ws : List (ℕ × ℕ)}, Fits ws → ∀ top, Fits (tick ws top).1
  | [], _, _ => by simp [Odometer.tick, Fits]
  | (d, r) :: ws, h, top => by
    obtain ⟨hd, hws⟩ := List.forall_mem_cons.1 h
    unfold Odometer.tick
    split_ifs with hlt
    · exact List.forall_mem_cons.2 ⟨hlt, hws⟩
    · exact List.forall_mem_cons.2 ⟨by simp only at hd ⊢; omega, Fits.tick hws top⟩

theorem value_tick : ∀ {ws : List (ℕ × ℕ)}, Fits ws → ∀ top,
    value (tick ws top).1 (tick ws top).2 = value ws top + 1
  | [], _, _ => rfl
  | (d, r) :: ws, h, top => by
    obtain ⟨hd, hws⟩ := List.forall_mem_cons.1 h
    unfold tick
    split_ifs with hlt
    · simp only [value]; omega
    · -- the wheel comes round: its last digit and the carry make one full turn
      have hr : r = d + 1 := by simp only at hd; omega
      simp only [value, value_tick hws top, Nat.mul_add]
      omega

/-- What the wheels can show together before they all come round. -/
def span (ws : List (ℕ × ℕ)) : ℕ := (ws.map Prod.snd).prod

theorem span_tick : ∀ (ws : List (ℕ × ℕ)) (top : ℕ), span (tick ws top).1 = span ws
  | [], _ => rfl
  | (d, r) :: ws, top => by
    unfold tick
    split_ifs
    · rfl
    · have h := span_tick ws top
      simp only [span, List.map_cons, List.prod_cons] at h ⊢
      rw [h]

theorem span_mul_top_le : ∀ (ws : List (ℕ × ℕ)) (top : ℕ), span ws * top ≤ value ws top
  | [], top => by simp [span, value]
  | (d, r) :: ws, top => by
    have h := span_mul_top_le ws top
    calc span ((d, r) :: ws) * top = r * (span ws * top) := by simp [span, Nat.mul_assoc]
      _ ≤ r * value ws top := Nat.mul_le_mul_left r h
      _ ≤ value ((d, r) :: ws) top := Nat.le_add_left _ _

/-- Below a multiple of the span the top count is below the factor. -/
theorem top_lt {ws : List (ℕ × ℕ)} {top n : ℕ} (h : value ws top < span ws * n) : top < n :=
  Nat.lt_of_mul_lt_mul_left (Nat.lt_of_le_of_lt (span_mul_top_le ws top) h)

end Odometer
