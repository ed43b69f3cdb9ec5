import Mathlib.Data.List.Basic
import Mathlib.Algebra.Order.Ring.Nat

/-!
# Bump allocation

Blocks are cut off one after another from where the last one ended, and nothing is given back.  The
top moves up by the size of a block, or to the next multiple of an alignment, and never down; so the
blocks lie in order between the base and the top (`Packed.run`).
-/

namespace Bump

inductive Call where
  | block (n : ℕ)
  | align (m : ℕ) (pos : 0 < m)

structure Block where
  start : ℕ
  size : ℕ
  deriving DecidableEq

def Block.stop (b : Block) : ℕ := b.start + b.size

/-- The top, and the blocks under it, the oldest first. -/
structure Region where
  top : ℕ
  blocks : List Block

/-- The next multiple of `m` from `a` on. -/
def roundUp (a m : ℕ) : ℕ := (a + m - 1) / m * m

theorem le_roundUp (a : ℕ) {m : ℕ} (hm : 0 < m) : a ≤ roundUp a m := by
  have hdiv := Nat.div_add_mod (a + m - 1) m
  have hmod := Nat.mod_lt (a + m - 1) hm
  rw [Nat.mul_comm] at hdiv
  unfold roundUp
  omega

theorem dvd_roundUp (a m : ℕ) : m ∣ roundUp a m := Nat.dvd_mul_left m _

namespace Region

def step (r : Region) : Call → Region
  | .block n => { top := r.top + n, blocks := r.blocks ++ [⟨r.top, n⟩] }
  | .align m _ => { r with top := roundUp r.top m }

def run (r : Region) (calls : List Call) : Region := calls.foldl step r

theorem run_append (r : Region) (calls more : List Call) :
    r.run (calls ++ more) = (r.run calls).run more := List.foldl_append

theorem top_le_step (r : Region) : ∀ c, r.top ≤ (r.step c).top
  | .block n => Nat.le_add_right r.top n
  | .align _ pos => le_roundUp r.top pos

theorem top_le_run (r : Region) (calls : List Call) : r.top ≤ (r.run calls).top := by
  induction calls generalizing r with
  | nil => exact le_rfl
  | cons c calls ih => exact (r.top_le_step c).trans (ih (r.step c))

end Region

/-- The blocks lie one behind another between the base and the top. -/
structure Packed (base : ℕ) (r : Region) : Prop where
  base_le : base ≤ r.top
  inside : ∀ b ∈ r.blocks, base ≤ b.start ∧ b.stop ≤ r.top
  ordered : r.blocks.Pairwise fun b c => b.stop ≤ c.start

variable {base : ℕ} {r : Region}

theorem packed_empty (base : ℕ) : Packed base ⟨base, []⟩ :=
  ⟨le_rfl, by simp, List.Pairwise.nil⟩

theorem Packed.step (h : Packed base r) : ∀ c, Packed base (r.step c)
  | .block n => by
    refine ⟨h.base_le.trans (Nat.le_add_right _ _), fun b hb => ?_, ?_⟩
    · rcases List.mem_append.1 hb with hb | hb
      · exact ⟨(h.inside b hb).1, (h.inside b hb).2.trans (Nat.le_add_right _ _)⟩
      · obtain rfl := List.mem_singleton.1 hb
        exact ⟨h.base_le, le_rfl⟩
    · refine List.pairwise_append.2 ⟨h.ordered, List.pairwise_singleton _ _, fun b hb c hc => ?_⟩
      obtain rfl := List.mem_singleton.1 hc
      exact (h.inside b hb).2
  | .align m pos => by
    have hle := le_roundUp r.top pos
    exact ⟨h.base_le.trans hle, fun b hb => ⟨(h.inside b hb).1, (h.inside b hb).2.trans hle⟩,
      h.ordered⟩

theorem Packed.run (h : Packed base r) (calls : List Call) : Packed base (r.run calls) := by
  induction calls generalizing r with
  | nil => exact h
  | cons c calls ih => exact ih (h.step c)

end Bump
