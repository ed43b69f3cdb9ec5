import Mathlib.Data.List.Basic
import Mathlib.Logic.Function.Iterate

/-!
# Memories that are walked through

Copies into and out of a memory, each address the `next` of the one before.  A copy reaches the
addresses `next^[i] a`, and is read back as long as these differ.
-/

namespace Walk

variable {A B : Type*} [DecidableEq A] (next : A → A)

/-- Copy a list into memory, from `a` on. -/
def write (m : A → B) (a : A) : List B → A → B
  | [] => m
  | b :: bs => write (Function.update m a b) (next a) bs

omit [DecidableEq A] in
/-- The `n` values of memory from `a` on. -/
def read (m : A → B) (a : A) : ℕ → List B
  | 0 => []
  | n + 1 => m a :: read m (next a) n

variable {next}

section Read

omit [DecidableEq A]

@[simp] theorem length_read (m : A → B) : ∀ (n : ℕ) (a : A), (read next m a n).length = n
  | 0, _ => rfl
  | n + 1, a => by rw [read, List.length_cons, length_read m n]

theorem getElem?_read (m : A → B) : ∀ (n i : ℕ) (a : A), i < n →
    (read next m a n)[i]? = some (m (next^[i] a))
  | 0, i, a, h => by omega
  | n + 1, 0, a, _ => by simp [read]
  | n + 1, i + 1, a, h => by
    rw [read, List.getElem?_cons_succ, getElem?_read m n i _ (by omega),
      Function.iterate_succ_apply]

theorem read_add (m : A → B) (j : ℕ) : ∀ (i : ℕ) (a : A),
    read next m a (i + j) = read next m a i ++ read next m (next^[i] a) j
  | 0, a => by simp [read]
  | i + 1, a => by
    rw [Nat.succ_add, read, read_add m j i, read, List.cons_append, Function.iterate_succ_apply]

end Read

/-- A copy leaves the addresses it does not reach. -/
theorem write_of_ne {x : A} : ∀ (bs : List B) (m : A → B) (a : A),
    (∀ i < bs.length, next^[i] a ≠ x) → write next m a bs x = m x
  | [], m, a, _ => rfl
  | b :: bs, m, a, h => by
    have hne : x ≠ a := fun he => h 0 (by simp) he.symm
    rw [write, write_of_ne bs _ _ fun i hi => h (i + 1) (by simpa using hi),
      Function.update_of_ne hne]

/-- What is written is read back, if no address comes up twice. -/
theorem read_write : ∀ (bs : List B) (m : A → B) (a : A),
    (∀ i < bs.length, ∀ j < bs.length, next^[i] a = next^[j] a → i = j) →
    read next (write next m a bs) a bs.length = bs
  | [], m, a, _ => rfl
  | b :: bs, m, a, h => by
    have hhead : write next (Function.update m a b) (next a) bs a = b := by
      rw [write_of_ne bs _ _ fun i hi he => ?_, Function.update_self]
      have := h (i + 1) (by simpa using hi) 0 (by simp) he
      omega
    rw [List.length_cons, read, write, hhead, read_write bs _ _ fun i hi j hj he => ?_]
    have := h (i + 1) (by simpa using hi) (j + 1) (by simpa using hj) he
    omega

end Walk
