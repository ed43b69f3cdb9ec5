import Mathlib.Data.List.Basic
import Mathlib.Data.List.TakeWhile

/-!
# Searches

Lists that are gone through from the front: up to the first element that does not fit
(`takeWhile_range'`), up to the first that does (`findIdx?_eq_findIdx?_iff`), or until a table is full
(`take_take_append`).
-/

namespace Search

variable {α : Type*}

/-- What a full table does not take makes no difference to what follows. -/
theorem take_take_append (n : ℕ) (xs ys : List α) : (xs.take n ++ ys).take n = (xs ++ ys).take n := by
  rw [List.take_append, List.take_append, List.take_take, Nat.min_self, List.length_take]
  rcases Nat.le_total n xs.length with h | h
  · rw [Nat.min_eq_left h, Nat.sub_self, Nat.sub_eq_zero_of_le h]
  · rw [Nat.min_eq_right h]

/-- A loop up to `N` with `n + 1` rounds to go takes the next of them. -/
theorem range'_succ_left {n N : ℕ} (h : n < N) :
    List.range' (N - (n + 1)) (n + 1) = (N - 1 - n) :: List.range' (N - n) n := by
  rw [List.range'_succ, show N - (n + 1) = N - 1 - n by omega, show N - 1 - n + 1 = N - n by omega]

/-- A walk up to the first gap takes what has no gap in front of it. -/
theorem takeWhile_range' (p : ℕ → Bool) : ∀ (n s : ℕ), (List.range' s n).takeWhile p =
    (List.range' s n).filter fun i => decide (∀ j, s ≤ j → j ≤ i → p j = true)
  | 0, _ => rfl
  | n + 1, s => by
    have ih := takeWhile_range' p n (s + 1)
    rw [List.range'_succ, List.takeWhile_cons, List.filter_cons]
    by_cases hs : p s = true
    · have hhead : ∀ j, s ≤ j → j ≤ s → p j = true := fun j h1 h2 => (Nat.le_antisymm h1 h2) ▸ hs
      rw [if_pos hs, if_pos (decide_eq_true hhead), ih]
      refine congrArg _ (List.filter_congr fun i _ => decide_eq_decide.2 ⟨fun h j h1 h2 => ?_,
        fun h j h1 h2 => h j (by omega) h2⟩)
      rcases Nat.eq_or_lt_of_le h1 with rfl | hlt
      · exact hs
      · exact h j hlt h2
    · have hnone : ∀ i ∈ s :: List.range' (s + 1) n, ¬ ∀ j, s ≤ j → j ≤ i → p j = true := by
        intro i hi h
        refine hs (h s le_rfl ?_)
        rcases List.mem_cons.1 hi with rfl | hi
        · exact le_rfl
        · have := (List.mem_range'_1.1 hi).1
          omega
      rw [if_neg hs, if_neg (by simpa using hnone s List.mem_cons_self), eq_comm,
        List.filter_eq_nil_iff]
      exact fun i hi => by simpa using hnone i (List.mem_cons_of_mem _ hi)

/-- Two searches stop at the same place just when, before anything that only one of them wants, there
is something both want. -/
theorem findIdx?_eq_findIdx?_iff (p q : α → Bool) : ∀ l : List α, l.findIdx? p = l.findIdx? q ↔
    ∀ before x after, l = before ++ x :: after → p x ≠ q x →
      ∃ y ∈ before, p y = true ∧ q y = true
  | [] => by simp
  | x :: l => by
    have ih := findIdx?_eq_findIdx?_iff p q l
    rw [List.findIdx?_cons, List.findIdx?_cons]
    rcases hp : p x with _ | _ <;> rcases hq : q x with _ | _
    · simp only [Bool.false_eq_true, if_false]
      have hinj : Function.Injective (Option.map fun i : ℕ => i + 1) :=
        Option.map_injective fun a b h => Nat.succ_injective h
      rw [hinj.eq_iff, ih]
      constructor
      · rintro h (_ | ⟨y, before⟩) z after hl hne
        · obtain ⟨rfl, rfl⟩ := List.cons_eq_cons.1 hl
          exact absurd (hp.trans hq.symm) hne
        · obtain ⟨w, hw, hboth⟩ := h before z after (List.cons_eq_cons.1 hl).2 hne
          exact ⟨w, List.mem_cons_of_mem _ hw, hboth⟩
      · intro h before z after hl hne
        obtain ⟨w, hw, hboth⟩ := h (x :: before) z after (by rw [hl]; rfl) hne
        rcases List.mem_cons.1 hw with rfl | hw
        · rw [hp] at hboth
          cases hboth.1
        · exact ⟨w, hw, hboth⟩
    · refine ⟨fun h => ?_, fun h => ?_⟩
      · rcases hfind : l.findIdx? p with _ | _ <;> simp [hfind] at h
      · obtain ⟨y, hy, -⟩ := h [] x l rfl (by simp [hp, hq])
        cases hy
    · refine ⟨fun h => ?_, fun h => ?_⟩
      · rcases hfind : l.findIdx? q with _ | _ <;> simp [hfind] at h
      · obtain ⟨y, hy, -⟩ := h [] x l rfl (by simp [hp, hq])
        cases hy
    · simp only [if_true, true_iff]
      rintro (_ | ⟨y, before⟩) z after hl hne
      · obtain ⟨rfl, rfl⟩ := List.cons_eq_cons.1 hl
        exact absurd (hp.trans hq.symm) hne
      · obtain rfl := (List.cons_eq_cons.1 hl).1
        exact ⟨_, List.mem_cons_self, hp, hq⟩

end Search
