import Mathlib.Data.List.Basic
import Mathlib.Order.Nat
import Mathlib.Tactic.SplitIfs

/-!
# Rings

Two parties pass slots around a ring of `n`.  One fills the slots in ring order, the other takes
them up in the same order and frees them.  `Holds` says that the filled slots are the run from where
the second stands to where the first does, and what they hold: a queue, in order.  Filling the next
slot puts one more at its end (`Holds.push`), freeing the first takes one off its front
(`Holds.pop`).
-/

namespace Ring

variable {n o i j k : ℕ}

/-- The slot `j` places after slot `o`. -/
def place (n o j : ℕ) : ℕ := (o + j) % n

/-- How many places slot `i` is after slot `o`. -/
def ahead (n o i : ℕ) : ℕ := (i + n - o) % n

/-- The slot after `o`. -/
def next (n o : ℕ) : ℕ := if n ≤ o + 1 then 0 else o + 1

/-! ## Places -/

theorem place_eq (ho : o < n) (hj : j ≤ n) :
    place n o j = if o + j < n then o + j else o + j - n := by
  rw [place]
  split_ifs with h
  · exact Nat.mod_eq_of_lt h
  · rw [Nat.mod_eq_sub_mod (by omega), Nat.mod_eq_of_lt (by omega)]

theorem ahead_eq (ho : o < n) (hi : i < n) :
    ahead n o i = if o ≤ i then i - o else i + n - o := by
  rw [ahead]
  split_ifs with h
  · rw [Nat.mod_eq_sub_mod (by omega), Nat.mod_eq_of_lt (by omega)]
    omega
  · exact Nat.mod_eq_of_lt (by omega)

theorem place_lt (ho : o < n) : place n o j < n := Nat.mod_lt _ (by omega)

theorem next_lt (ho : o < n) : next n o < n := by
  rw [next]
  split_ifs <;> omega

theorem ahead_lt (ho : o < n) : ahead n o i < n := Nat.mod_lt _ (by omega)

@[simp] theorem place_zero (ho : o < n) : place n o 0 = o := Nat.mod_eq_of_lt ho

theorem place_ahead (ho : o < n) (hi : i < n) : place n o (ahead n o i) = i := by
  rw [place_eq ho (ahead_lt ho).le, ahead_eq ho hi]
  split_ifs <;> omega

theorem ahead_place (ho : o < n) (hj : j < n) : ahead n o (place n o j) = j := by
  rw [ahead_eq ho (place_lt ho), place_eq ho hj.le]
  split_ifs <;> omega

theorem place_inj (ho : o < n) (hj : j < n) (hk : k < n) (h : place n o j = place n o k) :
    j = k := by
  rw [← ahead_place ho hj, h, ahead_place ho hk]

theorem next_place (ho : o < n) (hj : j < n) : next n (place n o j) = place n o (j + 1) := by
  rw [next, place_eq ho hj.le, place_eq ho hj]
  split_ifs <;> omega

theorem place_next (ho : o < n) (hj : j < n) : place n (next n o) j = place n o (j + 1) := by
  rw [place_eq (next_lt ho) hj.le, place_eq ho hj, next]
  split_ifs <;> omega

/-! ## What the ring holds -/

section Queue

variable {β : Type*} {full full' : ℕ → β → Prop} {free free' : ℕ → Prop} {p : ℕ} {q : List β}
  {b : β}

/-- The slots from `o` up to `p` hold the queue, and the others are free. -/
structure Holds (n : ℕ) (full : ℕ → β → Prop) (free : ℕ → Prop) (o p : ℕ) (q : List β) : Prop where
  offset_lt : o < n
  length_le : q.length ≤ n
  pos_eq : p = place n o q.length
  full_of : ∀ j b, q[j]? = some b → full (place n o j) b
  free_of : ∀ i < n, q.length ≤ ahead n o i → free i

theorem holds_nil (hn : 0 < n) (hfree : ∀ i < n, free i) : Holds n full free 0 0 [] where
  offset_lt := hn
  length_le := Nat.zero_le n
  pos_eq := (place_zero hn).symm
  full_of := by simp
  free_of i hi _ := hfree i hi

theorem Holds.exists_full (h : Holds n full free o p q) (hi : i < n)
    (hlt : ahead n o i < q.length) : ∃ b, full i b := by
  refine ⟨q[ahead n o i], ?_⟩
  have hfull := h.full_of _ _ (List.getElem?_eq_getElem hlt)
  rwa [place_ahead h.offset_lt hi] at hfull

theorem Holds.front (h : Holds n full free o p (b :: q)) : full o b := by
  have hfull := h.full_of 0 b rfl
  rwa [place_zero h.offset_lt] at hfull

/-- While the slot to be filled next is not full, not all are. -/
theorem Holds.length_lt (h : Holds n full free o p q) (hp : ∀ b, ¬full p b) : q.length < n := by
  rcases Nat.lt_or_ge q.length n with hlt | hge
  · exact hlt
  · have ho := h.offset_lt
    have hlen : q.length = n := Nat.le_antisymm h.length_le hge
    have hpo : p = o := by
      rw [h.pos_eq, hlen, place_eq ho le_rfl, if_neg (by omega), Nat.add_sub_cancel]
    rcases q with - | ⟨b, q⟩
    · rw [List.length_nil] at hge
      omega
    · exact absurd (hpo ▸ h.front) (hp b)

/-- The slots the queue is in do not hold the one to be filled next, unless all are filled. -/
theorem Holds.ahead_pos (h : Holds n full free o p q) (hq : q.length < n) :
    ahead n o p = q.length := by
  rw [h.pos_eq, ahead_place h.offset_lt hq]

/-- The slot at `p` is filled, and no other changes. -/
theorem Holds.push (h : Holds n full free o p q) (hq : q.length < n) (hb : full' p b)
    (hfull : ∀ i < n, i ≠ p → ∀ b, full i b → full' i b)
    (hfree : ∀ i < n, i ≠ p → free i → free' i) :
    Holds n full' free' o (next n p) (q ++ [b]) where
  offset_lt := h.offset_lt
  length_le := by
    rw [List.length_append, List.length_singleton]
    exact hq
  pos_eq := by
    rw [h.pos_eq, next_place h.offset_lt hq, List.length_append, List.length_singleton]
  full_of j c hj := by
    rcases Nat.lt_or_ge j q.length with hlt | hge
    · rw [List.getElem?_append_left hlt] at hj
      refine hfull _ (place_lt h.offset_lt) ?_ c (h.full_of j c hj)
      rw [h.pos_eq]
      intro he
      have := place_inj h.offset_lt (by omega) hq he
      omega
    · rw [List.getElem?_append_right hge, List.getElem?_singleton] at hj
      split_ifs at hj with hz
      obtain rfl : b = c := by simpa using hj
      rwa [show j = q.length by omega, ← h.pos_eq]
  free_of i hi hle := by
    rw [List.length_append, List.length_singleton] at hle
    refine hfree i hi ?_ (h.free_of i hi (by omega))
    rintro rfl
    rw [h.ahead_pos hq] at hle
    omega

/-- The slot at `p` changes and stays free, and no other changes. -/
theorem Holds.touch (h : Holds n full free o p q) (hq : q.length < n) (hp : free' p)
    (hfull : ∀ i < n, i ≠ p → ∀ b, full i b → full' i b)
    (hfree : ∀ i < n, i ≠ p → free i → free' i) :
    Holds n full' free' o p q where
  offset_lt := h.offset_lt
  length_le := h.length_le
  pos_eq := h.pos_eq
  full_of j b hj := by
    have hlt : j < q.length := (List.getElem?_eq_some_iff.1 hj).1
    refine hfull _ (place_lt h.offset_lt) ?_ b (h.full_of j b hj)
    rw [h.pos_eq]
    intro he
    have := place_inj h.offset_lt (by omega) hq he
    omega
  free_of i hi hle := by
    by_cases he : i = p
    · rw [he]
      exact hp
    · exact hfree i hi he (h.free_of i hi hle)

/-- No slot changes. -/
theorem Holds.imp (h : Holds n full free o p q) (hfull : ∀ i < n, ∀ b, full i b → full' i b)
    (hfree : ∀ i < n, free i → free' i) : Holds n full' free' o p q where
  offset_lt := h.offset_lt
  length_le := h.length_le
  pos_eq := h.pos_eq
  full_of j b hj := hfull _ (place_lt h.offset_lt) b (h.full_of j b hj)
  free_of i hi hle := hfree i hi (h.free_of i hi hle)

/-- The slot at `o` is freed, and no other changes. -/
theorem Holds.pop (h : Holds n full free o p (b :: q)) (ho : free' o)
    (hfull : ∀ i < n, i ≠ o → ∀ b, full i b → full' i b)
    (hfree : ∀ i < n, i ≠ o → free i → free' i) :
    Holds n full' free' (next n o) p q where
  offset_lt := next_lt h.offset_lt
  length_le := by
    have := h.length_le
    rw [List.length_cons] at this
    omega
  pos_eq := by
    have := h.length_le
    rw [List.length_cons] at this
    rw [place_next h.offset_lt (by omega), h.pos_eq, List.length_cons]
  full_of j c hj := by
    have hlen := h.length_le
    have hlt : j < q.length := (List.getElem?_eq_some_iff.1 hj).1
    rw [List.length_cons] at hlen
    rw [place_next h.offset_lt (by omega)]
    refine hfull _ (place_lt h.offset_lt) ?_ c (h.full_of (j + 1) c (by simpa using hj))
    intro he
    rcases Nat.lt_or_ge (j + 1) n with hlt | hge
    · have := place_inj h.offset_lt hlt (by omega)
        (he.trans (place_zero h.offset_lt).symm)
      omega
    · omega
  free_of i hi hle := by
    by_cases he : i = o
    · rw [he]
      exact ho
    · refine hfree i hi he (h.free_of i hi ?_)
      have ho := h.offset_lt
      rw [List.length_cons]
      rw [ahead_eq (next_lt ho) hi, next] at hle
      rw [ahead_eq ho hi]
      split_ifs at hle ⊢ <;> omega

end Queue

end Ring
