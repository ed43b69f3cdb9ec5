import Mathlib.Data.List.Basic

/-!
# Transfers in pieces

A loop that is to move the first `n` elements of a source, by calls each of which may move some of
them, nothing for now, or nothing any more.  Whatever the pieces, what it has moved is the beginning
of the source, and all `n` elements if it got through (`move_done`).  How it ends is told by the
calls alone: `Fills` are those that get it through, `StopsBefore` those that do not.
-/

namespace Pieces

/-- What one call offers: to be tried again, to stop, or to move up to `k + 1` elements. -/
inductive Offer where
  | stall
  | stop
  | piece (k : ℕ)
  deriving DecidableEq, Repr

/-- How many elements the offers come to. -/
def total : List Offer → ℕ
  | [] => 0
  | .stall :: os => total os
  | .stop :: os => total os
  | .piece k :: os => k + 1 + total os

/-- The loop got through, met a stop, or has not got an answer yet. -/
inductive Ending where
  | done
  | stopped
  | pending
  deriving DecidableEq, Repr

structure Moved (α : Type*) where
  moved : List α
  left : List α
  offers : List Offer
  ending : Ending

variable {α : Type*}

/-- Move `n` elements of the source. -/
def move (n : ℕ) (xs : List α) : List Offer → Moved α
  | [] => { moved := [], left := xs, offers := [], ending := if n = 0 then .done else .pending }
  | o :: os =>
    if n = 0 then { moved := [], left := xs, offers := o :: os, ending := .done }
    else
      match o with
      | .stall => move n xs os
      | .stop => { moved := [], left := xs, offers := os, ending := .stopped }
      | .piece k =>
        if xs = [] then { moved := [], left := xs, offers := .piece k :: os, ending := .pending }
        else
          let data := xs.take (min (k + 1) n)
          let rest := move (n - data.length) (xs.drop data.length) os
          { rest with moved := data ++ rest.moved }

/-- The offers get a loop over `n` elements through, none of them too many. -/
inductive Fills : ℕ → List Offer → Prop
  | none : Fills 0 []
  | stall {n : ℕ} {os : List Offer} (hn : n ≠ 0) (h : Fills n os) : Fills n (.stall :: os)
  | piece {n : ℕ} {os : List Offer} (hn : n ≠ 0) (k : ℕ) (h : Fills (n - (k + 1)) os) :
      Fills n (.piece k :: os)

/-- A stop comes before `n` elements could have been moved; `after` are the offers behind it. -/
def StopsBefore (n : ℕ) (os after : List Offer) : Prop :=
  ∃ before, os = before ++ .stop :: after ∧ .stop ∉ before ∧ total before < n

/-! ## What has been moved -/

@[simp] theorem move_zero (xs : List α) (os : List Offer) :
    move 0 xs os = { moved := [], left := xs, offers := os, ending := .done } := by
  rcases os with - | ⟨o, os⟩
  · rfl
  · rfl

theorem move_stall {n : ℕ} (hn : n ≠ 0) (xs : List α) (os : List Offer) :
    move n xs (.stall :: os) = move n xs os := by
  rw [move, if_neg hn]

theorem move_stop {n : ℕ} (hn : n ≠ 0) (xs : List α) (os : List Offer) :
    move n xs (.stop :: os) = { moved := [], left := xs, offers := os, ending := .stopped } := by
  rw [move, if_neg hn]

theorem move_nil {n : ℕ} (hn : n ≠ 0) (k : ℕ) (os : List Offer) :
    move n ([] : List α) (.piece k :: os)
      = { moved := [], left := [], offers := .piece k :: os, ending := .pending } := by
  rw [move, if_neg hn]
  rfl

theorem move_piece {n : ℕ} (hn : n ≠ 0) {xs : List α} (hxs : xs ≠ []) (k : ℕ) (os : List Offer) :
    move n xs (.piece k :: os)
      = { move (n - min (k + 1) (min n xs.length)) (xs.drop (min (k + 1) (min n xs.length))) os with
          moved := xs.take (min (k + 1) (min n xs.length)) ++ (move
            (n - min (k + 1) (min n xs.length)) (xs.drop (min (k + 1) (min n xs.length))) os).moved }
    := by
  have htake : xs.take (min (k + 1) n) = xs.take (min (k + 1) (min n xs.length)) := by
    rw [List.take_eq_take_min, Nat.min_assoc]
  have hlen : (xs.take (min (k + 1) (min n xs.length))).length
      = min (k + 1) (min n xs.length) := by
    rw [List.length_take]
    omega
  rw [move, if_neg hn]
  simp only [if_neg hxs, htake, hlen]

/-- What has been moved and what is left are the source. -/
theorem moved_append_left : ∀ (os : List Offer) (n : ℕ) (xs : List α),
    (move n xs os).moved ++ (move n xs os).left = xs
  | [], n, xs => rfl
  | o :: os, n, xs => by
    rcases eq_or_ne n 0 with rfl | hn
    · rw [move_zero, List.nil_append]
    · rcases o with - | - | k
      · rw [move_stall hn]
        exact moved_append_left os n xs
      · rw [move_stop hn, List.nil_append]
      · rcases eq_or_ne xs [] with rfl | hxs
        · rw [move_nil hn, List.nil_append]
        · rw [move_piece hn hxs]
          dsimp only
          rw [List.append_assoc, moved_append_left os, List.take_append_drop]

/-- A loop that gets through has moved `n` elements. -/
theorem length_moved_done : ∀ (os : List Offer) (n : ℕ) (xs : List α),
    (move n xs os).ending = .done → (move n xs os).moved.length = n
  | [], n, xs, h => by
    rcases eq_or_ne n 0 with rfl | hn
    · rfl
    · rw [move, if_neg hn] at h
      cases h
  | o :: os, n, xs, h => by
    rcases eq_or_ne n 0 with rfl | hn
    · rw [move_zero, List.length_nil]
    · rcases o with - | - | k
      · rw [move_stall hn] at h ⊢
        exact length_moved_done os n xs h
      · rw [move_stop hn] at h
        cases h
      · rcases eq_or_ne xs [] with rfl | hxs
        · rw [move_nil hn] at h
          cases h
        · rw [move_piece hn hxs] at h ⊢
          have ih := length_moved_done os _ _ h
          dsimp only
          rw [List.length_append, ih, List.length_take]
          omega

/-- A loop that is stopped has moved fewer. -/
theorem length_moved_stopped : ∀ (os : List Offer) (n : ℕ) (xs : List α),
    (move n xs os).ending = .stopped → (move n xs os).moved.length < n
  | [], n, xs, h => by
    rw [move] at h
    split_ifs at h
  | o :: os, n, xs, h => by
    rcases eq_or_ne n 0 with rfl | hn
    · rw [move_zero] at h
      cases h
    · rcases o with - | - | k
      · rw [move_stall hn] at h ⊢
        exact length_moved_stopped os n xs h
      · rw [move_stop hn]
        exact Nat.pos_of_ne_zero hn
      · rcases eq_or_ne xs [] with rfl | hxs
        · rw [move_nil hn] at h
          cases h
        · rw [move_piece hn hxs] at h ⊢
          have ih := length_moved_stopped os _ _ h
          dsimp only
          rw [List.length_append, List.length_take]
          omega

/-- However the source comes in, a loop that gets through has taken its first `n` elements. -/
theorem move_done {os : List Offer} {n : ℕ} {xs : List α} (h : (move n xs os).ending = .done) :
    (move n xs os).moved = xs.take n ∧ (move n xs os).left = xs.drop n ∧ n ≤ xs.length := by
  have hlen := length_moved_done os n xs h
  have happ := moved_append_left os n xs
  generalize move n xs os = r at hlen happ ⊢
  subst happ
  refine ⟨(List.take_left' hlen).symm, (List.drop_left' hlen).symm, ?_⟩
  rw [List.length_append]
  omega

/-! ## How the loop ends -/

/-- A piece of a source that has enough. -/
theorem move_piece_of_le {n : ℕ} (hn : n ≠ 0) {xs : List α} (h : n ≤ xs.length) (k : ℕ)
    (os : List Offer) :
    (move n xs (.piece k :: os)).ending
        = (move (n - (k + 1)) (xs.drop (min (k + 1) n)) os).ending
      ∧ (move n xs (.piece k :: os)).offers
        = (move (n - (k + 1)) (xs.drop (min (k + 1) n)) os).offers
      ∧ n - (k + 1) ≤ (xs.drop (min (k + 1) n)).length := by
  have hxs : xs ≠ [] := by
    rintro rfl
    exact hn (by simpa using h)
  rw [move_piece hn hxs, Nat.min_eq_left h, show n - min (k + 1) n = n - (k + 1) by omega,
    List.length_drop]
  exact ⟨rfl, rfl, by omega⟩

/-- The offers that got a loop through. -/
theorem fills_of_done : ∀ {os : List Offer} {n : ℕ} {xs : List α}, n ≤ xs.length →
    (move n xs os).ending = .done → ∃ used, os = used ++ (move n xs os).offers ∧ Fills n used
  | [], n, xs, _, h => by
    rcases eq_or_ne n 0 with rfl | hn
    · exact ⟨[], rfl, .none⟩
    · rw [move, if_neg hn] at h
      cases h
  | o :: os, n, xs, hlen, h => by
    rcases eq_or_ne n 0 with rfl | hn
    · rw [move_zero]
      exact ⟨[], rfl, .none⟩
    · rcases o with - | - | k
      · rw [move_stall hn] at h ⊢
        obtain ⟨used, hos, hused⟩ := fills_of_done hlen h
        exact ⟨.stall :: used, congrArg _ hos, .stall hn hused⟩
      · rw [move_stop hn] at h
        cases h
      · obtain ⟨hending, hoffers, hrest⟩ := move_piece_of_le hn hlen k os
        rw [hending] at h
        rw [hoffers]
        obtain ⟨used, hos, hused⟩ := fills_of_done hrest h
        exact ⟨.piece k :: used, congrArg _ hos, .piece hn k hused⟩

theorem Fills.move {n : ℕ} {used : List Offer} (h : Fills n used) (os : List Offer) :
    ∀ {xs : List α}, n ≤ xs.length →
      (move n xs (used ++ os)).ending = .done ∧ (move n xs (used ++ os)).offers = os := by
  induction h with
  | none =>
    intro xs _
    rw [List.nil_append, move_zero]
    exact ⟨rfl, rfl⟩
  | stall hn _ ih =>
    intro xs hlen
    rw [List.cons_append, move_stall hn]
    exact ih hlen
  | piece hn k _ ih =>
    intro xs hlen
    obtain ⟨hending, hoffers, hrest⟩ := move_piece_of_le hn hlen k (_ ++ os)
    rw [List.cons_append, hending, hoffers]
    exact ih hrest

theorem Fills.eq_nil {os : List Offer} (h : Fills 0 os) : os = [] := by
  rcases h with - | ⟨hn, -⟩ | ⟨hn, -, -⟩
  · rfl
  · exact absurd rfl hn
  · exact absurd rfl hn

/-- How many of the offers move something. -/
def pieces (os : List Offer) : ℕ := os.countP fun o => o != .stall && o != .stop

/-- Without a stop, a piece for every element gets a loop through. -/
theorem exists_fills : ∀ {os : List Offer} {n : ℕ}, .stop ∉ os → n ≤ pieces os →
    ∃ used after, os = used ++ after ∧ Fills n used ∧ pieces os ≤ n + pieces after
  | os, 0, _, _ => ⟨[], os, rfl, .none, by simp⟩
  | [], n + 1, _, h => absurd h (Nat.not_succ_le_zero n)
  | o :: os, n + 1, hstop, h => by
    rw [List.mem_cons, not_or] at hstop
    unfold pieces at h ⊢
    rcases o with - | - | k
    · rw [List.countP_cons_of_neg (by decide)] at h ⊢
      obtain ⟨used, after, hos, hused, hle⟩ := exists_fills hstop.2 h
      exact ⟨.stall :: used, after, congrArg _ hos, .stall (Nat.succ_ne_zero n) hused, hle⟩
    · exact absurd rfl hstop.1
    · rw [List.countP_cons_of_pos (by simp)] at h ⊢
      obtain ⟨used, after, hos, hused, hle⟩ :=
        exists_fills hstop.2 (show n + 1 - (k + 1) ≤ pieces os by unfold pieces; omega)
      refine ⟨.piece k :: used, after, congrArg _ hos, .piece (Nat.succ_ne_zero n) k hused, ?_⟩
      unfold pieces at hle
      omega

/-- The offers that stopped a loop. -/
theorem stopsBefore_of_stopped : ∀ {os : List Offer} {n : ℕ} {xs : List α}, n ≤ xs.length →
    (move n xs os).ending = .stopped → StopsBefore n os (move n xs os).offers
  | [], n, xs, _, h => by
    rw [Pieces.move] at h
    split_ifs at h
  | o :: os, n, xs, hlen, h => by
    rcases eq_or_ne n 0 with rfl | hn
    · rw [move_zero] at h
      cases h
    · rcases o with - | - | k
      · rw [move_stall hn] at h ⊢
        obtain ⟨before, hos, hstop, htotal⟩ := stopsBefore_of_stopped hlen h
        exact ⟨.stall :: before, congrArg _ hos, by simpa using hstop, htotal⟩
      · rw [move_stop hn]
        exact ⟨[], rfl, by simp, Nat.pos_of_ne_zero hn⟩
      · obtain ⟨hending, hoffers, hrest⟩ := move_piece_of_le hn hlen k os
        rw [hending] at h
        rw [hoffers]
        obtain ⟨before, hos, hstop, htotal⟩ := stopsBefore_of_stopped hrest h
        refine ⟨.piece k :: before, congrArg _ hos, by simpa using hstop, ?_⟩
        rw [total]
        omega

theorem StopsBefore.stopped : ∀ {os after : List Offer} {n : ℕ} {xs : List α},
    StopsBefore n os after → n ≤ xs.length →
      (move n xs os).ending = .stopped ∧ (move n xs os).offers = after
  | os, after, n, xs, ⟨[], hos, _, htotal⟩, _ => by
    subst hos
    rw [List.nil_append, move_stop (by omega)]
    exact ⟨rfl, rfl⟩
  | os, after, n, xs, ⟨o :: before, hos, hstop, htotal⟩, hlen => by
    subst hos
    have hn : n ≠ 0 := by omega
    rw [List.mem_cons, not_or] at hstop
    rw [List.cons_append]
    rcases o with - | - | k
    · rw [move_stall hn]
      exact StopsBefore.stopped ⟨before, rfl, hstop.2, htotal⟩ hlen
    · exact absurd rfl hstop.1
    · obtain ⟨hending, hoffers, hrest⟩ := move_piece_of_le hn hlen k (before ++ .stop :: after)
      rw [hending, hoffers]
      rw [total] at htotal
      exact StopsBefore.stopped ⟨before, rfl, hstop.2, by omega⟩ hrest

end Pieces
