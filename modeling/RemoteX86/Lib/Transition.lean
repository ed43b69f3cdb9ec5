import Mathlib.Logic.Relation
import Mathlib.Data.List.Basic

/-!
# Runs of a system, and channels

A system is a partial function of its state and an action.  `Reaches` is its runs under a condition
on each step, `Reaches.invariant` the rule that carries an invariant along them, and `exec` runs a
given list of actions and checks the condition on the way.

A channel is the list of what is in flight, the next to arrive first.  `Worn` is what a channel may
do to it besides delaying: lose one of them, or double one next to itself.
-/

namespace Transition

section Runs

variable {σ α : Type*} {step : σ → α → Option σ} {ok : σ → α → Prop}

/-- Some action that is allowed takes `s` to `s'`. -/
def Steps (step : σ → α → Option σ) (ok : σ → α → Prop) (s s' : σ) : Prop :=
  ∃ a, ok s a ∧ step s a = some s'

/-- The states of all runs from `s` whose steps are allowed. -/
def Reaches (step : σ → α → Option σ) (ok : σ → α → Prop) : σ → σ → Prop :=
  Relation.ReflTransGen (Steps step ok)

/-- What holds at the start and is kept by every allowed step holds in every state of every run. -/
theorem Reaches.invariant {I : σ → Prop} {s s' : σ} (h : Reaches step ok s s') (hs : I s)
    (hstep : ∀ s a s', I s → ok s a → step s a = some s' → I s') : I s' := by
  induction h with
  | refl => exact hs
  | tail _ hlast ih =>
    obtain ⟨a, hok, ha⟩ := hlast
    exact hstep _ a _ ih hok ha

/-- Run the actions one after another, as long as each is allowed and possible. -/
def exec (step : σ → α → Option σ) (ok : σ → α → Prop) [∀ s a, Decidable (ok s a)] (s : σ) :
    List α → Option σ
  | [] => some s
  | a :: as => if ok s a then (step s a).bind fun s' => exec step ok s' as else none

theorem reaches_of_exec [∀ s a, Decidable (ok s a)] : ∀ (as : List α) {s s' : σ},
    exec step ok s as = some s' → Reaches step ok s s'
  | [], s, s', h => by
    rw [exec, Option.some.injEq] at h
    rw [h]
    exact .refl
  | a :: as, s, s', h => by
    rw [exec] at h
    split_ifs at h with hok
    obtain ⟨t, ht, hrest⟩ := Option.bind_eq_some_iff.1 h
    exact .head ⟨a, hok, ht⟩ (reaches_of_exec as hrest)

/-- Actions that change nothing wherever an invariant holds can be left out of a run. -/
theorem exec_filter [∀ s a, Decidable (ok s a)] {I : σ → Prop} {p : α → Bool}
    (hkeep : ∀ s a s', I s → ok s a → step s a = some s' → I s')
    (hidle : ∀ s a s', I s → ok s a → step s a = some s' → p a = false → s' = s) :
    ∀ (as : List α) {s s' : σ}, I s → exec step ok s as = some s' →
      exec step ok s (as.filter p) = some s'
  | [], _, _, _, h => h
  | a :: as, s, s', hs, h => by
    rw [exec] at h
    split_ifs at h with hok
    obtain ⟨t, ht, hrest⟩ := Option.bind_eq_some_iff.1 h
    have hfilter := exec_filter hkeep hidle as (hkeep s a t hs hok ht) hrest
    rw [List.filter_cons]
    split_ifs with hp
    · rw [exec, if_pos hok, ht]
      exact hfilter
    · rw [← hidle s a t hs hok ht (Bool.not_eq_true _ ▸ hp)]
      exact hfilter

/-- A run that ends in a state of which `p` holds. -/
theorem exists_reaches_of_exec (step : σ → α → Option σ) (ok : σ → α → Prop)
    [∀ s a, Decidable (ok s a)] (as : List α) {s : σ} {p : σ → Bool}
    (h : (exec step ok s as).any p = true) : ∃ s', Reaches step ok s s' ∧ p s' = true := by
  rcases hexec : exec step ok s as with - | s'
  · rw [hexec] at h
    simp at h
  · rw [hexec] at h
    exact ⟨s', reaches_of_exec as hexec, h⟩

/-- A run that ends in a state that `f` takes to `b`. -/
theorem exists_reaches_of_exec_map {β : Type*} (step : σ → α → Option σ) (ok : σ → α → Prop)
    [∀ s a, Decidable (ok s a)] (as : List α) {s : σ} {f : σ → β} {b : β}
    (h : (exec step ok s as).map f = some b) : ∃ s', Reaches step ok s s' ∧ f s' = b := by
  obtain ⟨s', hexec, hf⟩ := Option.map_eq_some_iff.1 h
  exact ⟨s', reaches_of_exec as hexec, hf⟩

end Runs

/-! ## Channels -/

section Channel

variable {α : Type*}

/-- The channel with its `k`-th datagram doubled. -/
def dupAt (l : List α) (k : ℕ) : List α := l.take (k + 1) ++ l.drop k

/-- Nothing happened, or one datagram was lost, or one was doubled. -/
inductive Worn (l : List α) : List α → Prop where
  | refl : Worn l l
  | lose (k : ℕ) : Worn l (l.eraseIdx k)
  | dup (k : ℕ) : Worn l (dupAt l k)

theorem Worn.mem {l l' : List α} (h : Worn l l') {x : α} (hx : x ∈ l') : x ∈ l := by
  cases h with
  | refl => exact hx
  | lose k => exact List.mem_of_mem_eraseIdx hx
  | dup k =>
    rw [dupAt, List.mem_append] at hx
    rcases hx with hx | hx
    · exact List.mem_of_mem_take hx
    · exact List.mem_of_mem_drop hx

/-- A channel in order stays in order. -/
theorem Worn.pairwise {l l' : List α} (h : Worn l l') {R : α → α → Prop} (hrefl : ∀ x, R x x)
    (hl : l.Pairwise R) : l'.Pairwise R := by
  cases h with
  | refl => exact hl
  | lose k => exact hl.sublist (List.eraseIdx_sublist l k)
  | dup k =>
    have happ := hl
    rw [← List.take_append_drop k l, List.pairwise_append] at happ
    rw [dupAt, List.pairwise_append]
    refine ⟨hl.sublist (List.take_sublist _ _), hl.sublist (List.drop_sublist _ _), ?_⟩
    intro x hx y hy
    rw [List.take_add_one, List.mem_append] at hx
    rcases hx with hx | hx
    · exact happ.2.2 x hx y hy
    · -- `x` is the doubled datagram itself, the first of those behind it
      rcases hk : l[k]? with - | z
      · rw [hk] at hx
        simp at hx
      · rw [hk, Option.toList_some, List.mem_singleton] at hx
        subst hx
        obtain ⟨hlt, hget⟩ := List.getElem?_eq_some_iff.1 hk
        have hpd := happ.2.1
        rw [List.drop_eq_getElem_cons hlt, hget] at hpd hy
        rcases List.mem_cons.1 hy with rfl | hy
        · exact hrefl _
        · exact List.rel_of_pairwise_cons hpd hy

end Channel

end Transition
