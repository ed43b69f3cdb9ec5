import Mathlib.Data.List.Basic

/-!
# Computations that ask

A computation that asks for what is at one place after another, and stops where it is refused.  What is
left of a run is where it has asked, and its result if it was never refused.  The rules say which places
a run asks about, part by part.
-/

/-- A run: the places it has asked about, and its result unless it was refused. -/
structure Asking (ι α : Type) where
  asked : List ι
  result : Option α

namespace Asking

variable {ι α β : Type}

/-- One part of a run after another. -/
def andThen (x : Asking ι α) (f : α → Asking ι β) : Asking ι β :=
  match x.result with
  | none => ⟨x.asked, none⟩
  | some a => ⟨x.asked ++ (f a).asked, (f a).result⟩

instance : Monad (Asking ι) where
  pure a := ⟨[], some a⟩
  bind := andThen

/-- One question, answered or refused. -/
def ask (answer : ι → Option α) (i : ι) : Asking ι α := ⟨[i], answer i⟩

@[simp] theorem result_pure (a : α) : (pure a : Asking ι α).result = some a := rfl

@[simp] theorem result_ask (answer : ι → Option α) (i : ι) : (ask answer i).result = answer i := rfl

theorem bind_eq (x : Asking ι α) (f : α → Asking ι β) : x >>= f = x.andThen f := rfl

theorem bind_some {x : Asking ι α} {a : α} (h : x.result = some a) (f : α → Asking ι β) :
    x >>= f = ⟨x.asked ++ (f a).asked, (f a).result⟩ := by
  rw [bind_eq, andThen, h]

theorem bind_none {x : Asking ι α} (h : x.result = none) (f : α → Asking ι β) :
    x >>= f = ⟨x.asked, none⟩ := by
  rw [bind_eq, andThen, h]

theorem result_bind {x : Asking ι α} {a : α} (h : x.result = some a) (f : α → Asking ι β) :
    (x >>= f).result = (f a).result := by
  rw [bind_some h]

/-- Every place asked about has a property. -/
def Inside (P : ι → Prop) (x : Asking ι α) : Prop := ∀ i ∈ x.asked, P i

variable {P : ι → Prop}

instance [DecidablePred P] (x : Asking ι α) : Decidable (x.Inside P) :=
  inferInstanceAs (Decidable (∀ i ∈ x.asked, P i))

@[simp] theorem inside_pure (a : α) : (pure a : Asking ι α).Inside P := by
  rintro i ⟨⟩

@[simp] theorem inside_ask (answer : ι → Option α) (i : ι) : (ask answer i).Inside P ↔ P i := by
  simp [Inside, ask]

theorem inside_bind (x : Asking ι α) (f : α → Asking ι β) :
    (x >>= f).Inside P ↔ x.Inside P ∧ ∀ a, x.result = some a → (f a).Inside P := by
  rcases h : x.result with - | a
  · rw [bind_none h]
    simp [Inside]
  · rw [bind_some h]
    simp [Inside, or_imp, forall_and]

theorem inside_ask_bind {answer : ι → Option α} {i : ι} {a : α} (h : answer i = some a)
    (f : α → Asking ι β) : (ask answer i >>= f).Inside P ↔ P i ∧ (f a).Inside P := by
  rw [bind_some (show (ask answer i).result = some a from h)]
  simp [Inside, ask]

/-- A run whose places have the property is not refused. -/
def Answered (P : ι → Prop) (x : Asking ι α) : Prop := x.Inside P → ∃ a, x.result = some a

theorem answered_pure (a : α) : (pure a : Asking ι α).Answered P := fun _ => ⟨a, rfl⟩

theorem answered_ask {answer : ι → Option α} {i : ι} (h : P i → ∃ a, answer i = some a) :
    (ask answer i).Answered P := fun hin => h ((inside_ask answer i).1 hin)

theorem Answered.bind {x : Asking ι α} {f : α → Asking ι β} (hx : x.Answered P)
    (hf : ∀ a, (f a).Answered P) : (x >>= f).Answered P := by
  intro h
  obtain ⟨hin, hrest⟩ := (inside_bind x f).1 h
  obtain ⟨a, ha⟩ := hx hin
  rw [bind_some ha]
  exact hf a (hrest a ha)

/-- What is asked after a part that is not refused there. -/
theorem Answered.inside_bind_iff {x : Asking ι α} {f : α → Asking ι β} {Q : Prop}
    (hx : x.Answered P) (hf : ∀ a, (f a).Inside P ↔ Q) : (x >>= f).Inside P ↔ x.Inside P ∧ Q := by
  rw [inside_bind]
  refine and_congr_right fun hin => ?_
  obtain ⟨a, ha⟩ := hx hin
  exact ⟨fun h => (hf a).1 (h a ha), fun hQ b _ => (hf b).2 hQ⟩

/-- The same after a part that asks about nothing else. -/
theorem Answered.inside_bind_iff_of_inside {x : Asking ι α} {f : α → Asking ι β} {Q : Prop}
    (hx : x.Answered P) (hin : x.Inside P) (hf : ∀ a, (f a).Inside P ↔ Q) :
    (x >>= f).Inside P ↔ Q := (hx.inside_bind_iff hf).trans (and_iff_right hin)

end Asking
