import Mathlib.Data.List.Basic

/-!
# Steps that emit

A step takes a state to the next one and emits a list on the way.  `Leads` is the rule of pre- and
postconditions, with a property of all that is emitted; it is closed under sequences and loops.

A run is a loop over its actions.  Where a step emits nothing bad exactly if it is allowed, a run
emits nothing bad exactly if its steps are (`emits_each_iff`).
-/

namespace Emitting

variable {σ α ω : Type*}

/-- One step after another. -/
def andThen (f g : σ → σ × List ω) (s : σ) : σ × List ω :=
  ((g (f s).1).1, (f s).2 ++ (g (f s).1).2)

/-- A step that emits nothing. -/
def silently (f : σ → σ) (s : σ) : σ × List ω := (f s, [])

/-- A step for each element, in order. -/
def each (f : α → σ → σ × List ω) : List α → σ → σ × List ω
  | [], s => (s, [])
  | a :: as, s => andThen (f a) (each f as) s

theorem andThen_assoc (f g h : σ → σ × List ω) :
    andThen (andThen f g) h = andThen f (andThen g h) := by
  funext s
  simp only [andThen, List.append_assoc]

theorem each_append (f : α → σ → σ × List ω) : ∀ as bs : List α,
    each f (as ++ bs) = andThen (each f as) (each f bs)
  | [], bs => by
    funext s
    simp only [List.nil_append, andThen, each]
  | a :: as, bs => by
    funext s
    rw [List.cons_append, each, each_append f as bs, ← andThen_assoc]
    rfl

/-- From a state with `P` the step leads to one with `Q`, and emits only what has `G`. -/
def Leads (G : ω → Prop) (P : σ → Prop) (f : σ → σ × List ω) (Q : σ → Prop) : Prop :=
  ∀ s, P s → Q (f s).1 ∧ ∀ w ∈ (f s).2, G w

variable {G : ω → Prop} {P Q R : σ → Prop} {f g : σ → σ × List ω}

theorem Leads.andThen (hf : Leads G P f Q) (hg : Leads G Q g R) :
    Leads G P (Emitting.andThen f g) R := by
  intro s hs
  obtain ⟨hmid, hfirst⟩ := hf s hs
  obtain ⟨hend, hsecond⟩ := hg _ hmid
  refine ⟨hend, fun w hw => ?_⟩
  rcases List.mem_append.1 hw with hw | hw
  · exact hfirst w hw
  · exact hsecond w hw

theorem Leads.silently {f : σ → σ} (hf : ∀ s, P s → Q (f s)) : Leads G P (Emitting.silently f) Q :=
  fun s hs => ⟨hf s hs, by simp [Emitting.silently]⟩

/-- A loop keeps what each round keeps. -/
theorem Leads.each {f : α → σ → σ × List ω} : ∀ (as : List α), (∀ a ∈ as, Leads G P (f a) P) →
    Leads G P (Emitting.each f as) P
  | [], _ => fun s hs => ⟨hs, by simp [Emitting.each]⟩
  | a :: as, h =>
    (h a List.mem_cons_self).andThen (Leads.each as fun b hb => h b (List.mem_cons_of_mem a hb))

/-! ## Runs -/

/-- Every step of a run is allowed in the state it is taken in. -/
def EachAllowed (step : α → σ → σ × List ω) (ok : σ → α → Prop) : List α → σ → Prop
  | [], _ => True
  | a :: as, s => ok s a ∧ EachAllowed step ok as (step a s).1

/-- An invariant that allowed steps keep without emitting anything bad, while the others do, tells
the runs that emit nothing bad. -/
theorem emits_each_iff {step : α → σ → σ × List ω} {ok : σ → α → Prop} {I : σ → Prop}
    (hkeep : ∀ s a, I s → ok s a → I (step a s).1 ∧ ∀ w ∈ (step a s).2, G w)
    (hbad : ∀ s a, I s → ¬ ok s a → ∃ w ∈ (step a s).2, ¬ G w) :
    ∀ (as : List α) (s : σ), I s → ((∀ w ∈ (each step as s).2, G w) ↔ EachAllowed step ok as s)
  | [], _, _ => by simp [each, EachAllowed]
  | a :: as, s, hs => by
    simp only [each, andThen, EachAllowed, List.forall_mem_append]
    by_cases hok : ok s a
    · obtain ⟨hnext, hgood⟩ := hkeep s a hs hok
      rw [emits_each_iff hkeep hbad as _ hnext]
      exact ⟨fun h => ⟨hok, h.2⟩, fun h => ⟨hgood, h.2⟩⟩
    · obtain ⟨w, hw, hbadw⟩ := hbad s a hs hok
      exact ⟨fun h => absurd (h.1 w hw) hbadw, fun h => absurd h.1 hok⟩

end Emitting
