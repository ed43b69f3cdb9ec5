import Mathlib.Data.List.Basic

/-!
# Machines that answer queries

A machine answers one query after another.  A specification says which answer to a query it permits
from a state of its own, and what state that leaves.  If every answer to a query the machine may be
asked is permitted, and the two states stay related, then so is every sequence of them
(`permits_answers`).
-/

namespace Answering

variable {σ τ Q R : Type*}

/-- The queries with their answers, and the state behind the last. -/
def answers (step : σ → Q → R × σ) : σ → List Q → List (Q × R) × σ
  | s, [] => ([], s)
  | s, q :: qs =>
    let r := step s q
    let rest := answers step r.2 qs
    ((q, r.1) :: rest.1, rest.2)

/-- Each query is one that may be asked in the state it is asked in. -/
def Asked (step : σ → Q → R × σ) (ok : σ → Q → Prop) : σ → List Q → Prop
  | _, [] => True
  | s, q :: qs => ok s q ∧ Asked step ok (step s q).2 qs

/-- The specification permits the answers, one after another. -/
inductive Permits (spec : τ → Q → R → τ → Prop) : τ → List (Q × R) → τ → Prop
  | nil (t : τ) : Permits spec t [] t
  | cons {t t' t'' : τ} {q : Q} {r : R} {rest : List (Q × R)} (h : spec t q r t')
      (hrest : Permits spec t' rest t'') : Permits spec t ((q, r) :: rest) t''

variable {step : σ → Q → R × σ} {ok : σ → Q → Prop} {spec : τ → Q → R → τ → Prop}
  {Rel : σ → τ → Prop}

theorem asked_of_forall {ok : Q → Prop} : ∀ {qs : List Q} {s : σ}, (∀ q ∈ qs, ok q) →
    Asked step (fun _ => ok) s qs
  | [], _, _ => trivial
  | q :: _, _, h => ⟨h q (by simp), asked_of_forall fun q' hq' => h q' (by simp [hq'])⟩

/-- A machine whose single answers are permitted gives sequences of answers that are. -/
theorem permits_answers
    (hstep : ∀ s t q, Rel s t → ok s q → ∃ t', spec t q (step s q).1 t' ∧ Rel (step s q).2 t') :
    ∀ {qs : List Q} {s : σ} {t : τ}, Rel s t → Asked step ok s qs →
      ∃ t', Permits spec t (answers step s qs).1 t' ∧ Rel (answers step s qs).2 t'
  | [], _, t, hrel, _ => ⟨t, .nil t, hrel⟩
  | q :: _, s, t, hrel, hasked => by
    obtain ⟨t', hspec, hrel'⟩ := hstep s t q hrel hasked.1
    obtain ⟨t'', hrest, hend⟩ := permits_answers hstep hrel' hasked.2
    exact ⟨t'', .cons hspec hrest, hend⟩

end Answering
