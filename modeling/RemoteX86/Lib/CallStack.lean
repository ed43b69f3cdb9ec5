import Mathlib.Logic.Function.Iterate
import Mathlib.Logic.Relation
import Mathlib.Data.List.Basic

/-!
# Code with calls and a stack

Straight-line code, jumps, calls and returns over any data.  A return address is the code to go on
with, and a word of the stack has a size: what is popped has to be as long as what was pushed, and a
return needs an address on top.  Such a machine has no other way to go wrong, and gets stuck where
it does.

`Returns` says what a routine does to the data: called from anywhere, it comes back with the stack
as it was.  `Leaves` says it of a routine that drops its return address and goes back to its
caller's caller.
-/

namespace CallStack

/-- The instructions, over labels, data and what can be pushed.  An operation may be impossible. -/
inductive Instr (L D V : Type*) where
  | op (f : D → Option D)
  | push (size : ℕ) (f : D → V)
  | pop (size : ℕ) (f : D → Option V → D)
  | jump (l : L)
  | branch (c : D → Bool) (l : L)
  | call (size : ℕ) (l : L)
  | ret (size : ℕ)
  /-- The stack pointer is set to the top of the stack. -/
  | reset

/-- A word of the stack: a value, or the code to return to. -/
inductive Word (L D V : Type*) where
  | value (size : ℕ) (v : V)
  | address (size : ℕ) (k : List (Instr L D V))

namespace Word

variable {L D V : Type*}

def size : Word L D V → ℕ
  | value n _ => n
  | address n _ => n

/-- What is popped; of an address nothing is known. -/
def popped : Word L D V → Option V
  | value _ v => some v
  | address _ _ => none

end Word

structure Machine (L D V : Type*) where
  code : List (Instr L D V)
  stack : List (Word L D V)
  data : D

section Step

variable {L D V : Type*} (prog : L → List (Instr L D V))

def step : Machine L D V → Option (Machine L D V)
  | ⟨[], _, _⟩ => none
  | ⟨.op f :: k, st, d⟩ => (f d).map fun d => ⟨k, st, d⟩
  | ⟨.push n f :: k, st, d⟩ => some ⟨k, .value n (f d) :: st, d⟩
  | ⟨.pop _ _ :: _, [], _⟩ => none
  | ⟨.pop n f :: k, w :: st, d⟩ => if w.size = n then some ⟨k, st, f d w.popped⟩ else none
  | ⟨.jump l :: _, st, d⟩ => some ⟨prog l, st, d⟩
  | ⟨.branch c l :: k, st, d⟩ => some ⟨if c d then prog l else k, st, d⟩
  | ⟨.call n l :: k, st, d⟩ => some ⟨prog l, .address n k :: st, d⟩
  | ⟨.ret n :: _, .address n' k :: st, d⟩ => if n' = n then some ⟨k, st, d⟩ else none
  | ⟨.ret _ :: _, _, _⟩ => none
  | ⟨.reset :: k, _, d⟩ => some ⟨k, [], d⟩

def Runs : Machine L D V → Machine L D V → Prop :=
  Relation.ReflTransGen fun s s' => step prog s = some s'

/-- The routine at `l`, called by an address of `n` bytes, turns `d` into `d'`. -/
def Returns (n : ℕ) (l : L) (d d' : D) : Prop :=
  ∀ k st, Runs prog ⟨prog l, .address n k :: st, d⟩ ⟨k, st, d'⟩

/-- The same for a routine that goes back past its caller. -/
def Leaves (n : ℕ) (l : L) (d d' : D) : Prop :=
  ∀ k k' st, Runs prog ⟨prog l, .address n k :: .address n k' :: st, d⟩ ⟨k', st, d'⟩

variable {prog}

namespace Runs

variable {s s' s'' : Machine L D V} {k : List (Instr L D V)} {st : List (Word L D V)} {d d' : D}
  {n : ℕ} {l : L}

theorem refl (s : Machine L D V) : Runs prog s s := Relation.ReflTransGen.refl

theorem of_eq (h : s = s') : Runs prog s s' := h ▸ refl s

theorem trans (h : Runs prog s s') (h' : Runs prog s' s'') : Runs prog s s'' :=
  Relation.ReflTransGen.trans h h'

theorem head (h : step prog s = some s') (h' : Runs prog s' s'') : Runs prog s s'' :=
  Relation.ReflTransGen.head h h'

/-! ### Straight-line code -/

/-- `n` steps that can be carried out. -/
theorem steps : ∀ (n : ℕ) {s s' : Machine L D V},
    (fun t => t.bind (step prog))^[n] (some s) = some s' → Runs prog s s'
  | 0, s, s', h => by
    obtain rfl := Option.some.inj h
    exact refl s
  | n + 1, s, s', h => by
    rw [Function.iterate_succ_apply, Option.bind_some] at h
    rcases hs : step prog s with _ | t
    · rw [hs, Function.iterate_fixed rfl] at h
      cases h
    · rw [hs] at h
      exact head hs (steps n h)

/-! ### One instruction -/

theorem op {f : D → Option D} (hf : f d = some d') (h : Runs prog ⟨k, st, d'⟩ s) :
    Runs prog ⟨.op f :: k, st, d⟩ s :=
  head (by rw [step, hf]; rfl) h

theorem push {f : D → V} (h : Runs prog ⟨k, .value n (f d) :: st, d⟩ s) :
    Runs prog ⟨.push n f :: k, st, d⟩ s :=
  head rfl h

theorem pop {f : D → Option V → D} {v : V} (h : Runs prog ⟨k, st, f d (some v)⟩ s) :
    Runs prog ⟨.pop n f :: k, .value n v :: st, d⟩ s :=
  head (if_pos rfl) h

/-- A return address is dropped. -/
theorem drop {f : D → Option V → D} {k' : List (Instr L D V)}
    (h : Runs prog ⟨k, st, f d none⟩ s) :
    Runs prog ⟨.pop n f :: k, .address n k' :: st, d⟩ s :=
  head (if_pos rfl) h

theorem jump (h : Runs prog ⟨prog l, st, d⟩ s) : Runs prog ⟨.jump l :: k, st, d⟩ s :=
  head rfl h

theorem taken {c : D → Bool} (hc : c d = true) (h : Runs prog ⟨prog l, st, d⟩ s) :
    Runs prog ⟨.branch c l :: k, st, d⟩ s :=
  head (by rw [step, if_pos hc]) h

theorem past {c : D → Bool} (hc : c d = false) (h : Runs prog ⟨k, st, d⟩ s) :
    Runs prog ⟨.branch c l :: k, st, d⟩ s :=
  head (by rw [step, hc]; rfl) h

theorem ret {k' : List (Instr L D V)} (h : Runs prog ⟨k', st, d⟩ s) :
    Runs prog ⟨.ret n :: k, .address n k' :: st, d⟩ s :=
  head (if_pos rfl) h

theorem reset (h : Runs prog ⟨k, [], d⟩ s) : Runs prog ⟨.reset :: k, st, d⟩ s :=
  head rfl h

/-- A call of a routine. -/
theorem call (hl : Returns prog n l d d') (h : Runs prog ⟨k, st, d'⟩ s) :
    Runs prog ⟨.call n l :: k, st, d⟩ s :=
  head rfl ((hl k st).trans h)

end Runs

/-! ### Stuck machines -/

/-- Where nothing more can happen. -/
def Stuck (prog : L → List (Instr L D V)) (s : Machine L D V) : Prop := step prog s = none

/-- A run that gets stuck passes through every state that is reached. -/
theorem Runs.of_stuck {s t u : Machine L D V} (ht : Runs prog s t) (hstuck : Stuck prog t)
    (hu : Runs prog s u) : Runs prog u t := by
  induction hu using Relation.ReflTransGen.head_induction_on with
  | refl => exact ht
  | head hstep _ ih =>
    refine ih ?_
    rcases Relation.ReflTransGen.cases_head ht with rfl | ⟨s', hs', hrest⟩
    · rw [Stuck, hstep] at hstuck
      cases hstuck
    · rw [hstep] at hs'
      obtain rfl := Option.some.inj hs'
      exact hrest

theorem Runs.stuck_unique {s t u : Machine L D V} (ht : Runs prog s t) (hstuck : Stuck prog t)
    (hu : Runs prog s u) (hstuck' : Stuck prog u) : t = u := by
  rcases Relation.ReflTransGen.cases_head (ht.of_stuck hstuck hu) with rfl | ⟨s', hs', -⟩
  · rfl
  · rw [Stuck, hs'] at hstuck'
    cases hstuck'

end Step

end CallStack
