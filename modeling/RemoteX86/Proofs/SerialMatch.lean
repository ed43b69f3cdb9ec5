import RemoteX86.SerialHost

/-!
# Whose answer a call has read

A wait reads one line, so what it reads is the first line of what was on its way when it began.  Its
own answer is the last of these.  The invariant says, for a wait that is going on, which older lines
stand before that answer.
-/

namespace RemoteX86

open Hex Memory Transition

/-! ## Lines -/

/-- The last byte of what is on its way ends a line. -/
def Ended (rx : List (ℕ × Byte)) : Prop := ∀ b, rx.getLast? = some b → b.2 = 0x0A#8

theorem Ended.tail {b : ℕ × Byte} {rx : List (ℕ × Byte)} (h : Ended (b :: rx)) : Ended rx := by
  intro c hc
  refine h c ?_
  rcases rx with - | ⟨d, rx⟩
  · cases hc
  · exact hc

theorem ended_append {p q : List (ℕ × Byte)} (hp : Ended p) (hq : Ended q) : Ended (p ++ q) := by
  intro b hb
  rcases q with - | ⟨d, q⟩
  · rw [List.append_nil] at hb
    exact hp b hb
  · rw [List.getLast?_append_cons] at hb
    exact hq b hb

theorem splitLine_append : ∀ {p : List (ℕ × Byte)}, (∀ b ∈ p, b.2 ≠ 0x0A#8) → ∀ {b : ℕ × Byte},
    b.2 = 0x0A#8 → ∀ q, splitLine (p ++ b :: q) = (p ++ [b], q)
  | [], _, b, hb, q => by
    rw [List.nil_append, splitLine, if_pos hb]
    rfl
  | c :: p, hp, b, hb, q => by
    have ih := splitLine_append (fun d hd => hp d (List.mem_cons_of_mem _ hd)) hb q
    rw [List.cons_append, splitLine, if_neg (hp c List.mem_cons_self), ih]
    rfl

/-- In front of other lines a line is split off as it is alone. -/
theorem splitLine_older : ∀ {old : List (ℕ × Byte)}, old ≠ [] → Ended old →
    ∀ q, splitLine (old ++ q) = ((splitLine old).1, (splitLine old).2 ++ q)
  | [], h, _, _ => absurd rfl h
  | b :: old, _, hend, q => by
    rw [List.cons_append, splitLine, splitLine]
    split_ifs with hb
    · rfl
    · have hne : old ≠ [] := by
        rintro rfl
        exact hb (hend b rfl)
      rw [splitLine_older hne hend.tail q]

theorem Ended.splitLine : ∀ {rx : List (ℕ × Byte)}, Ended rx → Ended (splitLine rx).2
  | [], h => h
  | b :: rx, h => by
    rw [RemoteX86.splitLine]
    split_ifs
    · exact h.tail
    · exact h.tail.splitLine

theorem lineBuf_append (taken : List (ℕ × Byte)) (b : ℕ × Byte) :
    lineBuf (taken ++ [b]) = keepResponse 128 (lineBuf taken) b.2 := by
  unfold lineBuf
  rw [List.foldl_append]
  rfl

/-- An answer with the number of its call. -/
def numbered (i : ℕ) (answer : List Byte) : List (ℕ × Byte) := answer.map fun c => (i, c)

theorem splitLine_numbered {answer : List Byte} (h : IsLine answer) (i : ℕ) :
    splitLine (numbered i answer) = (numbered i answer, []) ∧ Ended (numbered i answer) := by
  obtain ⟨body, hbody, rfl⟩ := h
  have hno : ∀ b ∈ numbered i body, b.2 ≠ 0x0A#8 := by
    intro b hb
    obtain ⟨c, hc, rfl⟩ := List.mem_map.1 hb
    rintro rfl
    exact hbody hc
  have hnumbered : numbered i (body ++ [0x0A#8]) = numbered i body ++ [(i, 0x0A#8)] := by
    unfold numbered
    rw [List.map_append]
    rfl
  rw [hnumbered]
  refine ⟨splitLine_append hno rfl [], ?_⟩
  intro b hb
  rw [List.getLast?_concat, Option.some.injEq] at hb
  rw [← hb]

/-! ## Waits -/

/-- What a wait may find before its own answer, or nothing if that has been read. -/
def Expects (call : Rs232Call) (again : Bool) (own rx : List (ℕ × Byte)) : Prop :=
  (∃ old, rx = old ++ own ∧ Ended old ∧
    (again = false ∧ call.Clear old ∨
      again = true ∧ (old = [] ∨ responseOk (lineBuf (splitLine old).1) = false))) ∨
  (again = true ∧ rx = [])

/-- A wait that is going on has read the beginning of what it may expect. -/
structure Waits (s : Rs232) (call : Rs232Call) (again : Bool) (buf : List Byte)
    (taken : List (ℕ × Byte)) : Prop where
  buf_eq : buf = lineBuf taken
  not_ended : ∀ b ∈ taken, b.2 ≠ 0x0A#8
  expects : ∃ answer, s.answers[s.current]? = some answer ∧ IsLine answer
    ∧ Expects call again (numbered s.current answer) (taken ++ s.rx)

section Expects

variable {call : Rs232Call} {again : Bool} {own rx line rest : List (ℕ × Byte)}
  (h : Expects call again own rx) (hrx : splitLine rx = (line, rest)) (hline : line ≠ [])
  (hok : responseOk (lineBuf line) = true) (hown : splitLine own = (own, []))

include h hrx hline hok hown

/-- A line that is an OK and sends nobody back to wait is the call's own. -/
theorem Expects.eq_own (hfinal : ¬ (call = .test ∧ again = false ∧
    strncasecmpEq (lineBuf line) (ascii "OK Function") = true)) : line = own := by
  rcases h with ⟨old, rfl, hend, hold⟩ | ⟨-, rfl⟩
  · rcases eq_or_ne old [] with rfl | hne
    · rw [List.nil_append, hown] at hrx
      exact (congrArg Prod.fst hrx).symm
    · rw [splitLine_older hne hend] at hrx
      obtain ⟨rfl, -⟩ := Prod.mk.inj hrx
      rcases hold with ⟨hagain, hnil | herr | ⟨htest, hfunction, -⟩⟩ | ⟨-, hnil | herr⟩
      · exact absurd hnil hne
      · rw [hok] at herr
        cases herr
      · exact absurd ⟨htest, hagain, hfunction⟩ hfinal
      · exact absurd hnil hne
      · rw [hok] at herr
        cases herr
  · obtain ⟨rfl, -⟩ := Prod.mk.inj hrx
    exact absurd rfl hline

/-- Behind an answer of EXEC comes the call's own, or nothing. -/
theorem Expects.wait_again (hagain : again = false) : Expects call true own rest := by
  rcases h with ⟨old, rfl, hend, hold⟩ | ⟨htrue, -⟩
  · rcases eq_or_ne old [] with rfl | hne
    · rw [List.nil_append, hown] at hrx
      exact .inr ⟨rfl, (congrArg Prod.snd hrx).symm⟩
    · rw [splitLine_older hne hend] at hrx
      obtain ⟨rfl, rfl⟩ := Prod.mk.inj hrx
      rcases hold with ⟨-, hnil | herr | ⟨-, -, hrest⟩⟩ | ⟨htrue, -⟩
      · exact absurd hnil hne
      · rw [hok] at herr
        cases herr
      · exact .inl ⟨_, rfl, hend.splitLine, .inr ⟨rfl, hrest⟩⟩
      · rw [hagain] at htrue
        cases htrue
  · rw [hagain] at htrue
    cases htrue

end Expects

/-! ## Runs -/

/-- What holds in every state of a run whose calls begin on a clear line. -/
structure Tidy (s : Rs232) : Prop where
  ended : Ended s.rx
  matched : s.Matched
  waits : ∀ call again buf taken, s.phase = .waiting call again buf taken →
    Waits s call again buf taken

theorem tidy_init : Tidy .init where
  ended _ h := by cases h
  matched _ h := by cases h
  waits _ _ _ _ h := by cases h

/-- A call that returns 0 needs nothing. -/
theorem Tidy.returns_false {s : Rs232} (hend : Ended s.rx) (hmatched : s.Matched)
    (taken : List (ℕ × Byte)) : Tidy (s.returns false taken) where
  ended := hend
  matched r hr hok := by
    rcases List.mem_cons.1 hr with rfl | hr
    · cases hok
    · exact hmatched r hr hok
  waits _ _ _ _ h := by cases h

theorem Tidy.returns_true {s : Rs232} (hend : Ended s.rx) (hmatched : s.Matched)
    {answer : List Byte} (hanswer : s.answers[s.current]? = some answer) :
    Tidy (s.returns true (numbered s.current answer)) where
  ended := hend
  matched r hr hok := by
    rcases List.mem_cons.1 hr with rfl | hr
    · exact ⟨answer, hanswer, rfl⟩
    · exact hmatched r hr hok
  waits _ _ _ _ h := by cases h

theorem Tidy.call {s : Rs232} (h : Tidy s) {call : Rs232Call} {answer : List Byte}
    (hclear : call.Clear s.rx) (hline : IsLine answer) :
    Tidy { s with
      sent := s.sent ++ [call.sends]
      answers := s.answers ++ [answer]
      rx := s.rx ++ numbered s.answers.length answer
      phase := .waiting call false [] [] } where
  ended := ended_append h.ended (splitLine_numbered hline _).2
  matched r hr hok := by
    obtain ⟨own, hown, htaken⟩ := h.matched r hr hok
    obtain ⟨hlt, -⟩ := List.getElem?_eq_some_iff.1 hown
    exact ⟨own, by rw [List.getElem?_append_left hlt]; exact hown, htaken⟩
  waits call' again buf taken hphase := by
    obtain ⟨rfl, rfl, rfl, rfl⟩ := Rs232Phase.waiting.inj hphase
    have hcurrent : (s.answers ++ [answer]).length - 1 = s.answers.length := by simp
    refine ⟨rfl, by simp, answer, ?_, hline, .inl ⟨s.rx, ?_, h.ended, .inl ⟨rfl, hclear⟩⟩⟩
    · rw [Rs232.current, hcurrent, List.getElem?_concat_length]
    · rw [Rs232.current, hcurrent, List.nil_append]

/-- One byte more, of a line that goes on or of one that ends. -/
theorem Tidy.receive {s : Rs232} (h : Tidy s) {call : Rs232Call} {again : Bool} {buf : List Byte}
    {taken rx : List (ℕ × Byte)} {b : ℕ × Byte} (hphase : s.phase = .waiting call again buf taken)
    (hrx : s.rx = b :: rx) :
    Tidy (if b.2 = 0x0A#8
      then { s with rx := rx }.lineRead call again (keepResponse 128 buf b.2) (taken ++ [b])
      else { s with
        rx := rx
        phase := .waiting call again (keepResponse 128 buf b.2) (taken ++ [b]) }) := by
  obtain ⟨hbuf, hno, answer, hanswer, hline, hexpects⟩ := h.waits call again buf taken hphase
  have hend : Ended rx := Ended.tail (hrx ▸ h.ended)
  have hbuf' : keepResponse 128 buf b.2 = lineBuf (taken ++ [b]) := by rw [lineBuf_append, hbuf]
  rw [hrx] at hexpects
  split_ifs with hb
  · have hsplit := splitLine_append hno hb rx
    have hown := (splitLine_numbered hline s.current).1
    unfold Rs232.lineRead
    rw [hbuf']
    split_ifs with herr hagain
    · exact Tidy.returns_false (s := { s with rx := rx }) hend h.matched _
    · rw [Bool.not_eq_false] at herr
      refine ⟨hend, h.matched, fun call' again' buf' taken' hphase' => ?_⟩
      obtain ⟨rfl, rfl, rfl, rfl⟩ := Rs232Phase.waiting.inj hphase'
      exact ⟨rfl, by simp, answer, hanswer, hline,
        hexpects.wait_again hsplit (by simp) herr hown hagain.2.1⟩
    · rw [Bool.not_eq_false] at herr
      rw [hexpects.eq_own hsplit (by simp) herr hown hagain]
      exact Tidy.returns_true (s := { s with rx := rx }) hend h.matched hanswer
  · refine ⟨hend, h.matched, fun call' again' buf' taken' hphase' => ?_⟩
    obtain ⟨rfl, rfl, rfl, rfl⟩ := Rs232Phase.waiting.inj hphase'
    refine ⟨hbuf', ?_, answer, hanswer, hline, ?_⟩
    · intro c hc
      rcases List.mem_append.1 hc with hc | hc
      · exact hno c hc
      · rw [List.mem_singleton.1 hc]
        exact hb
    · rw [List.append_assoc, List.singleton_append]
      exact hexpects

theorem Tidy.step {s s' : Rs232} {a : Rs232Action} (h : Tidy s) (hclear : s.Clear a)
    (hstep : s.step a = some s') : Tidy s' := by
  cases a with
  | call call answer =>
    unfold Rs232.step at hstep
    simp only [] at hstep
    split_ifs at hstep with hready
    obtain rfl := Option.some.inj hstep
    exact h.call hclear hready.2
  | receive =>
    unfold Rs232.step at hstep
    simp only [] at hstep
    split at hstep
    · rename_i call again buf taken b rx hphase hrx
      have hnext := h.receive hphase hrx
      split_ifs at hstep hnext <;> obtain rfl := Option.some.inj hstep <;> exact hnext
    · cases hstep
  | timeout =>
    unfold Rs232.step at hstep
    simp only [] at hstep
    split at hstep
    · obtain rfl := Option.some.inj hstep
      exact Tidy.returns_false h.ended h.matched _
    · cases hstep

/-- Where every call begins with no line on its way that it could take for its answer, every call
that returns 1 has read its own. -/
theorem rs232_matched {s : Rs232} (h : Reaches Rs232.step Rs232.Clear .init s) : s.Matched := by
  have htidy := h.invariant tidy_init fun _ _ _ => Tidy.step
  exact htidy.matched

/-- EXEC takes longer than its call waits, and the next call is TEST. -/
theorem rs232_matched_late_exec :
    ∃ s, Reaches Rs232.step Rs232.Clear .init s ∧ s.returned.any (fun r => r.ok) = true
      ∧ s.Matched := by
  obtain ⟨s, hreach, hany⟩ := exists_reaches_of_exec Rs232.step Rs232.Clear
    ([.call (.execOff 0x500) (ascii "OK Function complete" ++ crlf), .timeout,
      .call .test (ascii "OK Test successful" ++ crlf)] ++ List.replicate 42 .receive)
    (s := .init) (p := fun s => s.returned.any (fun r => r.ok)) (by decide)
  exact ⟨s, hreach, hany, rs232_matched hreach⟩

theorem not_matched_of_other {s : Rs232}
    (h : s.returned.any (fun r => r.ok && r.taken.any fun b => b.1 != r.call) = true) :
    ¬ s.Matched := by
  intro hmatched
  obtain ⟨r, hr, hother⟩ := List.any_eq_true.1 h
  rw [Bool.and_eq_true] at hother
  obtain ⟨answer, -, htaken⟩ := hmatched r hr hother.1
  obtain ⟨b, hb, hne⟩ := List.any_eq_true.1 hother.2
  rw [htaken] at hb
  obtain ⟨c, -, rfl⟩ := List.mem_map.1 hb
  simp at hne

/-- If it is a mode switch, it reads the answer of EXEC and returns 1. -/
theorem rs232_late_exec_not_matched :
    ∃ s, Reaches Rs232.step (fun _ _ => True) .init s ∧ ¬ s.Matched := by
  obtain ⟨s, hreach, hother⟩ := exists_reaches_of_exec Rs232.step (fun _ _ => True)
    ([.call (.execOff 0x500) (ascii "OK Function complete" ++ crlf), .timeout,
      .call (.mode .i286) (ascii "OK 286" ++ crlf)] ++ List.replicate 22 .receive)
    (s := .init)
    (p := fun s => s.returned.any fun r => r.ok && r.taken.any fun b => b.1 != r.call) (by decide)
  exact ⟨s, hreach, not_matched_of_other hother⟩

end RemoteX86
