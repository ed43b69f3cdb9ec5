import Mathlib.Data.List.DropRight
import RemoteX86.OperandReads
import RemoteX86.Proofs.LineBuffer

/-!
# Where the operand parsers stop

`strtohex` steps over the character it stops at.  On a line of 255 characters the zero behind it is
the last byte of `in_buf`, so a run of digits up to the end takes the parser to the first byte behind
`in_buf`, and whatever parses on reads there.  Every other line has a character left to stop at.
-/

namespace RemoteX86

open Hex Memory

/-! ## One operand -/

section Parsers

variable {w : ℕ}

/-- What `strtohex` leaves: nothing, or what is behind the first character that is no digit. -/
def afterDigits : List Byte → Option (List Byte)
  | [] => none
  | al :: si => if (strtohexGetdigit al).isSome then afterDigits si else some si

theorem strtohexLoop_zero : ∀ (q b : List Byte) (ax : BitVec w),
    strtohexLoop ax (q ++ 0#8 :: b)
      = ((strtohexLoop ax q).1, ((afterDigits q).map (· ++ 0#8 :: b)).getD b)
  | [], b, ax => rfl
  | al :: q, b, ax => by
    have ih := strtohexLoop_zero q b
    rw [List.cons_append, strtohexLoop, strtohexLoop, afterDigits]
    rcases strtohexGetdigit al with _ | bl
    · rfl
    · exact ih _

theorem strtohex_zero (q b : List Byte) :
    strtohex (w := w) (q ++ 0#8 :: b)
      = ((strtohex (w := w) q).1, ((afterDigits q).map (· ++ 0#8 :: b)).getD b) :=
  strtohexLoop_zero q b 0

theorem strtohex32Loop_zero : ∀ (q b : List Byte) (dx ax : BitVec 16),
    strtohex32Loop dx ax (q ++ 0#8 :: b)
      = ((strtohex32Loop dx ax q).1, ((afterDigits q).map (· ++ 0#8 :: b)).getD b)
  | [], b, dx, ax => rfl
  | al :: q, b, dx, ax => by
    have ih := strtohex32Loop_zero q b
    rw [List.cons_append, strtohex32Loop, strtohex32Loop, afterDigits]
    rcases strtohexGetdigit al with _ | bl
    · rfl
    · exact ih _ _

theorem strtohex32_zero (q b : List Byte) :
    strtohex32 (q ++ 0#8 :: b)
      = ((strtohex32 q).1, ((afterDigits q).map (· ++ 0#8 :: b)).getD b) :=
  strtohex32Loop_zero q b 0 0

theorem address_zero (mode : Mode) (q b : List Byte) :
    mode.address (q ++ 0#8 :: b)
      = ((mode.address q).1, ((afterDigits q).map (· ++ 0#8 :: b)).getD b) := by
  cases mode with
  | i8086 | i286 | i386x16 => simp only [Mode.address, strtohex32_zero]
  | i386x32 | x64 => simp only [Mode.address, strtohex_zero]

theorem strSkipWhitespace_zero : ∀ (q b : List Byte),
    strSkipWhitespace (q ++ 0#8 :: b) = strSkipWhitespace q ++ 0#8 :: b
  | [], b => rfl
  | al :: q, b => by
    have ih := strSkipWhitespace_zero q b
    unfold strSkipWhitespace at ih ⊢
    rw [List.cons_append, List.dropWhile_cons, List.dropWhile_cons]
    split_ifs
    · exact ih
    · rfl

theorem afterDigits_eq_none_iff : ∀ {q : List Byte},
    afterDigits q = none ↔ ∀ c ∈ q, (strtohexGetdigit c).isSome
  | [] => by simp [afterDigits]
  | al :: q => by
    rw [afterDigits, List.forall_mem_cons]
    split_ifs with h
    · rw [afterDigits_eq_none_iff]
      exact (and_iff_right h).symm
    · exact iff_of_false nofun fun hall => h hall.1

end Parsers

/-! ## Offsets -/

section Offsets

variable {b : List Byte} {n : ℕ}

/-- A parser that has the zero before it stops there at the latest. -/
theorem strtohexReads_zero : ∀ (q : List Byte), n = 256 + b.length → q.length < 256 →
    ∀ i ∈ strtohexReads n (q ++ 0#8 :: b), i < 256
  | [], hn, _, i, hi => by
    rw [List.nil_append, strtohexReads, if_neg (by decide), List.mem_singleton] at hi
    omega
  | al :: q, hn, hq, i, hi => by
    rw [List.length_cons] at hq
    rw [List.cons_append, strtohexReads, List.mem_cons] at hi
    rcases hi with rfl | hi
    · rw [List.length_append, List.length_cons]
      omega
    · split_ifs at hi
      · exact strtohexReads_zero q hn (by omega) i hi
      · exact absurd hi List.not_mem_nil

theorem strSkipWhitespaceReads_zero : ∀ (q : List Byte), n = 256 + b.length → q.length < 256 →
    ∀ i ∈ strSkipWhitespaceReads n (q ++ 0#8 :: b), i < 256
  | [], hn, _, i, hi => by
    rw [List.nil_append, strSkipWhitespaceReads, if_neg (by decide), List.mem_singleton] at hi
    omega
  | al :: q, hn, hq, i, hi => by
    rw [List.length_cons] at hq
    rw [List.cons_append, strSkipWhitespaceReads, List.mem_cons] at hi
    rcases hi with rfl | hi
    · rw [List.length_append, List.length_cons]
      omega
    · split_ifs at hi
      · exact strSkipWhitespaceReads_zero q hn (by omega) i hi
      · exact absurd hi List.not_mem_nil

/-- Behind the zero a parser reads the first byte behind `in_buf`. -/
theorem strSkipWhitespaceReads_behind (hn : n = 256 + b.length) :
    256 ∈ strSkipWhitespaceReads n b := by
  cases b with
  | nil => simp [strSkipWhitespaceReads, hn]
  | cons al b =>
    rw [List.length_cons] at hn
    rw [strSkipWhitespaceReads, show n - (b.length + 1) = 256 by omega]
    exact List.mem_cons_self

end Offsets

/-! ## The lines that overrun -/

def AllDigits (p : List Byte) : Prop := ∀ c ∈ p, (strtohexGetdigit c).isSome

def EndsInDigit (p : List Byte) : Prop := ∃ c, p.getLast? = some c ∧ (strtohexGetdigit c).isSome

/-- How many values a WRITE finds on a line, from inside a number or from outside one. A character
that neither is a digit nor ends a number is a value of its own. -/
def writeValues : Bool → List Byte → ℕ
  | _, [] => 0
  | true, al :: si =>
    if (strtohexGetdigit al).isSome then writeValues true si else writeValues false si
  | false, al :: si =>
    if al = 0x20#8 then writeValues false si
    else if (strtohexGetdigit al).isSome then writeValues true si + 1
    else writeValues false si + 1

section Overruns

variable (mode : Mode)

/-- The first operand runs to the end of the line and there is a second to read. -/
def CountOverruns (p : List Byte) : Prop := AllDigits p ∧ (mode.address p).1.isSome

def ExecOverruns (p : List Byte) : Prop := AllDigits p ∧ mode.bits = 16

/-- The last value runs to the end of the line, and those before it all have a page to go to. -/
def WriteOverruns (p : List Byte) : Prop :=
  ∃ ptr, (mode.address p).1 = some ptr ∧ EndsInDigit p ∧ ptr.Present (writeValues true p - 1)

def LineOverruns (line : List Byte) : Prop :=
  if (ascii "READ ").isPrefixOf line then CountOverruns mode (line.drop 5)
  else if (ascii "READB ").isPrefixOf line then CountOverruns mode (line.drop 6)
  else if (ascii "WRITE ").isPrefixOf line then WriteOverruns mode (line.drop 6)
  else if (ascii "WRITEB ").isPrefixOf line then CountOverruns mode (line.drop 7)
  else if (ascii "EXEC ").isPrefixOf line then ExecOverruns mode (line.drop 5)
  else False

def Overruns (buf : List Byte) : Prop := buf.length = 255 ∧ LineOverruns mode buf

end Overruns

/-! ## Two operands -/

section Operands

variable {b : List Byte} {n : ℕ} (hn : n = 256 + b.length) (mode : Mode) {p : List Byte}
  (hp : p.length < 256)

theorem length_afterDigits : ∀ {p q : List Byte}, afterDigits p = some q → q.length < p.length
  | al :: p, q, h => by
    rw [afterDigits] at h
    split_ifs at h
    · exact (length_afterDigits h).trans (Nat.lt_succ_self _)
    · rw [← Option.some.inj h]
      exact Nat.lt_succ_self _

theorem length_strSkipWhitespace_le (p : List Byte) : (strSkipWhitespace p).length ≤ p.length :=
  List.length_dropWhile_le _ _

include hn

theorem secondReads_zero {q : List Byte} (hq : q.length < 256) :
    ∀ i ∈ secondReads n (q ++ 0#8 :: b), i < 256 := by
  intro i hi
  rw [secondReads, strSkipWhitespace_zero, List.mem_append] at hi
  rcases hi with hi | hi
  · exact strSkipWhitespaceReads_zero q hn hq i hi
  · exact strtohexReads_zero _ hn ((length_strSkipWhitespace_le q).trans_lt hq) i hi

theorem secondReads_behind : 256 ∈ secondReads n b :=
  List.mem_append_left _ (strSkipWhitespaceReads_behind hn)

include hp

theorem addressCountReads_inside_iff :
    (∀ i ∈ mode.addressCountReads n (p ++ 0#8 :: b), i < 256) ↔ ¬ CountOverruns mode p := by
  have hfirst := strtohexReads_zero (b := b) p hn hp
  rw [Mode.addressCountReads, address_zero, List.forall_mem_append, and_iff_right hfirst,
    CountOverruns, AllDigits, ← afterDigits_eq_none_iff]
  rcases hrest : afterDigits p with _ | q
  · rcases (mode.address p).1 with _ | ptr
    · simp
    · have hover := secondReads_behind hn
      simp only [Option.map_none, Option.getD_none, Option.isSome_some, and_self, not_true_eq_false,
        iff_false]
      exact fun hall => absurd (hall 256 hover) (by omega)
  · have hq := length_afterDigits hrest
    rcases (mode.address p).1 with _ | ptr
    · simp
    · have hsecond := secondReads_zero hn (q := q) (by omega)
      simpa using hsecond

theorem execReads_inside_iff :
    (∀ i ∈ mode.execReads n (p ++ 0#8 :: b), i < 256) ↔ ¬ ExecOverruns mode p := by
  have hfirst := strtohexReads_zero (b := b) p hn hp
  have hsecond : (∀ i ∈ secondReads n (((afterDigits p).map (· ++ 0#8 :: b)).getD b), i < 256) ↔
      ¬ AllDigits p := by
    rw [AllDigits, ← afterDigits_eq_none_iff]
    rcases hrest : afterDigits p with _ | q
    · have hover := secondReads_behind hn
      simp only [Option.map_none, Option.getD_none, not_true_eq_false, iff_false]
      exact fun hall => absurd (hall 256 hover) (by omega)
    · have hq := length_afterDigits hrest
      have hin := secondReads_zero hn (q := q) (by omega)
      simpa using hin
  unfold Mode.execReads
  rw [List.forall_mem_append, and_iff_right hfirst, ExecOverruns]
  cases mode with
  | i8086 => simpa [strtohex_zero, Mode.bits] using hsecond
  | i286 | i386x16 => simpa [strtohex32_zero, Mode.bits] using hsecond
  | i386x32 | x64 => simp [Mode.bits]

end Operands

/-! ## The values of a WRITE -/

section Values

theorem strSkipWhitespace_idem (p : List Byte) :
    strSkipWhitespace (strSkipWhitespace p) = strSkipWhitespace p :=
  List.dropWhile_idempotent _ p

theorem writeValues_skip : ∀ p : List Byte,
    writeValues false (strSkipWhitespace p) = writeValues false p
  | [] => rfl
  | al :: p => by
    have ih := writeValues_skip p
    unfold strSkipWhitespace at ih ⊢
    by_cases hal : al = 0x20#8
    · rw [List.dropWhile_cons_of_pos (by simpa using hal), ih, writeValues, if_pos hal]
    · rw [List.dropWhile_cons_of_neg (by simpa using hal)]

theorem writeValues_start {p : List Byte} (hne : strSkipWhitespace p ≠ []) :
    writeValues false p = writeValues true (strSkipWhitespace p) + 1 := by
  rw [← writeValues_skip]
  rcases hp : strSkipWhitespace p with _ | ⟨al, q⟩
  · exact absurd hp hne
  · have hal : al ≠ 0x20#8 := by
      rintro rfl
      have hidem := strSkipWhitespace_idem p
      rw [hp] at hidem
      have hlen := length_strSkipWhitespace_le q
      have hcons : strSkipWhitespace (0x20#8 :: q) = strSkipWhitespace q := rfl
      rw [← hcons, hidem, List.length_cons] at hlen
      omega
    have hout : writeValues false (al :: q) = if (strtohexGetdigit al).isSome
        then writeValues true q + 1 else writeValues false q + 1 := by
      rw [writeValues, if_neg hal]
    rw [hout, writeValues]
    split_ifs <;> rfl

theorem writeValues_digits : ∀ p : List Byte,
    writeValues true p = ((afterDigits p).map (writeValues false)).getD 0
  | [] => rfl
  | al :: p => by
    rw [writeValues, afterDigits]
    split_ifs
    · exact writeValues_digits p
    · rfl

theorem endsInDigit_cons {al : Byte} {p : List Byte} (hne : p ≠ []) :
    EndsInDigit (al :: p) ↔ EndsInDigit p := by
  rw [EndsInDigit, EndsInDigit]
  obtain ⟨c, q, rfl⟩ := List.exists_cons_of_ne_nil hne
  rw [List.getLast?_cons_cons]

theorem EndsInDigit.ne_nil {p : List Byte} (h : EndsInDigit p) : p ≠ [] := by
  rintro rfl
  obtain ⟨c, hc, -⟩ := h
  exact absurd hc nofun

/-- Skipping white space keeps the end of what has one that is no white space. -/
theorem endsInDigit_skip : ∀ {p : List Byte},
    EndsInDigit (strSkipWhitespace p) ↔ EndsInDigit p
  | [] => Iff.rfl
  | al :: p => by
    have ih := endsInDigit_skip (p := p)
    unfold strSkipWhitespace at ih ⊢
    by_cases hal : al = 0x20#8
    · rw [List.dropWhile_cons_of_pos (by simpa using hal), ih]
      rcases eq_or_ne p [] with rfl | hne
      · refine iff_of_false (fun h => h.ne_nil rfl) ?_
        rintro ⟨c, hc, hdigit⟩
        rw [← Option.some.inj hc, hal] at hdigit
        exact absurd hdigit (by decide)
      · rw [endsInDigit_cons hne]
    · rw [List.dropWhile_cons_of_neg (by simpa using hal)]

theorem endsInDigit_afterDigits : ∀ {p q : List Byte}, afterDigits p = some q →
    (EndsInDigit q ↔ EndsInDigit p)
  | al :: p, q, h => by
    rw [afterDigits] at h
    split_ifs at h with hal
    · have hne : p ≠ [] := by
        rintro rfl
        exact absurd h nofun
      rw [endsInDigit_cons hne]
      exact endsInDigit_afterDigits h
    · obtain rfl := Option.some.inj h
      rcases eq_or_ne p [] with rfl | hne
      · refine iff_of_false (fun h => h.ne_nil rfl) ?_
        rintro ⟨c, hc, hdigit⟩
        rw [← Option.some.inj hc] at hdigit
        exact hal hdigit
      · rw [endsInDigit_cons hne]

theorem AllDigits.endsInDigit {p : List Byte} (h : AllDigits p) (hne : p ≠ []) : EndsInDigit p :=
  ⟨p.getLast hne, List.getLast?_eq_some_getLast hne, h _ (List.getLast_mem hne)⟩

end Values

/-! ## The loop of WRITE -/

section Loop

variable {b : List Byte} {n : ℕ} (hn : n = 256 + b.length) (mode : Mode)

/-- Whether the step moves the segment on makes no difference to pages. -/
theorem present_next (cf : Bool) (k : ℕ) (ptr : Pointer) :
    (ptr.next cf).Present k ↔ (ptr.next false).Present k := by
  cases ptr with
  | flat64 rbx => exact Iff.rfl
  | real | acc286 | acc386 | flat32 =>
    exact iff_of_true (present_of_ne_flat64 k nofun) (present_of_ne_flat64 k nofun)

include hn

/-- One turn of the loop, on a line of which `p` is left before the zero. -/
theorem writeLoopReads_succ {p : List Byte} (hp : p.length < 256) {d : ℕ} (fuel : ℕ)
    (ptr : Pointer) :
    (∀ i ∈ writeLoopReads mode n (b.length + d) (fuel + 1) ptr (p ++ 0#8 :: b), i < 256) ↔
      ((strSkipWhitespace p).length + 1 ≤ d ∨ ∃ q, afterDigits (strSkipWhitespace p) = some q ∧
        (ptr.phys = none ∨ ∀ i ∈ writeLoopReads mode n (b.length + d) fuel
          (ptr.next (decide ((strSkipWhitespace q ++ 0#8 :: b).getD 0 0 < 0x20#8)))
          (strSkipWhitespace q ++ 0#8 :: b), i < 256)) := by
  have hskip := strSkipWhitespaceReads_zero (b := b) p hn hp
  have hle := length_strSkipWhitespace_le p
  have hdigits := strtohexReads_zero (b := b) (strSkipWhitespace p) hn (by omega)
  have hlen : (strSkipWhitespace p ++ 0#8 :: b).length ≤ b.length + d ↔
      (strSkipWhitespace p).length + 1 ≤ d := by
    rw [List.length_append, List.length_cons]
    omega
  rw [writeLoopReads, List.forall_mem_append, and_iff_right hskip, strSkipWhitespace_zero]
  simp only []
  by_cases hend : (strSkipWhitespace p).length + 1 ≤ d
  · rw [if_pos (hlen.2 hend)]
    simp [hend]
  · rw [if_neg (mt hlen.1 hend), List.forall_mem_append, and_iff_right hdigits, or_iff_right hend,
      strtohex_zero]
    rcases hrest : afterDigits (strSkipWhitespace p) with _ | q
    · have hover := strSkipWhitespaceReads_behind hn
      refine iff_of_false (fun hall => ?_) (by simp)
      exact absurd (hall 256 (List.mem_append_left _ hover)) (by omega)
    · have hq := length_afterDigits hrest
      have hsecond := strSkipWhitespaceReads_zero (b := b) q hn (by omega)
      simp only [Option.map_some, Option.getD_some, List.forall_mem_append, strSkipWhitespace_zero,
        Option.some.injEq, exists_eq_left']
      rw [and_iff_right hsecond]
      rcases ptr.phys with _ | a
      · simp
      · simp

/-- A line that does not end in a digit leaves the loop something to stop at. -/
theorem writeLoopReads_inside {d : ℕ} (hd : 0 < d) : ∀ (fuel : ℕ) {p : List Byte} (ptr : Pointer),
    p.length < 256 → ¬ EndsInDigit p →
      ∀ i ∈ writeLoopReads mode n (b.length + d) fuel ptr (p ++ 0#8 :: b), i < 256
  | 0, p, ptr, _, _ => nofun
  | fuel + 1, p, ptr, hp, hlast => by
    rw [writeLoopReads_succ hn mode hp fuel ptr]
    have hle := length_strSkipWhitespace_le p
    rcases eq_or_ne (strSkipWhitespace p) [] with hnil | hne
    · rw [hnil]
      exact Or.inl hd
    · rcases hrest : afterDigits (strSkipWhitespace p) with _ | q
      · have hall : AllDigits (strSkipWhitespace p) := afterDigits_eq_none_iff.1 hrest
        exact absurd (endsInDigit_skip.1 (hall.endsInDigit hne)) hlast
      · have hq := length_afterDigits hrest
        have hle' := length_strSkipWhitespace_le q
        refine Or.inr ⟨q, rfl, Or.inr (writeLoopReads_inside hd fuel _ (by omega) ?_)⟩
        rw [endsInDigit_skip, endsInDigit_afterDigits hrest, endsInDigit_skip]
        exact hlast

/-- On a full line that ends in a digit it runs over the end, unless a value before the last one
has no page to go to. -/
theorem writeLoopReads_overruns : ∀ (fuel : ℕ) {p : List Byte} (ptr : Pointer),
    p.length < 256 → p.length ≤ fuel → EndsInDigit p →
      ((∀ i ∈ writeLoopReads mode n (b.length + 1) fuel ptr (p ++ 0#8 :: b), i < 256) ↔
        ¬ ptr.Present (writeValues false p - 1))
  | 0, p, ptr, _, hfuel, hlast => by
    exact absurd (List.eq_nil_of_length_eq_zero (Nat.le_zero.1 hfuel)) hlast.ne_nil
  | fuel + 1, p, ptr, hp, hfuel, hlast => by
    have hne := (endsInDigit_skip.2 hlast).ne_nil
    have hpos := List.length_pos_of_ne_nil hne
    have hle := length_strSkipWhitespace_le p
    rw [writeLoopReads_succ hn mode hp fuel ptr, or_iff_right (by omega), writeValues_start hne,
      Nat.add_sub_cancel, writeValues_digits]
    rcases hrest : afterDigits (strSkipWhitespace p) with _ | q
    · simp [Pointer.Present]
    · have hq := length_afterDigits hrest
      have hle' := length_strSkipWhitespace_le q
      have hlast' : EndsInDigit (strSkipWhitespace q) := by
        rw [endsInDigit_skip, endsInDigit_afterDigits hrest, endsInDigit_skip]
        exact hlast
      have hvalues := writeValues_start hlast'.ne_nil
      simp only [Option.some.injEq, exists_eq_left', Option.map_some, Option.getD_some]
      rw [hvalues, Pointer.Present]
      rcases hphys : ptr.phys with _ | a
      · simp
      · have ih := writeLoopReads_overruns fuel
          (ptr.next (decide ((strSkipWhitespace q ++ 0#8 :: b).getD 0 0 < 0x20#8)))
          (by omega : (strSkipWhitespace q).length < 256) (by omega) hlast'
        rw [present_next, writeValues_skip, hvalues, Nat.add_sub_cancel] at ih
        rw [ih]
        simp

/-- All reads of a WRITE, on a full line or on one that does not end in a digit anyway. -/
theorem writeReads_inside_iff {p : List Byte} (hp : p.length < 256) (hne : p ≠ []) {d : ℕ}
    (hd : d = 1 ∨ 0 < d ∧ ¬ EndsInDigit p) :
    (∀ i ∈ mode.writeReads n (p ++ 0#8 :: b) (b.length + d), i < 256) ↔ ¬ WriteOverruns mode p := by
  have hfirst := strtohexReads_zero (b := b) p hn hp
  rw [Mode.writeReads, address_zero, List.forall_mem_append, and_iff_right hfirst, WriteOverruns]
  rcases haddress : (mode.address p).1 with _ | ptr
  · simp
  · simp only [Option.some.injEq, exists_eq_left', List.forall_mem_append]
    rcases hrest : afterDigits p with _ | q
    · have hover := strSkipWhitespaceReads_behind hn
      have hall : AllDigits p := afterDigits_eq_none_iff.1 hrest
      have hvalues : writeValues true p = 0 := by
        rw [writeValues_digits, hrest]
        rfl
      refine iff_of_false (fun hin => ?_) (not_not.2 ⟨hall.endsInDigit hne, ?_⟩)
      · exact absurd (hin.1 256 hover) (by omega)
      · rw [hvalues]
        trivial
    · have hq := length_afterDigits hrest
      have hle := length_strSkipWhitespace_le q
      have hskip := strSkipWhitespaceReads_zero (b := b) q hn (by omega)
      have hlast : EndsInDigit (strSkipWhitespace q) ↔ EndsInDigit p := by
        rw [endsInDigit_skip, endsInDigit_afterDigits hrest]
      rw [Option.map_some, Option.getD_some, and_iff_right hskip, strSkipWhitespace_zero,
        List.length_append]
      by_cases hdigit : EndsInDigit p
      · obtain rfl := hd.resolve_right fun h => h.2 hdigit
        rw [writeLoopReads_overruns hn mode _ ptr (by omega) (Nat.le_add_right _ _)
          (hlast.2 hdigit), writeValues_skip, writeValues_digits, hrest, and_iff_right hdigit]
        rfl
      · have hin := writeLoopReads_inside hn mode (b := b) (d := d) (by omega)
          ((strSkipWhitespace q).length + (0#8 :: b).length) ptr (by omega) (mt hlast.1 hdigit)
        exact iff_of_true hin fun h => hdigit h.1

end Loop

/-! ## What is behind has no say -/

section Independent

variable {b : List Byte} (b' : List Byte) {n : ℕ} (hn : n = 256 + b.length) (mode : Mode)

theorem count_zero (p b : List Byte) :
    mode.count (p ++ 0#8 :: b) = mode.count p := by
  rw [Mode.count, Mode.count, strSkipWhitespace_zero, strtohex_zero]

include hn

/-- A loop whose reads stay inside is the same whatever lies behind. -/
theorem writeLoop_independent {d : ℕ} : ∀ (fuel fuel' : ℕ) {p : List Byte} (ptr : Pointer)
    (mem : Mem 32), p.length < 256 → p.length < fuel → p.length < fuel' →
      (∀ i ∈ writeLoopReads mode n (b.length + d) fuel ptr (p ++ 0#8 :: b), i < 256) →
      writeLoop mode (b'.length + d) fuel' ptr (p ++ 0#8 :: b') mem
        = writeLoop mode (b.length + d) fuel ptr (p ++ 0#8 :: b) mem
  | 0, _, p, ptr, mem, _, h, _, _ => absurd h (Nat.not_lt_zero _)
  | _, 0, p, ptr, mem, _, _, h, _ => absurd h (Nat.not_lt_zero _)
  | fuel + 1, fuel' + 1, p, ptr, mem, hp, hfuel, hfuel', hin => by
    rw [writeLoopReads_succ hn mode hp fuel ptr] at hin
    have hle := length_strSkipWhitespace_le p
    have hlen : ∀ b : List Byte, (strSkipWhitespace p ++ 0#8 :: b).length ≤ b.length + d ↔
        (strSkipWhitespace p).length + 1 ≤ d := by
      intro b
      rw [List.length_append, List.length_cons]
      omega
    rw [writeLoop, writeLoop]
    simp only [strSkipWhitespace_zero, hlen]
    split_ifs with hend
    · rfl
    · obtain ⟨q, hrest, hin⟩ := hin.resolve_left hend
      have hq := length_afterDigits hrest
      have hle' := length_strSkipWhitespace_le q
      have hhead : (strSkipWhitespace q ++ 0#8 :: b').getD 0 0
          = (strSkipWhitespace q ++ 0#8 :: b).getD 0 0 := by
        cases strSkipWhitespace q <;> rfl
      simp only [strtohex_zero, hrest, Option.map_some, Option.getD_some, strSkipWhitespace_zero,
        hhead]
      rcases hphys : ptr.phys with _ | a
      · rfl
      · have hin' := hin.resolve_left (by rw [hphys]; exact Option.some_ne_none a)
        exact writeLoop_independent fuel fuel' _ _ (by omega) (by omega) (by omega) hin'

end Independent

section Commands

variable (s : Serial) {p : List Byte} (b b' : List Byte)

/-- Behind an address that is taken the line goes on. -/
theorem exists_afterDigits {mode : Mode} (h : ¬ CountOverruns mode p) {ptr : Pointer}
    (haddress : (mode.address p).1 = some ptr) : ∃ q, afterDigits p = some q := by
  rw [CountOverruns, AllDigits, ← afterDigits_eq_none_iff, haddress] at h
  exact Option.ne_none_iff_exists'.1 fun hnone => h ⟨hnone, rfl⟩

theorem readCommand_independent (send : Byte → List Byte) (h : ¬ CountOverruns s.mode p) :
    s.readCommand send (p ++ 0#8 :: b') = s.readCommand send (p ++ 0#8 :: b) := by
  rw [Serial.readCommand, Serial.readCommand, address_zero, address_zero]
  rcases haddress : (s.mode.address p).1 with _ | ptr
  · rfl
  · obtain ⟨q, hq⟩ := exists_afterDigits h haddress
    simp only [hq, Option.map_some, Option.getD_some, count_zero]

theorem commandWriteb_independent (h : ¬ CountOverruns s.mode p) :
    s.commandWriteb (p ++ 0#8 :: b') = s.commandWriteb (p ++ 0#8 :: b) := by
  rw [Serial.commandWriteb, Serial.commandWriteb, address_zero, address_zero]
  rcases haddress : (s.mode.address p).1 with _ | ptr
  · rfl
  · obtain ⟨q, hq⟩ := exists_afterDigits h haddress
    simp only [hq, Option.map_some, Option.getD_some, count_zero]

theorem entryPoint_independent {mode : Mode} (h : ¬ ExecOverruns mode p) :
    mode.entryPoint (p ++ 0#8 :: b') = mode.entryPoint (p ++ 0#8 :: b) := by
  rw [ExecOverruns, AllDigits, ← afterDigits_eq_none_iff] at h
  have hsome : mode.bits = 16 → ∃ q, afterDigits p = some q := by
    intro h16
    rcases hrest : afterDigits p with _ | q
    · exact absurd ⟨hrest, h16⟩ h
    · exact ⟨q, rfl⟩
  cases mode with
  | i8086 =>
    obtain ⟨q, hq⟩ := hsome rfl
    simp only [Mode.entryPoint, strtohex_zero, hq, Option.map_some, Option.getD_some,
      strSkipWhitespace_zero]
  | i286 | i386x16 =>
    obtain ⟨q, hq⟩ := hsome rfl
    simp only [Mode.entryPoint, strtohex32_zero, hq, Option.map_some, Option.getD_some,
      strSkipWhitespace_zero, strtohex_zero]
  | i386x32 | x64 => simp only [Mode.entryPoint, strtohex_zero]

theorem writeLoop_skip (mode : Mode) (di fuel : ℕ) (ptr : Pointer) (si : List Byte) (mem : Mem 32) :
    writeLoop mode di fuel ptr (strSkipWhitespace si) mem = writeLoop mode di fuel ptr si mem := by
  cases fuel with
  | zero => rfl
  | succ fuel => rw [writeLoop, writeLoop, strSkipWhitespace_idem]

theorem commandWrite_independent {n : ℕ} (hn : n = 256 + b.length) (hp : p.length < 256) {d : ℕ}
    (hin : ∀ i ∈ s.mode.writeReads n (p ++ 0#8 :: b) (b.length + d), i < 256) :
    s.commandWrite (p ++ 0#8 :: b') (b'.length + d)
      = s.commandWrite (p ++ 0#8 :: b) (b.length + d) := by
  rw [Mode.writeReads, address_zero, List.forall_mem_append] at hin
  rw [Serial.commandWrite, Serial.commandWrite, address_zero, address_zero]
  rcases haddress : (s.mode.address p).1 with _ | ptr
  · rfl
  · rw [haddress] at hin
    simp only [List.forall_mem_append] at hin
    rcases hrest : afterDigits p with _ | q
    · rw [hrest] at hin
      have hover := strSkipWhitespaceReads_behind hn
      exact absurd (hin.2.1 256 hover) (by omega)
    · have hq := length_afterDigits hrest
      have hle := length_strSkipWhitespace_le q
      obtain ⟨-, -, hloop⟩ := hin
      simp only [hrest, Option.map_some, Option.getD_some, strSkipWhitespace_zero] at hloop ⊢
      have hlen : ∀ q b : List Byte, q.length < (q ++ 0#8 :: b).length := by
        intro q b
        rw [List.length_append, List.length_cons]
        omega
      have hsame := writeLoop_independent b' hn s.mode (d := d) _
        (q ++ 0#8 :: b').length ptr s.mem (by omega) (hlen _ b) (hle.trans_lt (hlen q b')) hloop
      -- the two calls start before the white space, with fuel for it
      have hfuel := writeLoop_fuel s.mode (b.length + d) (strSkipWhitespace q ++ 0#8 :: b).length
        (q.length - (strSkipWhitespace q).length) ptr (strSkipWhitespace q ++ 0#8 :: b) s.mem le_rfl
      have hsum : (strSkipWhitespace q ++ 0#8 :: b).length
          + (q.length - (strSkipWhitespace q).length) = (q ++ 0#8 :: b).length := by
        rw [List.length_append, List.length_append]
        omega
      rw [hsum, ← strSkipWhitespace_zero, writeLoop_skip] at hfuel
      rw [← strSkipWhitespace_zero, ← strSkipWhitespace_zero, writeLoop_skip] at hsame
      simp only [hsame, hfuel]

end Commands

/-! ## The line -/

section Line

variable {mode : Mode} {buf : List Byte}

/-- A line in `in_buf` without the last of the zeros behind it. -/
def lineBody (buf : List Byte) : List Byte := buf ++ List.replicate (255 - buf.length) 0

theorem length_lineBody (hbuf : buf.length ≤ 255) : (lineBody buf).length = 255 := by
  rw [lineBody, List.length_append, List.length_replicate]
  omega

theorem inBuf_eq (m : Stage2) (hbuf : buf.length ≤ 255) :
    m.inBuf buf = lineBody buf ++ 0#8 :: m.behind := by
  have hzeros : 256 - buf.length = (255 - buf.length) + 1 := by omega
  rw [Stage2.inBuf, lineBody, hzeros, List.replicate_succ', List.append_assoc, List.append_assoc]
  rfl

/-- No command word goes on behind the line. -/
theorem isPrefixOf_append_of_le {word line : List Byte} (h : word.length ≤ line.length)
    (rest : List Byte) : word.isPrefixOf (line ++ rest) = word.isPrefixOf line := by
  rw [Bool.eq_iff_iff, List.isPrefixOf_iff_prefix, List.isPrefixOf_iff_prefix]
  constructor
  · intro hword
    exact List.prefix_of_prefix_length_le hword (List.prefix_append line rest) h
  · intro hword
    exact hword.trans (List.prefix_append line rest)

/-- A line that is not full has a zero at the end of every operand. -/
theorem lineBody_drop (hbuf : buf.length < 255) {k : ℕ} (hk : k < 255) :
    ∃ q, (lineBody buf).drop k = q ++ [0#8] := by
  have hzeros : 255 - buf.length = (254 - buf.length) + 1 := by omega
  refine ⟨(buf ++ List.replicate (254 - buf.length) 0).drop k, ?_⟩
  have hlen : k ≤ (buf ++ List.replicate (254 - buf.length) (0 : Byte)).length := by
    rw [List.length_append, List.length_replicate]
    omega
  rw [lineBody, hzeros, List.replicate_succ', ← List.append_assoc,
    List.drop_append_of_le_length hlen]
  rfl

theorem not_endsInDigit_zero (q : List Byte) : ¬ EndsInDigit (q ++ [0#8]) := by
  rintro ⟨c, hc, hdigit⟩
  rw [List.getLast?_concat] at hc
  rw [← Option.some.inj hc] at hdigit
  exact absurd hdigit (by decide)

theorem not_allDigits_zero (q : List Byte) : ¬ AllDigits (q ++ [0#8]) :=
  fun h => not_endsInDigit_zero q (h.endsInDigit (by simp))

theorem lineOverruns_lineBody (hbuf : buf.length ≤ 255) :
    LineOverruns mode (lineBody buf) ↔ Overruns mode buf := by
  rcases hbuf.eq_or_lt with hfull | hlt
  · have hbody : lineBody buf = buf := by
      rw [lineBody, hfull]
      exact List.append_nil buf
    rw [hbody, Overruns, and_iff_right hfull]
  · have hcount : ∀ k < 255, ¬ CountOverruns mode ((lineBody buf).drop k) := by
      intro k hk h
      obtain ⟨q, hq⟩ := lineBody_drop hlt hk
      exact not_allDigits_zero q (hq ▸ h.1)
    have hwrite : ¬ WriteOverruns mode ((lineBody buf).drop 6) := by
      rintro ⟨ptr, -, hlast, -⟩
      obtain ⟨q, hq⟩ := lineBody_drop hlt (k := 6) (by omega)
      exact not_endsInDigit_zero q (hq ▸ hlast)
    have hexec : ¬ ExecOverruns mode ((lineBody buf).drop 5) := by
      intro h
      obtain ⟨q, hq⟩ := lineBody_drop hlt (k := 5) (by omega)
      exact not_allDigits_zero q (hq ▸ h.1)
    refine iff_of_false ?_ fun h => hlt.ne h.1
    unfold LineOverruns
    split_ifs
    · exact hcount 5 (by omega)
    · exact hcount 6 (by omega)
    · exact hwrite
    · exact hcount 7 (by omega)
    · exact hexec
    · exact not_false

end Line

/-! ## The command -/

section Command

variable (m : Stage2) (s : Serial) {buf : List Byte}

theorem drop_zero {line : List Byte} {k : ℕ} (hk : k ≤ line.length) (b : List Byte) :
    (line ++ 0#8 :: b).drop k = line.drop k ++ 0#8 :: b :=
  List.drop_append_of_le_length hk

/-- The WRITE of a line, whose end is where its characters are. -/
theorem writeReads_line (mode : Mode) (b : List Byte) (hbuf : buf.length ≤ 255) :
    (∀ i ∈ mode.writeReads (256 + b.length) ((lineBody buf).drop 6 ++ 0#8 :: b)
      (256 + b.length - buf.length), i < 256) ↔ ¬ WriteOverruns mode ((lineBody buf).drop 6) := by
  have hlen := length_lineBody hbuf
  have hne : (lineBody buf).drop 6 ≠ [] := by
    intro h
    have hnil := congrArg List.length h
    rw [List.length_drop, hlen] at hnil
    exact absurd hnil (by decide)
  have hend : 256 + b.length - buf.length = b.length + (256 - buf.length) := by omega
  rw [hend]
  refine writeReads_inside_iff rfl mode (by rw [List.length_drop]; omega) hne ?_
  rcases hbuf.eq_or_lt with hfull | hlt
  · exact Or.inl (by omega)
  · obtain ⟨q, hq⟩ := lineBody_drop hlt (k := 6) (by omega)
    exact Or.inr ⟨by omega, hq ▸ not_endsInDigit_zero q⟩

theorem operandReads_inside_iff (hbuf : buf.length ≤ 255) :
    (∀ i ∈ m.operandReads s.mode buf, i < 256) ↔ ¬ LineOverruns s.mode (lineBody buf) := by
  have hlen := length_lineBody hbuf
  have hn : (lineBody buf ++ 0#8 :: m.behind).length = 256 + m.behind.length := by
    rw [List.length_append, List.length_cons, hlen]
    omega
  have hdrop : ∀ k ≤ 255, (lineBody buf ++ 0#8 :: m.behind).drop k
      = (lineBody buf).drop k ++ 0#8 :: m.behind := fun k hk => drop_zero (by omega) _
  have hshort : ∀ k, ((lineBody buf).drop k).length < 256 := by
    intro k
    rw [List.length_drop]
    omega
  have hword : ∀ word : List Byte, word.length ≤ 255 →
      word.isPrefixOf (lineBody buf ++ 0#8 :: m.behind) = word.isPrefixOf (lineBody buf) :=
    fun word h => isPrefixOf_append_of_le (by omega) _
  rw [Stage2.operandReads, inBuf_eq m hbuf, hn]
  unfold LineOverruns
  simp only [hword (ascii "READ ") (by decide), hword (ascii "READB ") (by decide),
    hword (ascii "WRITE ") (by decide), hword (ascii "WRITEB ") (by decide),
    hword (ascii "EXEC ") (by decide), hdrop 5 (by decide), hdrop 6 (by decide),
    hdrop 7 (by decide)]
  split_ifs
  · exact addressCountReads_inside_iff rfl s.mode (hshort 5)
  · exact addressCountReads_inside_iff rfl s.mode (hshort 6)
  · exact writeReads_line s.mode m.behind hbuf
  · exact addressCountReads_inside_iff rfl s.mode (hshort 7)
  · exact execReads_inside_iff rfl s.mode (hshort 5)
  · exact iff_of_true nofun not_false

/-- A command whose operands stay inside the line does not look behind it. -/
theorem mainLoopCommand_independent (hbuf : buf.length ≤ 255)
    (hover : ¬ LineOverruns s.mode (lineBody buf)) (behind : List Byte) :
    { m with behind := behind }.mainLoopCommand s buf = m.mainLoopCommand s buf := by
  have hlen := length_lineBody hbuf
  have hn : ∀ b : List Byte, (lineBody buf ++ 0#8 :: b).length = 256 + b.length := by
    intro b
    rw [List.length_append, List.length_cons, hlen]
    omega
  have hdrop : ∀ (b : List Byte), ∀ k ≤ 255, (lineBody buf ++ 0#8 :: b).drop k
      = (lineBody buf).drop k ++ 0#8 :: b := fun b k hk => drop_zero (by omega) b
  have hword : ∀ (b word : List Byte), word.length ≤ 255 →
      word.isPrefixOf (lineBody buf ++ 0#8 :: b) = word.isPrefixOf (lineBody buf) :=
    fun b word h => isPrefixOf_append_of_le (by omega) _
  rw [Stage2.mainLoopCommand, Stage2.mainLoopCommand, inBuf_eq m hbuf,
    inBuf_eq { m with behind := behind } hbuf]
  unfold LineOverruns at hover
  simp only [hn]
  simp only [hword _ (ascii "TEST" ++ [0]) (by decide), hword _ (ascii "READ ") (by decide),
    hword _ (ascii "READB ") (by decide), hword _ (ascii "WRITE ") (by decide),
    hword _ (ascii "WRITEB ") (by decide), hword _ (ascii "EXEC ") (by decide),
    hword _ (ascii "x64" ++ [0]) (by decide), hword _ (ascii "386-32" ++ [0]) (by decide),
    hword _ (ascii "386-16" ++ [0]) (by decide), hword _ (ascii "286" ++ [0]) (by decide),
    hword _ (ascii "8086" ++ [0]) (by decide), hword _ (ascii "LOW" ++ [0]) (by decide)]
  simp only [hdrop _ 5 (by decide), hdrop _ 6 (by decide), hdrop _ 7 (by decide)]
  refine ite_congr rfl (fun _ => rfl) fun _ => ?_
  refine ite_congr rfl (fun hread => ?_) fun hread => ?_
  · rw [if_pos hread] at hover
    exact readCommand_independent s _ _ _ hover
  rw [if_neg hread] at hover
  refine ite_congr rfl (fun hreadb => ?_) fun hreadb => ?_
  · rw [if_pos hreadb] at hover
    exact readCommand_independent s _ _ _ hover
  rw [if_neg hreadb] at hover
  refine ite_congr rfl (fun hwrite => ?_) fun hwrite => ?_
  · rw [if_pos hwrite] at hover
    have hin := (writeReads_line s.mode m.behind hbuf).2 hover
    have hend : ∀ b : List Byte, 256 + b.length - buf.length = b.length + (256 - buf.length) := by
      intro b
      omega
    rw [hend] at hin ⊢
    rw [hend]
    exact commandWrite_independent s _ _ rfl (by rw [List.length_drop]; omega) hin
  rw [if_neg hwrite] at hover
  refine ite_congr rfl (fun hwriteb => ?_) fun hwriteb => ?_
  · rw [if_pos hwriteb] at hover
    exact commandWriteb_independent s _ _ hover
  rw [if_neg hwriteb] at hover
  refine ite_congr rfl (fun hexec => ?_) fun _ => rfl
  rw [if_pos hexec] at hover
  rw [Stage2.commandExec, Stage2.commandExec, entryPoint_independent _ _ hover]

/-- The operands are parsed inside the line in every case but that of a full line which ends in the
operand. -/
theorem parsesInside_iff (chars : List Byte) :
    m.ParsesInside s (kept chars) ↔ ¬ Overruns s.mode (kept chars) := by
  have hkept : (kept chars).length ≤ 255 := Nat.le_of_lt_succ (length_kept chars)
  have hinside := operandReads_inside_iff m s hkept
  rw [lineOverruns_lineBody hkept] at hinside
  constructor
  · intro h
    exact hinside.1 h.inside
  · intro hover
    have hline := mt (lineOverruns_lineBody hkept).1 hover
    exact ⟨hinside.2 hover, mainLoopCommand_independent m s hkept hline⟩

/-- READ of an address that fills the line takes its count from behind `in_buf`. -/
theorem parsesOutside_read :
    ¬ stage2.ParsesInside Serial.start (kept (ascii "READ " ++ List.replicate 250 0x30#8)) := by
  intro h
  have hover : 256 ∈ stage2.operandReads .i8086
      (kept (ascii "READ " ++ List.replicate 250 0x30#8)) := by
    decide +kernel
  exact absurd (h.inside 256 hover) (by decide)

/-- One digit less leaves the zero to stop at. -/
theorem parsesInside_read :
    stage2.ParsesInside Serial.start (kept (ascii "READ " ++ List.replicate 249 0x30#8)) :=
  (parsesInside_iff _ _ _).2 fun h => absurd h.1 (by decide +kernel)

end Command

end RemoteX86
