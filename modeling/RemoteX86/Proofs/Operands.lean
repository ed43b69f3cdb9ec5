import RemoteX86.Operands

/-!
# The parsers follow the grammar

`operands`, the four parser calls the commands make, is the scan of the grammar run over the same
bytes (`operands_eq_run`).  So whatever the commands make of their operands, they make of the
longest run of bytes the grammar takes, wherever the datagram ends.
-/

namespace RemoteX86

open Hex Memory

namespace Scan

theorem run_append_of_ne_nil : ∀ (t : List Byte) (s : Scan) (w : List Byte), (s.run t).2 ≠ [] →
    s.run (t ++ w) = ((s.run t).1, (s.run t).2 ++ w)
  | [], s, w, h => by simp [run] at h
  | c :: t, s, w, h => by
    simp only [List.cons_append, run] at h ⊢
    split at h
    · exact run_append_of_ne_nil t _ w h
    · simp

theorem run_append_of_nil : ∀ (t : List Byte) (s : Scan) (w : List Byte), (s.run t).2 = [] →
    s.run (t ++ w) = (s.run t).1.run w
  | [], s, w, _ => rfl
  | c :: t, s, w, h => by
    simp only [List.cons_append, run] at h ⊢
    split at h
    · exact run_append_of_nil t _ w h
    · simp at h

theorem run_suffix : ∀ (t : List Byte) (s : Scan), (s.run t).2 <:+ t
  | [], s => by simp [run]
  | c :: t, s => by
    simp only [run]
    split
    · exact (run_suffix t _).trans (List.suffix_cons c t)
    · exact List.suffix_rfl

end Scan

theorem chartohex_eq (c : Byte) : chartohex c = digitVal c := rfl

theorem strtoulHexLoop_eq_scan : ∀ (p : List Byte) (v : BitVec 32),
    strtoulHexLoop v p = scan v p
  | [], _ => rfl
  | c :: p, v => by
    simp only [strtoulHexLoop, scan, chartohex_eq]
    cases digitVal c with
    | none => rfl
    | some d => exact strtoulHexLoop_eq_scan p _

theorem peek_succ (p : List Byte) (i n : ℕ) :
    peek p i (n + 1) = p.getD i 0 :: peek p (i + 1) n := by
  simp only [peek, List.range_succ_eq_map, List.map_cons, List.map_map, Nat.add_zero]
  refine congrArg _ (List.map_congr_left fun k _ => ?_)
  simp only [Function.comp_apply, Nat.succ_eq_add_one]
  rw [Nat.add_right_comm, Nat.add_assoc]

theorem peek_cons_succ (c : Byte) (p : List Byte) (i n : ℕ) :
    peek (c :: p) (i + 1) n = peek p i n := by
  simp only [peek]
  refine List.map_congr_left fun k _ => ?_
  rw [Nat.add_right_comm, List.getD_cons_succ]

@[simp] theorem length_peek (p : List Byte) (i n : ℕ) : (peek p i n).length = n := by
  simp [peek]

/-- A comparison with a text that holds no zero byte looks for a prefix. -/
theorem memcmpEq_iff : ∀ (s p : List Byte), (0 : Byte) ∉ s → (memcmpEq p s = true ↔ s <+: p)
  | [], p, _ => by simp [memcmpEq, peek]
  | c :: s, [], h => by
    have hc : (0#8 : Byte) ≠ c := fun e => h (e ▸ List.mem_cons_self)
    simp [memcmpEq, peek_succ, hc]
  | c :: s, d :: p, h => by
    have ih := memcmpEq_iff s p fun hm => h (List.mem_cons_of_mem _ hm)
    simp only [memcmpEq, beq_iff_eq] at ih
    simp only [memcmpEq, beq_iff_eq, List.length_cons, peek_succ, peek_cons_succ,
      List.getD_cons_zero, List.cons.injEq, List.cons_prefix_cons, ih]
    exact and_congr_left' eq_comm

/-- `s_strtoul_hex` with its test for `0x` unfolded. -/
theorem sStrtoulHex_cons (c : Byte) (p : List Byte) :
    sStrtoulHex (c :: p) =
      if c = 0x30#8 ∧ p.head? = some 0x78#8 then scan 0#32 (p.drop 1) else scan 0#32 (c :: p) := by
  have hiff : memcmpEq (c :: p) (ascii "0x") = true ↔ c = 0x30#8 ∧ p.head? = some 0x78#8 := by
    rw [memcmpEq_iff _ _ (by decide), show ascii "0x" = [0x30#8, 0x78#8] from rfl,
      List.cons_prefix_cons, eq_comm]
    cases p with
    | nil => simp
    | cons d p => simp [List.cons_prefix_cons, @eq_comm _ d]
  simp only [sStrtoulHex, hiff, strtoulHexLoop_eq_scan]
  split_ifs <;> simp

theorem digitVal_zero_iff {c : Byte} : digitVal c = some 0 ↔ c = 0x30#8 := by
  revert c
  decide

theorem digitVal_x : digitVal 0x78#8 = none := rfl

/-- What `s_strtoul_hex` does behind a first digit `0`. -/
def afterZero (p : List Byte) : BitVec 32 × List Byte :=
  if p.head? = some 0x78#8 then scan 0#32 (p.drop 1) else scan 0#32 p

theorem sStrtoulHex_of_digit {c : Byte} {d : ℕ} (h : digitVal c = some d) (p : List Byte) :
    sStrtoulHex (c :: p) = if d = 0 then afterZero p else scan (shiftIn 0#32 d) p := by
  rw [sStrtoulHex_cons]
  by_cases h0 : d = 0
  · subst h0
    rw [digitVal_zero_iff] at h
    subst h
    simp only [true_and, if_true, afterZero]
    rfl
  · have hc : c ≠ 0x30#8 := fun e => h0 (by rw [digitVal_zero_iff.2 e] at h; simpa using h.symm)
    rw [if_neg (fun hh => hc hh.1), if_neg h0, scan, h]

theorem sStrtoulHex_of_not_digit {c : Byte} (h : digitVal c = none) (p : List Byte) :
    sStrtoulHex (c :: p) = (0#32, c :: p) := by
  have hc : c ≠ 0x30#8 := fun e => by rw [digitVal_zero_iff.2 e] at h; simp at h
  rw [sStrtoulHex_cons, if_neg (fun hh => hc hh.1), scan, h]

namespace Scan

theorem result_hex2 : ∀ (p : List Byte) (a b : BitVec 32),
    result (run ⟨.hex2, a, b⟩ p) = (a, scan b p)
  | [], a, b => rfl
  | c :: p, a, b => by
    cases h : digitVal c with
    | none => simp [run, step, result, scan, h]
    | some d =>
      simp only [run, step, scan, h]
      exact result_hex2 p a _

theorem result_zero2 (p : List Byte) (a : BitVec 32) :
    result (run ⟨.zero2, a, 0#32⟩ p) = (a, afterZero p) := by
  cases p with
  | nil => rfl
  | cons c p =>
    by_cases hx : c = 0x78#8
    · subst hx
      simp [run, step, digitVal_x, afterZero, result_hex2]
    · cases h : digitVal c with
      | none => simp [run, step, result, afterZero, scan, h, hx]
      | some d => simp [run, step, afterZero, scan, h, hx, result_hex2]

theorem result_pre2 : ∀ (p : List Byte) (a : BitVec 32),
    result (run ⟨.pre2, a, 0#32⟩ p) = (a, sStrtoulHex (skipWhitespace p))
  | [], a => rfl
  | c :: p, a => by
    by_cases hsp : c = 0x20#8
    · subst hsp
      exact result_pre2 p a
    have hskip : skipWhitespace (c :: p) = c :: p := by simp [skipWhitespace, hsp]
    rw [hskip]
    cases h : digitVal c with
    | none => simp [run, step, result, h, hsp, sStrtoulHex_of_not_digit h]
    | some d =>
      simp only [run, step, h, sStrtoulHex_of_digit h]
      split_ifs with h0
      · subst h0
        exact result_zero2 p a
      · exact result_hex2 p a _

/-- Where the first number ends, the scan goes on as it does before the second. -/
theorem result_hex1 : ∀ (p : List Byte) (a : BitVec 32),
    result (run ⟨.hex1, a, 0#32⟩ p)
      = ((scan a p).1, sStrtoulHex (skipWhitespace (scan a p).2))
  | [], a => rfl
  | c :: p, a => by
    cases h : digitVal c with
    | some d =>
      simp only [run, step, scan, h]
      exact result_hex1 p _
    | none =>
      simp only [run, step, scan, h]
      by_cases hsp : c = 0x20#8
      · subst hsp
        exact result_pre2 p a
      · have hskip : skipWhitespace (c :: p) = c :: p := by simp [skipWhitespace, hsp]
        simp [result, hsp, hskip, sStrtoulHex_of_not_digit h]

theorem result_zero1 (p : List Byte) :
    result (run ⟨.zero1, 0#32, 0#32⟩ p)
      = ((afterZero p).1, sStrtoulHex (skipWhitespace (afterZero p).2)) := by
  cases p with
  | nil => rfl
  | cons c p =>
    by_cases hx : c = 0x78#8
    · subst hx
      simp [run, step, digitVal_x, afterZero, result_hex1]
    · cases h : digitVal c with
      | some d => simp [run, step, afterZero, scan, h, hx, result_hex1]
      | none =>
        by_cases hsp : c = 0x20#8
        · subst hsp
          simp only [run, step, h, afterZero, List.head?_cons, Option.some.injEq, hx, if_false,
            scan, if_true]
          exact result_pre2 p _
        · have hskip : skipWhitespace (c :: p) = c :: p := by simp [skipWhitespace, hsp]
          simp [run, step, result, afterZero, scan, h, hx, hsp, hskip,
            sStrtoulHex_of_not_digit h]

end Scan

/-- The commands' operands are what the scan of the grammar reads. -/
theorem operands_eq_run : ∀ p : List Byte, operands p = Scan.result (Scan.start.run p)
  | [] => rfl
  | c :: p => by
    by_cases hsp : c = 0x20#8
    · subst hsp
      exact operands_eq_run p
    have hskip : skipWhitespace (c :: p) = c :: p := by simp [skipWhitespace, hsp]
    cases h : digitVal c with
    | none =>
      simp [operands, hskip, Scan.run, Scan.step, Scan.start, Scan.result, h, hsp,
        sStrtoulHex_of_not_digit h]
    | some d =>
      simp only [operands, hskip, sStrtoulHex_of_digit h, Scan.run, Scan.step, Scan.start, h]
      split_ifs with h0
      · subst h0
        exact (Scan.result_zero1 p).symm
      · exact (Scan.result_hex1 p _).symm

/-! ## Which command -/

section Dispatch

variable (code : BitVec 32 → Mem 32 → Mem 32) (dev : Device) {data : List Byte} {n : ℕ}

theorem not_memcmpEq_of_prefix {s t : List Byte} (h : t <+: data) (h0 : (0 : Byte) ∉ s)
    (hs : ¬ s <+: t) (hl : s.length ≤ t.length) : ¬ memcmpEq data s = true := by
  intro hm
  rw [memcmpEq_iff _ _ h0] at hm
  exact hs (List.prefix_of_prefix_length_le hm h hl)

theorem udpCommand_read (h : ascii "READ " <+: data) (hn : 5 ≤ n) :
    udpCommand code dev data n = commandRead dev data := by
  have hT := not_memcmpEq_of_prefix (s := ascii "TEST") h (by decide) (by decide) (by decide)
  have hR := (memcmpEq_iff (ascii "READ ") data (by decide)).2 h
  rw [udpCommand, if_neg fun hh => hT hh.2, if_pos ⟨hn, hR⟩]

theorem udpCommand_write (h : ascii "WRITE " <+: data) (hn : 6 ≤ n) :
    udpCommand code dev data n = commandWrite dev data n := by
  have hT := not_memcmpEq_of_prefix (s := ascii "TEST") h (by decide) (by decide) (by decide)
  have hR := not_memcmpEq_of_prefix (s := ascii "READ ") h (by decide) (by decide) (by decide)
  have hW := (memcmpEq_iff (ascii "WRITE ") data (by decide)).2 h
  rw [udpCommand, if_neg fun hh => hT hh.2, if_neg fun hh => hR hh.2, if_pos ⟨hn, hW⟩]

theorem udpCommand_exec (h : ascii "EXEC " <+: data) (hn : 5 ≤ n) :
    udpCommand code dev data n = commandExec code dev data := by
  have hT := not_memcmpEq_of_prefix (s := ascii "TEST") h (by decide) (by decide) (by decide)
  have hR := not_memcmpEq_of_prefix (s := ascii "READ ") h (by decide) (by decide) (by decide)
  -- the WRITE test looks at six bytes, one more than EXEC's
  have hW : ¬ memcmpEq data (ascii "WRITE ") = true := by
    intro hm
    rw [memcmpEq_iff _ _ (by decide)] at hm
    have hE : ascii "EXEC " <+: ascii "WRITE " :=
      List.prefix_of_prefix_length_le h hm (by decide)
    exact absurd hE (by decide)
  have hL := not_memcmpEq_of_prefix (s := ascii "LOW") h (by decide) (by decide) (by decide)
  have hE := (memcmpEq_iff (ascii "EXEC ") data (by decide)).2 h
  rw [udpCommand, if_neg fun hh => hT hh.2, if_neg fun hh => hR hh.2, if_neg fun hh => hW hh.2,
    if_neg fun hh => hL hh.2, if_pos ⟨hn, hE⟩]

end Dispatch

end RemoteX86
