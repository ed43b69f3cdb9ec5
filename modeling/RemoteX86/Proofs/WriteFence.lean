import RemoteX86.Proofs.Operands

/-!
# WRITE and the end of the datagram

The handler's pointer is behind the operands, moved on to the first newline before the fence, so
it stays where the operands left it once they have run past the fence.  The subtraction
`fence - p` then wraps.  That happens exactly when the operands reach the end of the datagram and
the byte behind it carries them on (`writeInside_iff`).
-/

namespace RemoteX86

open Hex Memory

theorem peek_eq_take : ∀ (n : ℕ) (p : List Byte), n ≤ p.length → peek p 0 n = p.take n
  | 0, p, _ => by simp [peek]
  | n + 1, [], h => by simp at h
  | n + 1, c :: p, h => by
    rw [peek_succ, peek_cons_succ, List.getD_cons_zero, List.take_succ_cons,
      peek_eq_take n p (by simpa using h)]

theorem seekNewline_drop : ∀ (left : ℕ) (p : List Byte),
    ∃ k ≤ left, k ≤ p.length ∧ seekNewline left p = p.drop k
  | 0, p => ⟨0, by simp [seekNewline]⟩
  | left + 1, [] => ⟨0, by simp [seekNewline]⟩
  | left + 1, c :: p => by
    simp only [seekNewline]
    split_ifs with h
    · obtain ⟨k, h1, h2, h3⟩ := seekNewline_drop left p
      exact ⟨k + 1, by omega, by simpa using h2, by rw [h3, List.drop_succ_cons]⟩
    · exact ⟨0, by simp⟩

/-- The bytes the operands of a WRITE leave behind. -/
def writeRest (data : List Byte) : List Byte := (operands (data.drop 5)).2.2

theorem writeRest_suffix (data : List Byte) : writeRest data <:+ data := by
  rw [writeRest, operands_eq_run]
  exact (Scan.run_suffix _ _).trans (List.drop_suffix 5 data)

/-- From the end of the operands the pointer moves on by `k`, not past the fence and not at all
when it is past it already. -/
theorem writeData_eq (data : List Byte) (n : ℕ) :
    ∃ k ≤ n - (data.length - (writeRest data).length), k ≤ (writeRest data).length ∧
      writeData data n = (writeRest data).drop k := by
  obtain ⟨k, h1, h2, h3⟩ :=
    seekNewline_drop (n - (data.length - (writeRest data).length)) (writeRest data)
  have hle := (writeRest_suffix data).length_le
  unfold writeData
  simp only []
  rw [← writeRest, h3]
  split_ifs with h
  · obtain ⟨hlt, hnl⟩ := h
    have hne : k < (writeRest data).length := by
      by_contra hge
      rw [List.drop_eq_nil_of_le (by omega)] at hnl
      simp at hnl
    rw [List.length_drop] at hlt
    exact ⟨k + 1, by omega, hne, by rw [List.drop_drop]⟩
  · exact ⟨k, h1, h2, rfl⟩

/-- The offset of the handler's pointer from the start of the data. -/
def writeOffset (data : List Byte) (n : ℕ) : ℕ := data.length - (writeData data n).length

theorem writeData_drop (data : List Byte) (n : ℕ) :
    writeData data n = data.drop (writeOffset data n) := by
  obtain ⟨k, -, -, hk⟩ := writeData_eq data n
  have hs : writeData data n <:+ data := by
    rw [hk]
    exact (List.drop_suffix k _).trans (writeRest_suffix data)
  exact List.suffix_iff_eq_drop.1 hs

/-- The pointer ends up before the fence exactly when the operands did. -/
theorem writeOffset_le_iff (data : List Byte) (n : ℕ) :
    writeOffset data n ≤ n ↔ data.length - (writeRest data).length ≤ n := by
  obtain ⟨k, h1, h2, hk⟩ := writeData_eq data n
  have hle := (writeRest_suffix data).length_le
  rw [writeOffset, hk, List.length_drop]
  omega

/-- The operands of the datagram `d` end in it, or at its end, unless the bytes behind it carry
them on. -/
theorem writeRest_le_iff {d : List Byte} (after : List Byte) (h : 5 ≤ d.length) :
    (d ++ after).length - (writeRest (d ++ after)).length ≤ d.length
      ↔ OperandsStop (d.drop 5) after := by
  have hrest : writeRest (d ++ after) = (Scan.start.run (d.drop 5 ++ after)).2 := by
    rw [writeRest, operands_eq_run, List.drop_append_of_le_length h]
    rfl
  rw [hrest, List.length_append]
  by_cases hend : OperandsEnd (d.drop 5)
  · have hrun := Scan.run_append_of_ne_nil _ Scan.start after hend
    rw [hrun, List.length_append]
    exact iff_of_true (by omega) (.inl hend)
  · have hnil : (Scan.start.run (d.drop 5)).2 = [] := not_not.1 hend
    rw [Scan.run_append_of_nil _ Scan.start after hnil]
    cases after with
    | nil => exact iff_of_true (by simp) (.inr (by simp))
    | cons c after =>
      have hiff : OperandsStop (d.drop 5) (c :: after)
          ↔ (Scan.start.run (d.drop 5)).1.step c = none := by
        simp [OperandsStop, hend]
      rw [hiff, Scan.run]
      cases hstep : (Scan.start.run (d.drop 5)).1.step c with
      | none => simp
      | some s =>
        have hle := (Scan.run_suffix after s).length_le
        simp only [List.length_cons, reduceCtorEq, iff_false, not_le]
        omega

/-- WRITE copies from inside the datagram `d`: the pointer is not past the fence, the length is the
distance to the fence, and what is copied is the end of `d` from the pointer on. -/
def WriteInside (d after : List Byte) : Prop :=
  writeOffset (d ++ after) d.length ≤ d.length
    ∧ writeDataLen (d ++ after) d.length = d.length - writeOffset (d ++ after) d.length
    ∧ ∀ code dev, ∀ w ∈ (udpCommand code dev (d ++ after) d.length).writes,
        w.2 = d.drop (writeOffset (d ++ after) d.length)

theorem writeDataLen_eq {data : List Byte} {n : ℕ} (hn : n < 2 ^ 32)
    (h : writeOffset data n ≤ n) : writeDataLen data n = n - writeOffset data n := by
  rw [writeDataLen, ← writeOffset, BitVec.toNat_sub, BitVec.toNat_ofNat, BitVec.toNat_ofNat,
    Nat.mod_eq_of_lt hn, Nat.mod_eq_of_lt (by omega : writeOffset data n < 2 ^ 32)]
  omega

/-- For every datagram that starts with "WRITE " and every content of the buffer behind it, what
WRITE copies lies inside the datagram exactly when the operands do not go on behind its end. -/
theorem writeInside_iff (d after : List Byte) (h : ascii "WRITE " <+: d)
    (hlen : (d ++ after).length < 2 ^ 32) :
    WriteInside d after ↔ OperandsStop (d.drop 5) after := by
  have h6 : 6 ≤ d.length := h.length_le
  rw [← writeRest_le_iff after (by omega), ← writeOffset_le_iff]
  constructor
  · exact fun hw => hw.1
  · intro hle
    have hn : d.length < 2 ^ 32 := by
      rw [List.length_append] at hlen
      omega
    have hdl := writeDataLen_eq hn hle
    refine ⟨hle, hdl, fun code dev w hw => ?_⟩
    rw [udpCommand_write code dev (h.trans (List.prefix_append d after)) h6] at hw
    simp only [commandWrite] at hw
    split_ifs at hw with hpos
    · simp only [List.mem_singleton] at hw
      subst hw
      simp only []
      rw [hdl, writeData_drop, peek_eq_take]
      · rw [List.drop_append_of_le_length hle, List.take_append_of_le_length (by simp),
          List.take_of_length_le (by simp)]
      · rw [List.length_drop, List.length_append]
        omega
    · simp at hw

theorem writeInside_iff_newline :
    ascii "WRITE " <+: ascii "WRITE 1000 5\nhi"
      ∧ (WriteInside (ascii "WRITE 1000 5\nhi") (ascii "A")
        ↔ OperandsStop ((ascii "WRITE 1000 5\nhi").drop 5) (ascii "A")) :=
  ⟨by decide, writeInside_iff _ _ (by decide) (by decide)⟩

/-- Without a newline the sequence number runs on into the byte behind the datagram, and the copy is
of four gigabytes less one byte. -/
theorem writeInside_false_at_digit :
    ¬ WriteInside (ascii "WRITE 1000 5") (ascii "A")
      ∧ writeDataLen (ascii "WRITE 1000 5" ++ ascii "A") 12 = 2 ^ 32 - 1 := by
  refine ⟨fun h => ?_, by decide⟩
  exact absurd h.1 (by decide)

end RemoteX86
