import RemoteX86.Client
import RemoteX86.Proofs.WriteFence

/-!
# What the device makes of the library's requests

The library prints numbers with no leading zero and no `0x`, so the device reads them back, as far
as its 32 bits go.  READ and EXEC end with a number, so it takes a byte behind the datagram that is
no digit (and no `x` behind a zero) for the device to stop where the datagram does; WRITE ends its
numbers itself.
-/

namespace RemoteX86

open Hex Memory

/-- The number `n` at the end of a datagram ends there, with `after` behind it. -/
def NumberEnds (n : ℕ) (after : List Byte) : Prop :=
  NoDigit after ∧ (n = 0 → after.head? ≠ some 0x78#8)

instance (n : ℕ) (after : List Byte) : Decidable (NumberEnds n after) :=
  inferInstanceAs (Decidable (_ ∧ _))

theorem NumberEnds.of_not_digit {n : ℕ} {c : Byte} (p : List Byte) (hc : digitVal c = none)
    (hx : c ≠ 0x78#8) : NumberEnds n (c :: p) := by
  refine ⟨fun d hd => ?_, fun _ => ?_⟩
  · simp only [List.head?_cons, Option.some.injEq] at hd
    rw [← hd]
    exact hc
  · simpa using hx

theorem NumberEnds.of_pos {n : ℕ} (hn : 0 < n) {after : List Byte} (h : NoDigit after) :
    NumberEnds n after :=
  ⟨h, fun h0 => by omega⟩

theorem sStrtoulHex_numeral {n : ℕ} {p : List Byte} (h : NumberEnds n p) :
    sStrtoulHex (numeral n ++ p) = (BitVec.ofNat 32 n, p) := by
  obtain ⟨c, ds, hcd⟩ := List.exists_cons_of_ne_nil (numeral_ne_nil n)
  have hno : ¬ (c = 0x30#8 ∧ (ds ++ p).head? = some 0x78#8) := by
    rintro ⟨hc, hx⟩
    rcases Nat.eq_zero_or_pos n with rfl | hpos
    · rw [numeral_zero, List.cons.injEq] at hcd
      rw [← hcd.2] at hx
      exact h.2 rfl hx
    · have := numeral_head hpos p
      rw [hcd, hc] at this
      exact this rfl
  rw [hcd, List.cons_append, sStrtoulHex_cons, if_neg hno, ← List.cons_append, ← hcd,
    scan_numeral n h.1]

theorem skipWhitespace_numeral (n : ℕ) (p : List Byte) :
    skipWhitespace (numeral n ++ p) = numeral n ++ p := by
  obtain ⟨c, ds, hcd⟩ := List.exists_cons_of_ne_nil (numeral_ne_nil n)
  obtain ⟨d, hd⟩ := digitVal_of_mem_numeral (n := n) (hcd ▸ List.mem_cons_self)
  have hsp : c ≠ 0x20#8 := by
    rintro rfl
    rw [digitVal_space] at hd
    simp at hd
  rw [hcd, List.cons_append, skipWhitespace, List.dropWhile_cons_of_neg (by simpa using hsp)]

theorem skipWhitespace_space (p : List Byte) : skipWhitespace (0x20#8 :: p) = skipWhitespace p := by
  simp [skipWhitespace]

/-- Two printed numbers with a space between them are read back, in 32 bits. -/
theorem operands_numerals (a : ℕ) {b : ℕ} {p : List Byte} (h : NumberEnds b p) :
    operands (numeral a ++ 0x20#8 :: (numeral b ++ p))
      = (BitVec.ofNat 32 a, BitVec.ofNat 32 b, p) := by
  have ha : NumberEnds a (0x20#8 :: (numeral b ++ p)) := .of_not_digit _ digitVal_space (by decide)
  unfold operands
  rw [skipWhitespace_numeral, sStrtoulHex_numeral ha]
  simp only []
  rw [skipWhitespace_space, skipWhitespace_numeral, sStrtoulHex_numeral h]

theorem operands_space (p : List Byte) : operands (0x20#8 :: p) = operands p := by
  rw [operands, operands, skipWhitespace_space]

/-! ## The three commands -/

section Requests

variable (code : BitVec 32 → Mem 32 → Mem 32) (dev : Device) (addr : BitVec 64)

theorem drop_command {s : List Byte} (p : List Byte) (h : s.length = 5) : (s ++ p).drop 5 = p := by
  rw [← h, List.drop_left]

/-- Whatever lies behind a READ, the device reads at its address, and replies with at most 1400
bytes. -/
theorem udpCommand_readCall_any (len : ℕ) (after : List Byte) :
    ∃ n ≤ 1400, n = min 1400 (operands (((readCall addr len).request ++ after).drop 5)).2.1.toNat
      ∧ udpCommand code dev ((readCall addr len).request ++ after)
          (readCall addr len).request.length
        = { dev := dev, writes := [], calls := []
            reply := ascii "OK " ++ hexToStr (addr.setWidth 32) 8 ++ [0x0A#8] ++
              read dev.mem (addr.setWidth 32) n } := by
  have hreq : (readCall addr len).request ++ after
      = ascii "READ " ++ (numeral addr.toNat ++ 0x20#8 :: (numeral len ++ after)) := by
    simp [readCall]
  have h5 : 5 ≤ (readCall addr len).request.length := by
    simp [readCall, ascii]
  have haddr : (operands ((ascii "READ " ++ (numeral addr.toNat ++ 0x20#8 ::
      (numeral len ++ after))).drop 5)).1 = addr.setWidth 32 := by
    have hend : NumberEnds addr.toNat (0x20#8 :: (numeral len ++ after)) :=
      .of_not_digit _ digitVal_space (by decide)
    rw [drop_command _ rfl, operands, skipWhitespace_numeral, sStrtoulHex_numeral hend,
      BitVec.ofNat_toNat]
  rw [hreq]
  generalize hx : (operands ((ascii "READ " ++ (numeral addr.toNat ++ 0x20#8 ::
      (numeral len ++ after))).drop 5)).2.1.toNat = x
  have hsize : (if 1400 < x then 1400 else x) = min 1400 x := by
    split_ifs <;> omega
  refine ⟨min 1400 x, Nat.min_le_left _ _, rfl, ?_⟩
  rw [udpCommand_read code dev (List.prefix_append _ _) h5, commandRead, haddr]
  simp only [hx, hsize]

theorem udpCommand_readCall {len : ℕ} (hlen : len ≤ 1400) {after : List Byte}
    (h : NumberEnds len after) :
    udpCommand code dev ((readCall addr len).request ++ after) (readCall addr len).request.length
      = { dev := dev, writes := [], calls := []
          reply := ascii "OK " ++ hexToStr (addr.setWidth 32) 8 ++ [0x0A#8] ++
            read dev.mem (addr.setWidth 32) len } := by
  obtain ⟨n, -, hn, hcmd⟩ := udpCommand_readCall_any code dev addr len after
  have hreq : (readCall addr len).request ++ after
      = ascii "READ " ++ (numeral addr.toNat ++ 0x20#8 :: (numeral len ++ after)) := by
    simp [readCall]
  have hval : n = len := by
    rw [hn, hreq, drop_command _ rfl, operands_numerals _ h, BitVec.toNat_ofNat]
    omega
  rw [hcmd, hval]

theorem operands_execCall {seq : BitVec 32} {after : List Byte} (h : NumberEnds seq.toNat after) :
    operands (((execCall addr seq).request ++ after).drop 5) = (addr.setWidth 32, seq, after) := by
  have hreq : (execCall addr seq).request ++ after
      = ascii "EXEC " ++ (numeral addr.toNat ++ 0x20#8 :: (numeral seq.toNat ++ after)) := by
    simp [execCall]
  rw [hreq, drop_command _ rfl, operands_numerals _ h, BitVec.ofNat_toNat, BitVec.ofNat_toNat,
    BitVec.setWidth_eq]

/-- An EXEC that is parsed as it was sent runs the code unless the last one run had its sequence
number, and replies in any case. -/
theorem udpCommand_execCall {seq : BitVec 32} {after : List Byte}
    (haddr : (operands (((execCall addr seq).request ++ after).drop 5)).1 = addr.setWidth 32)
    (hseq : (operands (((execCall addr seq).request ++ after).drop 5)).2.1 = seq) :
    udpCommand code dev ((execCall addr seq).request ++ after) (execCall addr seq).request.length
      = { dev := if seq ≠ dev.execLastSeq then
            { dev with mem := code (addr.setWidth 32) dev.mem, execLastSeq := seq } else dev
          writes := []
          calls := if seq ≠ dev.execLastSeq then [addr.setWidth 32] else []
          reply := ascii "OK Complete " ++ hexToStr seq 8 } := by
  have hp : ascii "EXEC " <+: (execCall addr seq).request ++ after := by
    refine List.IsPrefix.trans ?_ (List.prefix_append _ _)
    simp only [execCall, List.append_assoc]
    exact List.prefix_append _ _
  have h5 : 5 ≤ (execCall addr seq).request.length := by
    simp [execCall, ascii]
  rw [udpCommand_exec code dev hp h5, commandExec]
  simp only [haddr, hseq]
  split_ifs <;> rfl

theorem length_numeral_pos (n : ℕ) : 0 < (numeral n).length :=
  List.length_pos_iff.2 (numeral_ne_nil n)

theorem length_writeCall (seq : BitVec 32) (buf : List Byte) :
    buf.length + 10 ≤ (writeCall addr seq buf).request.length
      ∧ (writeCall addr seq buf).request.length ≤ buf.length + 32 := by
  have ha := numeral_length_le (k := 16) (by omega) addr.isLt
  have hs := numeral_length_le (k := 8) (by omega) seq.isLt
  have ha0 := length_numeral_pos addr.toNat
  have hs0 := length_numeral_pos seq.toNat
  have h6 : (ascii "WRITE ").length = 6 := rfl
  simp only [writeCall, List.length_append, List.length_singleton, h6]
  omega

/-- A newline right behind the operands starts the data. -/
theorem writeData_of_newline {data p : List Byte} {n : ℕ} (h : writeRest data = 0x0A#8 :: p)
    (hlt : data.length - (p.length + 1) < n) : writeData data n = p := by
  obtain ⟨k, hk⟩ : ∃ k, n - (data.length - (p.length + 1)) = k + 1 :=
    ⟨n - (data.length - (p.length + 1)) - 1, by omega⟩
  unfold writeData
  simp only []
  have hnl : ¬ (0x0A#8 : Byte) ≠ 0x0A#8 := not_not.2 rfl
  rw [← writeRest, h, List.length_cons, hk, seekNewline, if_neg hnl, List.length_cons,
    if_pos ⟨hlt, rfl⟩]
  rfl

/-- The newline ends the numbers of a WRITE, and its data is what follows it in the datagram. -/
theorem udpCommand_writeCall (seq : BitVec 32) {buf : List Byte} (after : List Byte)
    (hlen : buf.length ≤ 1400) :
    udpCommand code dev ((writeCall addr seq buf).request ++ after)
        (writeCall addr seq buf).request.length
      = { dev := { dev with mem := write dev.mem (addr.setWidth 32) buf }
          writes := if 0 < buf.length then [(addr.setWidth 32, buf)] else []
          calls := []
          reply :=
            ascii "OK " ++ hexToStr (addr.setWidth 32) 8 ++ [0x20#8] ++ hexToStr seq 8 } := by
  obtain ⟨hlong, hshort⟩ := length_writeCall addr seq buf
  have hreq : (writeCall addr seq buf).request ++ after = ascii "WRITE " ++
      (numeral addr.toNat ++ 0x20#8 :: (numeral seq.toNat ++ 0x0A#8 :: (buf ++ after))) := by
    simp [writeCall]
  have hp : ascii "WRITE " <+: (writeCall addr seq buf).request ++ after := by
    rw [hreq]
    exact List.prefix_append _ _
  have hdata : ((writeCall addr seq buf).request ++ after).length
      = (writeCall addr seq buf).request.length + after.length := List.length_append
  have hops : operands (((writeCall addr seq buf).request ++ after).drop 5)
      = (addr.setWidth 32, seq, 0x0A#8 :: (buf ++ after)) := by
    have hend : NumberEnds seq.toNat (0x0A#8 :: (buf ++ after)) :=
      .of_not_digit _ (by decide) (by decide)
    rw [hreq, show ascii "WRITE " = ascii "WRITE" ++ [0x20#8] from rfl, List.append_assoc,
      drop_command _ rfl, List.singleton_append, operands_space, operands_numerals _ hend,
      BitVec.ofNat_toNat, BitVec.ofNat_toNat, BitVec.setWidth_eq]
  generalize (writeCall addr seq buf).request ++ after = data at hp hdata hops
  generalize (writeCall addr seq buf).request.length = n at hlong hshort hdata
  have hwd : writeData data n = buf ++ after := by
    refine writeData_of_newline (by rw [writeRest, hops]) ?_
    rw [List.length_append]
    omega
  have hoff : writeOffset data n = n - buf.length := by
    rw [writeOffset, hwd, List.length_append]
    omega
  have hdl : writeDataLen data n = buf.length := by
    rw [writeDataLen_eq (by omega) (by omega), hoff]
    omega
  have hsrc : peek (buf ++ after) 0 buf.length = buf := by
    rw [peek_eq_take _ _ (by simp), List.take_left]
  rw [udpCommand_write code dev hp (by omega), commandWrite, hops]
  simp only [hwd, hdl, hsrc]

end Requests

end RemoteX86
