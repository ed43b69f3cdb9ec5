import RemoteX86.Proofs.Replies
import RemoteX86.WriteAck

/-!
# Replies that pass for acknowledgements

The check of `remote_eth_write_block` is two calls of `strtoull`, which skips white space, newlines
among it, and makes zero of what is no number.  So the data of a READ is read as a sequence number.
-/

namespace RemoteX86

open Hex Memory

theorem udpCommand_eq (code : BitVec 32 → Mem 32 → Mem 32) (dev : Device) (data : List Byte)
    (n : ℕ) :
    udpCommand code dev data n = match udpKind data n with
      | .test => commandTest dev
      | .read => commandRead dev data
      | .write => commandWrite dev data n
      | .low => commandLow dev
      | .exec => commandExec code dev data
      | .unknown => commandUnknown dev := by
  unfold udpCommand udpKind
  split_ifs <;> rfl

theorem commandExec_reply (code : BitVec 32 → Mem 32 → Mem 32) (dev : Device) (data : List Byte) :
    (commandExec code dev data).reply
      = ascii "OK Complete " ++ hexToStr (operands (data.drop 5)).2.1 8 := by
  unfold commandExec
  simp only []
  split_ifs <;> rfl

/-! ## The check -/

section Check

variable (addr : BitVec 64) (seq : BitVec 32) (buf : List Byte)

/-- What the check asks of a reply that begins as it should. -/
theorem writeCall_reply_ok {p : List Byte} (hp : p.length ≤ 2196) :
    (writeCall addr seq buf).reply (ascii "OK " ++ p) = .done [] ↔
      (strtoull p).1 = addr
        ∧ (strtoull ((strtoull p).2.dropWhile (· == 0x20#8))).1 = seq.setWidth 64 := by
  have h3 : (ascii "OK ").length = 3 := rfl
  have hlen : (ascii "OK " ++ p).length = 3 + p.length := by rw [List.length_append, h3]
  unfold writeCall
  simp only []
  rw [recvfrom_short (by omega) (by omega), writeReply]
  simp only [strncmpEq_append, Bool.not_true, Bool.false_eq_true, if_false, List.drop_left' h3]
  by_cases ha : (strtoull p).1 = addr
  · by_cases hs : (strtoull ((strtoull p).2.dropWhile (· == 0x20#8))).1 = seq.setWidth 64
    · simp [ha, hs]
    · simp [ha, hs]
  · simp [ha]

theorem writeCall_reply_err :
    (writeCall addr seq buf).reply (ascii "ERR Unknown command") ≠ .done [] := by
  have hrecv : (writeCall addr seq buf).reply (ascii "ERR Unknown command")
      = writeReply addr seq (ascii "ERR Unknown command") :=
    recvfrom_short (by decide : (ascii "ERR Unknown command").length ≤ 2200 - 1) (by decide)
  have hok : strncmpEq (ascii "ERR Unknown command") (ascii "OK ") = false := by decide
  rw [hrecv, writeReply, hok]
  simp

end Check

/-! ## `strtoull` on what is no number of eight digits -/

theorem strtoull_newline (p : List Byte) (x : BitVec 32) :
    strtoull (hexToStr x 8 ++ 0x0A#8 :: p) = (x.setWidth 64, 0x0A#8 :: p) :=
  strtoull_hexToStr x fun c hc => by
    rw [← Option.some.inj hc]
    rfl

theorem strtoull_end (x : BitVec 32) : strtoull (hexToStr x 8) = (x.setWidth 64, []) := by
  have h := strtoull_hexToStr x (p := []) nofun
  rwa [List.append_nil] at h

/-- The C is a digit. -/
theorem strtoull_complete (p : List Byte) :
    strtoull (ascii "Complete " ++ p) = (0xC, ascii "omplete " ++ p) := by
  have hdigit : ∀ b ∈ [0x43#8], ∃ d, digitVal b = some d := by
    intro b hb
    rw [List.mem_singleton.1 hb]
    exact ⟨12, rfl⟩
  have hstop : NoDigit (ascii "omplete " ++ p) := by
    intro c hc
    rw [← Option.some.inj hc]
    rfl
  exact strtoull_of_digits hdigit (List.cons_ne_nil _ _) ⟨nofun, nofun⟩ hstop (by decide)

/-- No digits make zero. -/
theorem strtoull_none {c : Byte} (p : List Byte) (hspace : isspace c = false)
    (hdigit : digitVal c = none) (hneg : c ≠ 0x2D#8) (hpos : c ≠ 0x2B#8) :
    strtoull (c :: p) = (0, c :: p) := by
  have hskip : (c :: p).dropWhile isspace = c :: p :=
    List.dropWhile_cons_of_neg (by rw [hspace]; exact Bool.false_ne_true)
  have hstop : NoDigit (c :: p) := by
    intro b hb
    rw [← Option.some.inj hb, hdigit]
  have hnone : ∀ b ∈ ([] : List Byte), ∃ d, digitVal b = some d :=
    fun b hb => absurd hb List.not_mem_nil
  have htake : takeDigits (c :: p) = ([], c :: p) := takeDigits_append hnone hstop
  have hx : ∀ b, strncmpEq (c :: p) [0x30#8, b] = false := by
    intro b
    rw [strncmpEq, ← Bool.not_eq_true, List.isPrefixOf_iff_prefix]
    rintro ⟨t, ht⟩
    have h0 : 0x30#8 = c := (List.cons.inj ht).1
    rw [← h0] at hdigit
    cases hdigit
  generalize hq : c :: p = q at hskip htake hx ⊢
  have hminus : (q.head? == some 0x2D#8) = false := by
    rw [← hq]
    simpa using hneg
  have hplus : (q.head? == some 0x2B#8) = false := by
    rw [← hq]
    simpa using hpos
  have h0x : strncmpEq q (ascii "0x") = false := hx _
  have h0X : strncmpEq q (ascii "0X") = false := hx _
  unfold strtoull
  simp only [hskip, hminus, hplus, h0x, h0X, htake, Bool.or_self, Bool.false_and,
    Bool.false_eq_true, if_false, List.isEmpty_nil, if_true]

/-! ## Every reply -/

section

variable (code : BitVec 32 → Mem 32 → Mem 32) (dev : Device) (data : List Byte) (n : ℕ)
  (a s : BitVec 32) (buf : List Byte)

theorem zero_eq_setWidth {x : BitVec 32} : (0 : BitVec 64) = x.setWidth 64 ↔ x = 0 := by
  rw [show (0 : BitVec 64) = (0 : BitVec 32).setWidth 64 from rfl, setWidth_inj, eq_comm]

theorem accepts_test : (writeCall (a.setWidth 64) s buf).reply (commandTest dev).reply = .done [] ↔
    a = 0 ∧ s = 0 := by
  have hnone : strtoull (ascii "x86-32") = (0, ascii "x86-32") :=
    strtoull_none _ rfl rfl (by decide) (by decide)
  have hskip : (ascii "x86-32").dropWhile (· == 0x20#8) = ascii "x86-32" := rfl
  show (writeCall (a.setWidth 64) s buf).reply (ascii "OK " ++ ascii "x86-32") = _ ↔ _
  rw [writeCall_reply_ok _ _ _ (by decide), hnone, hskip, hnone, zero_eq_setWidth,
    zero_eq_setWidth]

theorem accepts_read :
    (writeCall (a.setWidth 64) s buf).reply (commandRead dev data).reply = .done [] ↔
      (operands (data.drop 5)).1 = a
        ∧ (strtoull (0x0A#8 :: readBytes dev data)).1 = s.setWidth 64 := by
  have hreply : (commandRead dev data).reply = ascii "OK " ++
      (hexToStr (operands (data.drop 5)).1 8 ++ 0x0A#8 :: readBytes dev data) := by
    rw [commandRead, readBytes]
    simp
  have hlen : (readBytes dev data).length ≤ 1400 := by
    rw [readBytes]
    simp only [length_read]
    split_ifs <;> omega
  have hskip : (0x0A#8 :: readBytes dev data).dropWhile (· == 0x20#8)
      = 0x0A#8 :: readBytes dev data := rfl
  rw [hreply, writeCall_reply_ok _ _ _ ?_, strtoull_newline, hskip, setWidth_inj]
  rw [List.length_append, length_hexToStr, List.length_cons]
  omega

theorem accepts_write :
    (writeCall (a.setWidth 64) s buf).reply (commandWrite dev data n).reply = .done [] ↔
      (operands (data.drop 5)).1 = a ∧ (operands (data.drop 5)).2.1 = s := by
  rw [commandWrite]
  simp only []
  rw [writeCall_reply, ← setWidth_inj (x := (operands (data.drop 5)).1)]
  split_ifs with h
  · exact ⟨fun _ => h, fun _ => rfl⟩
  · exact iff_of_false (by simp) h

theorem accepts_low : (writeCall (a.setWidth 64) s buf).reply (commandLow dev).reply = .done [] ↔
    dev.alloc = a ∧ s = 0 := by
  have hnil : strtoull [] = (0, []) := rfl
  rw [commandLow, writeCall_reply_ok _ _ _ (by rw [length_hexToStr]; omega), strtoull_end,
    List.dropWhile_nil, hnil, setWidth_inj, zero_eq_setWidth]

theorem accepts_exec :
    (writeCall (a.setWidth 64) s buf).reply (commandExec code dev data).reply = .done [] ↔
      a = 0xC ∧ s = 0 := by
  have hreply : ∀ x, ascii "OK Complete " ++ hexToStr x 8
      = ascii "OK " ++ (ascii "Complete " ++ hexToStr x 8) := fun x => rfl
  have hnone : ∀ x, strtoull (ascii "omplete " ++ hexToStr x 8)
      = (0, ascii "omplete " ++ hexToStr x 8) :=
    fun x => strtoull_none _ rfl rfl (by decide) (by decide)
  have hskip : ∀ p, (ascii "omplete " ++ p).dropWhile (· == 0x20#8) = ascii "omplete " ++ p :=
    fun p => rfl
  have h9 : (ascii "Complete ").length = 9 := rfl
  rw [commandExec_reply, hreply, writeCall_reply_ok _ _ _ ?_, strtoull_complete, hskip, hnone,
    zero_eq_setWidth, show (0xC : BitVec 64) = (0xC : BitVec 32).setWidth 64 from rfl,
    setWidth_inj, eq_comm (a := a)]
  rw [List.length_append, length_hexToStr, h9]
  omega

/-- A reply passes for the acknowledgement of a WRITE exactly when it is one, or one of the four
others. -/
theorem accepts_iff :
    (writeCall (a.setWidth 64) s buf).reply (udpCommand code dev data n).reply = .done [] ↔
      IsWrite data n a s ∨ Mistakable dev data n a s := by
  have hunknown : (commandUnknown dev).reply = ascii "ERR Unknown command" := rfl
  rw [udpCommand_eq, IsWrite, Mistakable]
  rcases udpKind data n with _ | _ | _ | _ | _ | _
  · simp [accepts_test]
  · simp [accepts_read]
  · simp [accepts_write]
  · simp [accepts_low]
  · simp [accepts_exec]
  · simpa [hunknown] using writeCall_reply_err (a.setWidth 64) s buf

/-- The acknowledgements are unambiguous but for the replies named. -/
theorem ackUnambiguous_iff :
    AckUnambiguous dev data n a s code ↔ ¬ Mistakable dev data n a s := by
  constructor
  · intro h hm
    obtain ⟨hkind, -⟩ := h [] ((accepts_iff code dev data n a s []).2 (Or.inr hm))
    rw [Mistakable, hkind] at hm
    exact hm
  · intro hm buf haccept
    rcases (accepts_iff code dev data n a s buf).1 haccept with h | h
    · exact h
    · exact absurd h hm

end

/-- Memory that holds the digit 5 everywhere. -/
def fives : Device := { debugger with mem := fun _ => 0x35 }

/-- The reply to a READ of one byte passes for the acknowledgement of a WRITE with the sequence
number 5. -/
theorem ack_ambiguous_read :
    ¬ AckUnambiguous fives (ascii "READ 1000 1") 11 0x1000 5 fun _ mem => mem := by
  intro h
  obtain ⟨hkind, -⟩ := h [] (by decide)
  exact absurd hkind (by decide)

end RemoteX86
