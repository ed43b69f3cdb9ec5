import RemoteX86.Proofs.SerialRange

/-!
# Addresses beyond the limit

The 8086 and 286 parts compare DX and so see an address modulo 4 GB, cut to what the line buffer
holds of it; the x64 part compares nothing.
-/

namespace RemoteX86

open Hex Memory

/-! ## Answers -/

section Answers

variable {s s' : Serial}

theorem ne_err_of_ctl (h : s'.ctl ≠ .line []) (msg : List Byte) :
    s' ≠ s.responseOutputErr msg := by
  rintro rfl
  exact h rfl

theorem ne_err_of_out {p : List Byte} (h : s'.out = s.out ++ (ascii "OK " ++ p))
    (msg : List Byte) : s' ≠ s.responseOutputErr msg := by
  rintro rfl
  simp [Serial.responseOutputErr, ascii] at h

variable {si : List Byte} {ptr : Pointer} (h : (s.mode.address si).1 = some ptr)

include h

theorem readCommand_ne_err (send : Byte → List Byte) (msg : List Byte) :
    s.readCommand send si ≠ s.responseOutputErr msg := by
  rw [Serial.readCommand, address_eq_of_fst h]
  simp only []
  split_ifs
  · exact responseOutput_ne_err _ _ _
  · exact ne_err_of_ctl (by simp) msg

theorem commandWrite_ne_err (di : ℕ) (msg : List Byte) :
    s.commandWrite si di ≠ s.responseOutputErr msg := by
  rw [Serial.commandWrite, address_eq_of_fst h]
  simp only []
  split_ifs
  · refine ne_err_of_out (p := ascii "Accepted" ++ crlf) ?_ msg
    rw [← List.append_assoc (ascii "OK ")]
    rfl
  · exact ne_err_of_ctl (by simp) msg

theorem commandWriteb_ne_err (msg : List Byte) :
    s.commandWriteb si ≠ s.responseOutputErr msg := by
  rw [Serial.commandWriteb, address_eq_of_fst h]
  simp only []
  unfold Serial.writebLoop
  split_ifs
  · exact responseOutput_ne_err _ _ _
  · exact ne_err_of_ctl (by simp) msg

end Answers

theorem commandWrite_refused {s : Serial} {si : List Byte} (h : (s.mode.address si).1 = none)
    (di : ℕ) : s.commandWrite si di = s.responseOutputErr (ascii "Invalid address") := by
  rw [Serial.commandWrite, address_eq_of_fst h]

theorem commandWriteb_refused {s : Serial} {si : List Byte} (h : (s.mode.address si).1 = none) :
    s.commandWriteb si = s.responseOutputErr (ascii "Invalid address") := by
  rw [Serial.commandWriteb, address_eq_of_fst h]

theorem addressWords_cases {word : List Byte} (h : word ∈ addressWords) :
    word = ascii "READ " ∨ word = ascii "READB " ∨ word = ascii "WRITE "
      ∨ word = ascii "WRITEB " := by
  simpa only [addressWords, List.mem_cons, List.not_mem_nil, or_false] using h

namespace Stage2

variable (m : Stage2)

section Dispatch

variable {s : Serial} {word buf p : List Byte} (hword : word ∈ addressWords)
  (hbuf : m.inBuf buf = word ++ p)

include hword hbuf

theorem mainLoopCommand_refused (h : (s.mode.address p).1 = none) :
    m.mainLoopCommand s buf = s.responseOutputErr (ascii "Invalid address") := by
  rcases addressWords_cases hword with rfl | rfl | rfl | rfl
  · rw [m.mainLoopCommand_read s hbuf, Serial.commandRead, readCommand_refused h]
  · rw [m.mainLoopCommand_readb s hbuf, Serial.commandReadb, readCommand_refused h]
  · rw [m.mainLoopCommand_write s hbuf, commandWrite_refused h]
  · rw [m.mainLoopCommand_writeb s hbuf, commandWriteb_refused h]

theorem mainLoopCommand_ne_err {ptr : Pointer} (h : (s.mode.address p).1 = some ptr)
    (msg : List Byte) : m.mainLoopCommand s buf ≠ s.responseOutputErr msg := by
  rcases addressWords_cases hword with rfl | rfl | rfl | rfl
  · rw [m.mainLoopCommand_read s hbuf]
    exact readCommand_ne_err h _ msg
  · rw [m.mainLoopCommand_readb s hbuf]
    exact readCommand_ne_err h _ msg
  · rw [m.mainLoopCommand_write s hbuf]
    exact commandWrite_ne_err h _ msg
  · rw [m.mainLoopCommand_writeb s hbuf]
    exact commandWriteb_ne_err h msg

end Dispatch

end Stage2

/-! ## Lines -/

/-- The run of digits on a line ends at a character, if only at the zero behind the line. -/
theorem exists_stop {rest : List Byte} (h : NoDigit rest) (n : ℕ) (q : List Byte) :
    ∃ c p, rest.take n ++ 0#8 :: q = c :: p ∧ digitVal c = none := by
  rcases rest with - | ⟨c, rest⟩
  · exact ⟨0, q, by rw [List.take_nil]; rfl, digitVal_nul⟩
  · rcases n with - | n
    · exact ⟨0, q, rfl, digitVal_nul⟩
    · exact ⟨c, _, rfl, h c rfl⟩

theorem plain_addressWords {word : List Byte} (h : word ∈ addressWords) : ∀ c ∈ word, Plain c := by
  rcases addressWords_cases h with rfl | rfl | rfl | rfl <;> exact plain_of_all rfl

theorem length_addressWords {word : List Byte} (h : word ∈ addressWords) :
    word ≠ [] ∧ word.length ≤ 255 := by
  rcases addressWords_cases h with rfl | rfl | rfl | rfl <;> simp [ascii]

/-- What the device looks at of a line whose address operand is `ds`. -/
theorem feedAll_addressLine (m : Stage2) {s : Serial} (hs : s.ctl = .line [])
    {word ds rest : List Byte} (hword : word ∈ addressWords)
    (hds : ∀ c ∈ ds, ∃ d, digitVal c = some d) (hno : NoDigit rest)
    (hrest : ∀ c ∈ rest, Plain c) {e : Byte} (he : LineEnd e) :
    ∃ buf c p, digitVal c = none
      ∧ m.inBuf buf = word ++ (ds.take (255 - word.length) ++ c :: p)
      ∧ m.feedAll s (word ++ (ds ++ rest) ++ [e])
        = m.mainLoopCommand { s with ctl := .line buf } buf := by
  obtain ⟨hne, hlen⟩ := length_addressWords hword
  have hplain : ∀ c ∈ word ++ (ds ++ rest), Plain c := by
    intro c hc
    simp only [List.mem_append] at hc
    rcases hc with hc | hc | hc
    · exact plain_addressWords hword c hc
    · obtain ⟨d, hd⟩ := hds c hc
      exact plain_of_digit hd
    · exact hrest c hc
  have htake : (word ++ (ds ++ rest)).take 255
      = word ++ (ds.take (255 - word.length) ++ rest.take (255 - word.length - ds.length)) := by
    rw [List.take_append, List.take_of_length_le hlen, List.take_append]
  have hfits : ((word ++ (ds ++ rest)).take 255).length < 256 := by
    rw [List.length_take]
    omega
  obtain ⟨q, hq⟩ := m.inBuf_eq hfits
  obtain ⟨c, p, hstop, hc⟩ := exists_stop hno (255 - word.length - ds.length) q
  refine ⟨_, c, p, hc, ?_, m.feedAll_command s hplain (by simp [hne]) he hs⟩
  rw [hq, htake, List.append_assoc, List.append_assoc, hstop]

/-- An address at or above the limit is reported by the 8086 and 286 parts exactly when what is left
of it in DX:AX is still at or above the limit, and by the x64 part never. -/
theorem reports_iff (m : Stage2) {mode : Mode} {limit : ℕ} (hmode : mode.limit = some limit)
    {word ds rest : List Byte} (hword : word ∈ addressWords)
    (hds : ∀ c ∈ ds, ∃ d, digitVal c = some d) (hno : NoDigit rest)
    (hrest : ∀ c ∈ rest, Plain c) {e : Byte} (he : LineEnd e) (hlimit : limit ≤ value 0 ds) :
    m.Reports mode (word ++ (ds ++ rest) ++ [e])
      ↔ mode ≠ .x64 ∧ limit ≤ value 0 (ds.take (255 - word.length)) % 2 ^ 32 := by
  have hrefuses : mode.Refuses (value 0 (ds.take (255 - word.length)))
      ↔ mode ≠ .x64 ∧ limit ≤ value 0 (ds.take (255 - word.length)) % 2 ^ 32 := by
    unfold Mode.limit at hmode
    unfold Mode.Refuses
    rcases mode with - | - | - | - | - <;> cases hmode <;> simp
  have hdigits : ∀ c ∈ ds.take (255 - word.length), ∃ d, digitVal c = some d :=
    fun c hc => hds c (List.mem_of_mem_take hc)
  rw [← hrefuses]
  constructor
  · rintro ⟨msg, h⟩
    let s : Serial := { Serial.start with mode := mode }
    obtain ⟨buf, c, p, hc, hbuf, hfeed⟩ :=
      feedAll_addressLine m (s := s) rfl hword hds hno hrest he
    rw [← address_eq_none_iff mode hdigits hc p]
    by_contra hsome
    obtain ⟨ptr, hptr⟩ := Option.ne_none_iff_exists'.1 hsome
    exact m.mainLoopCommand_ne_err (s := { s with ctl := .line buf }) hword hbuf hptr msg
      (hfeed.symm.trans (h s rfl rfl))
  · intro h
    refine ⟨ascii "Invalid address", fun s hs hctl => ?_⟩
    obtain ⟨buf, c, p, hc, hbuf, hfeed⟩ := feedAll_addressLine m hctl hword hds hno hrest he
    have hnone := (address_eq_none_iff mode hdigits hc p).2 h
    rw [← hs] at hnone
    rw [hfeed, m.mainLoopCommand_refused (s := { s with ctl := .line buf }) hword hbuf hnone]
    rfl

theorem reports_1M_8086 :
    stage2.Reports .i8086 (ascii "READ " ++ (numeral (2 ^ 20) ++ ascii " 1") ++ [0x0A#8]) :=
  (reports_iff stage2 rfl (by decide) (isHex_numeral (2 ^ 20)).digits (by decide) (plain_of_all rfl)
    (.inl rfl) (by decide)).2 (by decide)

/-- At 4 GB the 8086 part reads the byte at zero, and at 64 GB the x64 part faults. -/
theorem not_reports_4G_8086_64G_x64 :
    2 ^ 20 ≤ value 0 (ascii "100000000")
      ∧ ¬ stage2.Reports .i8086 (ascii "READ " ++ (ascii "100000000" ++ ascii " 1") ++ [0x0A#8])
      ∧ 2 ^ 36 ≤ value 0 (ascii "1000000000")
      ∧ ¬ stage2.Reports .x64 (ascii "READ " ++ (ascii "1000000000" ++ ascii " 1") ++ [0x0A#8]) := by
  refine ⟨by decide, ?_, by decide, ?_⟩
  · rintro ⟨msg, h⟩
    have hout : (stage2.feedAll .start
        (ascii "READ " ++ (ascii "100000000" ++ ascii " 1") ++ [0x0A#8])).out
          = ascii "OK 00 " ++ crlf := by decide
    rw [h .start rfl rfl] at hout
    simp [Serial.responseOutputErr, ascii, Serial.start] at hout
  · rintro ⟨msg, h⟩
    have hctl : (stage2.feedAll { Serial.start with mode := .x64 }
        (ascii "READ " ++ (ascii "1000000000" ++ ascii " 1") ++ [0x0A#8])).ctl = .fault := by decide
    rw [h _ rfl rfl] at hctl
    cases hctl

end RemoteX86
