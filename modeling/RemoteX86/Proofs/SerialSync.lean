import RemoteX86.Proofs.Serial

/-!
# The data of a refused WRITEB

The 8086 and the 286 part answer an address they cannot reach before they have taken any data.  The
host has sent the data right behind the line, so the device reads it as command lines: only line
ends pass without being part of one.
-/

namespace RemoteX86

open Hex Memory

namespace Stage2

variable (m : Stage2) {s : Serial}

/-- A WRITEB answered with the error leaves the device at the start of a line. -/
theorem feed_refused {buf : List Byte} (hs : s.ctl = .line buf) (hword : ascii "WRITEB " <+: buf)
    {e : Byte} (he : LineEnd e)
    (hout : (m.feed s e).out = s.out ++ (ascii "ERR " ++ ascii "Invalid address" ++ crlf)) :
    m.feed s e = s.responseOutputErr (ascii "Invalid address") := by
  obtain ⟨q, rfl⟩ := hword
  have hne : ascii "WRITEB " ++ q ≠ [] := by simp [ascii]
  have hbuf : m.inBuf (ascii "WRITEB " ++ q) = ascii "WRITEB "
      ++ (q ++ (List.replicate (256 - (ascii "WRITEB " ++ q).length) 0 ++ m.behind)) := by
    rw [inBuf, List.append_assoc]
  have hfeed : m.feed s e = s.commandWriteb
      (q ++ (List.replicate (256 - (ascii "WRITEB " ++ q).length) 0 ++ m.behind)) := by
    rw [← m.mainLoopCommand_writeb s hbuf]
    unfold feed
    rw [hs]
    simp only [if_pos (show e = 0x0A#8 ∨ e = 0x0D#8 from he), if_neg hne]
  rw [hfeed] at hout ⊢
  unfold Serial.commandWriteb at hout ⊢
  split at hout
  · rfl
  · rename_i ptr si _
    exfalso
    -- an accepted address is answered later, or with another text
    rw [Serial.writebLoop] at hout
    split_ifs at hout
    · rw [Serial.responseOutput, List.append_cancel_left_eq] at hout
      exact absurd hout (by decide)
    · have hlen := congrArg List.length hout
      rw [List.length_append] at hlen
      simp [ascii] at hlen

theorem feed_lineEnd (hs : s.ctl = .line []) {b : Byte} (hb : LineEnd b) : m.feed s b = s := by
  unfold feed
  rw [hs]
  simp only [if_pos (show b = 0x0A#8 ∨ b = 0x0D#8 from hb), if_true]

/-- At the start of a line, any other byte is the first of a command. -/
theorem feed_ctl_ne (hs : s.ctl = .line []) {b : Byte} (hb : ¬ LineEnd b) :
    (m.feed s b).ctl ≠ .line [] := by
  unfold feed
  rw [hs]
  simp only [if_neg (show ¬ (b = 0x0A#8 ∨ b = 0x0D#8) from hb)]
  split_ifs
  · simp
  · simp [store]

theorem feedAll_lineEnds (hs : s.ctl = .line []) : ∀ {payload : List Byte},
    (∀ b ∈ payload, LineEnd b) → m.feedAll s payload = s
  | [], _ => rfl
  | b :: payload, h => by
    rw [feedAll, List.foldl_cons, m.feed_lineEnd hs (h b List.mem_cons_self)]
    exact feedAll_lineEnds hs fun c hc => h c (List.mem_cons_of_mem _ hc)

/-- If the device is at the start of a line after every byte, each of them is a line end. -/
theorem lineEnds_of_ctl (hs : s.ctl = .line []) : ∀ {payload : List Byte},
    (∀ k ≤ payload.length, (m.feedAll s (payload.take k)).ctl = .line []) →
      ∀ b ∈ payload, LineEnd b
  | [], _ => by simp
  | b :: payload, h => by
    have hb : LineEnd b := by
      by_contra hb
      exact m.feed_ctl_ne hs hb (h 1 (by simp))
    have hrest : ∀ k ≤ payload.length, (m.feedAll s (payload.take k)).ctl = .line [] := by
      intro k hk
      have hk' := h (k + 1) (by simpa using hk)
      rw [List.take_succ_cons, feedAll, List.foldl_cons, m.feed_lineEnd hs hb] at hk'
      exact hk'
    intro c hc
    rcases List.mem_cons.1 hc with rfl | hc
    · exact hb
    · exact lineEnds_of_ctl hs hrest c hc

end Stage2

/-- Behind a WRITEB that is refused, the data is passed over exactly when it is line ends only. -/
theorem inSync_iff (m : Stage2) (s : Serial) (buf : List Byte) (hs : s.ctl = .line buf)
    (hword : ascii "WRITEB " <+: buf) (e : Byte) (he : LineEnd e)
    (hout : (m.feed s e).out = s.out ++ (ascii "ERR " ++ ascii "Invalid address" ++ crlf))
    (payload : List Byte) :
    m.InSync s [e] payload ↔ ∀ b ∈ payload, LineEnd b := by
  have hrefused := m.feed_refused hs hword he hout
  have hctl : (m.feed s e).ctl = .line [] := by rw [hrefused]; rfl
  have hfeed : ∀ p, m.feedAll s ([e] ++ p) = m.feedAll (m.feed s e) p := fun _ => rfl
  constructor
  · intro h
    exact m.lineEnds_of_ctl hctl h.ignored
  · intro h
    have hall := m.feedAll_lineEnds hctl h
    refine { ignored := ?_, mem := ?_, mode := ?_, next := ?_ }
    · intro k _
      rw [hfeed, m.feedAll_lineEnds hctl fun b hb => h b (List.mem_of_mem_take hb), hctl]
    · rw [hfeed, hall, hrefused]
      rfl
    · rw [hfeed, hall, hrefused]
      rfl
    · intro command
      rw [List.append_assoc, hfeed, hfeed, m.feedAll_append, hall]

/-- The 8086 part at the end of the line of a WRITEB of `count` bytes at 1 MB. -/
def writebAtTop (count : ℕ) : Serial :=
  { Serial.start with ctl := .line (ascii "WRITEB 100000 " ++ numeral count) }

theorem inSync_lineEnds :
    stage2.InSync (writebAtTop 3) [0x0A#8] [0x0D#8, 0x0A#8, 0x0A#8] :=
  (inSync_iff stage2 (writebAtTop 3) _ rfl ⟨ascii "100000 3", by decide⟩ 0x0A#8 (by decide)
    (by decide +kernel) _).2 (by decide)

/-- The data of a refused WRITEB is carried out as a command that writes to memory. -/
theorem not_inSync_write :
    (stage2.feed (writebAtTop 13) 0x0A).out = ascii "ERR Invalid address\r\n"
      ∧ (stage2.feedAll (writebAtTop 13) ([0x0A] ++ ascii "WRITE 500 41\n")).mem 0x500 = 0x41
      ∧ ¬ stage2.InSync (writebAtTop 13) [0x0A] (ascii "WRITE 500 41\n") := by
  have hmem : (stage2.feedAll (writebAtTop 13) ([0x0A] ++ ascii "WRITE 500 41\n")).mem 0x500
      = 0x41 := by decide +kernel
  have hkept : ∀ s : Serial, s.mem = (writebAtTop 13).mem → s.mem 0x500 ≠ 0x41 := by
    intro s h
    rw [h]
    decide
  exact ⟨by decide +kernel, hmem, fun h => hkept _ h.mem hmem⟩

end RemoteX86
