import RemoteX86.LineBuffer
import RemoteX86.Proofs.Serial

/-!
# The reader assembles the line

After any characters, the stores made so far are those of the characters kept, one after another
from the start of `in_buf` on, and SI counts them (`Held`).  Clearing goes on from there to the end
of `in_buf`, with one byte at least, since 255 characters are kept at most.
-/

namespace RemoteX86

open Hex Memory

section Registers

variable {w : ℕ}

/-- `bs` has been stored from `a` on, over `mem`. -/
structure Held (a : BitVec w) (mem : Mem w) (bs : List Byte) (s : Stores w) : Prop where
  mem : s.mem = write mem a bs
  stored : ∀ x ∈ s.stored, (x - a).toNat < inBufSize

theorem Held.put {a : BitVec w} {mem : Mem w} {bs : List Byte} {s : Stores w}
    (h : Held a mem bs s) (hw : inBufSize < 2 ^ w) (hlen : bs.length < inBufSize) (al : Byte) :
    Held a mem (bs ++ [al]) (s.put (a + BitVec.ofNat w bs.length) al) where
  mem := by
    rw [write_append, ← h.mem]
    rfl
  stored := by
    intro x hx
    rcases List.mem_cons.1 hx with rfl | hx
    · rw [BitVec.add_comm, BitVec.add_sub_cancel, BitVec.toNat_ofNat, Nat.mod_eq_of_lt (by omega)]
      exact hlen
    · exact h.stored x hx

theorem length_kept (chars : List Byte) : (kept chars).length < inBufSize := by
  rw [kept, List.length_take]
  unfold inBufSize
  omega

/-- One character more. -/
theorem readAl_held {a : BitVec w} {mem : Mem w} {chars : List Byte} {s : Stores w}
    (hw : inBufSize < 2 ^ w) (h : Held a mem (kept chars) s) (al : Byte) :
    (mainLoopReadAl a (BitVec.ofNat w (kept chars).length) s al).1
        = BitVec.ofNat w (kept (chars ++ [al])).length
      ∧ Held a mem (kept (chars ++ [al]))
        (mainLoopReadAl a (BitVec.ofNat w (kept chars).length) s al).2 := by
  have hlen := length_kept chars
  have hle : BitVec.ofNat w (inBufSize - 1) ≤ BitVec.ofNat w (kept chars).length ↔
      inBufSize - 1 ≤ (kept chars).length := by
    rw [BitVec.le_def, BitVec.toNat_ofNat, BitVec.toNat_ofNat, Nat.mod_eq_of_lt (by omega),
      Nat.mod_eq_of_lt (by omega)]
  unfold mainLoopReadAl
  by_cases hfull : inBufSize - 1 ≤ (kept chars).length
  · have hkept : kept (chars ++ [al]) = kept chars := by
      rw [kept, List.length_take] at hfull
      exact List.take_append_of_le_length (by omega)
    rw [if_pos (hle.2 hfull), hkept]
    exact ⟨rfl, h⟩
  · have hkept : kept (chars ++ [al]) = kept chars ++ [al] := by
      rw [kept, List.length_take] at hfull
      rw [kept, kept,
        List.take_of_length_le (by rw [List.length_append, List.length_singleton]; omega),
        List.take_of_length_le (by omega)]
    rw [if_neg (mt hle.1 hfull), hkept, List.length_append, List.length_singleton, BitVec.ofNat_add]
    exact ⟨rfl, h.put hw hlen al⟩

/-- The loop reads a line to its end and not beyond. -/
theorem mainLoopRead_line {a : BitVec w} {mem : Mem w} (hw : inBufSize < 2 ^ w) {eol : Byte}
    (heol : eol = 0x0A#8 ∨ eol = 0x0D#8) (rest : List Byte) {sent more : List Byte}
    (h : Encodes sent more) : ∀ (chars : List Byte) (s : Stores w), Held a mem (kept chars) s →
      ∃ s', mainLoopRead a (BitVec.ofNat w (kept chars).length) s (sent ++ eol :: rest)
          = some (BitVec.ofNat w (kept (chars ++ more)).length, s', rest)
        ∧ Held a mem (kept (chars ++ more)) s' := by
  induction h with
  | nil =>
    intro chars s hs
    refine ⟨s, ?_, by rwa [List.append_nil]⟩
    rw [List.append_nil, List.nil_append, mainLoopRead.eq_def]
    rcases heol with rfl | rfl
    · rfl
    · rfl
  | @plain c sent more hc _ ih =>
    intro chars s hs
    obtain ⟨hsi, hheld⟩ := readAl_held hw hs c
    obtain ⟨s', hs', hheld'⟩ := ih _ _ hheld
    rw [List.append_assoc, List.singleton_append] at hs' hheld'
    refine ⟨s', ?_, hheld'⟩
    rw [List.cons_append, mainLoopRead.eq_def]
    simp only []
    rw [if_neg hc.1, if_neg hc.2.1, if_neg hc.2.2, hsi]
    exact hs'
  | @escaped c sent more _ ih =>
    intro chars s hs
    obtain ⟨hsi, hheld⟩ := readAl_held hw hs c
    obtain ⟨s', hs', hheld'⟩ := ih _ _ hheld
    rw [List.append_assoc, List.singleton_append] at hs' hheld'
    refine ⟨s', ?_, hheld'⟩
    rw [List.cons_append, List.cons_append, mainLoopRead.eq_def]
    simp only []
    rw [if_neg (by decide), if_neg (by decide), if_pos trivial, hsi]
    exact hs'

/-- Zeros up to the end of `in_buf`: at least one, and not one too many. -/
theorem mainLoopProcessClr_held {a : BitVec w} {mem : Mem w} {bs : List Byte} {s : Stores w}
    (ha : a.toNat + inBufSize < 2 ^ w) (hlen : bs.length < inBufSize) (h : Held a mem bs s) :
    ∃ di s', mainLoopProcessClr a (a + BitVec.ofNat w bs.length) s = some (di, s')
      ∧ Held a mem (bs ++ List.replicate (inBufSize - bs.length) 0) s' := by
  let Inv : ℕ → BitVec w × Stores w → Prop := fun k r =>
    r.1 = a + BitVec.ofNat w (bs.length + k) ∧ Held a mem (bs ++ List.replicate k 0) r.2
  have hlen' : ∀ k, (bs ++ List.replicate k (0 : Byte)).length = bs.length + k := by
    intro k
    rw [List.length_append, List.length_replicate]
  have htest : ∀ n ≤ inBufSize, ∀ t, belowEnd a (a + BitVec.ofNat w n, t) = true ↔
      n < inBufSize := by
    intro n hn t
    rw [belowEnd, decide_eq_true_iff, BitVec.lt_def, BitVec.toNat_add, BitVec.toNat_add,
      BitVec.toNat_ofNat, BitVec.toNat_ofNat, Nat.mod_eq_of_lt (by omega : n < 2 ^ w),
      Nat.mod_eq_of_lt (by omega : inBufSize < 2 ^ w), Nat.mod_eq_of_lt (by omega),
      Nat.mod_eq_of_lt (by omega)]
    omega
  have hstep : ∀ k r, k < inBufSize - bs.length → Inv k r →
      Inv (k + 1) (stosb r) ∧ (belowEnd a (stosb r) = true ↔ k + 1 < inBufSize - bs.length) := by
    rintro k ⟨di, s⟩ hk ⟨hdi, hheld⟩
    simp only at hdi hheld
    have hnext : di + 1 = a + BitVec.ofNat w (bs.length + (k + 1)) := by
      rw [hdi, ← Nat.add_assoc, BitVec.ofNat_add (bs.length + k), BitVec.add_assoc]
      rfl
    refine ⟨⟨hnext, ?_⟩, ?_⟩
    · have hput := hheld.put (by omega) (by rw [hlen']; omega) 0
      rw [hlen', List.append_assoc, ← List.replicate_succ'] at hput
      rw [hdi]
      exact hput
    · rw [stosb, hnext, htest _ (by omega)]
      omega
  obtain ⟨⟨di, s'⟩, hrun, -, hheld⟩ := Fill.doWhile_invariant Inv (n := inBufSize - bs.length) hstep
    inBufSize 0 (a + BitVec.ofNat w bs.length, s) (by omega) (by omega)
    ⟨rfl, by rw [List.replicate_zero, List.append_nil]; exact h⟩
  exact ⟨di, s', hrun, hheld⟩

end Registers

theorem two_pow_bits (mode : Mode) : 2 ^ 16 ≤ 2 ^ mode.bits :=
  Nat.pow_le_pow_right (by omega) (by cases mode <;> decide)

/-- What is in memory when a command is looked for. -/
theorem assembled_of_held {mode : Mode} {l : Layout} {mem : Mem mode.bits} {chars rest : List Byte}
    {s : Stores mode.bits}
    (h : Held (BitVec.ofNat mode.bits l.inBuf) mem
      (kept chars ++ List.replicate (inBufSize - (kept chars).length) 0) s) :
    Assembled mode l mem chars rest
      { si := BitVec.ofNat mode.bits l.inBuf
        di := BitVec.ofNat mode.bits l.inBuf + BitVec.ofNat mode.bits (kept chars).length
        stores := s, rest := rest } := by
  have hbits := two_pow_bits mode
  have hend := l.end_lt
  have hlen := length_kept chars
  have hfull : (kept chars ++ List.replicate (inBufSize - (kept chars).length) (0 : Byte)).length
      = inBufSize := by
    rw [List.length_append, List.length_replicate]
    omega
  have hbase : (BitVec.ofNat mode.bits l.inBuf).toNat = l.inBuf := by
    rw [BitVec.toNat_ofNat, Nat.mod_eq_of_lt (by omega)]
  constructor
  · have hread := read_write mem (BitVec.ofNat mode.bits l.inBuf) (by omega :
      (kept chars ++ List.replicate (inBufSize - (kept chars).length) (0 : Byte)).length
        ≤ 2 ^ mode.bits)
    rw [hfull, ← h.mem] at hread
    exact hread
  · exact hbase
  · simp only [BitVec.toNat_add, hbase]
    rw [BitVec.toNat_ofNat, Nat.mod_eq_of_lt (by omega : (kept chars).length < 2 ^ mode.bits),
      Nat.mod_eq_of_lt (by omega)]
  · intro a ha
    have hoff := h.stored a ha
    have hlt := a.isLt
    rw [BitVec.toNat_sub, hbase] at hoff
    rcases Nat.lt_or_ge a.toNat l.inBuf with hbelow | habove
    · rw [Nat.mod_eq_of_lt (by omega)] at hoff
      omega
    · rw [show 2 ^ mode.bits - l.inBuf + a.toNat = a.toNat - l.inBuf + 2 ^ mode.bits by omega,
        Nat.add_mod_right, Nat.mod_eq_of_lt (by omega)] at hoff
      omega
  · intro a ha
    show s.mem a = mem a
    rw [h.mem, write_range _ _ _ (by rw [hfull, hbase]; omega), hbase]
    split_ifs with hle
    · rw [List.getElem?_eq_none (by omega), Option.getD_none]
    · rfl
  · rfl

/-- Every line ends up in `in_buf` as the commands expect it, in all five parts. -/
theorem line_assembled (mode : Mode) (l : Layout) (mem : Mem mode.bits)
    {stream chars rest : List Byte} (h : EndsLine stream chars rest) :
    ∃ r, mainLoop mode l mem stream = some r ∧ Assembled mode l mem chars rest r := by
  obtain ⟨sent, eol, hsent, heol, rfl⟩ := h
  have hbits := two_pow_bits mode
  have hend := l.end_lt
  have hbase : (BitVec.ofNat mode.bits l.inBuf).toNat = l.inBuf := by
    rw [BitVec.toNat_ofNat, Nat.mod_eq_of_lt (by omega)]
  have hstart : Held (BitVec.ofNat mode.bits l.inBuf) mem (kept []) { mem := mem, stored := [] } :=
    ⟨rfl, nofun⟩
  obtain ⟨s, hread, hheld⟩ := mainLoopRead_line (by omega) heol rest hsent [] _ hstart
  obtain ⟨di, s', hclear, hheld'⟩ := mainLoopProcessClr_held (by omega) (length_kept _) hheld
  refine ⟨_, ?_, assembled_of_held hheld'⟩
  have hread' : mainLoopRead (BitVec.ofNat mode.bits l.inBuf) 0 { mem := mem, stored := [] }
      (sent ++ eol :: rest) = some (BitVec.ofNat mode.bits (kept chars).length, s, rest) := hread
  rw [mainLoop, mainLoopLine, hread']
  simp only []
  rw [List.nil_append] at hclear
  rw [hclear]

theorem line_assembled_escaped :
    ∃ r, mainLoop .i8086 ⟨0x9000, by decide⟩ (fun _ => 0xFF) [0x41, 0x1B, 0x0A, 0x0D, 0x42] = some r
      ∧ Assembled .i8086 ⟨0x9000, by decide⟩ (fun _ => 0xFF) [0x41, 0x0A] [0x42] r :=
  line_assembled .i8086 ⟨0x9000, by decide⟩ (fun _ => 0xFF)
    ⟨[0x41, 0x1B, 0x0A], 0x0D, .plain (by decide) (.escaped .nil), by decide, rfl⟩

/-! ## The machine fed byte by byte -/

section Feed

variable (m : Stage2)

theorem store_kept (chars : List Byte) (al : Byte) :
    Stage2.store (kept chars) al = kept (chars ++ [al]) := by
  have h255 : inBufSize - 1 = 255 := rfl
  unfold Stage2.store
  rw [kept, kept, List.length_take, h255]
  split_ifs with hfull
  · rw [List.take_append_of_le_length (by omega)]
  · rw [List.take_of_length_le (by omega), List.take_of_length_le (by simp; omega)]

theorem feedAll_sent {sent more : List Byte} (h : Encodes sent more) :
    ∀ (chars : List Byte) (s : Serial), s.ctl = .line (kept chars) →
      m.feedAll s sent = { s with ctl := .line (kept (chars ++ more)) } := by
  induction h with
  | nil =>
    intro chars s hs
    rw [List.append_nil, ← hs]
    rfl
  | @plain c sent more hc _ ih =>
    intro chars s hs
    have hfeed : m.feed s c = { s with ctl := .line (kept (chars ++ [c])) } := by
      unfold Stage2.feed
      simp only [hs]
      rw [if_neg (by simp [hc.1, hc.2.1]), if_neg hc.2.2, store_kept]
    rw [Stage2.feedAll, List.foldl_cons, hfeed, ← Stage2.feedAll, ih (chars ++ [c]) _ rfl,
      List.append_assoc, List.singleton_append]
  | @escaped c sent more _ ih =>
    intro chars s hs
    have hesc : m.feed s 0x1B#8 = { s with ctl := .escape (kept chars) } := by
      unfold Stage2.feed
      simp only [hs]
      rw [if_neg (by decide), if_pos trivial]
    have hfeed : m.feed { s with ctl := .escape (kept chars) } c
        = { s with ctl := .line (kept (chars ++ [c])) } := by
      unfold Stage2.feed
      simp only []
      rw [store_kept]
    rw [Stage2.feedAll, List.foldl_cons, hesc, List.foldl_cons, hfeed, ← Stage2.feedAll,
      ih (chars ++ [c]) _ rfl, List.append_assoc, List.singleton_append]

/-- The machine runs the command on what is in `in_buf` then, and goes on with the rest. -/
theorem feedAll_endsLine {s : Serial} (hs : s.ctl = .line []) {stream chars rest : List Byte}
    (h : EndsLine stream chars rest) :
    m.feedAll s stream
      = m.feedAll (if chars = [] then s else
          m.mainLoopCommand { s with ctl := .line (kept chars) } (kept chars)) rest := by
  obtain ⟨sent, eol, hsent, heol, rfl⟩ := h
  have hline := feedAll_sent m hsent [] s hs
  have hkept : kept chars = [] ↔ chars = [] := by
    rw [kept, List.take_eq_nil_iff]
    exact or_iff_right (by decide)
  rw [m.feedAll_append, hline, List.nil_append, Stage2.feedAll, List.foldl_cons, ← Stage2.feedAll]
  congr 1
  unfold Stage2.feed
  simp only []
  rw [if_pos heol]
  by_cases hempty : chars = []
  · rw [if_pos (hkept.2 hempty), if_pos hempty, hempty]
    cases s
    cases hs
    rfl
  · rw [if_neg (mt hkept.1 hempty), if_neg hempty]

theorem inBuf_eq_read {mode : Mode} {l : Layout} {mem : Mem mode.bits} {chars rest : List Byte}
    {r : LineRead mode.bits} (h : Assembled mode l mem chars rest r) :
    m.inBuf (kept chars)
      = Memory.read r.stores.mem (BitVec.ofNat mode.bits l.inBuf) inBufSize ++ m.behind := by
  rw [h.buffer, List.append_assoc]
  rfl

end Feed

end RemoteX86
