import RemoteX86.Descriptor
import RemoteX86.SerialHost

/-!
# The response line reader

`remote_rs232_get_response` keeps its pointer at the fence or below: after any bytes and waits in any
order the buffer holds what `keptOf` says of the bytes read so far, and there is room for the zero.
-/

namespace RemoteX86

open Hex Memory

/-! ## Memory -/

@[simp] theorem HostMem.length_read (mem : HostMem) (p n : ℕ) : (mem.read p n).length = n := by
  simp [HostMem.read]

theorem HostMem.read_succ (mem : HostMem) (p n : ℕ) :
    mem.read p (n + 1) = mem.read p n ++ [mem (p + n)] := by
  simp [HostMem.read, List.range_succ]

theorem HostMem.read_cons (mem : HostMem) (p n : ℕ) :
    mem.read p (n + 1) = mem p :: mem.read (p + 1) n := by
  simp only [HostMem.read, List.range_succ_eq_map, List.map_cons, List.map_map, Nat.add_zero]
  refine congrArg _ (List.map_congr_left fun i _ => ?_)
  simp [Nat.add_assoc, Nat.add_comm 1]

/-- A store behind a range leaves it as it was. -/
theorem HostMem.read_update {mem : HostMem} {p n a : ℕ} (h : p + n ≤ a) (c : Byte) :
    HostMem.read (Function.update mem a c) p n = mem.read p n := by
  refine List.map_congr_left fun i hi => ?_
  rw [List.mem_range] at hi
  rw [Function.update_of_ne (by omega)]

/-- A comparison of a text that ends here looks for a prefix. -/
theorem HostMem.strncmpEq_iff {mem : HostMem} : ∀ {s t : List Byte} {p : ℕ}, (0 : Byte) ∉ s →
    mem.read p (t.length + 1) = t ++ [0] → (HostMem.strncmpEq mem p s = true ↔ s <+: t)
  | [], t, p, _, _ => by simp [HostMem.strncmpEq]
  | c :: s, [], p, hs, h => by
    have hp : mem p = 0 := by simpa [HostMem.read] using h
    have hc : (mem p == c) = false := by
      rw [hp, beq_eq_false_iff_ne]
      exact fun e => hs (by simp [e])
    rw [HostMem.strncmpEq, hc, Bool.false_and]
    simp
  | c :: s, b :: t, p, hs, h => by
    rw [List.length_cons, HostMem.read_cons, List.cons_append, List.cons.injEq] at h
    rw [List.mem_cons, not_or] at hs
    rw [HostMem.strncmpEq, h.1, Bool.and_eq_true, beq_iff_eq, HostMem.strncmpEq_iff hs.2 h.2,
      List.cons_prefix_cons, eq_comm]

/-! ## One byte -/

/-- The comparison as a signed character drops the control characters. -/
theorem kept_iff (c : Byte) : (32 ≤ c.toInt ∨ c.toInt < 0) ↔ 0x20#8 ≤ c := by
  rw [BitVec.le_def, BitVec.toInt_eq_toNat_cond]
  have hc := c.isLt
  simp only [BitVec.toNat_ofNat]
  split_ifs <;> omega

theorem keptOf_append (len : ℕ) (taken : List Byte) (c : Byte) :
    keptOf len (taken ++ [c]) = if 0x20#8 ≤ c ∧ (keptOf len taken).length < len - 1
      then keptOf len taken ++ [c] else keptOf len taken := by
  unfold keptOf
  rw [List.filter_append, List.length_take]
  by_cases hc : 0x20#8 ≤ c
  · rw [List.filter_cons_of_pos (by simpa using hc), List.filter_nil]
    split_ifs with hroom
    · rw [List.take_of_length_le (by rw [List.length_append, List.length_singleton]; omega),
        List.take_of_length_le (by omega)]
    · have hfull := mt (And.intro hc) hroom
      rw [List.take_append_of_le_length (by omega)]
  · rw [List.filter_cons_of_neg (by simpa using hc), List.filter_nil, List.append_nil,
      if_neg (fun h => hc h.1)]

theorem keptOf_newline (len : ℕ) (body : List Byte) :
    keptOf len (body ++ [0x0A#8]) = keptOf len body := by
  rw [keptOf_append, if_neg (fun h => absurd h.1 (by decide))]

/-- The buffer holds what it has kept of the bytes read so far, its pointer stands behind, and no
store has gone out of it. -/
structure Reader.Fits (mem : HostMem) (buf len : ℕ) (rx : List Byte) (b : Reader) : Prop where
  wp : b.wp = buf + (keptOf len b.taken).length
  text : HostMem.read b.mem buf (keptOf len b.taken).length = keptOf len b.taken
  inside : ∀ a ∈ b.stored, buf ≤ a ∧ a < buf + len
  outside : ∀ a, a < buf ∨ buf + len ≤ a → b.mem a = mem a
  consumed : b.taken ++ b.tty.rx = rx

section

variable {mem : HostMem} {buf len : ℕ} {rx : List Byte} {b : Reader}

theorem length_keptOf (len : ℕ) (taken : List Byte) : (keptOf len taken).length ≤ len - 1 := by
  rw [keptOf, List.length_take]
  exact Nat.min_le_left _ _

theorem Reader.Fits.take (h : b.Fits mem buf len (b.taken ++ c :: rx)) (hlen : 1 ≤ len)
    {tty : Tty} (htty : tty.rx = rx) :
    ({ b with tty := tty }.take (buf + len - 1) c).Fits mem buf len (b.taken ++ c :: rx) := by
  have hkept := keptOf_append len b.taken c
  have hroom := length_keptOf len b.taken
  have hwp := h.wp
  have hconsumed : b.taken ++ [c] ++ tty.rx = b.taken ++ c :: rx := by
    rw [htty, List.append_assoc, List.singleton_append]
  unfold Reader.take
  split_ifs with hkeep
  · rw [kept_iff] at hkeep
    dsimp only at hkeep
    rw [if_pos ⟨hkeep.1, by omega⟩] at hkept
    refine ⟨?_, ?_, ?_, ?_, hconsumed⟩
    · dsimp only
      rw [hkept, List.length_append, List.length_singleton, hwp, Nat.add_assoc]
    · dsimp only
      rw [hkept, List.length_append, List.length_singleton, HostMem.read_succ,
        HostMem.read_update (by omega), h.text, ← hwp, Function.update_self]
    · intro a ha
      rcases List.mem_append.1 ha with ha | ha
      · exact h.inside a ha
      · rw [List.mem_singleton.1 ha]
        dsimp only
        omega
    · intro a ha
      dsimp only
      rw [Function.update_of_ne (by omega), h.outside a ha]
  · rw [kept_iff] at hkeep
    dsimp only at hkeep
    have hsame : keptOf len (b.taken ++ [c]) = keptOf len b.taken := by
      rw [hkept, if_neg (fun hc => hkeep ⟨hc.1, by omega⟩)]
    refine ⟨?_, ?_, h.inside, h.outside, hconsumed⟩
    · dsimp only
      rw [hsame, hwp]
    · dsimp only
      rw [hsame, h.text]

/-- Nothing but what is left on the line matters of the descriptor. -/
theorem Reader.Fits.tty (h : b.Fits mem buf len rx) {tty : Tty} (htty : tty.rx = b.tty.rx) :
    { b with tty := tty }.Fits mem buf len rx :=
  ⟨h.wp, h.text, h.inside, h.outside, by rw [htty, h.consumed]⟩

theorem CallResult.read_one_nil (k : Fin 0x7FFFF000) : (CallResult.bytes k).read 1 [] = none := by
  rw [CallResult.read, List.take_nil, if_pos rfl]

theorem CallResult.read_one_cons (k : Fin 0x7FFFF000) (c : Byte) (rx : List Byte) :
    (CallResult.bytes k).read 1 (c :: rx) = some (1, [c]) := by
  have hmin : min (k.val + 1) 1 = 1 := by omega
  rw [CallResult.read, hmin]
  rfl

/-! ## The loop -/

/-- The state in which the loop ends, or waits. -/
structure Reader.Ends (mem : HostMem) (buf len : ℕ) (rx : List Byte)
    (r : Reader × Option ResponseEnd) : Prop where
  fits : r.1.Fits mem buf len rx
  line : r.2 = some .newline → ∃ body, r.1.taken = body ++ [0x0A#8] ∧ 0x0A#8 ∉ body
  noLine : r.2 ≠ some .newline → 0x0A#8 ∉ r.1.taken

theorem Reader.Fits.ends (h : b.Fits mem buf len rx) (hno : 0x0A#8 ∉ b.taken) (tty : Tty)
    (htty : tty.rx = b.tty.rx) (ended : Option ResponseEnd) (hended : ended ≠ some .newline) :
    Reader.Ends mem buf len rx ({ b with tty := tty }, ended) :=
  ⟨h.tty htty, fun he => absurd he hended, fun _ => hno⟩

theorem taken_take (b : Reader) (fence : ℕ) (c : Byte) :
    (b.take fence c).taken = b.taken ++ [c] := by
  unfold Reader.take
  split_ifs
  · rfl
  · rfl

theorem tty_take (b : Reader) (fence : ℕ) (c : Byte) : (b.take fence c).tty = b.tty := by
  unfold Reader.take
  split_ifs
  · rfl
  · rfl

section Steps

variable {fence : ℕ} {et t : BitVec 64} {clock : List (BitVec 64)} {reads : List CallResult}

theorem getResponseLoop_late (ht : et.sle t) : getResponseLoop fence et (t :: clock) b
    = ({ b with tty := { b.tty with clock := clock } }, some .timeout) := by
  rw [getResponseLoop]
  exact if_pos ht

theorem getResponseLoop_eof (ht : ¬ et.sle t) (hreads : b.tty.reads = .zero :: reads) :
    getResponseLoop fence et (t :: clock) b
      = ({ b with tty := { b.tty with clock := clock, reads := reads } }, some .eof) := by
  rw [getResponseLoop]
  dsimp only
  rw [if_neg ht, hreads]
  rfl

theorem getResponseLoop_wait (ht : ¬ et.sle t) (hreads : b.tty.reads = .error :: reads) :
    getResponseLoop fence et (t :: clock) b = getResponseLoop fence et clock
      { b with tty := { b.tty with clock := clock, reads := reads } } := by
  rw [getResponseLoop]
  dsimp only
  rw [if_neg ht, hreads]
  rfl

theorem getResponseLoop_byte (ht : ¬ et.sle t) {k : Fin 0x7FFFF000} {c : Byte} {line : List Byte}
    (hreads : b.tty.reads = .bytes k :: reads) (hrx : b.tty.rx = c :: line) :
    getResponseLoop fence et (t :: clock) b =
      let b := { b with tty := { b.tty with clock := clock, reads := reads, rx := line } }.take fence c
      if c = 0x0A#8 then (b, some .newline) else getResponseLoop fence et clock b := by
  rw [getResponseLoop]
  dsimp only
  rw [if_neg ht, hreads]
  dsimp only
  rw [hrx, CallResult.read_one_cons]
  rfl

/-- What a turn of the loop can do: it leaves or waits without a byte, or it tries again after an error,
or a byte comes in. -/
theorem getResponseLoop_turn (fence : ℕ) (et t : BitVec 64) (clock : List (BitVec 64)) (b : Reader) :
    (∃ tty ended, getResponseLoop fence et (t :: clock) b = ({ b with tty := tty }, ended)
      ∧ tty.rx = b.tty.rx ∧ ended ≠ some .newline
      ∧ (∀ e, ended = some e → BreaksOff et e (t :: clock) b.tty.reads b.tty.rx [])
      ∧ (ended = none → ¬ et.sle t
        ∧ (b.tty.reads = [] ∨ ∃ k reads, b.tty.reads = .bytes k :: reads ∧ b.tty.rx = [])))
    ∨ (∃ reads, ¬ et.sle t ∧ b.tty.reads = .error :: reads)
    ∨ ∃ k reads c line, ¬ et.sle t ∧ b.tty.reads = .bytes k :: reads ∧ b.tty.rx = c :: line := by
  by_cases ht : et.sle t = true
  · refine .inl ⟨_, _, getResponseLoop_late ht, rfl, by decide, fun e he => ?_, fun h => by cases h⟩
    obtain rfl := Option.some.inj he
    exact .timeout ht
  · rcases hreads : b.tty.reads with - | ⟨c, reads⟩
    · refine .inl ⟨{ b.tty with clock := clock }, none, ?_, rfl, by decide, nofun,
        fun _ => ⟨ht, .inl rfl⟩⟩
      rw [getResponseLoop]
      dsimp only
      rw [if_neg ht, hreads]
    · rcases c with - | - | k
      · exact .inr (.inl ⟨reads, ht, rfl⟩)
      · refine .inl ⟨{ b.tty with clock := clock, reads := reads }, some .eof,
          getResponseLoop_eof ht hreads, rfl, by decide, fun e he => ?_, fun h => by cases h⟩
        obtain rfl := Option.some.inj he
        exact .eof ht
      · rcases hrx : b.tty.rx with - | ⟨c, line⟩
        · refine .inl ⟨{ b.tty with clock := clock }, none, ?_, hrx, by decide,
            nofun, fun _ => ⟨ht, .inr ⟨k, reads, rfl, rfl⟩⟩⟩
          rw [getResponseLoop]
          dsimp only
          rw [if_neg ht, hreads]
          dsimp only
          rw [hrx, CallResult.read_one_nil]
        · exact .inr (.inr ⟨k, reads, c, line, ht, rfl, rfl⟩)

end Steps

theorem getResponseLoop_ends (et : BitVec 64) (hlen : 1 ≤ len) : ∀ (clock : List (BitVec 64))
    (b : Reader), b.Fits mem buf len rx → 0x0A#8 ∉ b.taken →
      Reader.Ends mem buf len rx (getResponseLoop (buf + len - 1) et clock b)
  | [], b, h, hno => by
    rw [getResponseLoop]
    refine h.ends hno _ ?_ _ ?_
    · rfl
    · decide
  | t :: clock, b, h, hno => by
    rcases getResponseLoop_turn (buf + len - 1) et t clock b with
      ⟨tty, ended, hleaves, htty, hended, -, -⟩ | ⟨reads, ht, hreads⟩
        | ⟨k, reads, c, line, ht, hreads, hrx⟩
    · rw [hleaves]
      exact h.ends hno _ htty _ hended
    · rw [getResponseLoop_wait ht hreads]
      refine getResponseLoop_ends et hlen clock _ (h.tty ?_) hno
      rfl
    · have hline := h.consumed
      rw [hrx] at hline
      have htake : Reader.Fits mem buf len rx ({ b with tty := { b.tty with
          clock := clock, reads := reads, rx := line } }.take (buf + len - 1) c) := by
        rw [← hline] at h ⊢
        exact h.take hlen rfl
      rw [getResponseLoop_byte ht hreads hrx]
      dsimp only
      by_cases hc : c = 0x0A#8
      · rw [if_pos hc]
        subst hc
        exact ⟨htake, fun _ => ⟨b.taken, taken_take _ _ _, hno⟩, fun hne => absurd rfl hne⟩
      · rw [if_neg hc]
        refine getResponseLoop_ends et hlen clock _ htake ?_
        rw [taken_take, List.mem_append, List.mem_singleton]
        rintro (hin | hin)
        · exact hno hin
        · exact hc hin.symm

/-- The clock ends the loop, if nothing else does. -/
theorem getResponseLoop_returns (fence : ℕ) (et : BitVec 64) : ∀ (clock : List (BitVec 64))
    (b : Reader), (∃ t ∈ clock, et.sle t = true) → clock.length ≤ b.tty.reads.length →
      (b.tty.reads.filter fun c => c ≠ .error ∧ c ≠ .zero).length ≤ b.tty.rx.length →
        (getResponseLoop fence et clock b).2 ≠ none
  | [], b, ⟨t, ht, _⟩, _, _ => by cases ht
  | t :: clock, b, ⟨t', ht', hlate⟩, hlength, hrx => by
    have hlater : ¬ et.sle t → ∃ t ∈ clock, et.sle t = true := by
      intro htime
      rcases List.mem_cons.1 ht' with rfl | hin
      · exact absurd hlate htime
      · exact ⟨t', hin, hlate⟩
    rcases getResponseLoop_turn fence et t clock b with
      ⟨tty, ended, hleaves, -, -, -, hnone⟩ | ⟨reads, ht, hreads⟩
        | ⟨k, reads, c, line, ht, hreads, hline⟩
    · rw [hleaves]
      intro hended
      rcases (hnone hended).2 with hreads | ⟨k, reads, hreads, hline⟩
      · rw [hreads] at hlength
        simp at hlength
      · rw [hreads, hline] at hrx
        simp at hrx
    · rw [hreads, List.length_cons, List.length_cons, Nat.add_le_add_iff_right] at hlength
      rw [hreads] at hrx
      rw [getResponseLoop_wait ht hreads]
      refine getResponseLoop_returns fence et clock _ (hlater ht) hlength ?_
      simpa using hrx
    · rw [hreads, List.length_cons, List.length_cons, Nat.add_le_add_iff_right] at hlength
      rw [hreads, hline] at hrx
      have hrest : (reads.filter fun c => c ≠ .error ∧ c ≠ .zero).length ≤ line.length := by
        simpa using hrx
      rw [getResponseLoop_byte ht hreads hline]
      dsimp only
      split_ifs
      · exact Option.some_ne_none _
      · refine getResponseLoop_returns fence et clock _ (hlater ht) ?_ ?_
        · rw [tty_take]
          exact hlength
        · rw [tty_take]
          exact hrest

section Lines

variable {fence : ℕ} {et : BitVec 64} {clock : List (BitVec 64)} {reads : List CallResult}

/-- A line that comes in in time ends the loop. -/
theorem LineInTime.loop {line body : List Byte} (h : LineInTime et clock reads line body) :
    ∀ b : Reader, b.tty.reads = reads → b.tty.rx = line →
      (getResponseLoop fence et clock b).2 = some .newline
        ∧ (getResponseLoop fence et clock b).1.taken = b.taken ++ (body ++ [0x0A#8]) := by
  induction h with
  | newline ht =>
    intro b hreads hrx
    rw [getResponseLoop_byte ht hreads hrx]
    exact ⟨rfl, taken_take _ _ _⟩
  | byte ht hc _ ih =>
    intro b hreads hrx
    rw [getResponseLoop_byte ht hreads hrx]
    dsimp only
    rw [if_neg hc]
    refine (ih _ ?_ ?_).imp_right fun htaken => htaken.trans ?_
    · rw [tty_take]
    · rw [tty_take]
    · rw [taken_take, List.append_assoc, List.singleton_append, List.cons_append]
  | wait ht _ ih =>
    intro b hreads hrx
    rw [getResponseLoop_wait ht hreads]
    exact ih _ rfl hrx

theorem lineInTime_of_newline : ∀ (clock : List (BitVec 64)) (b : Reader),
    (getResponseLoop fence et clock b).2 = some .newline →
      ∃ body, LineInTime et clock b.tty.reads b.tty.rx body
  | [], b, h => by
    rw [getResponseLoop] at h
    cases h
  | t :: clock, b, h => by
    rcases getResponseLoop_turn fence et t clock b with
      ⟨tty, ended, hleaves, -, hended, -, -⟩ | ⟨reads, ht, hreads⟩
        | ⟨k, reads, c, line, ht, hreads, hrx⟩
    · rw [hleaves] at h
      exact absurd h hended
    · rw [getResponseLoop_wait ht hreads] at h
      obtain ⟨body, hbody⟩ := lineInTime_of_newline clock _ h
      rw [hreads]
      exact ⟨body, .wait ht hbody⟩
    · rw [getResponseLoop_byte ht hreads hrx] at h
      rw [hreads, hrx]
      dsimp only at h
      by_cases hc : c = 0x0A#8
      · rw [hc]
        exact ⟨[], .newline ht⟩
      · rw [if_neg hc] at h
        obtain ⟨body, hbody⟩ := lineInTime_of_newline clock _ h
        rw [tty_take] at hbody
        exact ⟨c :: body, .byte ht hc hbody⟩

/-- A line that breaks off ends the loop as well. -/
theorem BreaksOff.loop {e : ResponseEnd} {line body : List Byte}
    (h : BreaksOff et e clock reads line body) :
    ∀ b : Reader, b.tty.reads = reads → b.tty.rx = line →
      (getResponseLoop fence et clock b).2 = some e := by
  induction h with
  | timeout ht =>
    intro b _ _
    rw [getResponseLoop_late ht]
  | eof ht =>
    intro b hreads _
    rw [getResponseLoop_eof ht hreads]
  | byte ht hc _ ih =>
    intro b hreads hrx
    rw [getResponseLoop_byte ht hreads hrx]
    dsimp only
    rw [if_neg hc]
    refine ih _ ?_ ?_
    · rw [tty_take]
    · rw [tty_take]
  | wait ht _ ih =>
    intro b hreads hrx
    rw [getResponseLoop_wait ht hreads]
    exact ih _ rfl hrx

theorem breaksOff_of_ended {e : ResponseEnd} (he : e ≠ .newline) : ∀ (clock : List (BitVec 64))
    (b : Reader), (getResponseLoop fence et clock b).2 = some e →
      ∃ body, BreaksOff et e clock b.tty.reads b.tty.rx body
  | [], b, h => by
    rw [getResponseLoop] at h
    cases h
  | t :: clock, b, h => by
    rcases getResponseLoop_turn fence et t clock b with
      ⟨tty, ended, hleaves, -, -, hbreaks, -⟩ | ⟨reads, ht, hreads⟩
        | ⟨k, reads, c, line, ht, hreads, hrx⟩
    · rw [hleaves] at h
      exact ⟨[], hbreaks e h⟩
    · rw [getResponseLoop_wait ht hreads] at h
      obtain ⟨body, hbody⟩ := breaksOff_of_ended he clock _ h
      rw [hreads]
      exact ⟨body, .wait ht hbody⟩
    · rw [getResponseLoop_byte ht hreads hrx] at h
      rw [hreads, hrx]
      dsimp only at h
      by_cases hc : c = 0x0A#8
      · rw [if_pos hc] at h
        exact absurd (Option.some.inj h).symm he
      · rw [if_neg hc] at h
        obtain ⟨body, hbody⟩ := breaksOff_of_ended he clock _ h
        rw [tty_take] at hbody
        exact ⟨c :: body, .byte ht hc hbody⟩

end Lines

end

/-- The zero goes behind what has been kept. -/
theorem Reader.Fits.terminate {mem : HostMem} {buf len : ℕ} {rx : List Byte} {b : Reader}
    (h : b.Fits mem buf len rx) (hlen : 1 ≤ len) :
    (∀ a ∈ b.stored ++ [b.wp], buf ≤ a ∧ a < buf + len)
      ∧ (∀ a, a < buf ∨ buf + len ≤ a → Function.update b.mem b.wp 0 a = mem a)
      ∧ HostMem.read (Function.update b.mem b.wp 0) buf ((keptOf len b.taken).length + 1)
        = keptOf len b.taken ++ [0] := by
  have hroom := length_keptOf len b.taken
  have hwp := h.wp
  refine ⟨fun a ha => ?_, fun a ha => ?_, ?_⟩
  · rcases List.mem_append.1 ha with ha | ha
    · exact h.inside a ha
    · rw [List.mem_singleton.1 ha]
      omega
  · rw [Function.update_of_ne (by omega), h.outside a ha]
  · rw [HostMem.read_succ, HostMem.read_update (by omega), h.text, hwp, Function.update_self]

/-- The call as its loop leaves it, once it has looked at the clock. -/
theorem ended_getResponse (mem : HostMem) (buf len : ℕ) (timeout : BitVec 64) {tty : Tty}
    {now : BitVec 64} {clock : List (BitVec 64)} (h : tty.clock = now :: clock) :
    let b := getResponseLoop (buf + len - 1) (endTime now timeout) clock
      ⟨mem, buf, [], [], { tty with clock := clock }⟩
    (remoteRs232GetResponse mem buf len timeout tty).ended = b.2
      ∧ (remoteRs232GetResponse mem buf len timeout tty).taken = b.1.taken := by
  intro b
  rw [remoteRs232GetResponse, h]
  dsimp only [b]
  generalize getResponseLoop (buf + len - 1) (endTime now timeout) clock _ = r
  obtain ⟨b, ended⟩ := r
  rcases ended with - | ended
  · exact ⟨rfl, rfl⟩
  · exact ⟨rfl, rfl⟩

/-- The call reads a line that comes in in time, -/
theorem LineInTime.getResponse {timeout : BitVec 64} {tty : Tty} {now : BitVec 64}
    {clock : List (BitVec 64)} {body : List Byte}
    (h : LineInTime (endTime now timeout) clock tty.reads tty.rx body)
    (hclock : tty.clock = now :: clock) (mem : HostMem) (buf len : ℕ) :
    (remoteRs232GetResponse mem buf len timeout tty).ended = some .newline
      ∧ (remoteRs232GetResponse mem buf len timeout tty).taken = body ++ [0x0A#8] := by
  obtain ⟨hended, htaken⟩ := ended_getResponse mem buf len timeout hclock
  rw [hended, htaken]
  exact h.loop _ rfl rfl

/-- and no other ends it so. -/
theorem lineInTime_of_ended {mem : HostMem} {buf len : ℕ} {timeout : BitVec 64} {tty : Tty}
    (h : (remoteRs232GetResponse mem buf len timeout tty).ended = some .newline) :
    ∃ now clock body, tty.clock = now :: clock
      ∧ LineInTime (endTime now timeout) clock tty.reads tty.rx body := by
  rcases hclock : tty.clock with - | ⟨now, clock⟩
  · rw [remoteRs232GetResponse, hclock] at h
    cases h
  · rw [(ended_getResponse mem buf len timeout hclock).1] at h
    obtain ⟨body, hbody⟩ := lineInTime_of_newline clock _ h
    exact ⟨now, clock, body, rfl, hbody⟩

/-- It ends another way when the line breaks off that way. -/
theorem ended_iff_breaksOff {mem : HostMem} {buf len : ℕ} {timeout : BitVec 64} {tty : Tty}
    {e : ResponseEnd} (he : e ≠ .newline) :
    (remoteRs232GetResponse mem buf len timeout tty).ended = some e
      ↔ ∃ now clock body, tty.clock = now :: clock
        ∧ BreaksOff (endTime now timeout) e clock tty.reads tty.rx body := by
  rcases hclock : tty.clock with - | ⟨now, clock⟩
  · rw [remoteRs232GetResponse, hclock]
    refine iff_of_false nofun ?_
    rintro ⟨now, clock, body, h, -⟩
    cases h
  · rw [(ended_getResponse mem buf len timeout hclock).1]
    constructor
    · intro h
      obtain ⟨body, hbody⟩ := breaksOff_of_ended he clock _ h
      exact ⟨now, clock, body, rfl, hbody⟩
    · rintro ⟨now', clock', body, h, hbody⟩
      obtain ⟨rfl, rfl⟩ := List.cons.inj h
      exact hbody.loop _ rfl rfl

theorem endsBy_getResponse (mem : HostMem) (buf len : ℕ) (timeout : BitVec 64) (tty : Tty) :
    (remoteRs232GetResponse mem buf len timeout tty).EndsBy timeout tty where
  newline := by
    refine ⟨lineInTime_of_ended, ?_⟩
    rintro ⟨now, clock, body, hclock, hbody⟩
    exact (hbody.getResponse hclock mem buf len).1
  timedOut := ended_iff_breaksOff (by decide)
  eof := ended_iff_breaksOff (by decide)

/-- The call stays in its buffer and reads no further than the line, leaves the text and returns its
verdict. -/
theorem readsLine_getResponse (mem : HostMem) {buf len : ℕ} (hlen : 1 ≤ len) (timeout : BitVec 64)
    (tty : Tty) : (remoteRs232GetResponse mem buf len timeout tty).ReadsLine mem buf len tty.rx := by
  rw [remoteRs232GetResponse]
  rcases hclock : tty.clock with - | ⟨now, clock⟩
  · refine ⟨?_, ?_, ?_, ?_, ?_, ?_, rfl⟩
    all_goals simp
  · dsimp only
    have hstart : Reader.Fits mem buf len tty.rx
        ⟨mem, buf, [], [], { tty with clock := clock }⟩ := by
      refine ⟨?_, ?_, ?_, ?_, rfl⟩
      all_goals simp [keptOf, HostMem.read]
    have hends := getResponseLoop_ends (endTime now timeout) hlen clock _ hstart (by simp)
    generalize getResponseLoop (buf + len - 1) (endTime now timeout) clock _ = r at hends ⊢
    obtain ⟨b, ended⟩ := r
    obtain ⟨hfits, hline, hno⟩ := hends
    rcases ended with - | ended
    · exact ⟨hfits.inside, hfits.outside, hfits.consumed, hline, hno, fun h => absurd rfl h, rfl⟩
    · obtain ⟨hinside, houtside, htext⟩ := hfits.terminate hlen
      have hverdict := HostMem.strncmpEq_iff (s := ascii "OK") (by decide) htext
      refine ⟨hinside, houtside, hfits.consumed, hline, hno, fun _ => htext, ?_⟩
      rcases ended with - | - | -
      · exact congrArg Outcome.returned (if_congr ((and_iff_right rfl).trans hverdict) rfl rfl)
      · rfl
      · rfl

/-- What the call makes of a line that comes in in time. -/
theorem LineInTime.response {timeout : BitVec 64} {tty : Tty} {now : BitVec 64}
    {clock : List (BitVec 64)} {body : List Byte}
    (h : LineInTime (endTime now timeout) clock tty.reads tty.rx body)
    (hclock : tty.clock = now :: clock) (mem : HostMem) (buf : ℕ) {len : ℕ} (hlen : 1 ≤ len) :
    let r := remoteRs232GetResponse mem buf len timeout tty
    r.outcome = .returned (if ascii "OK" <+: keptOf len body then 1 else 0)
      ∧ r.mem.read buf ((keptOf len body).length + 1) = keptOf len body ++ [0]
      ∧ tty.rx = body ++ 0x0A#8 :: r.tty.rx := by
  intro r
  obtain ⟨hended, htaken⟩ := h.getResponse hclock mem buf len
  have hreads : r.ReadsLine mem buf len tty.rx := readsLine_getResponse mem hlen timeout tty
  have hresult := hreads.result
  have htext := hreads.text
  have hconsumed := hreads.consumed
  rw [hended, htaken, keptOf_newline] at hresult
  rw [htaken, keptOf_newline, hresult] at htext
  rw [htaken, List.append_assoc, List.singleton_append] at hconsumed
  exact ⟨hresult, htext Outcome.noConfusion, hconsumed.symm⟩

/-- Only a line gives zero. -/
theorem ended_of_returned_zero {mem : HostMem} {buf len : ℕ} {timeout : BitVec 64} {tty : Tty}
    (h : (remoteRs232GetResponse mem buf len timeout tty).outcome = .returned 0) :
    (remoteRs232GetResponse mem buf len timeout tty).ended = some .newline := by
  rcases hclock : tty.clock with - | ⟨now, clock⟩
  · rw [remoteRs232GetResponse, hclock] at h
    cases h
  · rw [remoteRs232GetResponse, hclock] at h ⊢
    dsimp only at h ⊢
    generalize getResponseLoop (buf + len - 1) (endTime now timeout) clock _ = r at h ⊢
    obtain ⟨b, ended⟩ := r
    rcases ended with - | (- | - | -)
    · cases h
    · rfl
    · exact absurd (Outcome.returned.inj h) (by simp)
    · exact absurd (Outcome.returned.inj h) (by simp)

/-- The call returns once the clock says so. -/
theorem getResponse_ne_pending (mem : HostMem) (buf len : ℕ) {timeout : BitVec 64} {tty : Tty}
    (hanswers : tty.Answers) {now : BitVec 64} {clock : List (BitVec 64)}
    (hclock : tty.clock = now :: clock) (hlate : ∃ t ∈ clock, (endTime now timeout).sle t = true) :
    (remoteRs232GetResponse mem buf len timeout tty).outcome ≠ .pending := by
  have hlength := hanswers.1
  rw [hclock, List.length_cons] at hlength
  have hended := getResponseLoop_returns (buf + len - 1) (endTime now timeout) clock
    ⟨mem, buf, [], [], { tty with clock := clock }⟩ hlate (by dsimp only; omega) hanswers.2
  rw [remoteRs232GetResponse, hclock]
  dsimp only
  generalize getResponseLoop (buf + len - 1) (endTime now timeout) clock _ = r at hended ⊢
  obtain ⟨b, ended⟩ := r
  rcases ended with - | ended
  · exact absurd rfl hended
  · exact Outcome.noConfusion

/-- In any order of bytes, waits and clock values the call stays in its buffer and reads no further
than the line, leaves the text and returns its verdict; the clock, read(2) and the line decide how it
ends, and it does return once the clock says so. -/
theorem getResponse_reads_line (mem : HostMem) {buf len : ℕ} (hlen : 1 ≤ len)
    (timeout : BitVec 64) (tty : Tty) :
    let r := remoteRs232GetResponse mem buf len timeout tty
    r.ReadsLine mem buf len tty.rx ∧ r.EndsBy timeout tty
      ∧ (tty.Answers → ∀ now clock, tty.clock = now :: clock →
        (∃ t ∈ clock, (endTime now timeout).sle t = true) → r.outcome ≠ .pending) :=
  ⟨readsLine_getResponse mem hlen timeout tty, endsBy_getResponse mem buf len timeout tty,
    fun hanswers _ _ hclock hlate => getResponse_ne_pending mem buf len hanswers hclock hlate⟩

/-- A byte, no byte yet, and the rest of the line. -/
theorem getResponse_reads_line_ok :
    let tty : Tty :=
      { clock := [0, 0, 1, 1, 1, 1, 2], rx := ascii "OK" ++ crlf, writes := []
        reads := [.bytes 0, .error, .bytes 0, .bytes 7, .bytes 0, .zero, .zero] }
    let r := remoteRs232GetResponse (fun _ => 0xFF#8) 100 8 0 tty
    r.ReadsLine (fun _ => 0xFF#8) 100 8 tty.rx ∧ r.EndsBy 0 tty ∧ r.outcome ≠ .pending := by
  intro tty r
  obtain ⟨hreads, hends, hreturns⟩ :=
    @getResponse_reads_line (fun _ => 0xFF#8) 100 8 (by decide) 0 tty
  exact ⟨hreads, hends, hreturns ⟨by decide, by decide⟩ 0 _ rfl ⟨2, by decide, by decide⟩⟩

theorem getResponse_ne_aborted (mem : HostMem) (buf len : ℕ) (timeout : BitVec 64) (tty : Tty) :
    (remoteRs232GetResponse mem buf len timeout tty).outcome ≠ .aborted := by
  rw [remoteRs232GetResponse]
  split
  · exact Outcome.noConfusion
  · dsimp only
    split
    · exact Outcome.noConfusion
    · exact Outcome.noConfusion

/-! ## The reader without a clock -/

theorem keepResponse_keptOf (len : ℕ) (taken : List Byte) (c : Byte) :
    keepResponse len (keptOf len taken) c = keptOf len (taken ++ [c]) :=
  (keptOf_append len taken c).symm

theorem remoteRs232GetResponseLoop_line (len : ℕ) (rest : List Byte) : ∀ (body taken : List Byte),
    0x0A#8 ∉ body → remoteRs232GetResponseLoop len (keptOf len taken) (body ++ 0x0A#8 :: rest)
      = some (keptOf len (taken ++ (body ++ [0x0A#8])), rest)
  | [], taken, _ => by
    rw [List.nil_append, remoteRs232GetResponseLoop, if_pos rfl, keepResponse_keptOf,
      List.nil_append]
  | c :: body, taken, hno => by
    rw [List.mem_cons, not_or] at hno
    rw [List.cons_append, remoteRs232GetResponseLoop, if_neg (Ne.symm hno.1), keepResponse_keptOf,
      remoteRs232GetResponseLoop_line len rest body _ hno.2, List.append_assoc,
      List.singleton_append, List.cons_append]

/-- Once the line has arrived in time, what the call leaves is what the loop of the host library makes
of it with no clock. -/
theorem Response.ReadsLine.eq_loop {mem : HostMem} {buf len : ℕ} {rx : List Byte} {r : Response}
    (h : r.ReadsLine mem buf len rx) (hended : r.ended = some .newline) :
    remoteRs232GetResponseLoop len [] rx = some (keptOf len r.taken, r.tty.rx) := by
  obtain ⟨body, htaken, hno⟩ := h.line hended
  have hrx := h.consumed
  rw [htaken, List.append_assoc, List.singleton_append] at hrx
  have hloop := remoteRs232GetResponseLoop_line len r.tty.rx body [] hno
  rw [hrx] at hloop
  rw [htaken]
  simpa [keptOf] using hloop

end RemoteX86
