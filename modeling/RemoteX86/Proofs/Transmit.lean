import RemoteX86.Proofs.GetResponse

/-!
# Partial writes

The loop over the command tries again after -1 and breaks at 0, so that is what cuts a command short.
The loop over the data leaves at 0 and counts -1 as progress: its assertion, which compares as
unsigned, fails there for any count but FFFFFFFF (hex).
-/

namespace RemoteX86

open Hex Memory Pieces

/-! ## The command -/

theorem CallResult.offer_injective : Function.Injective CallResult.offer := by
  rintro (- | - | k) (- | - | l) h
  all_goals simp [CallResult.offer, Fin.val_inj] at h ⊢
  exact h

theorem CallResult.write_error (n : ℕ) : CallResult.error.write n = -1 := by
  rw [CallResult.write, ite_self]

theorem CallResult.write_zero {n : ℕ} (h : n < 2 ^ 63) : CallResult.zero.write n = 0 :=
  if_neg (by omega)

theorem CallResult.write_bytes {n : ℕ} (h : n < 2 ^ 63) (k : Fin 0x7FFFF000) :
    (CallResult.bytes k).write n = (min (k.val + 1) n : ℕ) := by
  rw [Nat.cast_min]
  exact if_neg (by omega)

/-- Results whose offers are split can be split alike. -/
theorem exists_split {writes rest : List CallResult} {used : List Offer}
    (h : writes.map CallResult.offer = used ++ rest.map CallResult.offer) :
    ∃ sent, writes = sent ++ rest ∧ sent.map CallResult.offer = used := by
  obtain ⟨sent, rest', hwrites, hsent, hrest⟩ := List.map_eq_append_iff.1 h
  rw [(List.map_injective_iff.2 CallResult.offer_injective) hrest] at hwrites
  exact ⟨sent, hwrites, hsent⟩

/-- The loop over the command is a transfer in pieces; a stop is passed over as if it were done. -/
theorem sendCommandLoop_eq : ∀ (writes : List CallResult) (cmd tx : List Byte),
    cmd.length < 2 ^ 63 →
      (sendCommandLoop cmd tx writes).tx
          = tx ++ (move cmd.length cmd (writes.map CallResult.offer)).moved
        ∧ (move cmd.length cmd (writes.map CallResult.offer)).offers
          = (sendCommandLoop cmd tx writes).writes.map CallResult.offer
        ∧ (sendCommandLoop cmd tx writes).outcome
          = if (move cmd.length cmd (writes.map CallResult.offer)).ending = .pending then .pending
            else .returned 1
  | writes, [], tx, _ => by
    rw [List.length_nil, move_zero]
    rcases writes with - | ⟨c, writes⟩
    · simp [sendCommandLoop]
    · simp [sendCommandLoop]
  | [], b :: cmd, tx, _ => by
    simp [sendCommandLoop, move]
  | c :: writes, b :: cmd, tx, h => by
    have hne : (b :: cmd).length ≠ 0 := by simp
    rw [sendCommandLoop, if_neg (List.cons_ne_nil b cmd), List.map_cons]
    rcases c with - | - | k
    · rw [CallResult.write_error, CallResult.offer, move_stall hne]
      exact sendCommandLoop_eq writes (b :: cmd) tx h
    · rw [CallResult.write_zero h, CallResult.offer, move_stop hne]
      simp
    · have hpos : 0 < min (k.val + 1) (b :: cmd).length := by
        rw [List.length_cons]
        omega
      have ih := sendCommandLoop_eq writes ((b :: cmd).drop (min (k.val + 1) (b :: cmd).length))
        (tx ++ (b :: cmd).take (min (k.val + 1) (b :: cmd).length))
        (by rw [List.length_drop]; omega)
      rw [List.length_drop] at ih
      rw [CallResult.write_bytes h, CallResult.offer, move_piece hne (List.cons_ne_nil b cmd),
        Nat.min_self, if_pos (by exact_mod_cast hpos), Int.toNat_natCast]
      rw [List.append_assoc] at ih
      exact ih

theorem write_one (k : Fin 0x7FFFF000) : (CallResult.bytes k).write 1 = 1 := by
  rw [CallResult.write_bytes (by decide), Nat.min_eq_right (Nat.le_add_left 1 k.val)]
  rfl

/-- The loop over the newline ends with it accepted, with a zero, or has not ended. -/
theorem sendNewlineLoop_cases : ∀ (writes : List CallResult) (tx : List Byte),
    (sendNewlineLoop tx writes).outcome = .pending
      ∨ ((sendNewlineLoop tx writes).outcome = .returned 0 ∧ NewlineRefused writes)
      ∨ ((sendNewlineLoop tx writes).outcome = .returned 1
        ∧ (sendNewlineLoop tx writes).tx = tx ++ [0x0A#8]
        ∧ ∃ sent, writes = sent ++ (sendNewlineLoop tx writes).writes ∧ NewlineSent sent)
  | [], tx => .inl rfl
  | c :: writes, tx => by
    rw [sendNewlineLoop]
    rcases c with - | - | k
    · rw [CallResult.write_error, if_pos rfl]
      have herrors : ∀ errors : List CallResult, (∀ c ∈ errors, c = .error) →
          ∀ c ∈ CallResult.error :: errors, c = .error := by
        rintro errors hall c (- | ⟨-, hc⟩)
        · rfl
        · exact hall c hc
      rcases sendNewlineLoop_cases writes tx with h | ⟨h, errors, after, hsplit, hall⟩ |
        ⟨h, htx, sent, hsent, errors, k, hsplit, hall⟩
      · exact .inl h
      · exact .inr (.inl ⟨h, .error :: errors, after, congrArg _ hsplit, herrors errors hall⟩)
      · exact .inr (.inr ⟨h, htx, .error :: sent, congrArg _ hsent, .error :: errors, k,
          congrArg _ hsplit, herrors errors hall⟩)
    · exact .inr (.inl ⟨rfl, [], writes, rfl, by simp⟩)
    · rw [write_one]
      exact .inr (.inr ⟨rfl, rfl, [.bytes k], rfl, [], k, rfl, by simp⟩)

/-- Waits in front make no difference to the loop over the newline. -/
theorem sendNewlineLoop_errors {errors : List CallResult} (h : ∀ c ∈ errors, c = .error)
    (tx : List Byte) (rest : List CallResult) :
    sendNewlineLoop tx (errors ++ rest) = sendNewlineLoop tx rest := by
  induction errors with
  | nil => rfl
  | cons c errors ih =>
    obtain rfl := h c (List.mem_cons_self ..)
    rw [List.cons_append, sendNewlineLoop, CallResult.write_error, if_pos rfl]
    exact ih fun e he => h e (List.mem_cons_of_mem _ he)

theorem NewlineSent.loop {sent : List CallResult} (h : NewlineSent sent) (tx : List Byte)
    (rest : List CallResult) :
    sendNewlineLoop tx (sent ++ rest)
      = { outcome := .returned 1, tx := tx ++ [0x0A#8], writes := rest } := by
  obtain ⟨errors, k, rfl, hall⟩ := h
  rw [List.append_assoc, sendNewlineLoop_errors hall, List.singleton_append, sendNewlineLoop,
    write_one]
  rfl

theorem NewlineRefused.loop {writes : List CallResult} (h : NewlineRefused writes)
    (tx : List Byte) : (sendNewlineLoop tx writes).outcome = .returned 0 := by
  obtain ⟨errors, after, rfl, hall⟩ := h
  rw [sendNewlineLoop_errors hall]
  rfl

section Command

variable {cmd : List Byte} {writes : List CallResult}

/-- The results the loop over the command has used. -/
theorem exists_commandEnds (hlen : cmd.length < 2 ^ 63)
    (h : (sendCommandLoop cmd [] writes).outcome ≠ .pending) :
    ∃ text, writes = text ++ (sendCommandLoop cmd [] writes).writes
      ∧ CommandEnds cmd.length text := by
  obtain ⟨-, hoffers, houtcome⟩ := sendCommandLoop_eq writes cmd [] hlen
  rcases hending : (move cmd.length cmd (writes.map CallResult.offer)).ending with - | - | -
  · obtain ⟨used, hused, hfills⟩ := fills_of_done le_rfl hending
    rw [hoffers] at hused
    obtain ⟨text, htext, hmap⟩ := exists_split hused
    exact ⟨text, htext, .inl (hmap ▸ hfills)⟩
  · obtain ⟨before, hos, hstop, htotal⟩ := stopsBefore_of_stopped le_rfl hending
    rw [hoffers, List.append_cons] at hos
    obtain ⟨text, htext, hmap⟩ := exists_split hos
    exact ⟨text, htext, .inr (hmap ▸ ⟨before, rfl, hstop, htotal⟩)⟩
  · rw [houtcome, hending] at h
    exact absurd rfl h

theorem CommandEnds.loop (hlen : cmd.length < 2 ^ 63) {text : List CallResult}
    (h : CommandEnds cmd.length text) (rest : List CallResult) :
    (sendCommandLoop cmd [] (text ++ rest)).writes = rest
      ∧ (sendCommandLoop cmd [] (text ++ rest)).outcome = .returned 1 := by
  obtain ⟨-, hoffers, houtcome⟩ := sendCommandLoop_eq (text ++ rest) cmd [] hlen
  rw [List.map_append] at hoffers houtcome
  rcases h with hfills | ⟨before, hbefore, hstop, htotal⟩
  · obtain ⟨hending, hleft⟩ := hfills.move (rest.map CallResult.offer) (le_refl cmd.length)
    rw [hleft] at hoffers
    rw [hending] at houtcome
    exact ⟨(List.map_injective_iff.2 CallResult.offer_injective hoffers).symm, houtcome⟩
  · have hstops : StopsBefore cmd.length
        (text.map CallResult.offer ++ rest.map CallResult.offer) (rest.map CallResult.offer) := by
      refine ⟨before, ?_, hstop, htotal⟩
      rw [hbefore, List.append_assoc, List.singleton_append]
    obtain ⟨hending, hleft⟩ := hstops.stopped (le_refl cmd.length)
    rw [hleft] at hoffers
    rw [hending] at houtcome
    exact ⟨(List.map_injective_iff.2 CallResult.offer_injective hoffers).symm, houtcome⟩

/-- The call once the loop over the command has ended. -/
theorem remoteRs232SendCommand_eq (h : (sendCommandLoop cmd [] writes).outcome ≠ .pending) :
    Tty.remoteRs232SendCommand cmd writes
      = sendNewlineLoop (sendCommandLoop cmd [] writes).tx (sendCommandLoop cmd [] writes).writes :=
  if_neg h

/-- The call has not returned, its newline has been refused, or it has been accepted behind what has
been accepted of the command. -/
theorem remoteRs232SendCommand_cases (writes : List CallResult) (hlen : cmd.length < 2 ^ 63) :
    (Tty.remoteRs232SendCommand cmd writes).outcome = .pending
      ∨ ((Tty.remoteRs232SendCommand cmd writes).outcome = .returned 0
        ∧ CommandRefused cmd.length writes)
      ∨ ((Tty.remoteRs232SendCommand cmd writes).outcome = .returned 1
        ∧ (∃ sent, writes = sent ++ (Tty.remoteRs232SendCommand cmd writes).writes
          ∧ CommandSent cmd.length sent)
        ∧ (Tty.remoteRs232SendCommand cmd writes).tx
          = (move cmd.length cmd (writes.map CallResult.offer)).moved ++ [0x0A#8]) := by
  by_cases hpending : (sendCommandLoop cmd [] writes).outcome = .pending
  · left
    rw [Tty.remoteRs232SendCommand]
    exact (congrArg _ (if_pos hpending)).trans hpending
  · obtain ⟨text, htext, hends⟩ := exists_commandEnds hlen hpending
    obtain ⟨htx, -, -⟩ := sendCommandLoop_eq writes cmd [] hlen
    rw [remoteRs232SendCommand_eq hpending]
    generalize sendCommandLoop cmd [] writes = r at htext htx ⊢
    rcases sendNewlineLoop_cases r.writes r.tx with h | ⟨h, hrefused⟩ |
      ⟨h, hntx, newline, hnewline, hsent⟩
    · exact .inl h
    · exact .inr (.inl ⟨h, text, r.writes, htext, hrefused, hends⟩)
    · refine .inr (.inr ⟨h, ⟨text ++ newline, ?_, text, newline, rfl, hsent, hends⟩, ?_⟩)
      · rw [List.append_assoc, ← hnewline, htext]
      · rw [hntx, htx, List.nil_append]

theorem CommandSent.outcome (hlen : cmd.length < 2 ^ 63) {sent : List CallResult}
    (h : CommandSent cmd.length sent) (rest : List CallResult) :
    (Tty.remoteRs232SendCommand cmd (sent ++ rest)).outcome = .returned 1
      ∧ (Tty.remoteRs232SendCommand cmd (sent ++ rest)).writes = rest := by
  obtain ⟨text, newline, rfl, hnewline, hends⟩ := h
  rw [List.append_assoc]
  obtain ⟨hleft, houtcome⟩ := hends.loop hlen (newline ++ rest)
  rw [remoteRs232SendCommand_eq (by rw [houtcome]; exact Outcome.noConfusion), hleft,
    hnewline.loop]
  exact ⟨rfl, rfl⟩

theorem CommandRefused.outcome (hlen : cmd.length < 2 ^ 63)
    (h : CommandRefused cmd.length writes) :
    (Tty.remoteRs232SendCommand cmd writes).outcome = .returned 0 := by
  obtain ⟨text, newline, rfl, hnewline, hends⟩ := h
  obtain ⟨hleft, houtcome⟩ := hends.loop hlen newline
  rw [remoteRs232SendCommand_eq (by rw [houtcome]; exact Outcome.noConfusion), hleft]
  exact hnewline.loop _

theorem remoteRs232SendCommand_sent (hlen : cmd.length < 2 ^ 63)
    (h : (Tty.remoteRs232SendCommand cmd writes).outcome = .returned 1) :
    (∃ sent, writes = sent ++ (Tty.remoteRs232SendCommand cmd writes).writes
        ∧ CommandSent cmd.length sent)
      ∧ (Tty.remoteRs232SendCommand cmd writes).tx
        = (move cmd.length cmd (writes.map CallResult.offer)).moved ++ [0x0A#8] := by
  rcases remoteRs232SendCommand_cases writes hlen with hp | ⟨hz, -⟩ | ⟨-, hsent⟩
  · rw [h] at hp
    cases hp
  · rw [h] at hz
    cases hz
  · exact hsent

/-- A call that returns 1 has sent the whole command unless a write(2) cut it short. -/
theorem remoteRs232SendCommand_iff (hlen : cmd.length < 2 ^ 63)
    (h : (Tty.remoteRs232SendCommand cmd writes).outcome = .returned 1) :
    (Tty.remoteRs232SendCommand cmd writes).tx = cmd ++ [0x0A#8]
      ↔ ¬ CutShort cmd.length writes := by
  obtain ⟨⟨sent, hsent, hcommand⟩, htx⟩ := remoteRs232SendCommand_sent hlen h
  rw [htx, List.append_left_inj]
  constructor
  · rintro hall ⟨after, hstops⟩
    obtain ⟨hending, -⟩ := hstops.stopped (le_refl cmd.length)
    have hshort := length_moved_stopped _ _ _ hending
    rw [hall] at hshort
    exact lt_irrefl _ hshort
  · intro hcut
    obtain ⟨-, -, houtcome⟩ := sendCommandLoop_eq writes cmd [] hlen
    rcases hending : (move cmd.length cmd (writes.map CallResult.offer)).ending with - | - | -
    · rw [(move_done hending).1, List.take_length]
    · exact absurd ⟨_, stopsBefore_of_stopped le_rfl hending⟩ hcut
    · rw [hending, if_pos rfl] at houtcome
      have hpending : (Tty.remoteRs232SendCommand cmd writes).outcome = .pending := by
        rw [Tty.remoteRs232SendCommand]
        exact (congrArg _ (if_pos houtcome)).trans houtcome
      rw [h] at hpending
      cases hpending

end Command

theorem not_cutShort {n : ℕ} {writes : List CallResult} (h : .zero ∉ writes) :
    ¬ CutShort n writes := by
  rintro ⟨after, before, hsplit, -, -⟩
  have hmem : Offer.stop ∈ writes.map CallResult.offer := by
    rw [hsplit]
    simp
  obtain ⟨c, hc, hstop⟩ := List.mem_map.1 hmem
  rcases c with - | - | k
  · cases hstop
  · exact h hc
  · cases hstop

/-! ## The data -/

theorem bytesAt_add (buf : ℤ → Byte) (p : ℤ) (i j : ℕ) :
    bytesAt buf p (i + j) = bytesAt buf p i ++ bytesAt buf (p + i) j := by
  unfold bytesAt
  rw [List.range_add, List.map_append, List.map_map]
  refine congrArg _ (List.map_congr_left fun k _ => ?_)
  rw [Function.comp_apply, Nat.cast_add, add_assoc]

@[simp] theorem length_bytesAt (buf : ℤ → Byte) (p : ℤ) (n : ℕ) :
    (bytesAt buf p n).length = n := by
  simp [bytesAt]

section MetBefore

variable {c : CallResult} {n : ℕ} {writes : List CallResult}

theorem not_metBefore_nil : ¬ MetBefore c n [] := by
  rintro ⟨before, after, h, -, -⟩
  simp at h

theorem not_metBefore_zero : ¬ MetBefore c 0 writes := by
  rintro ⟨before, after, -, -, h⟩
  exact Nat.not_lt_zero _ h

theorem metBefore_self (hn : n ≠ 0) : MetBefore c n (c :: writes) :=
  ⟨[], writes, rfl, by simp, Nat.pos_of_ne_zero hn⟩

/-- The other result that accepts nothing came first. -/
theorem not_metBefore_other {d : CallResult} (hd : ∀ k, d ≠ .bytes k) (hc : d ≠ c) :
    ¬ MetBefore c n (d :: writes) := by
  rintro ⟨before, after, h, hbytes, -⟩
  rcases before with - | ⟨e, before⟩
  · exact hc (List.cons.inj h).1
  · obtain ⟨k, rfl⟩ := hbytes e (List.mem_cons_self ..)
    exact hd k (List.cons.inj h).1

theorem metBefore_bytes (hc : ∀ k, c ≠ .bytes k) (k : Fin 0x7FFFF000) :
    MetBefore c n (.bytes k :: writes) ↔ MetBefore c (n - (k.val + 1)) writes := by
  constructor
  · rintro ⟨before, after, h, hbytes, htotal⟩
    rcases before with - | ⟨e, before⟩
    · exact absurd (List.cons.inj h).1.symm (hc k)
    · rw [List.cons_append, List.cons.injEq] at h
      obtain ⟨rfl, rfl⟩ := h
      rw [List.map_cons, CallResult.offer, total] at htotal
      exact ⟨before, after, rfl, fun d hd => hbytes d (List.mem_cons_of_mem _ hd), by omega⟩
  · rintro ⟨before, after, rfl, hbytes, htotal⟩
    refine ⟨.bytes k :: before, after, rfl, ?_, ?_⟩
    · rintro d (- | ⟨-, hd⟩)
      · exact ⟨k, rfl⟩
      · exact hbytes d hd
    · rw [List.map_cons, CallResult.offer, total]
      omega

end MetBefore

/-- What the loop over the data comes to, from `b` on. -/
structure Sending.Ends (buf : ℤ → Byte) (writes : List CallResult) (b : Sending)
    (r : Sending × Outcome × List CallResult) : Prop where
  aborts : r.2.1 = .aborted ↔ MetBefore .error b.r.toNat writes
  stops : r.2.1 = .returned (-1) ↔ MetBefore .zero b.r.toNat writes
  whole : r.2.1 = .returned 1 → r.1.tx = b.tx ++ bytesAt buf b.p b.r.toNat
  visited : ∀ p ∈ r.1.visited, p ∈ b.visited ∨ b.p ≤ p ∧ p ≤ b.p + b.r.toNat

/-- The loop is over, or waits. -/
theorem Sending.ends_rest (buf : ℤ → Byte) {writes : List CallResult} {b : Sending}
    {o : Outcome} (h : ∀ c, ¬ MetBefore c b.r.toNat writes)
    (ho : o = .returned 1 ∧ b.r.toNat = 0 ∨ o = .pending) (rest : List CallResult) :
    Sending.Ends buf writes b (b, o, rest) := by
  refine ⟨iff_of_false (fun hr => ?_) (h _), iff_of_false (fun hr => ?_) (h _), fun hr => ?_,
    fun p hp => .inl hp⟩
  · rcases ho with ⟨rfl, -⟩ | rfl
    · cases hr
    · cases hr
  · rcases ho with ⟨rfl, -⟩ | rfl
    · exact absurd (Outcome.returned.inj hr) (by decide)
    · cases hr
  · rcases ho with ⟨-, hzero⟩ | rfl
    · rw [hzero]
      simp [bytesAt]
    · cases hr

/-- A write(2) that accepts something. -/
theorem writeDataLoop_piece (buf : ℤ → Byte) (k : Fin 0x7FFFF000) (writes : List CallResult)
    {b : Sending} (hne : b.r.toNat ≠ 0) (hlt : b.r.toNat < 2 ^ 31) :
    let wd := min (k.val + 1) b.r.toNat
    (b.r - BitVec.ofNat 32 wd).toNat = b.r.toNat - wd
      ∧ writeDataLoop buf (.bytes k :: writes) b = writeDataLoop buf writes
        { p := b.p + wd, visited := b.visited ++ [b.p + wd], r := b.r - BitVec.ofNat 32 wd
          tx := b.tx ++ bytesAt buf b.p wd } := by
  intro wd
  have hwd : wd = min (k.val + 1) b.r.toNat := rfl
  have hsize : (BitVec.ofInt 64 b.r.toInt).toNat = b.r.toNat := by
    rw [BitVec.toInt_eq_toNat_of_lt (by omega), BitVec.toNat_ofInt]
    omega
  have hnat : (BitVec.ofNat 32 wd).toNat = wd := by
    rw [BitVec.toNat_ofNat]
    omega
  have hassert : BitVec.ofNat 32 wd ≤ b.r := by
    rw [BitVec.le_def, hnat]
    omega
  refine ⟨by rw [BitVec.toNat_sub_of_le hassert, hnat], ?_⟩
  rw [writeDataLoop, if_neg (fun h => hne (by rw [h]; rfl))]
  dsimp only
  rw [hsize, CallResult.write_bytes (by omega), ← hwd, if_neg (by omega), BitVec.ofInt_natCast,
    if_neg (not_not.2 hassert), Int.toNat_natCast]

theorem writeDataLoop_ends (buf : ℤ → Byte) : ∀ (writes : List CallResult) (b : Sending),
    b.r.toNat < 2 ^ 31 → Sending.Ends buf writes b (writeDataLoop buf writes b)
  | [], b, _ => by
    rw [writeDataLoop]
    refine Sending.ends_rest buf (fun c => not_metBefore_nil) ?_ _
    split_ifs with hr
    · exact .inl ⟨rfl, by rw [hr]; rfl⟩
    · exact .inr rfl
  | c :: writes, b, hlt => by
    by_cases hr : b.r = 0
    · have hzero : b.r.toNat = 0 := by rw [hr]; rfl
      rw [writeDataLoop, if_pos hr]
      refine Sending.ends_rest buf (fun c => ?_) (.inl ⟨rfl, hzero⟩) _
      rw [hzero]
      exact not_metBefore_zero
    · have hne : b.r.toNat ≠ 0 := fun h => hr (BitVec.eq_of_toNat_eq h)
      rcases c with - | - | k
      · have hone : (BitVec.ofInt 32 (-1)).toNat = 2 ^ 32 - 1 := rfl
        have hassert : ¬ BitVec.ofInt 32 (-1) ≤ b.r := by
          rw [BitVec.le_def, hone]
          omega
        rw [writeDataLoop, if_neg hr]
        dsimp only
        rw [CallResult.write_error, if_neg (by decide), if_pos hassert]
        exact ⟨iff_of_true rfl (metBefore_self hne),
          iff_of_false Outcome.noConfusion (not_metBefore_other nofun nofun),
          Outcome.noConfusion, fun p hp => .inl hp⟩
      · have hsize : (BitVec.ofInt 64 b.r.toInt).toNat = b.r.toNat := by
          rw [BitVec.toInt_eq_toNat_of_lt (by omega), BitVec.toNat_ofInt]
          omega
        rw [writeDataLoop, if_neg hr]
        dsimp only
        rw [hsize, CallResult.write_zero (by omega), if_pos rfl]
        exact ⟨iff_of_false Outcome.noConfusion (not_metBefore_other nofun nofun),
          iff_of_true rfl (metBefore_self hne),
          fun h => absurd (Outcome.returned.inj h) (by decide), fun p hp => .inl hp⟩
      · obtain ⟨hleft, hloop⟩ := writeDataLoop_piece buf k writes hne hlt
        set wd := min (k.val + 1) b.r.toNat with hwd
        have hmet : ∀ c : CallResult, (∀ l, c ≠ .bytes l) →
            (MetBefore c (b.r.toNat - wd) writes
              ↔ MetBefore c b.r.toNat (.bytes k :: writes)) := by
          intro c hc
          rw [metBefore_bytes hc, hwd]
          rw [show b.r.toNat - min (k.val + 1) b.r.toNat = b.r.toNat - (k.val + 1) by omega]
        have ih := writeDataLoop_ends buf writes
          { p := b.p + wd, visited := b.visited ++ [b.p + wd], r := b.r - BitVec.ofNat 32 wd
            tx := b.tx ++ bytesAt buf b.p wd } (by dsimp only; omega)
        obtain ⟨haborts, hstops, hwhole, hvisited⟩ := ih
        dsimp only at haborts hstops hwhole hvisited
        rw [hleft] at haborts hstops hwhole hvisited
        rw [hloop]
        refine ⟨haborts.trans (hmet _ nofun), hstops.trans (hmet _ nofun), fun h => ?_,
          fun p hp => ?_⟩
        · rw [hwhole h, List.append_assoc, ← bytesAt_add, Nat.add_sub_cancel' (by omega)]
        · rcases hvisited p hp with hin | hin
          · rcases List.mem_append.1 hin with hin | hin
            · exact .inl hin
            · rw [List.mem_singleton.1 hin]
              right
              omega
          · right
            omega

/-- From 80000000 (hex) bytes on the first write(2) is an error: the assertion fails, or the one count
that passes it sends nothing and moves the pointer to the byte before the buffer. -/
theorem writeDataLoop_large (buf : ℤ → Byte) (c : CallResult) (writes : List CallResult)
    {b : Sending} (h : 2 ^ 31 ≤ b.r.toNat) :
    (writeDataLoop buf (c :: writes) b).2.1 = .aborted
      ∨ ((writeDataLoop buf (c :: writes) b).1.tx = b.tx
        ∧ b.p - 1 ∈ (writeDataLoop buf (c :: writes) b).1.visited) := by
  have hne : b.r ≠ 0 := by
    intro h0
    rw [h0] at h
    exact absurd h (by decide)
  have hlt := b.r.isLt
  have hint : b.r.toInt = b.r.toNat - 2 ^ 32 := by
    rw [BitVec.toInt_eq_toNat_cond, if_neg (by omega)]
    rfl
  have hsize : c.write (BitVec.ofInt 64 b.r.toInt).toNat = -1 := by
    refine if_pos ?_
    rw [hint, BitVec.toNat_ofInt]
    omega
  rw [writeDataLoop, if_neg hne]
  dsimp only
  rw [hsize, if_neg (by decide)]
  by_cases hassert : BitVec.ofInt 32 (-1) ≤ b.r
  · right
    rw [if_neg (not_not.2 hassert)]
    have hall : b.r = BitVec.ofInt 32 (-1) := by
      rw [BitVec.le_def] at hassert
      have hone : (BitVec.ofInt 32 (-1)).toNat = 2 ^ 32 - 1 := rfl
      exact BitVec.eq_of_toNat_eq (by omega)
    have hleft : b.r - BitVec.ofInt 32 (-1) = 0 := by
      rw [hall]
      exact BitVec.sub_self _
    rw [hleft]
    rcases writes with - | ⟨c', writes⟩
    · rw [writeDataLoop]
      simp [bytesAt, sub_eq_add_neg]
    · rw [writeDataLoop, if_pos rfl]
      simp [bytesAt, sub_eq_add_neg]
  · rw [if_pos hassert]
    exact .inl rfl

theorem writeDataLoop_returned (buf : ℤ → Byte) : ∀ (writes : List CallResult) (b : Sending) {v : ℤ},
    (writeDataLoop buf writes b).2.1 = .returned v → v = 1 ∨ v = -1
  | [], b, v, h => by
    rw [writeDataLoop] at h
    split_ifs at h
    exact .inl (Outcome.returned.inj h).symm
  | c :: writes, b, v, h => by
    rw [writeDataLoop] at h
    dsimp only at h
    split_ifs at h
    · exact .inl (Outcome.returned.inj h).symm
    · exact .inr (Outcome.returned.inj h).symm
    · exact writeDataLoop_returned buf writes _ h

section Write

variable (mem : HostMem) (line : ℕ) (addr : BitVec 64) (count : BitVec 32) (buf : ℤ → Byte)
  (answer : List Byte → List Byte) (tty : Tty)

/-- The loop over the data, as the call enters it. -/
theorem writeDataLoop_start (tx : List Byte) (writes : List CallResult) :
    let r := writeDataLoop buf writes ⟨0, [0], count, tx⟩
    (r.2.1 ≠ .aborted ∧ (∀ p ∈ r.1.visited, 0 ≤ p ∧ p ≤ count.toNat)
        ↔ ¬ DataError count.toNat writes)
      ∧ (r.2.1 = .returned 1 → ¬ DataError count.toNat writes →
        r.1.tx = tx ++ bytesAt buf 0 count.toNat)
      ∧ (r.2.1 = .returned 1 → DataError count.toNat writes → r.1.tx = tx ∧ count.toNat ≠ 0) := by
  intro r
  rcases Nat.lt_or_ge count.toNat (2 ^ 31) with hlt | hge
  · have hends := writeDataLoop_ends buf writes ⟨0, [0], count, tx⟩ hlt
    rw [DataError, if_neg (by omega)]
    refine ⟨⟨fun h herror => h.1 (hends.aborts.2 herror), fun h => ⟨mt hends.aborts.1 h, ?_⟩⟩,
      fun hret _ => hends.whole hret, fun hret herror => ?_⟩
    · intro p hp
      rcases hends.visited p hp with hin | hin
      · rw [List.mem_singleton.1 hin]
        omega
      · dsimp only at hin
        omega
    · have haborts := hends.aborts.2 herror
      rw [hret] at haborts
      cases haborts
  · have herror : DataError count.toNat writes ↔ writes ≠ [] := by rw [DataError, if_pos hge]
    rcases writes with - | ⟨c, writes⟩
    · have hne : count ≠ 0 := by
        rintro rfl
        exact absurd hge (by decide)
      have hr : r = (⟨0, [0], count, tx⟩, .pending, []) := by
        simp only [r, writeDataLoop, if_neg hne]
      rw [hr, herror]
      simp
    · have hlarge := writeDataLoop_large buf c writes (b := ⟨0, [0], count, tx⟩) hge
      rw [herror]
      have hcons := List.cons_ne_nil c writes
      refine ⟨⟨fun h => ?_, fun h => absurd hcons h⟩, fun _ h => absurd hcons h, fun hret _ => ?_⟩
      · rcases hlarge with habort | ⟨-, hvisited⟩
        · exact absurd habort h.1
        · have hfirst := (h.2 _ hvisited).1
          dsimp only at hfirst
          omega
      · rcases hlarge with habort | ⟨htx, -⟩
        · rw [hret] at habort
          cases habort
        · exact ⟨htx, by omega⟩

theorem length_writebCommand : (writebCommand addr count).length < 2 ^ 63 := by
  have ha := numeral_length_le (k := 16) (by omega) addr.isLt
  have hc := numeral_length_le (k := 8) (by omega) count.isLt
  simp only [writebCommand, ascii, List.length_append, List.length_map]
  simp
  omega

/-- The loop over the data has not ended well. -/
def Failed (o : Outcome) : Prop := o = .aborted ∨ o = .returned (-1)

/-- What the call comes to once its command is on the line. -/
theorem remoteRs232Write_sent {sent : Sent}
    (hsent : sent = Tty.remoteRs232SendCommand (writebCommand addr count) tty.writes)
    (hret : sent.outcome = .returned 1) :
    let data := writeDataLoop buf sent.writes ⟨0, [0], count, sent.tx⟩
    let r := Tty.remoteRs232Write mem line addr count buf answer tty
    r.tx = data.1.tx ∧ r.visited = data.1.visited
      ∧ (∀ o, Failed o → (r.outcome = o ↔ data.2.1 = o))
      ∧ (r.outcome = .returned 1 → data.2.1 = .returned 1) := by
  intro data r
  have hr : r = Tty.remoteRs232Write mem line addr count buf answer tty := rfl
  unfold Tty.remoteRs232Write at hr
  dsimp only at hr
  rw [← hsent, hret, if_neg Outcome.noConfusion, if_neg (by decide)] at hr
  split_ifs at hr with hdata
  · rw [hr]
    exact ⟨rfl, rfl, fun o _ => Iff.rfl, fun h => absurd h hdata⟩
  · rw [not_not] at hdata
    rw [hr]
    refine ⟨rfl, rfl, fun o ho => iff_of_false ?_ ?_, fun _ => hdata⟩
    · have hresponse := getResponse_ne_aborted mem line 128 1000000
        { tty with rx := answer data.1.tx, writes := data.2.2 }
      intro h
      split at h
      · rcases ho with rfl | rfl
        · cases h
        · split_ifs at h
          · exact absurd (Outcome.returned.inj h) (by decide)
          · exact absurd (Outcome.returned.inj h) (by decide)
      · rename_i hnot
        rcases ho with rfl | rfl
        · exact hresponse h
        · exact hnot _ h
    · rw [show data.2.1 = .returned 1 from hdata]
      rintro rfl
      rcases ho with ho | ho
      · cases ho
      · exact absurd (Outcome.returned.inj ho) (by decide)

/-- Once everything has been accepted the result is that of the response. -/
theorem remoteRs232Write_accepted {sent : Sent} {data : Sending × Outcome × List CallResult}
    (hsent : Tty.remoteRs232SendCommand (writebCommand addr count) tty.writes = sent)
    (hret : sent.outcome = .returned 1)
    (hdata : writeDataLoop buf sent.writes ⟨0, [0], count, sent.tx⟩ = data)
    (hall : data.2.1 = .returned 1) :
    let response := remoteRs232GetResponse mem line 128 1000000
      { tty with rx := answer data.1.tx, writes := data.2.2 }
    let r := Tty.remoteRs232Write mem line addr count buf answer tty
    r.tx = data.1.tx ∧ r.rx = response.tty.rx
      ∧ (response.outcome = .returned 1 → r.outcome = .returned 1) := by
  intro response r
  have hr : r = Tty.remoteRs232Write mem line addr count buf answer tty := rfl
  unfold Tty.remoteRs232Write at hr
  dsimp only at hr
  rw [hsent, hret, if_neg Outcome.noConfusion, if_neg (by decide), hdata, hall,
    if_neg (not_not.2 rfl)] at hr
  rw [hr]
  refine ⟨rfl, rfl, fun hone => ?_⟩
  dsimp only
  rw [show (remoteRs232GetResponse mem line 128 1000000
    { tty with rx := answer data.1.tx, writes := data.2.2 }).outcome = .returned 1 from hone]
  rfl

/-- The results that are left when the command is on the line are those its data find. -/
theorem exists_sent_iff
    (hret : (Tty.remoteRs232SendCommand (writebCommand addr count) tty.writes).outcome = .returned 1)
    (P : List CallResult → Prop) :
    (∃ sent data, tty.writes = sent ++ data
        ∧ CommandSent (writebCommand addr count).length sent ∧ P data)
      ↔ P (Tty.remoteRs232SendCommand (writebCommand addr count) tty.writes).writes := by
  have hlen := length_writebCommand addr count
  obtain ⟨⟨sent, hwrites, hcommand⟩, -⟩ := remoteRs232SendCommand_sent hlen hret
  refine ⟨?_, fun h => ⟨sent, _, hwrites, hcommand, h⟩⟩
  rintro ⟨sent', data, hsplit, hcommand', hdata⟩
  rw [hsplit, (hcommand'.outcome hlen data).2]
  exact hdata

/-- Without its newline on the line the call has neither sent data nor failed. -/
theorem remoteRs232Write_unsent
    (hret : (Tty.remoteRs232SendCommand (writebCommand addr count) tty.writes).outcome ≠ .returned 1) :
    let r := Tty.remoteRs232Write mem line addr count buf answer tty
    ¬ Failed r.outcome ∧ r.outcome ≠ .returned 1 ∧ r.visited = []
      ∧ ∀ P : List CallResult → Prop, ¬ ∃ sent data, tty.writes = sent ++ data
        ∧ CommandSent (writebCommand addr count).length sent ∧ P data := by
  intro r
  have hlen := length_writebCommand addr count
  have hno : ∀ P : List CallResult → Prop, ¬ ∃ sent data, tty.writes = sent ++ data
      ∧ CommandSent (writebCommand addr count).length sent ∧ P data := by
    rintro P ⟨sent, data, hsplit, hcommand, -⟩
    rw [hsplit] at hret
    exact hret (hcommand.outcome hlen data).1
  have hr : r = Tty.remoteRs232Write mem line addr count buf answer tty := rfl
  unfold Tty.remoteRs232Write at hr
  dsimp only at hr
  rcases remoteRs232SendCommand_cases tty.writes hlen with h | ⟨h, -⟩ | ⟨h, -⟩
  · rw [if_pos h] at hr
    rw [hr]
    exact ⟨not_or.2 ⟨Outcome.noConfusion, Outcome.noConfusion⟩, Outcome.noConfusion, rfl, hno⟩
  · rw [if_neg (by rw [h]; exact Outcome.noConfusion), if_pos h] at hr
    rw [hr]
    exact ⟨not_or.2 ⟨Outcome.noConfusion, fun h => absurd (Outcome.returned.inj h) (by decide)⟩,
      fun h => absurd (Outcome.returned.inj h) (by decide), rfl, hno⟩
  · exact absurd h hret

theorem remoteRs232Write_returned {v : ℤ}
    (h : (Tty.remoteRs232Write mem line addr count buf answer tty).outcome = .returned v) :
    v = 1 ∨ v = 0 ∨ v = -1 := by
  unfold Tty.remoteRs232Write at h
  dsimp only at h
  split_ifs at h with hpending hrefused hdata
  · exact .inr (.inl (Outcome.returned.inj h).symm)
  · rcases writeDataLoop_returned _ _ _ h with hv | hv
    · exact .inl hv
    · exact .inr (.inr hv)
  · split at h
    · split_ifs at h
      · exact .inr (.inl (Outcome.returned.inj h).symm)
      · exact .inl (Outcome.returned.inj h).symm
    · rename_i hnot
      exact absurd h (hnot v)

/-- Below 80000000 (hex) bytes it is a zero in the data that makes the call return -1, and 1 is not
returned after an error. -/
theorem remoteRs232Write_stops_iff (hcount : count.toNat < 2 ^ 31) :
    ((Tty.remoteRs232Write mem line addr count buf answer tty).outcome = .returned (-1)
        ↔ WriteZero addr count tty.writes)
      ∧ ((Tty.remoteRs232Write mem line addr count buf answer tty).outcome = .returned 1 →
        ¬ WriteError addr count tty.writes) := by
  by_cases hret : (Tty.remoteRs232SendCommand (writebCommand addr count) tty.writes).outcome
      = .returned 1
  · obtain ⟨-, -, hfailed, hone⟩ := remoteRs232Write_sent mem line addr count buf answer tty rfl hret
    obtain ⟨haborts, hstops, -, -⟩ := writeDataLoop_ends buf
      (Tty.remoteRs232SendCommand (writebCommand addr count) tty.writes).writes
      ⟨0, [0], count, (Tty.remoteRs232SendCommand (writebCommand addr count) tty.writes).tx⟩ hcount
    refine ⟨(hfailed _ (.inr rfl)).trans (hstops.trans (exists_sent_iff addr count tty hret _).symm),
      fun h herror => ?_⟩
    have hdata := (exists_sent_iff addr count tty hret _).1 herror
    rw [DataError, if_neg (by omega)] at hdata
    have hone := hone h
    rw [haborts.2 hdata] at hone
    cases hone
  · obtain ⟨hfailed, hone, -, hno⟩ :=
      remoteRs232Write_unsent mem line addr count buf answer tty hret
    exact ⟨iff_of_false (fun h => hfailed (.inr h)) (hno _), fun h => absurd h hone⟩

/-- What a call that returns 1 has sent is its command line and its data, unless a write(2) came to 0 in
the command or to -1 in the data. -/
theorem remoteRs232Write_tx_iff
    (h : (Tty.remoteRs232Write mem line addr count buf answer tty).outcome = .returned 1) :
    (Tty.remoteRs232Write mem line addr count buf answer tty).tx
        = writebCommand addr count ++ [0x0A#8] ++ bytesAt buf 0 count.toNat
      ↔ ¬ CutShort (writebCommand addr count).length tty.writes ∧ ¬ WriteError addr count tty.writes := by
  have hlen := length_writebCommand addr count
  have hret : (Tty.remoteRs232SendCommand (writebCommand addr count) tty.writes).outcome
      = .returned 1 := by
    by_contra hret
    exact (remoteRs232Write_unsent mem line addr count buf answer tty hret).2.1 h
  have htx := (remoteRs232SendCommand_sent hlen hret).2
  have hcut := remoteRs232SendCommand_iff hlen hret
  have herror : WriteError addr count tty.writes ↔ DataError count.toNat
      (Tty.remoteRs232SendCommand (writebCommand addr count) tty.writes).writes :=
    exists_sent_iff addr count tty hret _
  obtain ⟨hrtx, -, -, hone⟩ := remoteRs232Write_sent mem line addr count buf answer tty rfl hret
  obtain ⟨-, hwhole, hlost⟩ := writeDataLoop_start count buf
    (Tty.remoteRs232SendCommand (writebCommand addr count) tty.writes).tx
    (Tty.remoteRs232SendCommand (writebCommand addr count) tty.writes).writes
  rw [hrtx, herror]
  by_cases hdata : DataError count.toNat
      (Tty.remoteRs232SendCommand (writebCommand addr count) tty.writes).writes
  · obtain ⟨hkept, hcount⟩ := hlost (hone h) hdata
    refine ⟨fun hall => ?_, fun hall => absurd hdata hall.2⟩
    have hshort := congrArg List.length (moved_append_left (tty.writes.map CallResult.offer)
      (writebCommand addr count).length (writebCommand addr count))
    have hlength := congrArg List.length (hkept.symm.trans hall)
    rw [htx] at hlength
    simp only [List.length_append, List.length_singleton, length_bytesAt] at hshort hlength
    omega
  · rw [hwhole (hone h) hdata, List.append_left_inj, hcut]
    exact ⟨fun h => ⟨h, hdata⟩, fun h => h.1⟩

/-- A call that returns 1 has sent its command and its data unless a write(2) came to 0 in the command
or to -1 in the data; and a -1 in the data is what makes the assertion fail or moves the pointer out
of the buffer. -/
theorem transmits_iff (cmd : List Byte) (hcmd : cmd.length < 2 ^ 63) :
    ((Tty.remoteRs232SendCommand cmd tty.writes).outcome = .returned 1 →
        ((Tty.remoteRs232SendCommand cmd tty.writes).tx = cmd ++ [0x0A#8]
          ↔ ¬ CutShort cmd.length tty.writes))
      ∧ ((Tty.remoteRs232Write mem line addr count buf answer tty).outcome = .returned 1 →
        ((Tty.remoteRs232Write mem line addr count buf answer tty).tx
            = writebCommand addr count ++ [0x0A#8] ++ bytesAt buf 0 count.toNat
          ↔ ¬ CutShort (writebCommand addr count).length tty.writes
            ∧ ¬ WriteError addr count tty.writes))
      ∧ ((Tty.remoteRs232Write mem line addr count buf answer tty).Safe count
        ↔ ¬ WriteError addr count tty.writes) := by
  refine ⟨remoteRs232SendCommand_iff hcmd,
    remoteRs232Write_tx_iff mem line addr count buf answer tty, ?_⟩
  by_cases hret : (Tty.remoteRs232SendCommand (writebCommand addr count) tty.writes).outcome
      = .returned 1
  · have herror : WriteError addr count tty.writes ↔ DataError count.toNat
        (Tty.remoteRs232SendCommand (writebCommand addr count) tty.writes).writes :=
      exists_sent_iff addr count tty hret _
    obtain ⟨-, hvisited, hfailed, -⟩ :=
      remoteRs232Write_sent mem line addr count buf answer tty rfl hret
    obtain ⟨hsafe, -, -⟩ := writeDataLoop_start count buf
      (Tty.remoteRs232SendCommand (writebCommand addr count) tty.writes).tx
      (Tty.remoteRs232SendCommand (writebCommand addr count) tty.writes).writes
    rw [WriteCall.Safe, hvisited, Ne, hfailed _ (.inl rfl), herror]
    exact hsafe
  · obtain ⟨hfailed, -, hvisited, hno⟩ :=
      remoteRs232Write_unsent mem line addr count buf answer tty hret
    refine iff_of_true ⟨fun h => hfailed (.inl h), fun p hp => ?_⟩ (hno _)
    rw [hvisited] at hp
    cases hp

end Write

theorem not_writeError {addr : BitVec 64} {count : BitVec 32} {writes : List CallResult}
    (h : .error ∉ writes) (hcount : count.toNat < 2 ^ 31) : ¬ WriteError addr count writes := by
  rintro ⟨sent, data, rfl, -, herror⟩
  rw [DataError, if_neg (by omega)] at herror
  obtain ⟨before, after, rfl, -, -⟩ := herror
  simp at h

theorem not_writeZero {addr : BitVec 64} {count : BitVec 32} {writes : List CallResult}
    (h : .zero ∉ writes) : ¬ WriteZero addr count writes := by
  rintro ⟨sent, data, rfl, -, before, after, rfl, -, -⟩
  simp at h

/-- Two bytes for 20000 (hex), in pieces. -/
theorem transmits_iff_pieces :
    let tty : Tty :=
      { clock := [0, 0, 0, 0, 0], reads := [.bytes 0, .bytes 0, .bytes 0, .bytes 0], rx := []
        writes := [.bytes 4, .bytes 40, .bytes 0, .bytes 0, .bytes 0] }
    let r := tty.remoteRs232Write (fun _ => 0) 0 0x20000 2 (fun i => BitVec.ofInt 8 i)
      (fun _ => ascii "OK" ++ crlf)
    (Tty.remoteRs232SendCommand (ascii "TEST") tty.writes).tx = ascii "TEST" ++ [0x0A#8]
      ∧ r.tx = ascii "WRITEB 20000 2" ++ [0x0A#8, 0#8, 1#8] ∧ r.Safe 2 := by
  intro tty r
  obtain ⟨hcommand, hdata, hsafe⟩ := transmits_iff (fun _ => 0) 0 0x20000 2
    (fun i => BitVec.ofInt 8 i) (fun _ => ascii "OK" ++ crlf) tty (ascii "TEST") (by decide)
  have hcut : ∀ n, ¬ CutShort n tty.writes := fun n => not_cutShort (by decide)
  have herror : ¬ WriteError 0x20000 2 tty.writes := not_writeError (by decide) (by decide)
  refine ⟨(hcommand (by decide)).2 (hcut _), ?_, hsafe.2 herror⟩
  rw [(hdata (by decide)).2 ⟨hcut _, herror⟩]
  decide

/-- After a zero the newline goes out behind half a command; a -1 in the data fails the assertion, or
for the largest count moves the pointer in front of the buffer. -/
theorem not_transmits_zero_error :
    ((Tty.remoteRs232SendCommand (ascii "TEST") [.bytes 1, .zero, .bytes 0]).outcome = .returned 1
        ∧ (Tty.remoteRs232SendCommand (ascii "TEST") [.bytes 1, .zero, .bytes 0]).tx
          = ascii "TE" ++ [0x0A#8])
      ∧ (Tty.remoteRs232Write (fun _ => 0) 0 0x20000 2 (fun _ => 0) (fun _ => [])
          ⟨[], [], [], [.bytes 40, .bytes 0, .error, .bytes 1]⟩).outcome = .aborted
      ∧ -1 ∈ (Tty.remoteRs232Write (fun _ => 0) 0 0x20000 0xFFFFFFFF (fun _ => 0) (fun _ => [])
          ⟨[], [], [], [.bytes 40, .bytes 0, .error]⟩).visited := by
  decide

end RemoteX86
