import RemoteX86.Proofs.Transmit

/-!
# What a READB delivers

The three loops of `remote_rs232_read` are transfers in pieces from the line: whatever read(2) comes
to, each takes the next bytes of the line or meets its end of file.  Callers test the result for zero
only, and the ways to fail give -1 but for two.
-/

namespace RemoteX86

open Hex Memory Pieces

/-! ## The loops -/

theorem CallResult.read_error (n : ℕ) (rx : List Byte) :
    CallResult.error.read n rx = some (-1, []) := rfl

theorem CallResult.read_zero (n : ℕ) (rx : List Byte) : CallResult.zero.read n rx = some (0, []) := rfl

theorem CallResult.read_nil (k : Fin 0x7FFFF000) (n : ℕ) : (CallResult.bytes k).read n [] = none := by
  rw [CallResult.read, List.take_nil, if_pos rfl]

theorem CallResult.read_bytes (k : Fin 0x7FFFF000) {n : ℕ} (hn : n ≠ 0) {rx : List Byte}
    (hrx : rx ≠ []) :
    (CallResult.bytes k).read n rx = some (((min (k.val + 1) (min n rx.length) : ℕ) : ℤ),
      rx.take (min (k.val + 1) (min n rx.length))) := by
  have htake : rx.take (min (k.val + 1) n) = rx.take (min (k.val + 1) (min n rx.length)) := by
    rw [List.take_eq_take_min, Nat.min_assoc]
  have hlen : (rx.take (min (k.val + 1) (min n rx.length))).length
      = min (k.val + 1) (min n rx.length) := by
    rw [List.length_take]
    omega
  have hpos : 0 < rx.length := List.length_pos_iff.2 hrx
  unfold CallResult.read
  dsimp only
  rw [htake, if_neg (fun h => by rw [h, List.length_nil] at hlen; omega), hlen]

/-- What `read_forced` makes of the end of its loop, with `r` bytes read before and `got` now. -/
def forcedOutcome (sz r got : ℕ) : Ending → Outcome
  | .done => .returned (r + sz : ℕ)
  | .stopped => .returned (if r + got = 0 then -1 else (r + got : ℕ))
  | .pending => .pending

theorem readForcedLoop_eq : ∀ (reads : List CallResult) (sz r : ℕ) (buf rx : List Byte),
    (readForcedLoop sz r buf rx reads).buf
        = buf ++ (move sz rx (reads.map CallResult.offer)).moved
      ∧ (readForcedLoop sz r buf rx reads).rx = (move sz rx (reads.map CallResult.offer)).left
      ∧ (move sz rx (reads.map CallResult.offer)).offers
        = (readForcedLoop sz r buf rx reads).reads.map CallResult.offer
      ∧ (readForcedLoop sz r buf rx reads).outcome
        = forcedOutcome sz r (move sz rx (reads.map CallResult.offer)).moved.length
          (move sz rx (reads.map CallResult.offer)).ending
  | reads, 0, r, buf, rx => by
    rw [move_zero]
    rcases reads with - | ⟨c, reads⟩
    · simp [readForcedLoop, forcedOutcome]
    · simp [readForcedLoop, forcedOutcome]
  | [], sz + 1, r, buf, rx => by
    simp [readForcedLoop, move, forcedOutcome]
  | c :: reads, sz + 1, r, buf, rx => by
    have hne : sz + 1 ≠ 0 := Nat.succ_ne_zero sz
    rw [readForcedLoop, if_neg hne, List.map_cons]
    rcases c with - | - | k
    · rw [CallResult.read_error, CallResult.offer, move_stall hne]
      exact readForcedLoop_eq reads (sz + 1) r buf rx
    · rw [CallResult.read_zero, CallResult.offer, move_stop hne]
      simp [forcedOutcome]
    · rcases eq_or_ne rx [] with rfl | hrx
      · rw [CallResult.read_nil, CallResult.offer, move_nil hne]
        simp [forcedOutcome, CallResult.offer]
      · have hpos : 0 < rx.length := List.length_pos_iff.2 hrx
        rw [CallResult.read_bytes k hne hrx, CallResult.offer, move_piece hne hrx]
        set got := min (k.val + 1) (min (sz + 1) rx.length) with hgot
        obtain ⟨hbuf, hleft, hoffers, houtcome⟩ := readForcedLoop_eq reads (sz + 1 - got) (r + got)
          (buf ++ rx.take got) (rx.drop got)
        have hlen : (rx.take got).length = got := by
          rw [List.length_take]
          omega
        dsimp only
        rw [if_neg (by omega), if_neg (by omega), Int.toNat_natCast, hlen, hbuf, hleft, hoffers,
          houtcome, List.append_assoc, List.length_append, hlen]
        refine ⟨rfl, rfl, rfl, ?_⟩
        rcases (move (sz + 1 - got) (rx.drop got) (reads.map CallResult.offer)).ending with - | - | -
        · simp only [forcedOutcome]
          rw [show r + got + (sz + 1 - got) = r + (sz + 1) by omega]
        · simp only [forcedOutcome, Nat.add_assoc]
        · rfl

/-- What the loop over the data comes to. -/
def dataOutcome : Ending → Outcome
  | .done => .returned 1
  | .stopped => .returned (-1)
  | .pending => .pending

theorem readDataLoop_eq : ∀ (reads : List CallResult) (r : BitVec 32) (buf rx : List Byte),
    (readDataLoop r buf rx reads).buf
        = buf ++ (move r.toNat rx (reads.map CallResult.offer)).moved
      ∧ (readDataLoop r buf rx reads).rx = (move r.toNat rx (reads.map CallResult.offer)).left
      ∧ (move r.toNat rx (reads.map CallResult.offer)).offers
        = (readDataLoop r buf rx reads).reads.map CallResult.offer
      ∧ (readDataLoop r buf rx reads).outcome
        = dataOutcome (move r.toNat rx (reads.map CallResult.offer)).ending
  | [], r, buf, rx => by
    rw [readDataLoop, List.map_nil]
    by_cases hr : r = 0
    · rw [hr, show (0 : BitVec 32).toNat = 0 from rfl, move_zero]
      simp [dataOutcome]
    · have hne : r.toNat ≠ 0 := fun h => hr (BitVec.eq_of_toNat_eq h)
      rw [if_neg hr, move, if_neg hne]
      simp [dataOutcome]
  | c :: reads, r, buf, rx => by
    rw [readDataLoop, List.map_cons]
    split_ifs with hr
    · rw [hr, show (0 : BitVec 32).toNat = 0 from rfl, move_zero]
      simp [dataOutcome]
    · have hne : r.toNat ≠ 0 := fun h => hr (BitVec.eq_of_toNat_eq h)
      rcases c with - | - | k
      · rw [CallResult.read_error, CallResult.offer, move_stall hne]
        exact readDataLoop_eq reads r buf rx
      · rw [CallResult.read_zero, CallResult.offer, move_stop hne]
        simp [dataOutcome]
      · rcases eq_or_ne rx [] with rfl | hrx
        · rw [CallResult.read_nil, CallResult.offer, move_nil hne]
          simp [dataOutcome, CallResult.offer]
        · have hpos : 0 < rx.length := List.length_pos_iff.2 hrx
          rw [CallResult.read_bytes k hne hrx, CallResult.offer, move_piece hne hrx]
          set got := min (k.val + 1) (min r.toNat rx.length) with hgot
          have hlt := r.isLt
          have hnat : (BitVec.ofNat 32 got).toNat = got := by
            rw [BitVec.toNat_ofNat]
            omega
          have hassert : BitVec.ofNat 32 got ≤ r := by
            rw [BitVec.le_def, hnat]
            omega
          have hleft : (r - BitVec.ofNat 32 got).toNat = r.toNat - got := by
            rw [BitVec.toNat_sub_of_le hassert, hnat]
          have hlen : (rx.take got).length = got := by
            rw [List.length_take]
            omega
          obtain ⟨hbuf, hrest, hoffers, houtcome⟩ := readDataLoop_eq reads
            (r - BitVec.ofNat 32 got) (buf ++ rx.take got) (rx.drop got)
          dsimp only
          rw [if_neg (by omega), if_neg (by omega), BitVec.ofInt_natCast,
            if_neg (not_not.2 hassert), hlen, hbuf, hrest, ← hoffers, houtcome, hleft,
            List.append_assoc]
          exact ⟨rfl, rfl, rfl, rfl⟩

/-! ## What a loop has taken -/

/-- The next `n` bytes of the line. -/
structure Took (n : ℕ) (rx : List Byte) (reads : List CallResult) (r : Collected) : Prop where
  buf : r.buf = rx.take n
  left : r.rx = rx.drop n
  le : n ≤ rx.length
  used : ∃ used, reads = used ++ r.reads ∧ Fills n (used.map CallResult.offer)

/-- Fewer, before an end of file. -/
structure Missed (n : ℕ) (rx : List Byte) (reads : List CallResult) (r : Collected) : Prop where
  line : r.buf ++ r.rx = rx
  lt : r.buf.length < n
  used : n ≤ rx.length → ∀ used after, reads = used ++ after → ¬ Fills n (used.map CallResult.offer)

section Move

variable {n : ℕ} {rx : List Byte} {reads : List CallResult} {r : Collected}

theorem took_of_done (hbuf : r.buf = (move n rx (reads.map CallResult.offer)).moved)
    (hrx : r.rx = (move n rx (reads.map CallResult.offer)).left)
    (hoffers : (move n rx (reads.map CallResult.offer)).offers = r.reads.map CallResult.offer)
    (hdone : (move n rx (reads.map CallResult.offer)).ending = .done) : Took n rx reads r := by
  obtain ⟨hmoved, hleft, hle⟩ := move_done hdone
  obtain ⟨used, hused, hfills⟩ := fills_of_done hle hdone
  rw [hoffers] at hused
  obtain ⟨front, hfront, hmap⟩ := exists_split hused
  exact ⟨hbuf.trans hmoved, hrx.trans hleft, hle, front, hfront, hmap ▸ hfills⟩

theorem missed_of_stopped (hbuf : r.buf = (move n rx (reads.map CallResult.offer)).moved)
    (hrx : r.rx = (move n rx (reads.map CallResult.offer)).left)
    (hstopped : (move n rx (reads.map CallResult.offer)).ending = .stopped) :
    Missed n rx reads r := by
  refine ⟨?_, ?_, ?_⟩
  · rw [hbuf, hrx, moved_append_left]
  · rw [hbuf]
    exact length_moved_stopped _ _ _ hstopped
  · rintro hle used after rfl hfills
    rw [List.map_append, (hfills.move _ hle).1] at hstopped
    cases hstopped

/-- Where the reads of the loop end is told by the reads alone. -/
theorem Took.reads_eq (h : Took n rx reads r) {used after : List CallResult}
    (hsplit : reads = used ++ after) (hfills : Fills n (used.map CallResult.offer)) :
    r.reads = after := by
  obtain ⟨used', hsplit', hfills'⟩ := h.used
  have hleft := (hfills.move (after.map CallResult.offer) h.le).2
  have hleft' := (hfills'.move (r.reads.map CallResult.offer) h.le).2
  rw [← List.map_append, ← hsplit] at hleft
  rw [← List.map_append, ← hsplit', hleft] at hleft'
  exact (List.map_injective_iff.2 CallResult.offer_injective hleft').symm

end Move

theorem readForced_cases (n : ℕ) (reads : List CallResult) (rx : List Byte) :
    (readForced n reads rx).outcome = .pending
      ∨ ((readForced n reads rx).outcome = .returned n ∧ Took n rx reads (readForced n reads rx))
      ∨ ((readForced n reads rx).outcome ≠ .returned n
        ∧ Missed n rx reads (readForced n reads rx)) := by
  obtain ⟨hbuf, hrx, hoffers, houtcome⟩ := readForcedLoop_eq reads n 0 [] rx
  unfold readForced
  rw [List.nil_append] at hbuf
  rw [houtcome]
  rcases hending : (move n rx (reads.map CallResult.offer)).ending with - | - | -
  · right; left
    refine ⟨?_, took_of_done hbuf hrx hoffers hending⟩
    simp [forcedOutcome]
  · right; right
    have hlt := length_moved_stopped _ _ _ hending
    refine ⟨fun h => ?_, missed_of_stopped hbuf hrx hending⟩
    have hv := Outcome.returned.inj h
    split_ifs at hv
    omega
  · exact .inl rfl

theorem readDataLoop_cases (count : BitVec 32) (reads : List CallResult) (rx : List Byte) :
    (readDataLoop count [] rx reads).outcome = .pending
      ∨ ((readDataLoop count [] rx reads).outcome = .returned 1
        ∧ Took count.toNat rx reads (readDataLoop count [] rx reads))
      ∨ ((readDataLoop count [] rx reads).outcome = .returned (-1)
        ∧ Missed count.toNat rx reads (readDataLoop count [] rx reads)) := by
  obtain ⟨hbuf, hrx, hoffers, houtcome⟩ := readDataLoop_eq reads count [] rx
  rw [List.nil_append] at hbuf
  rw [houtcome]
  rcases hending : (move count.toNat rx (reads.map CallResult.offer)).ending with - | - | -
  · exact .inr (.inl ⟨rfl, took_of_done hbuf hrx hoffers hending⟩)
  · exact .inr (.inr ⟨rfl, missed_of_stopped hbuf hrx hending⟩)
  · exact .inl rfl

/-! ## The call -/

theorem length_readbCommand (addr : BitVec 64) (count : BitVec 32) :
    (readbCommand addr count).length < 2 ^ 63 := by
  have ha := numeral_length_le (k := 16) (by omega) addr.isLt
  have hc := numeral_length_le (k := 8) (by omega) count.isLt
  simp only [readbCommand, ascii, List.length_append, List.length_map]
  simp
  omega

/-- The line end is there, or has not come in yet, or is not what it should be. -/
theorem lineEnd_cases (reads : List CallResult) (rx : List Byte) :
    let r := readForced 2 reads rx
    r.outcome = .pending
      ∨ (r.outcome = .returned 2 ∧ r.buf = crlf ∧ rx = crlf ++ r.rx
        ∧ ∃ used, reads = used ++ r.reads ∧ Fills 2 (used.map CallResult.offer))
      ∨ (r.outcome ≠ .pending ∧ (r.outcome ≠ .returned 2 ∨ r.buf ≠ crlf) ∧ rx ≠ crlf ++ r.rx
        ∧ ∀ rest used after, rx = crlf ++ rest → reads = used ++ after →
          ¬ Fills 2 (used.map CallResult.offer)) := by
  intro r
  rcases readForced_cases 2 reads rx with hpending | ⟨hreturned, htook⟩ | ⟨hreturned, hmissed⟩
  · exact .inl hpending
  · by_cases htext : r.buf = crlf
    · refine .inr (.inl ⟨hreturned, htext, ?_, htook.used⟩)
      rw [← htext, htook.buf, htook.left, List.take_append_drop]
    · have hno : ∀ rest, rx ≠ crlf ++ rest := by
        rintro rest hrx
        refine htext ?_
        rw [htook.buf, hrx]
        rfl
      refine .inr (.inr ⟨?_, .inr htext, hno _, fun rest _ _ hrx => absurd hrx (hno rest)⟩)
      exact fun h => Outcome.noConfusion (h.symm.trans hreturned)
  · by_cases hpending : r.outcome = .pending
    · exact .inl hpending
    · refine .inr (.inr ⟨hpending, .inl hreturned, fun h => ?_, ?_⟩)
      · have hend : rx = crlf ++ (readForced 2 reads rx).rx := h
        have hshort := congrArg List.length (hmissed.line.trans hend)
        have hlt := hmissed.lt
        rw [List.length_append, List.length_append] at hshort
        simp only [crlf, List.length_cons, List.length_nil] at hshort
        omega
      · intro rest used after hrx hreads
        refine hmissed.used ?_ used after hreads
        rw [hrx, List.length_append]
        exact Nat.le_add_right _ _

/-- The rest of a response is there, or has not come in yet, or is not what it should be. -/
theorem readBody_cases (count : BitVec 32) (reads : List CallResult) (rx : List Byte) :
    let r := Tty.readBody count reads rx
    r.outcome = .pending
      ∨ (r.outcome = .returned 1 ∧ (rx = r.buf ++ crlf ++ r.rx ∧ r.buf.length = count.toNat)
        ∧ ∃ data trailer after, reads = data ++ (trailer ++ after)
          ∧ Fills count.toNat (data.map CallResult.offer) ∧ Fills 2 (trailer.map CallResult.offer))
      ∨ (r.outcome = .returned (-1) ∧ ¬ (rx = r.buf ++ crlf ++ r.rx ∧ r.buf.length = count.toNat)
        ∧ ∀ bytes rest data trailer after, rx = bytes ++ crlf ++ rest →
          bytes.length = count.toNat → reads = data ++ (trailer ++ after) →
            Fills count.toNat (data.map CallResult.offer) →
              ¬ Fills 2 (trailer.map CallResult.offer)) := by
  intro r
  have hr : r = Tty.readBody count reads rx := rfl
  unfold Tty.readBody at hr
  dsimp only at hr
  rcases readDataLoop_cases count reads rx with hdata | ⟨hdata, htook⟩ | ⟨hdata, hmissed⟩
  · rw [if_pos (by rw [hdata]; exact Outcome.noConfusion)] at hr
    rw [hr]
    exact .inl hdata
  · rw [if_neg (not_not.2 hdata)] at hr
    generalize readDataLoop count [] rx reads = data at hr hdata htook
    have hsplit : data.buf ++ data.rx = rx := by
      rw [htook.buf, htook.left, List.take_append_drop]
    have hlen : data.buf.length = count.toNat := by
      rw [htook.buf, List.length_take, Nat.min_eq_left htook.le]
    -- the line end is what follows the data, however the line is split
    have hrest : ∀ bytes rest : List Byte, rx = bytes ++ crlf ++ rest →
        bytes.length = count.toNat → data.rx = crlf ++ rest := by
      intro bytes rest hrx hbytes
      rw [htook.left, hrx, List.append_assoc, List.drop_left' hbytes]
    rcases lineEnd_cases data.reads data.rx with hpending |
      ⟨hreturned, htext, hend, used', hused', hfills'⟩ | ⟨hpending, hwrong, hend, hnot⟩
    · rw [if_pos hpending] at hr
      rw [hr]
      exact .inl rfl
    · rw [if_neg (by rw [hreturned]; exact Outcome.noConfusion),
        if_neg (not_or.2 ⟨not_not.2 hreturned, not_not.2 htext⟩)] at hr
      rw [hr]
      obtain ⟨used, hused, hfills⟩ := htook.used
      refine .inr (.inl ⟨rfl, ⟨?_, hlen⟩, used, used', (readForced 2 data.reads data.rx).reads, ?_,
        hfills, hfills'⟩)
      · rw [List.append_assoc, ← hend, hsplit]
      · rw [hused, ← hused']
    · rw [if_neg hpending, if_pos hwrong] at hr
      rw [hr]
      refine .inr (.inr ⟨rfl, fun h => hend (hrest _ _ h.1 h.2), ?_⟩)
      intro bytes rest used trailer after hrx hbytes hreads hfills
      exact hnot rest trailer after (hrest bytes rest hrx hbytes) (htook.reads_eq hreads hfills)
  · rw [if_pos (by rw [hdata]; exact fun h => absurd (Outcome.returned.inj h) (by decide)),
      hdata] at hr
    rw [hr]
    refine .inr (.inr ⟨rfl, fun h => absurd h.2 hmissed.lt.ne, ?_⟩)
    intro bytes rest used trailer after hrx hbytes hreads hfills
    refine absurd hfills (hmissed.used ?_ used (trailer ++ after) hreads)
    rw [hrx, List.length_append, List.length_append]
    omega

section Read

variable {mem : HostMem} {line : ℕ} {addr : BitVec 64} {count : BitVec 32} {select : ℤ} {tty : Tty}

theorem not_delivered_of_length {r : ReadCall} {rx : List Byte} {n : ℕ} (hbuf : r.buf = [])
    (hrx : rx.length ≤ n + r.rx.length) (hn : n < 5) : ¬ r.Delivered count rx := by
  rintro ⟨h, -⟩
  have hlen := congrArg List.length h
  rw [hbuf] at hlen
  simp only [List.length_append, ascii, crlf, List.length_map] at hlen
  simp at hlen
  omega

theorem Tty.Arrives.take_three (h : tty.Arrives count) :
    3 ≤ tty.rx.length ∧ tty.rx.take 3 = ascii "OK " := by
  obtain ⟨⟨data, rest, hrx, hdata⟩, -⟩ := h
  rw [hrx]
  refine ⟨?_, rfl⟩
  simp only [List.length_append, ascii, crlf, List.length_map]
  simp
  omega

/-- The three bytes in front have come in one way or another. -/
theorem fills_of_arrives (h : tty.Arrives count ∨ tty.ErrorLine) :
    3 ≤ tty.rx.length ∧ ∃ front after, tty.reads = front ++ after
      ∧ Fills 3 (front.map CallResult.offer) := by
  rcases h with harrives | ⟨hle, -, front, after, hreads, hfills, -⟩
  · have hle := harrives.take_three.1
    obtain ⟨-, front, data, trailer, after, hreads, hfills, -⟩ := harrives
    refine ⟨hle, front, data ++ trailer ++ after, ?_, hfills⟩
    rw [hreads, List.append_assoc, List.append_assoc, List.append_assoc]
  · exact ⟨hle, front, after, hreads, hfills⟩

/-- The tail call on what follows three characters other than `OK `. -/
theorem getResponse_zero_iff {reads : List CallResult} {writes : List CallResult} {v : ℤ}
    (h : (remoteRs232GetResponse mem line 128 1000000
      ⟨tty.clock, reads, tty.rx.drop 3, writes⟩).outcome = .returned v) :
    v = 0 ↔ ∃ now clock body, tty.clock = now :: clock
      ∧ LineInTime (endTime now 1000000) clock reads (tty.rx.drop 3) body
      ∧ ¬ ascii "OK" <+: keptOf 128 body := by
  have hline : ∀ {now : BitVec 64} {clock : List (BitVec 64)} {body : List Byte},
      tty.clock = now :: clock →
      LineInTime (endTime now 1000000) clock reads (tty.rx.drop 3) body →
        v = if ascii "OK" <+: keptOf 128 body then 1 else 0 := by
    intro now clock body hclock hbody
    have hlen : 1 ≤ 128 := by decide
    have hresponse := (@LineInTime.response 1000000 ⟨tty.clock, reads, tty.rx.drop 3, writes⟩ _ _ _
      hbody hclock mem line _ hlen).1
    rw [h] at hresponse
    exact Outcome.returned.inj hresponse
  constructor
  · rintro rfl
    obtain ⟨now, clock, body, hclock, hbody⟩ := lineInTime_of_ended (ended_of_returned_zero h)
    refine ⟨now, clock, body, hclock, hbody, fun hok => ?_⟩
    have hv := hline hclock hbody
    rw [if_pos hok] at hv
    exact absurd hv (by decide)
  · rintro ⟨now, clock, body, hclock, hbody, hok⟩
    exact (hline hclock hbody).trans (if_neg hok)

/-- Behind `OK ` it is the data and the line end that decide. -/
theorem readBody_delivers_iff {front : Collected} (htook : Took 3 tty.rx tty.reads front)
    (htext : front.buf = ascii "OK ") {v : ℤ}
    (h : (Tty.readBody count front.reads front.rx).outcome = .returned v) :
    (v ≠ 0 → (Tty.readBody count front.reads front.rx).Delivered count tty.rx)
      ↔ tty.Arrives count ∨ tty.ErrorLine := by
  have htake : tty.rx.take 3 = ascii "OK " := by rw [← htook.buf, htext]
  have hrx : tty.rx = ascii "OK " ++ front.rx := by
    rw [← htake, htook.left, List.take_append_drop]
  rw [or_iff_left fun herror => herror.2.1 htake]
  obtain ⟨used, hused, hfills⟩ := htook.used
  rcases readBody_cases count front.reads front.rx with hp | ⟨-, ⟨hline, hlen⟩, hreads⟩ |
    ⟨hfail, hline, hreads⟩
  · rw [h] at hp
    cases hp
  · obtain ⟨data, trailer, after, hreads, hdata, htrailer⟩ := hreads
    have hall : tty.rx = ascii "OK " ++ (Tty.readBody count front.reads front.rx).buf ++ crlf
        ++ (Tty.readBody count front.reads front.rx).rx := by
      rw [List.append_assoc, List.append_assoc, ← List.append_assoc _ crlf, ← hline, hrx]
    refine iff_of_true (fun _ => ⟨hall, hlen⟩)
      ⟨⟨_, _, hall, hlen⟩, used, data, trailer, after, ?_, hfills, hdata, htrailer⟩
    · rw [List.append_assoc, List.append_assoc, ← hreads, hused]
  · rw [h] at hfail
    obtain rfl := Outcome.returned.inj hfail
    refine iff_of_false (fun h => ?_) ?_
    · obtain ⟨hall, hlen⟩ := h (by decide)
      rw [hrx, List.append_assoc, List.append_assoc, List.append_cancel_left_eq,
        ← List.append_assoc] at hall
      exact hline ⟨hall, hlen⟩
    · rintro ⟨⟨data, rest, hall, hlen⟩, used', data', trailer, after, hsplit, hfront, hdata, htrailer⟩
      rw [hrx, List.append_assoc, List.append_assoc, List.append_cancel_left_eq,
        ← List.append_assoc] at hall
      rw [List.append_assoc, List.append_assoc] at hsplit
      exact hreads data rest data' trailer after hall hlen (htook.reads_eq hsplit hfront) hdata
        htrailer

/-- A call whose result is not zero has delivered its data if the response came in, or if it took one
of the two ways to fail with zero, and not else. -/
theorem read_delivers_iff {v : ℤ}
    (h : (tty.remoteRs232Read mem line addr count select).outcome = .returned v) :
    (v ≠ 0 → (tty.remoteRs232Read mem line addr count select).Delivered count tty.rx)
      ↔ CommandRefused (readbCommand addr count).length tty.writes
        ∨ select = 1 ∧ (tty.Arrives count ∨ tty.ErrorLine) := by
  have hlen := length_readbCommand addr count
  unfold Tty.remoteRs232Read at h ⊢
  dsimp only at h ⊢
  rcases remoteRs232SendCommand_cases tty.writes hlen with hsend | ⟨hsend, hrefused⟩ | ⟨hsend, -⟩
  · rw [if_pos hsend] at h
    cases h
  · rw [if_neg (by rw [hsend]; exact Outcome.noConfusion), if_pos hsend] at h ⊢
    obtain rfl := Outcome.returned.inj h
    exact iff_of_true (absurd rfl) (.inl hrefused)
  · have hnot : ¬ CommandRefused (readbCommand addr count).length tty.writes := by
      intro hrefused
      rw [hrefused.outcome hlen] at hsend
      exact absurd (Outcome.returned.inj hsend) (by decide)
    rw [if_neg (by rw [hsend]; exact Outcome.noConfusion), if_neg (by rw [hsend]; decide)] at h ⊢
    rw [or_iff_right hnot]
    by_cases hselect : select = 1
    · rw [if_neg (not_not.2 hselect)] at h ⊢
      rw [and_iff_right hselect]
      rcases readForced_cases 3 tty.reads tty.rx with hfront | ⟨hfront, htook⟩ | ⟨hfront, hmissed⟩
      · rw [if_pos hfront] at h
        cases h
      · have hthree : (readForced 3 tty.reads tty.rx).outcome = .returned 3 := hfront
        rw [if_neg (by rw [hthree]; exact Outcome.noConfusion), if_neg (not_not.2 hthree)] at h ⊢
        generalize readForced 3 tty.reads tty.rx = front at h htook ⊢
        by_cases htext : front.buf = ascii "OK "
        · rw [if_neg (not_not.2 htext)] at h ⊢
          exact readBody_delivers_iff htook htext h
        · rw [if_pos htext] at h ⊢
          have htake : tty.rx.take 3 ≠ ascii "OK " := by rwa [← htook.buf]
          have hbuf : ∀ r : ReadCall, ¬ r.Delivered count tty.rx := by
            rintro r ⟨hrx, -⟩
            rw [hrx] at htake
            exact htake rfl
          rw [or_iff_right fun harrives => htake harrives.take_three.2]
          rw [htook.left] at h
          have hzero := getResponse_zero_iff h
          constructor
          · intro hv
            have hzv : v = 0 := by
              by_contra hne
              exact hbuf _ (hv hne)
            obtain ⟨used, hused, hfills⟩ := htook.used
            exact ⟨htook.le, htake, used, front.reads, hused, hfills, hzero.1 hzv⟩
          · rintro ⟨-, -, used, after, hreads, hfills, hlate⟩ hne
            rw [← htook.reads_eq hreads hfills] at hlate
            exact absurd (hzero.2 hlate) hne
      · by_cases hpending : (readForced 3 tty.reads tty.rx).outcome = .pending
        · rw [if_pos hpending] at h
          cases h
        · have hthree : (readForced 3 tty.reads tty.rx).outcome ≠ .returned 3 := hfront
          rw [if_neg hpending, if_pos hthree] at h ⊢
          obtain rfl := Outcome.returned.inj h
          refine iff_of_false (fun h => ?_) (fun h => ?_)
          · refine not_delivered_of_length rfl ?_ (by decide : 3 < 5) (h (by decide))
            have hsplit := congrArg List.length hmissed.line
            have hlt := hmissed.lt
            rw [List.length_append] at hsplit
            dsimp only
            omega
          · obtain ⟨hle, used, after, hreads, hfills⟩ := fills_of_arrives h
            exact hmissed.used hle used after hreads hfills
    · rw [if_pos hselect] at h ⊢
      obtain rfl := Outcome.returned.inj h
      refine iff_of_false (fun h => ?_) (fun h => hselect h.1)
      exact not_delivered_of_length rfl (Nat.le_add_left _ 0) (by decide) (h (by decide))

end Read

/-- Two bytes, the three in front of them in two pieces. -/
theorem read_delivers_iff_two :
    let tty : Tty :=
      { clock := [], reads := [.bytes 0, .error, .bytes 7, .bytes 1, .bytes 3]
        rx := ascii "OK " ++ [0x12#8, 0x34#8] ++ crlf, writes := [.bytes 40, .bytes 0] }
    (tty.remoteRs232Read (fun _ => 0) 0 0x300 2 1).Delivered 2 tty.rx := by
  intro tty
  have h : (tty.remoteRs232Read (fun _ => 0) 0 0x300 2 1).outcome = .returned 1 := by decide
  refine (read_delivers_iff h).2 (.inr ⟨rfl, .inl ⟨⟨[0x12#8, 0x34#8], [], rfl, rfl⟩, ?_⟩⟩)
    (by decide)
  have hne : ∀ {n : ℕ}, n + 1 ≠ 0 := Nat.succ_ne_zero _
  exact ⟨[.bytes 0, .error, .bytes 7], [.bytes 1], [.bytes 3], [], rfl,
    .piece hne 0 (.stall hne (.piece hne 7 .none)), .piece hne 1 .none, .piece hne 3 .none⟩

/-- With nothing coming in for three seconds the result is -1; with the end of an older line in front of
the response it is 1, and the buffer is as it was. -/
theorem read_fails_nonzero :
    (∃ v ≠ 0, (Tty.remoteRs232Read (fun _ => 0) 0 0x300 2 0
        ⟨[], [], [], [.bytes 40, .bytes 0]⟩).outcome = .returned v
      ∧ ¬ (Tty.remoteRs232Read (fun _ => 0) 0 0x300 2 0
        ⟨[], [], [], [.bytes 40, .bytes 0]⟩).Delivered 2 [])
      ∧ ∃ v ≠ 0, (Tty.remoteRs232Read (fun _ => 0) 0 0x300 2 1
          ⟨List.replicate 9 0, List.replicate 8 (.bytes 40),
            ascii "e" ++ crlf ++ ascii "OK ab" ++ crlf, [.bytes 40, .bytes 0]⟩).outcome = .returned v
        ∧ (Tty.remoteRs232Read (fun _ => 0) 0 0x300 2 1
          ⟨List.replicate 9 0, List.replicate 8 (.bytes 40),
            ascii "e" ++ crlf ++ ascii "OK ab" ++ crlf, [.bytes 40, .bytes 0]⟩).buf = [] := by
  refine ⟨⟨-1, by decide, by decide, fun h => ?_⟩, 1, by decide, by decide, by decide⟩
  exact absurd h.2 (by decide)

end RemoteX86
