import RemoteX86.Proofs.Delivered
import RemoteX86.Proofs.SerialModes
import RemoteX86.Proofs.SerialRange
import RemoteX86.SerialMachine

/-!
# The serial debugger is the machine it is for

Whatever pieces a descriptor moves at a time, each loop of the library gets through once there are
enough of them, so a call sends its bytes as a whole, the device answers them as a whole, and the call
takes the whole answer off the line.  The next call starts as this one did.
-/

namespace RemoteX86

open Hex Memory Pieces

/-! ## Results that suffice -/

theorem pieces_offer {cs : List CallResult} (h : .zero ∉ cs) :
    pieces (cs.map CallResult.offer) = cs.countP fun c => c ≠ .error := by
  rw [pieces, List.countP_map]
  refine List.countP_congr fun c hc => ?_
  rcases c with - | - | k
  · simp [CallResult.offer]
  · exact absurd hc h
  · simp [CallResult.offer]

/-- The first of them get a loop over `n` elements through, and the others are enough for the rest. -/
theorem Suffice.split {n k : ℕ} {cs : List CallResult} (h : Suffice (n + k) cs) :
    ∃ used after, cs = used ++ after ∧ Fills n (used.map CallResult.offer) ∧ Suffice k after := by
  have hstop : .stop ∉ cs.map CallResult.offer := by
    intro hstop
    obtain ⟨c, hc, hoffer⟩ := List.mem_map.1 hstop
    rcases c with - | - | j
    · cases hoffer
    · exact h.zero hc
    · cases hoffer
  have hall := pieces_offer h.zero
  have henough := h.enough
  obtain ⟨front, rest, hos, hfills, hle⟩ := exists_fills (n := n) hstop (by omega)
  obtain ⟨used, after, hcs, hmap⟩ : ∃ used after, cs = used ++ after
      ∧ used.map CallResult.offer = front ∧ after.map CallResult.offer = rest := by
    obtain ⟨used, after, hcs, hused, hafter⟩ := List.map_eq_append_iff.1 hos
    exact ⟨used, after, hcs, hused, hafter⟩
  have hzero : .zero ∉ after := fun hin => h.zero (by rw [hcs]; exact List.mem_append_right _ hin)
  have hleft := pieces_offer hzero
  rw [hmap.2] at hleft
  exact ⟨used, after, hcs, hmap.1 ▸ hfills, hzero, by omega⟩

/-- One element takes waits and a piece. -/
theorem newlineSent_of_fills : ∀ {sent : List CallResult}, Fills 1 (sent.map CallResult.offer) →
    NewlineSent sent
  | [], h => by cases h
  | .error :: sent, h => by
    rcases h with - | ⟨-, h⟩ | -
    obtain ⟨errors, k, rfl, hall⟩ := newlineSent_of_fills h
    refine ⟨.error :: errors, k, rfl, fun c hc => ?_⟩
    rcases List.mem_cons.1 hc with rfl | hc
    · rfl
    · exact hall c hc
  | .zero :: sent, h => by cases h
  | .bytes k :: sent, h => by
    rcases h with - | - | ⟨-, -, h⟩
    rw [show 1 - (k.val + 1) = 0 by omega] at h
    have hnil : sent = [] := List.map_eq_nil_iff.1 h.eq_nil
    exact ⟨[], k, by rw [hnil]; rfl, by simp⟩

theorem Suffice.sendCommand {cmd : List Byte} {writes : List CallResult} {k : ℕ}
    (h : Suffice (cmd.length + (1 + k)) writes) (hlen : cmd.length < 2 ^ 63) :
    ∃ sent after, writes = sent ++ after ∧ Suffice k after
      ∧ Tty.remoteRs232SendCommand cmd writes
        = { outcome := .returned 1, tx := cmd ++ [0x0A#8], writes := after } := by
  obtain ⟨text, rest, hwrites, htext, hrest⟩ := h.split
  obtain ⟨newline, after, hsplit, hnewline, hafter⟩ := hrest.split
  have hsent : CommandSent cmd.length (text ++ newline) :=
    ⟨text, newline, rfl, newlineSent_of_fills hnewline, .inl htext⟩
  have hall : writes = text ++ newline ++ after := by rw [hwrites, hsplit, List.append_assoc]
  obtain ⟨houtcome, hleft⟩ := hsent.outcome hlen after
  rw [← hall] at houtcome hleft
  have htx := (remoteRs232SendCommand_iff hlen houtcome).2 (not_cutShort h.zero)
  refine ⟨_, after, hall, hafter, ?_⟩
  generalize Tty.remoteRs232SendCommand cmd writes = r at houtcome hleft htx ⊢
  obtain ⟨outcome, tx, left⟩ := r
  obtain rfl : outcome = .returned 1 := houtcome
  obtain rfl : left = after := hleft
  obtain rfl : tx = cmd ++ [0x0A#8] := htx
  rfl

/-- A line comes in in time. -/
theorem Suffice.lineInTime {et : BitVec 64} {rest : List Byte} : ∀ {reads : List CallResult}
    {clock : List (BitVec 64)} {body : List Byte}, Suffice (body.length + 1) reads →
      0x0A#8 ∉ body → reads.length ≤ clock.length → (∀ t ∈ clock, ¬ et.sle t) →
        LineInTime et clock reads (body ++ 0x0A#8 :: rest) body
  | [], _, body, h, _, _, _ => absurd h.enough (by simp)
  | _ :: _, [], _, _, _, hclock, _ => absurd hclock (by simp)
  | c :: reads, t :: clock, body, h, hno, hclock, hearly => by
    have ht := hearly t List.mem_cons_self
    have hearly' : ∀ t ∈ clock, ¬ et.sle t := fun t ht => hearly t (List.mem_cons_of_mem _ ht)
    have hclock' : reads.length ≤ clock.length := by simpa using hclock
    have hzero : .zero ∉ reads := fun hin => h.zero (List.mem_cons_of_mem _ hin)
    have henough := h.enough
    rcases c with - | - | k
    · rw [List.countP_cons_of_neg (by simp)] at henough
      exact .wait ht (lineInTime ⟨hzero, henough⟩ hno hclock' hearly')
    · exact absurd List.mem_cons_self h.zero
    · rw [List.countP_cons_of_pos (by simp)] at henough
      rcases body with - | ⟨b, body⟩
      · exact .newline ht
      · rw [List.mem_cons, not_or] at hno
        rw [List.length_cons] at henough
        exact .byte ht (Ne.symm hno.1) (lineInTime ⟨hzero, by omega⟩ hno.2 hclock' hearly')

/-- A loop that reads takes its bytes, and leaves the results that come after. -/
theorem collected_of_fills {n : ℕ} {used after : List CallResult} {rx : List Byte} {r : Collected}
    (h : Fills n (used.map CallResult.offer)) (hrx : n ≤ rx.length)
    (hbuf : r.buf = (move n rx ((used ++ after).map CallResult.offer)).moved)
    (hleft : r.rx = (move n rx ((used ++ after).map CallResult.offer)).left)
    (hoffers : (move n rx ((used ++ after).map CallResult.offer)).offers
      = r.reads.map CallResult.offer) :
    r = { outcome := r.outcome, buf := rx.take n, reads := after, rx := rx.drop n }
      ∧ (move n rx ((used ++ after).map CallResult.offer)).ending = .done := by
  have hending := (h.move (after.map CallResult.offer) hrx).1
  rw [← List.map_append] at hending
  have htook := took_of_done hbuf hleft hoffers hending
  refine ⟨?_, hending⟩
  rw [← htook.buf, ← htook.left, ← htook.reads_eq rfl h]

theorem readForced_fills {n : ℕ} {used after : List CallResult} {rx : List Byte}
    (h : Fills n (used.map CallResult.offer)) (hrx : n ≤ rx.length) :
    readForced n (used ++ after) rx
      = { outcome := .returned n, buf := rx.take n, reads := after, rx := rx.drop n } := by
  obtain ⟨hbuf, hleft, hoffers, houtcome⟩ := readForcedLoop_eq (used ++ after) n 0 [] rx
  obtain ⟨hr, hending⟩ := collected_of_fills h hrx hbuf hleft hoffers
  rw [readForced, hr, houtcome, hending]
  simp [forcedOutcome]

theorem readDataLoop_fills {count : BitVec 32} {used after : List CallResult} {rx : List Byte}
    (h : Fills count.toNat (used.map CallResult.offer)) (hrx : count.toNat ≤ rx.length) :
    readDataLoop count [] rx (used ++ after)
      = { outcome := .returned 1, buf := rx.take count.toNat, reads := after
          rx := rx.drop count.toNat } := by
  obtain ⟨hbuf, hleft, hoffers, houtcome⟩ := readDataLoop_eq (used ++ after) count [] rx
  obtain ⟨hr, hending⟩ := collected_of_fills h hrx hbuf hleft hoffers
  rw [hr, houtcome, hending]
  rfl

/-- Data of a WRITEB of which no write(2) is refused. -/
theorem writeDataLoop_suffice (buf : ℤ → Byte) : ∀ (writes : List CallResult) (b : Sending),
    b.r.toNat < 2 ^ 31 → Suffice b.r.toNat writes → .error ∉ writes →
      (writeDataLoop buf writes b).2.1 = .returned 1
  | writes, b, hlt, h, herror => by
    have henough := h.enough
    by_cases hr : b.r = 0
    · rcases writes with - | ⟨c, writes⟩
      · rw [writeDataLoop, if_pos hr]
      · rw [writeDataLoop, if_pos hr]
    · have hne : b.r.toNat ≠ 0 := fun h => hr (BitVec.eq_of_toNat_eq h)
      rcases writes with - | ⟨- | - | k, writes⟩
      · exact absurd henough (by simpa using hne)
      · exact absurd List.mem_cons_self herror
      · exact absurd List.mem_cons_self h.zero
      · obtain ⟨hleft, hloop⟩ := writeDataLoop_piece buf k writes hne hlt
        rw [List.countP_cons_of_pos (by simp)] at henough
        rw [List.mem_cons, not_or] at herror
        rw [hloop]
        refine writeDataLoop_suffice buf writes _ ?_ ⟨?_, ?_⟩ herror.2
        · dsimp only
          omega
        · exact fun hin => h.zero (List.mem_cons_of_mem _ hin)
        · dsimp only
          omega

/-! ## Calls that read one line -/

/-- A line from the device, as the library's buffer holds it. -/
theorem keptOf_ok (p : List Byte) : ascii "OK" <+: keptOf 128 (ascii "OK " ++ p) := by
  have hok : (ascii "OK ").filter (0x20#8 ≤ ·) = ascii "OK " := by decide
  rw [keptOf, List.filter_append, hok]
  exact ⟨_, rfl⟩

section Ask

variable {mem : HostMem} {line : ℕ} {cmd body : List Byte} {timeout : BitVec 64}
  {answer : List Byte → List Byte} {after : Response → Outcome × List Byte} {tty : Tty}
  (hlen : cmd.length < 2 ^ 63) (hwrites : Suffice (cmd.length + 1) tty.writes)
  (hreads : Suffice (body.length + 1) tty.reads)
  (hclock : ∃ now clock, tty.clock = now :: clock ∧ tty.reads.length ≤ clock.length
    ∧ ∀ t ∈ clock, ¬ (endTime now timeout).sle t)
  (hanswer : answer (cmd ++ [0x0A#8]) = body ++ [0x0A#8]) (hno : 0x0A#8 ∉ body)

include hlen hwrites hreads hclock hanswer hno

/-- The command is on the line, and the line that answers it has been read. -/
theorem ask_line : ∃ r : Response,
    r.outcome = .returned (if ascii "OK" <+: keptOf 128 body then 1 else 0) ∧ r.tty.rx = []
      ∧ r.mem.read line ((keptOf 128 body).length + 1) = keptOf 128 body ++ [0]
      ∧ tty.ask mem line cmd timeout answer after =
        let v := if r.outcome = .returned 1 then after r else (r.outcome.verdict, r.tty.rx)
        { outcome := v.1, tx := cmd ++ [0x0A#8], rx := v.2 } := by
  obtain ⟨sent, rest, -, -, hsend⟩ := Suffice.sendCommand (k := 0) hwrites hlen
  obtain ⟨now, clock, hnow, hclock, hearly⟩ := hclock
  have hline : LineInTime (endTime now timeout) clock tty.reads (body ++ 0x0A#8 :: []) body :=
    hreads.lineInTime hno hclock hearly
  obtain ⟨houtcome, htext, hrest⟩ := @LineInTime.response timeout
    { tty with rx := body ++ [0x0A#8], writes := rest } now clock body hline hnow mem line 128
    (by decide)
  refine ⟨_, houtcome, ?_, htext, ?_⟩
  · dsimp only at hrest
    rw [List.append_cancel_left_eq, List.cons.injEq] at hrest
    exact hrest.2.symm
  · rw [Tty.ask, hsend]
    dsimp only
    rw [if_neg Outcome.noConfusion, if_neg (by decide), hanswer]

theorem ask_ok (hok : ascii "OK" <+: keptOf 128 body)
    (hafter : ∀ r : Response, r.tty.rx = [] →
      r.mem.read line ((keptOf 128 body).length + 1) = keptOf 128 body ++ [0] →
        after r = (.returned 1, [])) :
    tty.ask mem line cmd timeout answer after
      = { outcome := .returned 1, tx := cmd ++ [0x0A#8], rx := [] } := by
  obtain ⟨r, houtcome, hrx, htext, hask⟩ := ask_line hlen hwrites hreads hclock hanswer hno
  rw [if_pos hok] at houtcome
  rw [hask]
  simp only [houtcome, if_true, hafter r hrx htext]

theorem ask_err (hok : ¬ ascii "OK" <+: keptOf 128 body) :
    tty.ask mem line cmd timeout answer after
      = { outcome := .returned 0, tx := cmd ++ [0x0A#8], rx := [] } := by
  obtain ⟨r, houtcome, hrx, -, hask⟩ := ask_line hlen hwrites hreads hclock hanswer hno
  rw [if_neg hok] at houtcome
  rw [hask]
  simp [houtcome, hrx, Outcome.verdict]

end Ask

/-! ## Calls against the device -/

theorem Suffice.mono {n k : ℕ} {cs : List CallResult} (h : Suffice n cs) (hle : k ≤ n) :
    Suffice k cs := ⟨h.zero, hle.trans h.enough⟩

theorem Suffice.command {cmd : List Byte} {cs : List CallResult}
    (h : Suffice (cmd ++ [0x0A#8]).length cs) : Suffice (cmd.length + 1) cs := by
  rwa [List.length_append] at h

/-- Between two calls. -/
structure Serial.Idle (s : Serial) : Prop where
  ctl : s.ctl = .line []
  out : s.out = []

theorem HostMem.read_tolower (mem : HostMem) (p n : ℕ) :
    HostMem.read (fun a => tolower (mem a)) p n = (mem.read p n).map tolower := by
  simp [HostMem.read]

/-- The answer to TEST is not that of an EXEC. -/
theorem not_function {mem : HostMem} {line : ℕ} {text : List Byte}
    (htext : text = ascii "OK Test successful")
    (h : mem.read line (text.length + 1) = text ++ [0]) :
    HostMem.strncasecmpEq mem line (ascii "OK Function") = false := by
  subst htext
  have hread : HostMem.read (fun a => tolower (mem a)) line
      (((ascii "OK Test successful").map tolower).length + 1)
        = (ascii "OK Test successful").map tolower ++ [0] := by
    rw [HostMem.read_tolower, List.length_map, h, List.map_append]
    rfl
  have hiff := HostMem.strncmpEq_iff (s := (ascii "OK Function").map tolower) (by decide) hread
  rw [← Bool.not_eq_true, HostMem.strncasecmpEq, hiff]
  decide

namespace Stage2

variable (m : Stage2) {s : Serial}

theorem mainLoopCommand_test (s : Serial) {buf q : List Byte}
    (h : m.inBuf buf = ascii "TEST" ++ 0#8 :: q) :
    m.mainLoopCommand s buf = s.responseOutput (ascii "Test successful") := by
  rw [mainLoopCommand, h]
  simp [ascii, List.isPrefixOf]

theorem mainLoopCommand_exec (s : Serial) {buf q : List Byte}
    (h : m.inBuf buf = ascii "EXEC " ++ q) :
    m.mainLoopCommand s buf = m.commandExec s q := by
  rw [mainLoopCommand, h]
  simp [ascii, List.isPrefixOf]

section Ask

variable {cmd msg : List Byte} {timeout : BitVec 64} {after : Response → Outcome × List Byte}
  {mem : HostMem} {line : ℕ} {tty : Tty} {t : Serial}
  (hlen : cmd.length < 2 ^ 63) (hwrites : Suffice (cmd.length + 1) tty.writes)
  (hreads : Suffice 22 tty.reads)
  (hclock : ∃ now clock, tty.clock = now :: clock ∧ tty.reads.length ≤ clock.length
    ∧ ∀ t ∈ clock, ¬ (endTime now timeout).sle t)
  (hout : t.out = []) (hmsg : 0x0A#8 ∉ msg)

include hlen hwrites hreads hclock hout hmsg

/-- A command that is answered with OK. -/
theorem settle_ok (hfeed : m.feedAll s (cmd ++ [0x0A#8]) = t.responseOutput msg)
    (hroom : msg.length ≤ 17)
    (hafter : ∀ r : Response, r.tty.rx = [] →
      r.mem.read line ((keptOf 128 (ascii "OK " ++ msg ++ [0x0D#8])).length + 1)
          = keptOf 128 (ascii "OK " ++ msg ++ [0x0D#8]) ++ [0] → after r = (.returned 1, [])) :
    m.settle s (tty.ask mem line cmd timeout (fun tx => (m.feedAll s tx).out) after)
      = ({ outcome := .returned 1, buf := [] }, { t with ctl := .line [], out := [] }) := by
  have hanswer :
      (m.feedAll s (cmd ++ [0x0A#8])).out = ascii "OK " ++ msg ++ [0x0D#8] ++ [0x0A#8] := by
    rw [hfeed, Serial.responseOutput, hout]
    simp [crlf]
  have hbody : 0x0A#8 ∉ ascii "OK " ++ msg ++ [0x0D#8] := by simpa [ascii] using hmsg
  have hok : ascii "OK" <+: keptOf 128 (ascii "OK " ++ msg ++ [0x0D#8]) := by
    rw [List.append_assoc]
    exact keptOf_ok _
  rw [ask_ok hlen hwrites (hreads.mono (by simp [ascii]; omega)) hclock hanswer hbody hok hafter,
    settle, hfeed]
  rfl

/-- A command that is answered with ERR. -/
theorem settle_err (hfeed : m.feedAll s (cmd ++ [0x0A#8]) = t.responseOutputErr msg)
    (hroom : msg.length ≤ 16) :
    m.settle s (tty.ask mem line cmd timeout (fun tx => (m.feedAll s tx).out) after)
      = ({ outcome := .returned 0, buf := [] }, { t with ctl := .line [], out := [] }) := by
  have hanswer :
      (m.feedAll s (cmd ++ [0x0A#8])).out = ascii "ERR " ++ msg ++ [0x0D#8] ++ [0x0A#8] := by
    rw [hfeed, Serial.responseOutputErr, hout]
    simp [crlf]
  have hbody : 0x0A#8 ∉ ascii "ERR " ++ msg ++ [0x0D#8] := by simpa [ascii] using hmsg
  have hok : ¬ ascii "OK" <+: keptOf 128 (ascii "ERR " ++ msg ++ [0x0D#8]) := by
    have herr : (ascii "ERR ").filter (0x20#8 ≤ ·) = ascii "ERR " := by decide
    rw [keptOf, List.append_assoc, List.filter_append, herr]
    rintro ⟨rest, hrest⟩
    exact absurd (List.cons.inj hrest).1 (by decide)
  rw [ask_err hlen hwrites (hreads.mono (by simp [ascii]; omega)) hclock hanswer hbody hok, settle,
    hfeed]
  rfl

end Ask

/-- Where EXEC goes for a segment and an offset. -/
theorem entryPoint_far {mode : Mode} {segment : BitVec 32} {offset : BitVec 64}
    {timeoutS : BitVec 32}
    (h : SerialCall.Suits mode (.execSegOff segment offset timeoutS)) {q : List Byte} :
    mode.entryPoint (numeral segment.toNat ++ 0x20#8 :: (numeral offset.toNat ++ 0#8 :: q))
      = mode.far segment offset := by
  have hoff :
      strSkipWhitespace (numeral offset.toNat ++ 0#8 :: q) = numeral offset.toNat ++ 0#8 :: q :=
    strSkipWhitespace_digits (isHex_numeral _).digits (isHex_numeral _).ne_nil _
  have hseg := strtohex32_digits (isHex_numeral segment.toNat).digits digitVal_space
    (numeral offset.toNat ++ 0#8 :: q)
  rw [value_numeral] at hseg
  rcases h with ⟨rfl, -, -⟩ | ⟨rfl, hsegment, -⟩ | ⟨rfl, -⟩
  · rw [Mode.entryPoint, strtohex_numeral _ digitVal_space, hoff, strtohex_numeral _ digitVal_nul]
    rfl
  · have hbase := base_dxAxPhysTo286seg hsegment
    rw [Mode.entryPoint, hseg, hoff, strtohex_numeral _ digitVal_nul]
    refine congrArg (EntryPoint.baseOff · _) ?_
    exact hbase.trans (BitVec.ofNat_toNat ..)
  · have hbase := base_dxAxPhysTo386seg segment.toNat
    rw [Mode.entryPoint, hseg, hoff, strtohex_numeral _ digitVal_nul]
    refine congrArg (EntryPoint.baseOff · _) ?_
    exact hbase.trans (BitVec.ofNat_toNat ..)

theorem entryPoint_near {mode : Mode} {offset : BitVec 64} {timeoutS : BitVec 32}
    (h : SerialCall.Suits mode (.execOff offset timeoutS)) {q : List Byte} :
    mode.entryPoint (numeral offset.toNat ++ 0#8 :: q) = .near offset := by
  rcases h with ⟨rfl, hoffset⟩ | rfl
  · rw [Mode.entryPoint, strtohex_numeral _ digitVal_nul]
    refine congrArg EntryPoint.near (BitVec.eq_of_toNat_eq ?_)
    simp
    omega
  · rw [Mode.entryPoint, strtohex_numeral _ digitVal_nul]
    exact congrArg EntryPoint.near (BitVec.ofNat_toNat ..)

theorem reaches_covers {mode : Mode} {a n : ℕ} (h : mode.Reaches a n) (hn : n < 2 ^ 32) :
    mode.Covers a n ∧ n < 2 ^ mode.bits := by
  unfold Mode.Reaches at h
  unfold Mode.Covers
  rcases mode with - | - | - | - | -
  · exact ⟨⟨h.1, h.2.2.1⟩, h.2.2.2⟩
  · exact ⟨⟨h.1, h.2.2.le⟩, h.2.2⟩
  · exact ⟨h.2.le, h.2⟩
  · exact ⟨trivial, hn⟩
  · exact ⟨by omega, hn.trans (by decide)⟩

theorem reaches_le {mode : Mode} {a n : ℕ} (h : mode.Reaches a n) : a + n ≤ 2 ^ 32 := by
  unfold Mode.Reaches at h
  rcases mode with - | - | - | - | -
  · exact h.2.1.trans (by decide)
  · exact h.2.1.trans (by decide)
  · exact h.1
  · exact h
  · exact h

section Calls

variable {mem : HostMem} {line : ℕ} {tty : Tty} (hs : s.Idle)

include hs

theorem idle_eq (mem : Mem 32) :
    { s with mem := mem, ctl := .line [], out := [] } = { s with mem := mem } := by
  obtain ⟨hctl, hout⟩ := hs
  rw [← hctl, ← hout]

theorem answer_test (hserved : SerialQuery.Served ⟨.test, mem, line, tty⟩) :
    m.answer s ⟨.test, mem, line, tty⟩ = ({ outcome := .returned 1, buf := [] }, s) := by
  have hname : (ascii "TEST").length < 256 := by decide
  obtain ⟨q, hq⟩ := m.inBuf_eq hname
  have hfeed : m.feedAll s (ascii "TEST" ++ [0x0A#8])
      = s.responseOutput (ascii "Test successful") :=
    (m.feedAll_sendCommand s (plain_of_all rfl) (by decide) (by decide) hs.ctl).trans
      (m.mainLoopCommand_test _ hq)
  have hkept : keptOf 128 (ascii "OK " ++ ascii "Test successful" ++ [0x0D#8])
      = ascii "OK Test successful" := by decide
  have hwrites : Suffice (ascii "TEST" ++ [0x0A#8]).length tty.writes := hserved.writes
  unfold answer Tty.remoteRs232Test
  refine (m.settle_ok (by simp [ascii]) hwrites.command hserved.reads hserved.clock hs.out
    (by decide) hfeed (by decide) fun r hrx htext => ?_).trans ?_
  · rw [not_function hkept htext, hrx]
    rfl
  · rw [idle_eq hs s.mem]

theorem answer_switch {target : Mode} (hto : Understands s.mode target)
    (hserved : SerialQuery.Served ⟨.mode target, mem, line, tty⟩) :
    m.answer s ⟨.mode target, mem, line, tty⟩
      = ({ outcome := .returned 1, buf := [] },
          { mode := m.switches target, ctl := .line [], out := []
            mem := if s.mode = .i286 then write s.mem 0x467 m.resetVector else s.mem }) := by
  obtain ⟨buf, q, hbuf, hfeed⟩ := m.feedAll_mode hs.ctl target
  have hcommand : m.mainLoopCommand { s with ctl := .line buf } buf
      = { s with
          mode := m.switches target
          mem := if s.mode = Mode.i286 then write s.mem 0x467 m.resetVector else s.mem
          }.responseOutput (m.switches target).command := by
    rcases target with - | - | - | - | -
    · rw [m.mainLoopCommand_8086 _ hbuf]
      rfl
    all_goals have hnow : s.mode = .i8086 := hto.resolve_right (by simp)
    · rw [m.mainLoopCommand_286 _ hbuf, if_pos hnow, hnow, if_neg (by decide)]
      rfl
    · rw [m.mainLoopCommand_386_16 _ hbuf, if_pos hnow, hnow, if_neg (by decide)]
      rfl
    · rw [m.mainLoopCommand_386_32 _ hbuf, if_pos hnow, hnow, if_neg (by decide)]
      rfl
    · rw [m.mainLoopCommand_x64 _ hbuf, if_pos hnow, hnow, if_neg (by decide)]
      unfold jmpX64 switches
      rcases m.hasX64 with - | -
      · rfl
      · rfl
  have hlen : target.command.length < 2 ^ 63 := by
    rcases target with - | - | - | - | - <;> decide
  have hnote : ∀ mode : Mode, 0x0A#8 ∉ mode.command ∧ mode.command.length ≤ 17 := by
    intro mode
    rcases mode with - | - | - | - | - <;> decide
  unfold answer Tty.remoteRs232Mode
  refine m.settle_ok hlen (Suffice.command hserved.writes) hserved.reads hserved.clock
    (by exact hs.out) (hnote _).1 (hfeed.trans hcommand) (hnote _).2 fun r hrx _ => ?_
  rw [hrx]

theorem answer_unknown {target : Mode} (hto : ¬ Understands s.mode target)
    (hserved : SerialQuery.Served ⟨.mode target, mem, line, tty⟩) :
    m.answer s ⟨.mode target, mem, line, tty⟩ = ({ outcome := .returned 0, buf := [] }, s) := by
  obtain ⟨buf, q, hbuf, hfeed⟩ := m.feedAll_mode hs.ctl target
  have hcommand := m.mainLoopCommand_unknown (s := { s with ctl := .line buf }) hbuf hto
  have hlen : target.command.length < 2 ^ 63 := by
    rcases target with - | - | - | - | - <;> decide
  unfold answer Tty.remoteRs232Mode
  refine (m.settle_err hlen (Suffice.command hserved.writes) hserved.reads hserved.clock
    (t := { s with ctl := .line buf }) hs.out (by decide) (hfeed.trans hcommand)
    (by decide)).trans ?_
  exact congrArg _ (idle_eq hs s.mem)

theorem answer_execSegOff {segment : BitVec 32} {offset : BitVec 64} {timeoutS : BitVec 32}
    (hsuits : SerialCall.Suits s.mode (.execSegOff segment offset timeoutS))
    (hserved : SerialQuery.Served ⟨.execSegOff segment offset timeoutS, mem, line, tty⟩) :
    m.answer s ⟨.execSegOff segment offset timeoutS, mem, line, tty⟩
      = ({ outcome := .returned 1, buf := [] },
          { s with mem := m.code (s.mode.far segment offset) s.mem }) := by
  set cmd := ascii "EXEC " ++ numeral segment.toNat ++ ascii " " ++ numeral offset.toNat with hcmd
  have hline : cmd = operandLine (ascii "EXEC ") (numeral segment.toNat) (numeral offset.toNat) := by
    simp [hcmd, operandLine, ascii]
  have hlen : cmd.length ≤ 255 := by
    have hs := numeral_length_le (k := 8) (by omega) segment.isLt
    have ho := numeral_length_le (k := 16) (by omega) offset.isLt
    simp only [hcmd, ascii, List.length_append, List.length_map]
    simp
    omega
  have hword : ∀ c ∈ ascii "EXEC ", Plain c := plain_of_all rfl
  obtain ⟨q, hq, hfeed⟩ := m.feedAll_operandLine s hword (isHex_numeral segment.toNat)
    (isHex_numeral offset.toNat) (.inl rfl) (hline ▸ hlen) hs.ctl
  rw [m.mainLoopCommand_exec _ hq, ← hline, commandExec] at hfeed
  dsimp only at hfeed
  rw [entryPoint_far hsuits] at hfeed
  have hwrites : Suffice (cmd ++ [0x0A#8]).length tty.writes := hserved.writes
  unfold answer Tty.remoteRs232ExecSegOff
  refine (m.settle_ok (by omega) hwrites.command hserved.reads hserved.clock (by exact hs.out)
    (by decide) hfeed (by decide) fun r hrx _ => ?_).trans ?_
  · rw [hrx]
  · exact congrArg _ (idle_eq hs _)

theorem answer_execOff {offset : BitVec 64} {timeoutS : BitVec 32}
    (hsuits : SerialCall.Suits s.mode (.execOff offset timeoutS))
    (hserved : SerialQuery.Served ⟨.execOff offset timeoutS, mem, line, tty⟩) :
    m.answer s ⟨.execOff offset timeoutS, mem, line, tty⟩
      = ({ outcome := .returned 1, buf := [] }, { s with mem := m.code (.near offset) s.mem }) := by
  set cmd := ascii "EXEC " ++ numeral offset.toNat with hcmd
  have hlen : cmd.length < 256 := by
    have ho := numeral_length_le (k := 16) (by omega) offset.isLt
    simp only [hcmd, ascii, List.length_append, List.length_map]
    simp
    omega
  have hplain : ∀ c ∈ cmd, Plain c := by
    have hword : ∀ c ∈ ascii "EXEC ", Plain c := plain_of_all rfl
    intro c hc
    rcases List.mem_append.1 hc with hc | hc
    · exact hword c hc
    · exact plain_of_isHex (isHex_numeral _) hc
  obtain ⟨q, hq⟩ := m.inBuf_eq hlen
  have hsi : m.inBuf cmd = ascii "EXEC " ++ (numeral offset.toNat ++ 0#8 :: q) := by
    rw [hq, hcmd, List.append_assoc]
  have hfeed := m.feedAll_sendCommand s hplain hlen (by simp [hcmd, ascii]) hs.ctl
  rw [m.mainLoopCommand_exec _ hsi, commandExec] at hfeed
  dsimp only at hfeed
  rw [entryPoint_near hsuits] at hfeed
  have hwrites : Suffice (cmd ++ [0x0A#8]).length tty.writes := hserved.writes
  unfold answer Tty.remoteRs232ExecOff
  refine (m.settle_ok (by omega) hwrites.command hserved.reads hserved.clock (by exact hs.out)
    (by decide) hfeed (by decide) fun r hrx _ => ?_).trans ?_
  · rw [hrx]
  · exact congrArg _ (idle_eq hs _)

theorem answer_read {addr : BitVec 64} {count : BitVec 32}
    (hsuits : SerialCall.Suits s.mode (.read addr count))
    (hserved : SerialQuery.Served ⟨.read addr count, mem, line, tty⟩) :
    m.answer s ⟨.read addr count, mem, line, tty⟩
      = ({ outcome := .returned 1
           buf := read s.mem (BitVec.ofNat 32 addr.toNat) count.toNat }, s) := by
  set data := read s.mem (BitVec.ofNat 32 addr.toNat) count.toNat with hdata
  have hcount : data.length = count.toNat := length_read _ _ _
  have hreaches : s.mode.Reaches addr.toNat count.toNat := hsuits
  obtain ⟨hcov, hbits⟩ := reaches_covers hreaches count.isLt
  have hcmd : readbCommand addr count
      = operandLine (ascii "READB ") (numeral addr.toNat) (numeral count.toNat) := by
    simp [readbCommand, operandLine, ascii]
  have hfeed : m.feedAll s (readbCommand addr count ++ [0x0A#8]) = s.responseOutput data := by
    rw [hcmd]
    exact (transfers_of_covers m hs.ctl hcov hbits).readb (isHex_numeral _) (isHex_numeral _)
      (.inl rfl) (length_operands (by decide) addr count)
  have hwrites : Suffice (readbCommand addr count ++ [0x0A#8]).length tty.writes := hserved.writes
  obtain ⟨sent, rest, -, -, hsend⟩ := Suffice.sendCommand (k := 0) hwrites.command
    (length_readbCommand addr count)
  have hresponse : Suffice (count.toNat + 5) tty.reads := hserved.reads
  obtain ⟨front, reads, hreads, hfront, hthree⟩ := Suffice.split (n := 3) (k := count.toNat + 2)
    (hresponse.mono (by omega))
  obtain ⟨middle, reads', hreads', hmiddle, htwo⟩ := hthree.split
  obtain ⟨trailer, after, hafter, htrailer, -⟩ := Suffice.split (n := 2) (k := 0) htwo
  have hrx : (s.responseOutput data).out = ascii "OK " ++ (data ++ crlf) := by
    rw [Serial.responseOutput, hs.out, List.nil_append, List.append_assoc]
  have hlen : (ascii "OK " ++ (data ++ crlf)).length = count.toNat + 5 := by
    simp [ascii, crlf, hcount]
  have hbody : Tty.readBody count reads (data ++ crlf)
      = { outcome := .returned 1, buf := data, rx := [] } := by
    rw [Tty.readBody, hreads', readDataLoop_fills hmiddle (by simp [hcount])]
    dsimp only
    rw [List.take_left' hcount, List.drop_left' hcount, hafter,
      readForced_fills htrailer (by decide)]
    rfl
  have hread : { tty with rx := ascii "OK " ++ (data ++ crlf) }.remoteRs232Read mem line addr count 1
      = { outcome := .returned 1, buf := data, rx := [] } := by
    rw [Tty.remoteRs232Read]
    dsimp only
    rw [hsend]
    dsimp only
    rw [if_neg Outcome.noConfusion, if_neg (by decide), if_neg (by decide), hreads,
      readForced_fills hfront (by omega)]
    dsimp only
    have hthree : (ascii "OK ").length = 3 := rfl
    rw [if_neg Outcome.noConfusion, Nat.cast_ofNat, if_neg (not_not.2 rfl), List.take_left' hthree,
      if_neg (not_not.2 rfl), List.drop_left' hthree, hbody]
  unfold answer
  dsimp only
  rw [hsend, hfeed, hrx, if_neg (by simp [ascii]), hread, Serial.responseOutput]
  exact congrArg _ (idle_eq hs s.mem)

theorem answer_write {addr : BitVec 64} {count : BitVec 32} {buf : ℤ → Byte}
    (hsuits : SerialCall.Suits s.mode (.write addr count buf))
    (hserved : SerialQuery.Served ⟨.write addr count buf, mem, line, tty⟩) :
    m.answer s ⟨.write addr count buf, mem, line, tty⟩
      = ({ outcome := .returned 1, buf := [] },
          { s with
            mem := write s.mem (BitVec.ofNat 32 addr.toNat) (bytesAt buf 0 count.toNat) }) := by
  set data := bytesAt buf 0 count.toNat with hdata
  have hcount : data.length = count.toNat := by simp [hdata, bytesAt]
  obtain ⟨hreaches, hint⟩ : s.mode.Reaches addr.toNat count.toNat ∧ count.toNat < 2 ^ 31 := hsuits
  obtain ⟨hcov, hbits⟩ := reaches_covers hreaches count.isLt
  set cmd := writebCommand addr count with hcmd
  have hline : cmd = operandLine (ascii "WRITEB ") (numeral addr.toNat) (numeral count.toNat) := by
    simp [hcmd, writebCommand, operandLine, ascii]
  have hfeed : m.feedAll s (cmd ++ [0x0A#8] ++ data)
      = { s with mem := write s.mem (BitVec.ofNat 32 addr.toNat) data }.responseOutput
          (ascii "Accepted") := by
    rw [hline]
    exact ((transfers_of_covers m hs.ctl hcov hbits).writeb (isHex_numeral _) (isHex_numeral _)
      (.inl rfl) (length_operands (by decide) addr count) data hcount).2
  have hall : Suffice (cmd ++ [0x0A#8] ++ data).length tty.writes := hserved.writes
  rw [List.append_assoc, List.length_append, List.length_append, hcount,
    List.length_singleton] at hall
  obtain ⟨sent, rest, hsplit, hrest, hsend⟩ := hall.sendCommand (length_writebCommand addr count)
  have herror : .error ∉ rest := fun hin => hserved.data addr count buf rfl (by
    dsimp only
    rw [hsplit]
    exact List.mem_append_right _ hin)
  have hloop := writeDataLoop_suffice buf rest ⟨0, [0], count, cmd ++ [0x0A#8]⟩ hint hrest herror
  have hnot : ¬ DataError count.toNat rest := by
    rw [DataError, if_neg (by omega)]
    rintro ⟨before, after, rfl, -, -⟩
    exact herror (by simp)
  have htx := (writeDataLoop_start count buf (cmd ++ [0x0A#8]) rest).2.1 hloop hnot
  obtain ⟨now, clock, hnow, hclock, hearly⟩ := hserved.clock
  have hreceives : Suffice 22 tty.reads := hserved.reads
  have hresponse : Suffice ((ascii "OK Accepted" ++ [0x0D#8]).length + 1) tty.reads :=
    hreceives.mono (by decide)
  set data' := writeDataLoop buf rest ⟨0, [0], count, cmd ++ [0x0A#8]⟩ with hdata'
  have hrx : (m.feedAll s data'.1.tx).out = ascii "OK Accepted" ++ [0x0D#8] ++ 0x0A#8 :: [] := by
    rw [htx, hfeed, Serial.responseOutput, hs.out]
    rfl
  have hbody : LineInTime (endTime now 1000000) clock tty.reads
      (ascii "OK Accepted" ++ [0x0D#8] ++ 0x0A#8 :: []) (ascii "OK Accepted" ++ [0x0D#8]) :=
    hresponse.lineInTime (by decide) hclock hearly
  obtain ⟨houtcome, -, hleft⟩ := @LineInTime.response 1000000
    { tty with rx := (m.feedAll s data'.1.tx).out, writes := data'.2.2 } now clock _
    (by rw [hrx]; exact hbody) hnow mem line 128 (by decide)
  rw [if_pos (by decide)] at houtcome
  obtain ⟨hrtx, hrrx, hrone⟩ := remoteRs232Write_accepted mem line addr count buf
    (fun tx => (m.feedAll s tx).out) tty hsend rfl hdata'.symm hloop
  have hend := hrrx.trans
    (List.cons.inj (List.append_cancel_left (hrx.symm.trans hleft))).2.symm
  unfold answer
  dsimp only
  rw [hrone houtcome, hrtx, hend, htx, settle, hfeed, Serial.responseOutput]
  exact congrArg _ (idle_eq hs _)

/-- One call does to the device what it should do to the machine, and leaves nothing on the line. -/
theorem answers_answer {call : SerialCall} (hsuits : call.Suits s.mode)
    (hserved : SerialQuery.Served ⟨call, mem, line, tty⟩) :
    let r := m.answer s ⟨call, mem, line, tty⟩
    s.machine.Answers m ⟨call, mem, line, tty⟩ r.1 r.2.machine ∧ r.2.Idle := by
  intro r
  have hr : r = m.answer s ⟨call, mem, line, tty⟩ := rfl
  cases call with
  | test =>
    rw [hr, answer_test m hs hserved]
    exact ⟨⟨rfl, rfl⟩, hs⟩
  | mode target =>
    by_cases hto : Understands s.mode target
    · rw [hr, answer_switch m hs hto hserved]
      refine ⟨(if_pos hto).mpr ⟨rfl, ?_, ?_⟩, rfl, rfl⟩
      · rcases target with - | - | - | - | -
        case x64 =>
          unfold switches
          rcases hx : m.hasX64 <;> simp [Serial.machine]
        all_goals rfl
      · dsimp only [Serial.machine]
        split_ifs
        · exact stored_write s.mem (by simp [resetVector])
        · rfl
    · rw [hr, answer_unknown m hs hto hserved]
      exact ⟨(if_neg hto).mpr ⟨rfl, rfl⟩, hs⟩
  | read addr count =>
    rw [hr, answer_read m hs hsuits hserved]
    exact ⟨⟨rfl, fetched_read _ _ _, rfl⟩, hs⟩
  | write addr count buf =>
    rw [hr, answer_write m hs hsuits hserved]
    refine ⟨⟨rfl, rfl, stored_write s.mem ?_⟩, hs.ctl, hs.out⟩
    have hlen : (bytesAt buf 0 count.toNat).length = count.toNat := by simp [bytesAt]
    rw [hlen]
    exact reaches_le hsuits.1
  | execSegOff segment offset timeoutS =>
    rw [hr, answer_execSegOff m hs hsuits hserved]
    exact ⟨⟨rfl, rfl⟩, hs.ctl, hs.out⟩
  | execOff offset timeoutS =>
    rw [hr, answer_execOff m hs hsuits hserved]
    exact ⟨⟨rfl, rfl⟩, hs.ctl, hs.out⟩

end Calls

end Stage2

/-- Whatever calls are made, as long as each suits the mode it finds the machine in and the descriptor
moves all of it in time, the answers are the machine's, and nothing of one call is left for the
next. -/
theorem serial_refines (m : Stage2) {s : Serial} (hctl : s.ctl = .line []) (hout : s.out = [])
    {qs : List SerialQuery}
    (hasked : Answering.Asked m.answer (fun s q => q.call.Suits s.mode ∧ q.Served) s qs) :
    let r := Answering.answers m.answer s qs
    Answering.Permits (SerialMachine.Answers m) s.machine r.1 r.2.machine
      ∧ r.2.ctl = .line [] ∧ r.2.out = [] := by
  intro r
  have hstep : ∀ (s : Serial) (t : SerialMachine) (q : SerialQuery), s.machine = t ∧ s.Idle →
      q.call.Suits s.mode ∧ q.Served → ∃ t', t.Answers m q (m.answer s q).1 t'
        ∧ (m.answer s q).2.machine = t' ∧ (m.answer s q).2.Idle := by
    rintro s t ⟨call, mem, line, tty⟩ ⟨rfl, hs⟩ ⟨hsuits, hserved⟩
    obtain ⟨hanswers, hidle⟩ := m.answers_answer hs hsuits hserved
    exact ⟨_, hanswers, rfl, hidle⟩
  obtain ⟨t, hpermits, rfl, hidle⟩ := Answering.permits_answers hstep ⟨rfl, hctl, hout⟩ hasked
  exact ⟨hpermits, hidle.ctl, hidle.out⟩

/-- A call on a descriptor that moves `k + 1` bytes at a time, `n` times, while the clock stands
still. -/
def SerialCall.piecewise (k : Fin 0x7FFFF000) (n : ℕ) (call : SerialCall) : SerialQuery where
  call := call
  mem := fun _ => 0
  line := 0
  tty :=
    { clock := List.replicate (n + 1) 0, reads := List.replicate n (.bytes k), rx := []
      writes := List.replicate n (.bytes k) }

theorem served_piecewise {k : Fin 0x7FFFF000} {n : ℕ} {call : SerialCall} (hsends : call.sends.length ≤ n)
    (hreceives : call.receives ≤ n) (htime : ¬ (endTime 0 call.timeout).sle 0) :
    (call.piecewise k n).Served where
  writes := ⟨by simp [SerialCall.piecewise], by
    simpa [SerialCall.piecewise, List.countP_replicate] using hsends⟩
  data _ _ _ _ := by simp [SerialCall.piecewise]
  reads := ⟨by simp [SerialCall.piecewise], by
    simpa [SerialCall.piecewise, List.countP_replicate] using hreceives⟩
  clock := by
    refine ⟨0, List.replicate n 0, List.replicate_succ, by simp [SerialCall.piecewise], ?_⟩
    intro t ht
    rw [List.eq_of_mem_replicate ht]
    exact htime

theorem serial_refines_286 :
    let qs := [SerialCall.mode .i286, .write 0x100000 2 fun p => if p = 0 then 0x90 else 0xC3,
      .read 0xFFFFF 3].map (SerialCall.piecewise 0 64)
    let r := Answering.answers stage2.answer .start qs
    Answering.Permits (SerialMachine.Answers stage2) Serial.start.machine r.1 r.2.machine
      ∧ r.2.ctl = .line [] ∧ r.2.out = [] := by
  refine serial_refines stage2 rfl rfl ⟨⟨trivial, served_piecewise ?_ ?_ ?_⟩,
    ⟨?_, served_piecewise ?_ ?_ ?_⟩, ⟨?_, served_piecewise ?_ ?_ ?_⟩, trivial⟩
  all_goals decide +kernel

end RemoteX86
