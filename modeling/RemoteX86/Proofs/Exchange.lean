import RemoteX86.Proofs.MainLoop
import RemoteX86.Proofs.SerialRange
import RemoteX86.Proofs.SerialSync

/-!
# One response to every command

A command is taken in and answered between two times at the head of the main loop: one handler or
the unknown-command path, one response, and the stack as it was.  The bytes of memory a command of the
x64 part goes through must have their pages, for otherwise the machine stops in the middle of it.
The serial model goes along: it is what the code does to memory and line.
-/

namespace RemoteX86

open Hex Memory CallStack

variable (img : Image) (mode : Mode)

/-! ## Commands in reach -/

section Reach

variable {img} {c : SerialCommand}

/-- WRITE goes through as many bytes as there are values on the line. -/
theorem writeLoop_done {b : List Byte} : ∀ (fuel : ℕ) (p : List Byte) (ptr : Pointer)
    (mem : Mem 32), ptr.Present (writeValues false p) →
      (writeLoop mode (b.length + 1) fuel ptr (p ++ 0#8 :: b) mem).2 = true
  | 0, _, _, _, _ => rfl
  | fuel + 1, p, ptr, mem, hpages => by
    rw [writeLoop, strSkipWhitespace_zero]
    simp only []
    rcases eq_or_ne (strSkipWhitespace p) [] with hnil | hne
    · rw [hnil]
      simp
    rw [writeValues_start hne] at hpages
    obtain ⟨hphys, hrest⟩ := hpages
    obtain ⟨a, ha⟩ := Option.isSome_iff_exists.1 hphys
    have hlen := List.length_pos_of_ne_nil hne
    rw [if_neg (by simp; omega), ha, strtohex_zero]
    rw [writeValues_digits] at hrest
    rcases hq : afterDigits (strSkipWhitespace p) with _ | q
    · have hle := length_strSkipWhitespace_le b
      simp only [Option.map_none, Option.getD_none]
      rw [writeLoop_end mode (by omega)]
    · rw [hq] at hrest
      simp only [Option.map_some, Option.getD_some, strSkipWhitespace_zero] at hrest ⊢
      refine writeLoop_done fuel _ _ _ ?_
      rw [present_next, writeValues_skip]
      exact hrest

/-- A word without a zero does not reach behind the line. -/
theorem prefix_line {word line rest : List Byte} (hword : 0#8 ∉ word)
    (h : word.isPrefixOf (line ++ 0#8 :: rest) = true) : word <+: line := by
  rw [List.isPrefixOf_iff_prefix] at h
  rcases Nat.lt_or_ge line.length word.length with hlt | hle
  · have hline : line ++ [0#8] <+: line ++ 0#8 :: rest := ⟨rest, by simp⟩
    have hzero : line ++ [0#8] <+: word :=
      List.prefix_of_prefix_length_le hline h (by simpa using hlt)
    exact absurd (hzero.subset (by simp)) hword
  · exact List.prefix_of_prefix_length_le h (List.prefix_append _ _) hle

theorem write_reaches (hlen : c.line.length ≤ 255) (hfind : c.handler img = some .write)
    (hreach : c.InReach img) (mem : Mem 32) {ptr : Pointer} {si : List Byte}
    (haddress : c.mode.address ((img.inBuf c.line).drop 6) = (some ptr, si)) :
    (writeLoop c.mode ((img.inBuf c.line).length - c.line.length) si.length ptr si mem).2
      = true := by
  have hpages : ptr.Present (writeValues true (c.line.drop 6)) :=
    hreach .write hfind ptr (congrArg Prod.fst haddress)
  obtain ⟨b, hbuf⟩ := img.inBuf_eq (Nat.lt_succ_of_le hlen)
  have hword : (ascii "WRITE ").isPrefixOf (img.inBuf c.line) = true :=
    List.find?_some (p := fun h : Handler => h.word.isPrefixOf (img.inBuf c.line)) hfind
  rw [hbuf] at hword haddress ⊢
  have hle : 6 ≤ c.line.length := (prefix_line (by decide) hword).length_le
  have hdi : (c.line ++ 0#8 :: b).length - c.line.length = b.length + 1 := by
    rw [List.length_append, List.length_cons]
    omega
  rw [List.drop_append_of_le_length hle, address_zero] at haddress
  obtain ⟨-, rfl⟩ := Prod.mk.inj haddress
  rw [writeValues_digits] at hpages
  rw [hdi]
  rcases hq : afterDigits (c.line.drop 6) with _ | q
  · simp only [Option.map_none, Option.getD_none]
    rw [writeLoop_end c.mode (Nat.le_succ _)]
  · rw [hq] at hpages
    exact writeLoop_done c.mode _ q ptr mem hpages

/-- A command without data. -/
theorem data_eq_nil {h : Handler} (hfind : c.handler img = some h) (hh : h ≠ .writeb)
    (hdata : c.data.length = img.dataLength c.mode c.line) : c.data = [] := by
  have hzero : img.dataLength c.mode c.line = 0 := by
    rw [SerialCommand.handler] at hfind
    rw [Image.dataLength, hfind]
    cases h with
    | writeb => exact absurd rfl hh
    | _ => rfl
  exact List.eq_nil_of_length_eq_zero (hdata.trans hzero)

/-- The data of WRITEB, if the address is taken. -/
theorem dataLength_writeb (hfind : c.handler img = some .writeb) {ptr : Option Pointer}
    {si : List Byte} (haddress : c.mode.address ((img.inBuf c.line).drop 7) = (ptr, si)) :
    img.dataLength c.mode c.line = if ptr.isSome then c.mode.count si else 0 := by
  change img.handler c.mode c.line = some .writeb at hfind
  rw [Image.dataLength, hfind]
  simp only [haddress]
  cases ptr <;> rfl

/-- Every handler but those of the jumps carries out its command. -/
theorem handler_carries {h : Handler} (hfind : c.handler img = some h)
    (hjump : ∀ target, h ≠ .jump target) (hlen : c.line.length ≤ 255) (hreach : c.InReach img)
    (hreturning : img.Returning) {d : Cpu} (hsi : d.si = img.inBuf c.line)
    (hdi : d.di = (img.inBuf c.line).length - c.line.length) {rest : List Byte}
    (hinput : d.world.input = c.data ++ rest)
    (hdata : c.data.length = img.dataLength c.mode c.line) :
    Carries img c.mode h d (img.feedAll (img.carryOut (d.serial c.mode) c.line h) c.data) rest := by
  have hword : h.word.isPrefixOf d.si = true := by
    rw [hsi]
    exact List.find?_some (p := fun h : Handler => h.word.isPrefixOf (img.inBuf c.line)) hfind
  by_cases hh : h = .writeb
  · subst hh
    show Carries _ _ _ _ (img.feedAll ((d.serial c.mode).commandWriteb
      ((img.inBuf c.line).drop 7)) c.data) rest
    rcases haddress : c.mode.address ((img.inBuf c.line).drop 7) with ⟨_ | ptr, si⟩
    · rw [dataLength_writeb hfind haddress] at hdata
      have hnil : c.data = [] := List.eq_nil_of_length_eq_zero hdata
      rw [hnil, List.nil_append] at hinput
      rw [hnil, ← hinput, Serial.commandWriteb]
      have haddress' : (d.serial c.mode).mode.address ((img.inBuf c.line).drop 7) = (none, si) :=
        haddress
      rw [haddress']
      rw [← hsi] at haddress
      exact carries_refused img c.mode rfl hword (congrArg Prod.fst haddress)
    · have hpages := hreach .writeb hfind ptr (congrArg Prod.fst haddress)
      rw [SerialCommand.span, haddress] at hpages
      rw [dataLength_writeb hfind haddress] at hdata
      rw [← hsi] at haddress ⊢
      exact carries_writeb img c.mode hword haddress hinput hdata hpages
  have hnil := data_eq_nil hfind hh hdata
  rw [hnil, List.nil_append] at hinput
  rw [hnil, ← hinput]
  cases h with
  | test => exact carries_test img c.mode hword
  | read =>
    show Carries _ _ _ _ ((d.serial c.mode).commandRead ((img.inBuf c.line).drop 5)) _
    rw [← hsi]
    refine carries_read img c.mode hword fun ptr si haddress => ?_
    rw [hsi] at haddress
    have hpages := hreach .read hfind ptr (congrArg Prod.fst haddress)
    rwa [SerialCommand.span, haddress] at hpages
  | readb =>
    show Carries _ _ _ _ ((d.serial c.mode).commandReadb ((img.inBuf c.line).drop 6)) _
    rw [← hsi]
    refine carries_readb img c.mode hword fun ptr si haddress => ?_
    rw [hsi] at haddress
    have hpages := hreach .readb hfind ptr (congrArg Prod.fst haddress)
    rwa [SerialCommand.span, haddress] at hpages
  | write =>
    show Carries _ _ _ _ ((d.serial c.mode).commandWrite ((img.inBuf c.line).drop 6)
      ((img.inBuf c.line).length - c.line.length)) _
    rw [← hdi, ← hsi]
    refine carries_write img c.mode hword fun ptr si haddress => ?_
    rw [hsi] at haddress
    rw [hdi]
    exact write_reaches hlen hfind hreach d.world.mem haddress
  | writeb => exact absurd rfl hh
  | exec =>
    show Carries _ _ _ _ (img.commandExec (d.serial c.mode) ((img.inBuf c.line).drop 5)) _
    rw [← hsi]
    exact carries_exec img c.mode hword (hreturning _ _)
  | jump target => exact absurd rfl (hjump target)
  | low => exact carries_low img c.mode hword

/-- The serial model is at the start of a line again, with one response sent. -/
structure Finished (s : Serial) (mode : Mode) (t : Serial) : Prop where
  mode : t.mode = mode
  ctl : t.ctl = .line []
  response : ∃ r, IsResponse r ∧ t.out = s.out ++ r

theorem finished_output (s t : Serial) (msg : List Byte) (hout : t.out = s.out) :
    Finished s t.mode (t.responseOutput msg) :=
  ⟨rfl, rfl, _, ⟨msg, Or.inl rfl⟩, by rw [← hout]; rfl⟩

theorem finished_outputErr (s : Serial) (msg : List Byte) :
    Finished s s.mode (s.responseOutputErr msg) :=
  ⟨rfl, rfl, _, ⟨msg, Or.inr rfl⟩, rfl⟩

theorem readCommand_finished {send : Byte → List Byte} {s : Serial} {p : List Byte}
    (hreach : ∀ ptr, (s.mode.address p).1 = some ptr →
      ptr.Present (s.mode.count (s.mode.address p).2)) :
    Finished s s.mode (s.readCommand send p) := by
  rw [Serial.readCommand]
  rcases haddress : s.mode.address p with ⟨_ | ptr, si⟩
  · exact finished_outputErr s _
  · have hpages := hreach ptr (congrArg Prod.fst haddress)
    rw [haddress] at hpages
    simp only [(readLoop_done_iff send s.mem _ ptr).2 hpages, if_true]
    exact finished_output s s _ rfl

theorem commandWrite_finished {s : Serial} {p : List Byte} {di : ℕ}
    (hreach : ∀ ptr si, s.mode.address p = (some ptr, si) →
      (writeLoop s.mode di si.length ptr si s.mem).2 = true) :
    Finished s s.mode (s.commandWrite p di) := by
  rw [Serial.commandWrite]
  rcases haddress : s.mode.address p with ⟨_ | ptr, si⟩
  · exact finished_outputErr s _
  · simp only [hreach ptr si haddress, if_true]
    exact finished_output s { s with mem := (writeLoop s.mode di si.length ptr si s.mem).1 } _ rfl

theorem commandWriteb_finished {s : Serial} {p data : List Byte}
    (hdata : data.length = if (s.mode.address p).1.isSome then s.mode.count (s.mode.address p).2
      else 0)
    (hreach : ∀ ptr, (s.mode.address p).1 = some ptr → ptr.Present data.length) :
    Finished s s.mode (img.feedAll (s.commandWriteb p) data) := by
  rw [Serial.commandWriteb]
  rcases haddress : s.mode.address p with ⟨_ | ptr, si⟩
  · rw [haddress] at hdata
    rw [List.eq_nil_of_length_eq_zero hdata]
    exact finished_outputErr s _
  · rw [haddress] at hdata
    have hdata' : data.length = s.mode.count si := hdata
    obtain ⟨mem, ptr', hfeed⟩ := img.feedAll_writebLoop data s ptr hdata'.le
      (hreach ptr (congrArg Prod.fst haddress))
    simp only [hfeed, hdata', Nat.sub_self]
    exact finished_output s { s with mem := mem } _ rfl

theorem carryOut_finished {h : Handler} (hfind : c.handler img = some h)
    (hlen : c.line.length ≤ 255) (hreach : c.InReach img)
    (hdata : c.data.length = img.dataLength c.mode c.line) {s : Serial} (hs : s.mode = c.mode) :
    Finished s (c.next img) (img.feedAll (img.carryOut s c.line h) c.data) := by
  by_cases hh : h = .writeb
  · subst hh
    have hnext : c.next img = c.mode := by rw [SerialCommand.next, hfind]
    have haddress := dataLength_writeb hfind (Prod.mk.eta (p := c.mode.address _)).symm
    rw [haddress, ← hs] at hdata
    rw [hnext, ← hs]
    refine commandWriteb_finished hdata fun ptr hptr => ?_
    have hpages := hreach .writeb hfind ptr (hs ▸ hptr)
    rw [hdata, hptr]
    rw [hs]
    exact hpages
  rw [data_eq_nil hfind hh hdata, SerialCommand.next, hfind]
  show Finished s _ (img.carryOut s c.line h)
  cases h with
  | test => exact hs ▸ finished_output s s _ rfl
  | read =>
    refine hs ▸ readCommand_finished fun ptr hptr => ?_
    rw [hs] at hptr ⊢
    exact hreach .read hfind ptr hptr
  | readb =>
    refine hs ▸ readCommand_finished fun ptr hptr => ?_
    rw [hs] at hptr ⊢
    exact hreach .readb hfind ptr hptr
  | write =>
    refine hs ▸ commandWrite_finished fun ptr si haddress => ?_
    rw [hs] at haddress ⊢
    exact write_reaches hlen hfind hreach s.mem haddress
  | writeb => exact absurd rfl hh
  | exec =>
    exact hs ▸ finished_output s
      { s with mem := img.code (s.mode.entryPoint ((img.inBuf c.line).drop 5)) s.mem } _ rfl
  | jump target =>
    obtain ⟨mem, hjump, -⟩ := carryOut_jump img s c.line target
    rw [hjump]
    exact finished_output s { s with mode := img.destination target, mem := mem } _ rfl
  | low =>
    obtain ⟨a, -, hlow⟩ := commandLow_eq img s
    show Finished s _ (img.commandLow s)
    rw [hlow]
    exact hs ▸ finished_output s s _ rfl

end Reach

/-! ## Taking a command from the stream -/

theorem takeLine_endsLine : ∀ {stream chars rest : List Byte},
    takeLine stream = some (chars, rest) → EndsLine stream chars rest
  | [], _, _, h => by cases h
  | al :: stream, chars, rest, h => by
    rw [takeLine.eq_def] at h
    simp only [] at h
    by_cases hend : LineEnd al
    · rw [if_pos hend] at h
      cases h
      exact ⟨[], al, .nil, hend, rfl⟩
    rw [if_neg hend] at h
    by_cases hesc : al = 0x1B#8
    · rw [if_pos hesc] at h
      rcases stream with _ | ⟨al', stream⟩
      · cases h
      obtain ⟨⟨chars, rest⟩, hline, h⟩ := Option.map_eq_some_iff.1 h
      cases h
      obtain ⟨sent, eol, hsent, heol, rfl⟩ := takeLine_endsLine hline
      exact ⟨0x1B :: al' :: sent, eol, .escaped hsent, heol, by rw [hesc]; rfl⟩
    · rw [if_neg hesc] at h
      obtain ⟨⟨chars, rest⟩, hline, h⟩ := Option.map_eq_some_iff.1 h
      cases h
      obtain ⟨sent, eol, hsent, heol, rfl⟩ := takeLine_endsLine hline
      obtain ⟨hlf, hcr⟩ := not_or.1 hend
      exact ⟨al :: sent, eol, .plain ⟨hlf, hcr, hesc⟩ hsent, heol, rfl⟩

/-- Behind the empty lines no line is empty. -/
theorem takeLine_skipEmpty {stream chars rest : List Byte}
    (h : takeLine (skipEmpty stream) = some (chars, rest)) : chars ≠ [] := by
  rintro rfl
  obtain ⟨sent, eol, hsent, heol, hstream⟩ := takeLine_endsLine h
  cases hsent
  have hhead : (skipEmpty stream).head? = some eol := by rw [hstream]; rfl
  have hnot := List.head?_dropWhile_not (fun al => decide (LineEnd al)) stream
  rw [← skipEmpty, hhead] at hnot
  exact absurd (show LineEnd eol from heol) (by simpa using hnot)

theorem emptyLines_run : ∀ (stream : List Byte) (d : Cpu), d.world.input = stream → ∃ d' : Cpu,
    d'.world = { d.world with input := skipEmpty stream } ∧
      ∀ st, Runs img.listing ⟨img.listing (mode, .mainLoop), st, d⟩
        ⟨img.listing (mode, .mainLoop), st, d'⟩
  | [], d, hinput => by
    refine ⟨d, ?_, fun st => .refl _⟩
    rw [skipEmpty, List.dropWhile_nil, ← hinput]
  | al :: stream, d, hinput => by
    by_cases hal : LineEnd al
    · obtain ⟨d₁, hworld₁, hbuf₁, hstart⟩ := mainLoop_runs img mode d
      obtain ⟨d₂, hworld₂, hbuf₂, hend⟩ :=
        mainLoopRead_end img mode (by rw [hworld₁]; exact hinput) hal
      obtain ⟨d₃, hworld₃, hback⟩ := mainLoopProcess_empty img mode (hbuf₂.trans hbuf₁)
      obtain ⟨d', hworld', hrest⟩ := emptyLines_run stream d₃ (by rw [hworld₃, hworld₂])
      refine ⟨d', ?_, fun st => (hstart st).trans ((hend st).trans ((hback st).trans (hrest st)))⟩
      rw [hworld', hworld₃, hworld₂, hworld₁, skipEmpty, skipEmpty,
        List.dropWhile_cons_of_pos (by simpa using hal)]
    · refine ⟨d, ?_, fun st => .refl _⟩
      rw [skipEmpty, List.dropWhile_cons_of_neg (by simpa using hal), ← hinput]

/-! ## One exchange -/

/-- The machine at the head of the main loop as the serial model has it. -/
structure Shows (mode : Mode) (d : Cpu) (s : Serial) : Prop where
  mode : s.mode = mode
  mem : s.mem = d.world.mem
  ctl : s.ctl = .line []
  out : s.out = d.world.out

/-- From the end of a line the machine comes back to the head of the main loop, with the command
carried out as in `u`. -/
def ProcessedTo (c : SerialCommand) (d : Cpu) (rest : List Byte) (u : Serial) : Prop :=
  ∀ st, ∃ t : State, Runs img.listing ⟨img.listing (c.mode, .mainLoopProcess), st, d⟩ t ∧
    t.code = img.listing (c.next img, .mainLoop) ∧
    t.data.world = { mem := u.mem, input := rest, out := u.out
                     log := d.world.log ++ c.milestones img } ∧
    (¬ c.SwitchesMode img → t.stack = st) ∧ (c.SwitchesMode img → t.stack = [])

section Process

variable {img} {c : SerialCommand} {d : Cpu} (hbuf : d.buf = c.line) (hne : c.line ≠ [])

include hbuf hne

theorem processed_unknown (hfind : c.handler img = none) :
    ProcessedTo img c d d.world.input
      ((d.serial c.mode).responseOutputErr (ascii "Unknown command")) := by
  intro st
  obtain ⟨d₁, hworld₁, -, hsi₁, -, hprocess⟩ :=
    mainLoopProcess_line img c.mode (by rw [hbuf]; exact hne)
  rw [hbuf] at hsi₁
  have hnone : c.mode.handlers.find? (fun h => h.word.isPrefixOf d₁.si) = none := by
    rw [hsi₁]
    exact hfind
  obtain ⟨d₂, hworld₂, hafter⟩ := afterCommand_unknown img c.mode { d₁ with cf := true } rfl
  have hmilestones : c.milestones img = [.understood true, .answer] := by
    rw [SerialCommand.milestones, hfind]
  have hnext : c.next img = c.mode := by
    rw [SerialCommand.next, hfind]
  refine ⟨_, (hprocess st).trans ((mainLoopCommand_unknown_returns img c.mode hnone _ st).trans
    (hafter st)), ?_, ?_, fun _ => rfl, ?_⟩
  · rw [hnext]
  · rw [hworld₂, hmilestones]
    simp only [hworld₁]
    rfl
  · rintro ⟨target, htarget⟩
    rw [hfind] at htarget
    cases htarget

theorem processed_jump {target : Mode} (hfind : c.handler img = some (.jump target)) :
    ProcessedTo img c d d.world.input
      (img.carryOut (d.serial c.mode) c.line (.jump target)) := by
  intro st
  obtain ⟨d₁, hworld₁, hbuf₁, hsi₁, -, hprocess⟩ :=
    mainLoopProcess_line img c.mode (by rw [hbuf]; exact hne)
  rw [hbuf] at hsi₁
  have hserial : d₁.serial c.mode = d.serial c.mode := by
    rw [Cpu.serial, Cpu.serial, hworld₁, hbuf₁]
  have hsome : c.mode.handlers.find? (fun h => h.word.isPrefixOf d₁.si) = some (.jump target) := by
    rw [hsi₁]
    exact hfind
  obtain ⟨cf, k, hdispatch⟩ := mainLoopCommand_handler_runs img c.mode hsome
  obtain ⟨d₂, hworld₂, hjump⟩ := command_jump img c.mode (d := { d₁ with cf := cf }) c.line
    (List.find?_some (p := fun h : Handler => h.word.isPrefixOf d₁.si) hsome)
  have hmilestones : c.milestones img = [.heard (.jump target), .answer] := by
    rw [SerialCommand.milestones, hfind]
  have hnext : c.next img = img.destination target := by
    rw [SerialCommand.next, hfind]
  have hcf : Cpu.serial c.mode { d₁ with cf := cf } = d.serial c.mode := hserial
  refine ⟨_, (hprocess st).trans ((hdispatch _).trans (hjump _)), ?_, ?_, ?_, fun _ => rfl⟩
  · rw [hnext]
  · rw [hworld₂, hmilestones, hcf]
    simp only [hworld₁]
  · exact fun hno => absurd ⟨target, hfind⟩ hno

theorem processed_handler {h : Handler} {rest : List Byte} (hfind : c.handler img = some h)
    (hjump : ∀ target, h ≠ .jump target) (hlen : c.line.length ≤ 255) (hreach : c.InReach img)
    (hreturning : img.Returning) (hinput : d.world.input = c.data ++ rest)
    (hdata : c.data.length = img.dataLength c.mode c.line) :
    ProcessedTo img c d rest
      (img.feedAll (img.carryOut (d.serial c.mode) c.line h) c.data) := by
  intro st
  obtain ⟨d₁, hworld₁, hbuf₁, hsi₁, hdi₁, hprocess⟩ :=
    mainLoopProcess_line img c.mode (by rw [hbuf]; exact hne)
  rw [hbuf] at hsi₁ hdi₁
  have hserial : d₁.serial c.mode = d.serial c.mode := by
    rw [Cpu.serial, Cpu.serial, hworld₁, hbuf₁]
  have hsome : c.mode.handlers.find? (fun h => h.word.isPrefixOf d₁.si) = some h := by
    rw [hsi₁]
    exact hfind
  obtain ⟨cf, k, hdispatch⟩ := mainLoopCommand_handler_runs img c.mode hsome
  obtain ⟨d₂, hcf₂, hworld₂, hleaves⟩ := handler_carries hfind hjump hlen hreach hreturning
    (d := { d₁ with cf := cf }) hsi₁ hdi₁ (by rw [← hinput, ← hworld₁]) hdata
  have hmilestones : c.milestones img = [.heard h, .answer, .understood false] := by
    rw [SerialCommand.milestones, hfind]
    cases h <;> first | rfl | exact absurd rfl (hjump _)
  have hnext : c.next img = c.mode := by
    rw [SerialCommand.next, hfind]
    cases h <;> first | rfl | exact absurd rfl (hjump _)
  have hcf : Cpu.serial c.mode { d₁ with cf := cf } = d.serial c.mode := hserial
  refine ⟨_, (hprocess st).trans ((hdispatch _).trans ((hleaves _ _ st).trans
    (afterCommand_understood img c.mode d₂ hcf₂ st))), ?_, ?_, fun _ => rfl, ?_⟩
  · rw [hnext]
  · rw [hmilestones, ← hcf]
    simp only [note, hworld₂, hworld₁, List.append_assoc]
    rfl
  · rintro ⟨target, htarget⟩
    rw [hfind] at htarget
    exact absurd (Option.some.inj htarget) (hjump target)

/-- A command in reach is carried out as in the serial model, and answered. -/
theorem processed {rest : List Byte} (hlen : c.line.length ≤ 255) (hreach : c.InReach img)
    (hreturning : img.Returning) (hinput : d.world.input = c.data ++ rest)
    (hdata : c.data.length = img.dataLength c.mode c.line) {u : Serial}
    (hu : u = img.feedAll (img.mainLoopCommand (d.serial c.mode) c.line) c.data) :
    ProcessedTo img c d rest u ∧ Finished (d.serial c.mode) (c.next img) u := by
  have hmode : (d.serial c.mode).mode = c.mode := rfl
  rw [mainLoopCommand_eq, hmode] at hu
  rcases hfind : img.handler c.mode c.line with _ | h
  · have hnil : c.data = [] := by
      rw [Image.dataLength, hfind] at hdata
      exact List.eq_nil_of_length_eq_zero hdata
    have hnext : c.next img = c.mode := by
      rw [SerialCommand.next, SerialCommand.handler, hfind]
    rw [hfind, hnil] at hu
    rw [hnil, List.nil_append] at hinput
    rw [hu, ← hinput, hnext]
    exact ⟨processed_unknown hbuf hne hfind, finished_outputErr _ _⟩
  · have hfinish := carryOut_finished hfind hlen hreach hdata hmode
    rw [hfind] at hu
    rw [hu]
    refine ⟨?_, hfinish⟩
    by_cases hjump : ∃ target, h = .jump target
    · obtain ⟨target, rfl⟩ := hjump
      have hnil := data_eq_nil hfind (by simp) hdata
      rw [hnil, List.nil_append] at hinput
      rw [hnil, ← hinput]
      exact processed_jump hbuf hne hfind
    · exact processed_handler hbuf hne hfind (fun target htarget => hjump ⟨target, htarget⟩) hlen
        hreach hreturning hinput hdata

end Process

/-- The first command of the stream is answered, and the serial model goes along. -/
theorem answered {c : SerialCommand} {rest : List Byte} {d : Cpu} {s : Serial}
    (hshows : Shows c.mode d s) (htakes : img.nextCommand c.mode d.world.input = some (c, rest))
    (hreach : c.InReach img) (hreturning : img.Returning) (st : List (Word Loc Cpu Saved)) :
    ∃ t : State, Answered img ⟨img.listing (c.mode, .mainLoop), st, d⟩ c t ∧
      t.data.world.input = rest ∧ ∃ taken, d.world.input = taken ++ rest ∧
        Shows (c.next img) t.data (img.feedAll s taken) := by
  obtain ⟨⟨chars, behind⟩, hline, h⟩ := Option.bind_eq_some_iff.1 htakes
  simp only [] at h
  split_ifs at h with hlen
  obtain ⟨hc, hrest⟩ := Prod.mk.inj (Option.some.inj h)
  have hkept : c.line = kept chars := by rw [← hc]
  have hdata : c.data = behind.take (img.dataLength c.mode c.line) := by rw [hkept, ← hc]
  rw [← hkept] at hlen hrest
  have hchars := takeLine_skipEmpty hline
  have hne : c.line ≠ [] := by
    rw [hkept, kept]
    simpa [inBufSize] using hchars
  -- the machine
  obtain ⟨d₁, hworld₁, hempty⟩ := emptyLines_run img c.mode _ d rfl
  obtain ⟨d₂, hworld₂, hbuf₂, hstart⟩ := mainLoop_runs img c.mode d₁
  obtain ⟨d₃, hworld₃, hbuf₃, hread⟩ :=
    readLine_runs img c.mode _ [] d₂ hline (by rw [hworld₂, hworld₁]) hbuf₂
  rw [List.nil_append, ← hkept] at hbuf₃
  have hbehind : behind = c.data ++ rest := by
    rw [hdata, ← hrest, List.take_append_drop]
  have hinput₃ : d₃.world.input = c.data ++ rest := by
    rw [hworld₃, ← hbehind]
  -- the serial model
  obtain ⟨sent, eol, hsent, heol, hstream⟩ := takeLine_endsLine hline
  let ends := d.world.input.takeWhile fun al => decide (LineEnd al)
  have hends : ∀ al ∈ ends, LineEnd al := fun al hal => by
    simpa using List.mem_takeWhile_imp hal
  have hserial : d₃.serial c.mode = { s with ctl := .line c.line } := by
    rw [Cpu.serial, hworld₃, hworld₂, hworld₁, hbuf₃, ← hshows.mem, ← hshows.out, ← hshows.mode]
  have hu : img.feedAll s (ends ++ (sent ++ eol :: c.data))
      = img.feedAll (img.mainLoopCommand (d₃.serial c.mode) c.line) c.data := by
    rw [img.feedAll_append, img.feedAll_lineEnds hshows.ctl hends,
      feedAll_endsLine _ hshows.ctl ⟨sent, eol, hsent, heol, rfl⟩, if_neg hchars, ← hkept, hserial]
  obtain ⟨hprocess, hmode, hctl, r, hr, hout⟩ := processed hbuf₃ hne (by
    rw [hkept]
    exact Nat.le_of_lt_succ (length_kept chars)) hreach hreturning hinput₃ (by
    rw [hdata, List.length_take, Nat.min_eq_left hlen]) hu
  obtain ⟨t, hrun, hcode, hworld, hstack, hfresh⟩ := hprocess st
  have hinput : t.data.world.input = rest := by rw [hworld]
  refine ⟨t, ⟨rfl, ?_, ?_, hcode, ?_, ⟨r, hr, ?_⟩, hstack, hfresh⟩, hinput, _, ?_, hmode, ?_,
    hctl, ?_⟩
  · rw [hinput]
    exact htakes
  · exact (hempty st).trans ((hstart st).trans ((hread st).trans hrun))
  · rw [hworld, hworld₃, hworld₂, hworld₁]
  · rw [hworld]
    rw [hserial] at hout
    exact hout.trans (by rw [hshows.out])
  · rw [List.append_assoc, List.append_assoc, List.cons_append, ← hbehind, ← hstream]
    exact (List.takeWhile_append_dropWhile).symm
  · rw [hworld]
  · rw [hworld]

/-! ## Streams -/

theorem nextCommand_some {stream rest : List Byte} {c : SerialCommand}
    (h : img.nextCommand mode stream = some (c, rest)) :
    c.mode = mode ∧ rest.length < stream.length := by
  obtain ⟨⟨chars, behind⟩, hline, h⟩ := Option.bind_eq_some_iff.1 h
  simp only [] at h
  split_ifs at h
  obtain ⟨rfl, rfl⟩ := Prod.mk.inj (Option.some.inj h)
  obtain ⟨sent, eol, -, -, hstream⟩ := takeLine_endsLine hline
  have hle : (skipEmpty stream).length ≤ stream.length := List.length_dropWhile_le _ _
  rw [hstream, List.length_append, List.length_cons] at hle
  refine ⟨rfl, ?_⟩
  rw [List.length_drop]
  omega

/-- Where no command is left the machine is at rest. -/
theorem atRest {st : List (Word Loc Cpu Saved)} {d : Cpu}
    (h : img.nextCommand mode d.world.input = none) :
    AtRest img mode ⟨img.listing (mode, .mainLoop), st, d⟩ where
  loop := rfl
  left := h
  silent := by
    intro hline
    obtain ⟨d₁, hworld₁, hempty⟩ := emptyLines_run img mode _ d rfl
    obtain ⟨d₂, hworld₂, -, hstart⟩ := mainLoop_runs img mode d₁
    obtain ⟨t, hwait, hstuck, hworld⟩ :=
      readLine_waits img mode st _ d₂ hline (by rw [hworld₂, hworld₁])
    refine ⟨t, (hempty st).trans ((hstart st).trans hwait), hstuck, ?_⟩
    rw [hworld, hworld₂, hworld₁]

theorem AnsweredEach.runs {s t : State} {cs : List SerialCommand} (h : AnsweredEach img s cs t) :
    Runs img.listing s t := by
  induction h with
  | nil => exact .refl _
  | cons hanswer _ ih => exact hanswer.runs.trans ih

/-- Command after command, and the serial model goes along. -/
theorem commandsLoop_answered (hreturning : img.Returning) : ∀ (fuel : ℕ) (mode : Mode)
    (st : List (Word Loc Cpu Saved)) (d : Cpu) (s : Serial), Shows mode d s →
      d.world.input.length ≤ fuel →
      (∀ c ∈ img.commandsLoop fuel mode d.world.input, c.InReach img) →
      ∃ t mode', AnsweredEach img ⟨img.listing (mode, .mainLoop), st, d⟩
          (img.commandsLoop fuel mode d.world.input) t ∧ AtRest img mode' t ∧
        ∃ taken, d.world.input = taken ++ t.data.world.input ∧
          Shows mode' t.data (img.feedAll s taken)
  | 0, mode, st, d, s, hshows, hfuel, _ => by
    have hnil := List.eq_nil_of_length_eq_zero (Nat.le_zero.1 hfuel)
    refine ⟨_, mode, .nil, atRest img mode ?_, [], rfl, hshows⟩
    rw [hnil]
    rfl
  | fuel + 1, mode, st, d, s, hshows, hfuel, hreach => by
    rw [Image.commandsLoop] at hreach ⊢
    rcases hnext : img.nextCommand mode d.world.input with _ | ⟨c, rest⟩
    · exact ⟨_, mode, .nil, atRest img mode hnext, [], rfl, hshows⟩
    · rw [hnext] at hreach
      obtain ⟨rfl, hlt⟩ := nextCommand_some img mode hnext
      obtain ⟨⟨code, st₁, d₁⟩, hanswer, rfl, taken, htaken, hshows₁⟩ :=
        answered img hshows hnext (hreach c List.mem_cons_self) hreturning st
      obtain rfl : code = _ := hanswer.loop
      have hlt' : d₁.world.input.length < d.world.input.length := hlt
      obtain ⟨t, mode', heach, hrest, taken', htaken', hshows'⟩ :=
        commandsLoop_answered hreturning fuel (c.next img) st₁ d₁ _ hshows₁ (by omega)
          fun c' hc' => hreach c' (List.mem_cons_of_mem _ hc')
      refine ⟨t, mode', .cons hanswer heach, hrest, taken ++ taken', ?_, ?_⟩
      · rw [htaken, htaken', List.append_assoc]
      · rw [img.feedAll_append]
        exact hshows'

/-- Every command whose bytes of memory have their pages is answered once. -/
theorem oneResponseEach (img : Image) (hreturning : img.Returning) (mode : Mode)
    (st : List (Word Loc Cpu Saved)) (d : Cpu)
    (hreach : ∀ c ∈ img.commands mode d.world.input, c.InReach img) :
    OneResponseEach img mode st d := by
  obtain ⟨t, mode', heach, hrest, -⟩ := commandsLoop_answered img hreturning _ mode st d
    { mode := mode, mem := d.world.mem, ctl := .line [], out := d.world.out } ⟨rfl, rfl, rfl, rfl⟩
    le_rfl hreach
  exact ⟨t, mode', heach, hrest⟩

/-- The serial model is what the code does, over any stream whose commands are in reach. -/
theorem runs_feedAll (hreturning : img.Returning) {s : Serial} {d : Cpu} (hshows : Shows s.mode d s)
    (hreach : ∀ c ∈ img.commands s.mode d.world.input, c.InReach img)
    (st : List (Word Loc Cpu Saved)) : ∃ t : State, ∃ taken,
      Runs img.listing ⟨img.listing (s.mode, .mainLoop), st, d⟩ t ∧
        d.world.input = taken ++ t.data.world.input ∧
        Shows (img.feedAll s taken).mode t.data (img.feedAll s taken) := by
  obtain ⟨t, mode', heach, -, taken, htaken, hshows'⟩ :=
    commandsLoop_answered img hreturning _ s.mode st d s hshows le_rfl hreach
  exact ⟨t, taken, heach.runs img, htaken, hshows'.mode ▸ hshows'⟩

/-- Only the x64 part has pages that may be missing. -/
theorem SerialCommand.inReach_of_ne_x64 {c : SerialCommand} (h : c.mode ≠ .x64) : c.InReach img :=
  fun _ _ _ hptr => present_of_ne_flat64 _ (address_ne_flat64 h hptr)

/-- A linked image, with code that leaves zeros in the registers. -/
def stage2Image : Image :=
  { stage2 with leaves := fun _ _ => some ⟨0, 0, 0, 0, [], 0, false⟩ }

/-- The registers at the start, and what is to come over the line. -/
def cpuWith (input : List Byte) : Cpu :=
  { ax := 0, bx := 0, cx := 0, dx := 0, si := [], di := 0, cf := false, es := 0
    access := accessSelector386, userCode := accessSelector386, buf := []
    world := { mem := fun _ => 0, input := input, out := [], log := [] } }

theorem oneResponseEach_x64 :
    OneResponseEach stage2Image .x64 [] (cpuWith (ascii "FOO\n\nREAD 1000 2\n")) := by
  refine oneResponseEach stage2Image (fun _ _ => rfl) .x64 [] _ fun c hc h hh ptr hptr => ?_
  have hcommands : stage2Image.commands .x64 (ascii "FOO\n\nREAD 1000 2\n")
      = [⟨.x64, ascii "FOO", []⟩, ⟨.x64, ascii "READ 1000 2", []⟩] := by decide +kernel
  have hc' : c ∈ [⟨.x64, ascii "FOO", []⟩, ⟨.x64, ascii "READ 1000 2", []⟩] := hcommands ▸ hc
  rcases List.mem_cons.1 hc' with rfl | hc'
  · have hnone : (⟨.x64, ascii "FOO", []⟩ : SerialCommand).handler stage2Image = none := by
      decide +kernel
    rw [hnone] at hh
    cases hh
  · rw [List.mem_singleton] at hc'
    subst hc'
    have hread : (⟨.x64, ascii "READ 1000 2", []⟩ : SerialCommand).handler stage2Image
        = some .read := by decide +kernel
    obtain rfl := Option.some.inj (hread.symm.trans hh)
    have haddress : (Mode.address .x64 ((stage2Image.inBuf (ascii "READ 1000 2")).drop 5)).1
        = some (.flat64 0x1000) := by decide +kernel
    obtain rfl := Option.some.inj (haddress.symm.trans hptr)
    have hspan : SerialCommand.span stage2Image ⟨.x64, ascii "READ 1000 2", []⟩ .read = 2 := by
      decide +kernel
    rw [hspan]
    exact (present_flat64 2 _).2 (Or.inr (by decide))

/-- A READ of an address above the page tables gets no further than the head of its answer. -/
theorem not_oneResponseEach_x64 : stage2Image.Returning ∧
    ¬ OneResponseEach stage2Image .x64 [] (cpuWith (ascii "READ 1000000000 1\n")) := by
  refine ⟨fun _ _ => rfl, ?_⟩
  rintro ⟨t, mode', heach, hrest⟩
  let c : SerialCommand := ⟨.x64, ascii "READ 1000000000 1", []⟩
  have hcommands : stage2Image.commands .x64 (ascii "READ 1000000000 1\n") = [c] := by
    decide +kernel
  have heach' : AnsweredEach stage2Image ⟨stage2Image.listing (.x64, .mainLoop), [],
      cpuWith (ascii "READ 1000000000 1\n")⟩ [c] t := hcommands ▸ heach
  rcases heach' with _ | ⟨hanswer, _ | _⟩
  -- it is answered, so the machine goes on to wait for the next line
  have hnext : stage2Image.nextCommand .x64 (ascii "READ 1000000000 1\n") = some (c, []) := by
    decide +kernel
  have hinput : t.data.world.input = [] :=
    congrArg Prod.snd (Option.some.inj (hanswer.takes.symm.trans hnext))
  have hmilestones : c.milestones stage2Image = [.heard .read, .answer, .understood false] := by
    decide +kernel
  obtain ⟨w, hwait, hstuck, hworld⟩ := hrest.silent (by rw [hinput]; rfl)
  have hlog : w.data.world.log = [.heard .read, .answer, .understood false] := by
    rw [hworld, ← hmilestones]
    exact hanswer.milestones
  -- but it has stopped before
  have hstop : (((fun s : Option State => s.bind (step stage2Image.listing))^[652]
        (some ⟨stage2Image.listing (.x64, .mainLoop), [],
          cpuWith (ascii "READ 1000000000 1\n")⟩)).map fun u =>
      (u.data.world.log, (step stage2Image.listing u).isNone))
      = some ([.heard .read, .answer], true) := by decide +kernel
  obtain ⟨u, hu, hfault⟩ := Option.map_eq_some_iff.1 hstop
  obtain ⟨hlog', hnone⟩ := Prod.mk.inj hfault
  obtain rfl := Runs.stuck_unique (hanswer.runs.trans hwait) hstuck (Runs.steps 652 hu)
    (Option.isNone_iff_eq_none.1 hnone)
  rw [hlog] at hlog'
  cases hlog'

end RemoteX86
