import RemoteX86.Proofs.Commands
import RemoteX86.Proofs.LineBuffer

/-!
# The main loop

`_main_loop` reads a line into `in_buf`, `_main_loop_command` calls one handler after another, and
what it comes back with decides whether there is something to say.
-/

namespace RemoteX86

open Hex Memory CallStack

variable (img : Image) (mode : Mode)

/-! ## Reading a line -/

/-- Where there is no byte, `com_char_in` waits for one. -/
theorem comCharIn_waits {d : Cpu} (h : d.world.input = []) (k : Code)
    (st : List (Word Loc Cpu Saved)) : ∃ t : State,
      Runs img.listing ⟨Image.near mode .comCharIn :: k, st, d⟩ t ∧ Stuck img.listing t ∧
        t.data.world = d.world := by
  obtain ⟨⟨ax, bx, cx, dx, si, di, cf⟩, es, access, userCode, buf, ⟨mem, input, out, log⟩⟩ := d
  obtain rfl := h
  refine ⟨_, .head rfl (Runs.steps 3 rfl), ?_, ?_⟩
  · rfl
  · rfl

theorem mainLoopReadAl_runs (d : Cpu) : ∃ d' : Cpu, d'.world = d.world ∧
    d'.buf = Stage2.store d.buf (al d.ax) ∧
      ∀ st, Runs img.listing ⟨img.listing (mode, .mainLoopReadAl), st, d⟩
        ⟨img.listing (mode, .mainLoopRead), st, d'⟩ := by
  unfold Stage2.store
  by_cases hfull : 256 - 1 ≤ d.buf.length
  · rw [if_pos hfull]
    exact ⟨{ d with cf := decide (d.buf.length < 256 - 1) }, rfl, rfl, fun st =>
      .op rfl (.taken (by simpa using hfull) (.refl _))⟩
  · rw [if_neg hfull]
    exact ⟨{ d with cf := decide (d.buf.length < 256 - 1), buf := d.buf ++ [al d.ax] }, rfl, rfl,
      fun st => .op rfl (.past (by simpa using hfull) (.op rfl (.jump (.refl _))))⟩

theorem mainLoopRead_end {d : Cpu} {al : Byte} {input : List Byte}
    (hinput : d.world.input = al :: input) (hal : LineEnd al) : ∃ d' : Cpu,
    d'.world = { d.world with input := input } ∧ d'.buf = d.buf ∧
      ∀ st, Runs img.listing ⟨img.listing (mode, .mainLoopRead), st, d⟩
        ⟨img.listing (mode, .mainLoopProcess), st, d'⟩ := by
  rcases hal with rfl | rfl
  · refine ⟨_, ?_, ?_, fun st => .call (comCharIn_returns img mode hinput) (.op rfl
      (.taken ?_ (.refl _)))⟩
    · rfl
    · rfl
    · simp
  · refine ⟨_, ?_, ?_, fun st => .call (comCharIn_returns img mode hinput) (.op rfl
      (.past ?_ (.op rfl (.taken ?_ (.refl _)))))⟩
    · rfl
    · rfl
    · simp
    · simp

theorem mainLoopRead_plain {d : Cpu} {al : Byte} {input : List Byte}
    (hinput : d.world.input = al :: input) (hal : ¬ LineEnd al) (hesc : al ≠ 0x1B#8) :
    ∃ d' : Cpu, d'.world = { d.world with input := input } ∧ d'.buf = Stage2.store d.buf al ∧
      ∀ st, Runs img.listing ⟨img.listing (mode, .mainLoopRead), st, d⟩
        ⟨img.listing (mode, .mainLoopRead), st, d'⟩ := by
  obtain ⟨hlf, hcr⟩ := not_or.1 hal
  obtain ⟨d', hworld, hbuf, hread⟩ := mainLoopReadAl_runs img mode
    { d with
      ax := withAl d.ax al, cf := decide (al < 0x1B#8)
      world := { d.world with input := input } }
  rw [al_withAl] at hbuf
  refine ⟨d', hworld, hbuf, fun st => .call (comCharIn_returns img mode hinput) (.op rfl
    (.past ?_ (.op rfl (.past ?_ (.op rfl (.taken ?_ (.trans (.of_eq ?_) (hread st))))))))⟩
  · simpa using hlf
  · simpa using hcr
  · simpa using hesc
  · simp

theorem mainLoopRead_escape {d : Cpu} {input : List Byte}
    (hinput : d.world.input = 0x1B#8 :: input) :
    ∃ d' : Cpu, d'.world = { d.world with input := input } ∧ d'.buf = d.buf ∧
      ∀ st, Runs img.listing ⟨img.listing (mode, .mainLoopRead), st, d⟩
        ⟨[Image.near mode .comCharIn, Image.jmp mode .mainLoopReadAl], st, d'⟩ := by
  refine ⟨_, ?_, ?_, fun st => .call (comCharIn_returns img mode hinput) (.op rfl
    (.past ?_ (.op rfl (.past ?_ (.op rfl (.past ?_ (.refl _)))))))⟩
  · rfl
  · rfl
  · simp
  · simp
  · simp

theorem mainLoopRead_escaped {d : Cpu} {al : Byte} {input : List Byte}
    (hinput : d.world.input = 0x1B#8 :: al :: input) :
    ∃ d' : Cpu, d'.world = { d.world with input := input } ∧ d'.buf = Stage2.store d.buf al ∧
      ∀ st, Runs img.listing ⟨img.listing (mode, .mainLoopRead), st, d⟩
        ⟨img.listing (mode, .mainLoopRead), st, d'⟩ := by
  obtain ⟨d₁, hworld₁, hbuf₁, hesc⟩ := mainLoopRead_escape img mode hinput
  obtain ⟨d', hworld, hbuf, hread⟩ := mainLoopReadAl_runs img mode
    { d₁ with
      ax := withAl d₁.ax al, cf := comCharInCarry img.port
      world := { d₁.world with input := input } }
  refine ⟨d', ?_, ?_, fun st => (hesc st).trans (.call
    (comCharIn_returns img mode (by rw [hworld₁])) (.jump (hread st)))⟩
  · rw [hworld, hworld₁]
  · rw [hbuf, al_withAl, hbuf₁]

/-- A line that ends is in `in_buf` at its end, as far as there is room. -/
theorem readLine_runs : ∀ (stream : List Byte) {chars rest : List Byte} (pre : List Byte) (d : Cpu),
    takeLine stream = some (chars, rest) → d.world.input = stream → d.buf = kept pre → ∃ d' : Cpu,
      d'.world = { d.world with input := rest } ∧ d'.buf = kept (pre ++ chars) ∧
      ∀ st, Runs img.listing ⟨img.listing (mode, .mainLoopRead), st, d⟩
        ⟨img.listing (mode, .mainLoopProcess), st, d'⟩
  | [], _, _, _, _, h, _, _ => by cases h
  | al :: stream, chars, rest, pre, d, h, hinput, hbuf => by
    rw [takeLine.eq_def] at h
    simp only [] at h
    by_cases hend : LineEnd al
    · rw [if_pos hend] at h
      cases h
      rw [List.append_nil, ← hbuf]
      exact mainLoopRead_end img mode hinput hend
    rw [if_neg hend] at h
    by_cases hesc : al = 0x1B#8
    · rw [if_pos hesc] at h
      rcases stream with _ | ⟨al', stream⟩
      · cases h
      obtain ⟨⟨chars, rest⟩, hline, h⟩ := Option.map_eq_some_iff.1 h
      cases h
      rw [hesc] at hinput
      obtain ⟨d₁, hworld₁, hbuf₁, hfirst⟩ := mainLoopRead_escaped img mode hinput
      rw [hbuf, store_kept] at hbuf₁
      obtain ⟨d', hworld', hbuf', hrest⟩ := readLine_runs stream (pre ++ [al']) d₁ hline
        (by rw [hworld₁]) hbuf₁
      refine ⟨d', ?_, ?_, fun st => (hfirst st).trans (hrest st)⟩
      · rw [hworld', hworld₁]
      · rw [hbuf', List.append_assoc, List.singleton_append]
    · rw [if_neg hesc] at h
      obtain ⟨⟨chars, rest⟩, hline, h⟩ := Option.map_eq_some_iff.1 h
      cases h
      obtain ⟨d₁, hworld₁, hbuf₁, hfirst⟩ := mainLoopRead_plain img mode hinput hend hesc
      rw [hbuf, store_kept] at hbuf₁
      obtain ⟨d', hworld', hbuf', hrest⟩ := readLine_runs stream (pre ++ [al]) d₁ hline
        (by rw [hworld₁]) hbuf₁
      refine ⟨d', ?_, ?_, fun st => (hfirst st).trans (hrest st)⟩
      · rw [hworld', hworld₁]
      · rw [hbuf', List.append_assoc, List.singleton_append]

/-- Without its end the machine waits for the rest of it. -/
theorem readLine_waits (st : List (Word Loc Cpu Saved)) : ∀ (stream : List Byte) (d : Cpu),
    takeLine stream = none → d.world.input = stream → ∃ t : State,
      Runs img.listing ⟨img.listing (mode, .mainLoopRead), st, d⟩ t ∧ Stuck img.listing t ∧
        t.data.world = { d.world with input := [] }
  | [], d, _, hinput => by
    obtain ⟨t, hrun, hstuck, hworld⟩ := comCharIn_waits img mode hinput _ st
    refine ⟨t, hrun, hstuck, ?_⟩
    rw [hworld, ← hinput]
  | al :: stream, d, h, hinput => by
    rw [takeLine.eq_def] at h
    simp only [] at h
    by_cases hend : LineEnd al
    · rw [if_pos hend] at h
      cases h
    rw [if_neg hend] at h
    by_cases hesc : al = 0x1B#8
    · rw [if_pos hesc] at h
      rcases stream with _ | ⟨al', stream⟩
      · rw [hesc] at hinput
        obtain ⟨d₁, hworld₁, -, hfirst⟩ := mainLoopRead_escape img mode hinput
        obtain ⟨t, hrest, hstuck, hworld⟩ :=
          comCharIn_waits img mode (by rw [hworld₁]) [Image.jmp mode .mainLoopReadAl] st
        exact ⟨t, (hfirst st).trans hrest, hstuck, hworld.trans hworld₁⟩
      rw [hesc] at hinput
      obtain ⟨d₁, hworld₁, -, hfirst⟩ := mainLoopRead_escaped img mode hinput
      obtain ⟨t, hrest, hstuck, hworld⟩ := readLine_waits st stream d₁
        (Option.map_eq_none_iff.1 h) (by rw [hworld₁])
      refine ⟨t, (hfirst st).trans hrest, hstuck, ?_⟩
      rw [hworld, hworld₁]
    · rw [if_neg hesc] at h
      obtain ⟨d₁, hworld₁, -, hfirst⟩ := mainLoopRead_plain img mode hinput hend hesc
      obtain ⟨t, hrest, hstuck, hworld⟩ := readLine_waits st stream d₁
        (Option.map_eq_none_iff.1 h) (by rw [hworld₁])
      refine ⟨t, (hfirst st).trans hrest, hstuck, ?_⟩
      rw [hworld, hworld₁]

/-! ## Around the command -/

theorem mainLoop_runs (d : Cpu) : ∃ d' : Cpu, d'.world = d.world ∧ d'.buf = kept [] ∧
    ∀ st, Runs img.listing ⟨img.listing (mode, .mainLoop), st, d⟩
      ⟨img.listing (mode, .mainLoopRead), st, d'⟩ := by
  cases mode with
  | i8086 =>
    refine ⟨_, ?_, ?_, fun st => .push (.pop (.op rfl (.jump (.refl _))))⟩
    · rfl
    · rfl
  | i286 | i386x16 | i386x32 =>
    refine ⟨_, ?_, ?_, fun st => .op rfl (.op rfl (.jump (.refl _)))⟩
    · rfl
    · rfl
  | x64 =>
    refine ⟨_, ?_, ?_, fun st => .op rfl (.jump (.refl _))⟩
    · rfl
    · rfl

/-- Behind the call of `_main_loop_command`. -/
def afterCommand : Code :=
  [mov fun d => note (.understood d.cf) d, Image.jcc mode (fun d => !d.cf) .mainLoop,
    movSiHead "ERR ", Image.near mode .comStrOut, movSi (ascii "Unknown command" ++ crlfZ),
    Image.near mode .comStrOut, Image.jmp mode .mainLoop]

/-- The end of `in_buf` is behind its start as far as there are characters. -/
theorem length_inBuf_sub {buf : List Byte} (h : buf ≠ []) :
    (img.inBuf buf).length - buf.length ≠ (img.inBuf buf).length := by
  have hpos := List.length_pos_of_ne_nil h
  rw [Stage2.inBuf, List.length_append]
  omega

theorem mainLoopProcess_empty {d : Cpu} (h : d.buf = []) : ∃ d' : Cpu, d'.world = d.world ∧
    ∀ st, Runs img.listing ⟨img.listing (mode, .mainLoopProcess), st, d⟩
      ⟨img.listing (mode, .mainLoop), st, d'⟩ := by
  refine ⟨_, ?_, fun st => .op rfl (.push (.op rfl (.op rfl (.pop (.op rfl (.taken ?_
    (.refl _)))))))⟩
  · rfl
  · simp [h]

theorem mainLoopProcess_line {d : Cpu} (h : d.buf ≠ []) : ∃ d' : Cpu, d'.world = d.world ∧
    d'.buf = d.buf ∧ d'.si = img.inBuf d.buf ∧
    d'.di = (img.inBuf d.buf).length - d.buf.length ∧
    ∀ st, Runs img.listing ⟨img.listing (mode, .mainLoopProcess), st, d⟩
      ⟨img.listing (mode, .mainLoopCommand), .address mode.bytes (afterCommand mode) :: st,
        d'⟩ := by
  have hne := Ne.symm (length_inBuf_sub img h)
  refine ⟨_, ?_, ?_, ?_, ?_, fun st => .op rfl (.push (.op rfl (.op rfl (.pop (.op rfl (.past ?_
    (.head rfl (.refl _))))))))⟩
  · rfl
  · rfl
  · rfl
  · rfl
  · simpa using hne

theorem afterCommand_understood (d : Cpu) (h : d.cf = false) : ∀ st,
    Runs img.listing ⟨afterCommand mode, st, d⟩
      ⟨img.listing (mode, .mainLoop), st, note (.understood false) d⟩ := by
  intro st
  refine .op rfl (.taken ?_ (.of_eq ?_))
  · simp [note, h]
  · simp [h]

theorem afterCommand_unknown (d : Cpu) (h : d.cf = true) : ∃ d' : Cpu,
    d'.world = { d.world with
      out := d.world.out ++ (ascii "ERR " ++ ascii "Unknown command" ++ crlf)
      log := d.world.log ++ [.understood true, .answer] } ∧
    ∀ st, Runs img.listing ⟨afterCommand mode, st, d⟩ ⟨img.listing (mode, .mainLoop), st, d'⟩ := by
  have hmsg : 0#8 ∉ ascii "Unknown command" ++ crlf := by decide
  have hsi : ascii "Unknown command" ++ crlfZ = (ascii "Unknown command" ++ crlf) ++ 0#8 :: [] := by
    simp [crlfZ]
  refine ⟨_, ?_, fun st => .op rfl (.past ?_ (.op rfl (.call
    (comStrOut_returns img mode (by decide : 0#8 ∉ ascii "ERR ") rfl) (.op rfl (.call
    (comStrOut_returns img mode hmsg hsi) (.jump (.refl _)))))))⟩
  · simp [note, h]
  · simp [note, h]

/-! ## Dispatch -/

/-- Handlers of other words come back one after another. -/
theorem others_run : ∀ (hs : List Handler) (d : Cpu), (∀ h ∈ hs, h.word.isPrefixOf d.si = false) →
    ∃ cf, ∀ k st, Runs img.listing
      ⟨hs.map (fun h => Image.near mode (.command h)) ++ k, st, d⟩ ⟨k, st, { d with cf := cf }⟩
  | [], d, _ => ⟨d.cf, fun _ _ => .refl _⟩
  | h :: hs, d, hno => by
    obtain ⟨cf, hother⟩ := command_other img mode (hno h List.mem_cons_self)
    obtain ⟨cf', hrest⟩ := others_run hs { d with cf := cf } fun h' hh' =>
      hno h' (List.mem_cons_of_mem _ hh')
    exact ⟨cf', fun k st => .call hother (hrest k st)⟩

theorem mainLoopCommand_unknown_returns {d : Cpu}
    (hfind : mode.handlers.find? (fun h => h.word.isPrefixOf d.si) = none) :
    Returns img.listing mode.bytes (mode, .mainLoopCommand) d { d with cf := true } := by
  obtain ⟨cf, hothers⟩ := others_run img mode mode.handlers d fun h hh =>
    Bool.eq_false_iff.2 (List.find?_eq_none.1 hfind h hh)
  exact fun k st => (hothers _ _).trans (.op rfl (.ret (.refl _)))

theorem mainLoopCommand_handler_runs {d : Cpu} {h : Handler}
    (hfind : mode.handlers.find? (fun h => h.word.isPrefixOf d.si) = some h) : ∃ cf k, ∀ st,
      Runs img.listing ⟨img.listing (mode, .mainLoopCommand), st, d⟩
        ⟨img.listing (mode, .command h), .address mode.bytes k :: st, { d with cf := cf }⟩ := by
  obtain ⟨-, hs, hs', hlist, hno⟩ := List.find?_eq_some_iff_append.1 hfind
  obtain ⟨cf, hothers⟩ := others_run img mode hs d fun h' hh' => by simpa using hno h' hh'
  have hcode : img.listing (mode, .mainLoopCommand)
      = hs.map (fun h => Image.near mode (.command h)) ++ (Image.near mode (.command h)
        :: (hs'.map (fun h => Image.near mode (.command h)) ++ [stc, Image.return_ mode])) := by
    show mode.handlers.map (fun h => Image.near mode (.command h)) ++ [stc, Image.return_ mode] = _
    rw [hlist]
    simp
  refine ⟨cf, hs'.map (fun h => Image.near mode (.command h)) ++ [stc, Image.return_ mode],
    fun st => ?_⟩
  rw [hcode]
  exact (hothers _ _).trans (.head rfl (.refl _))

/-- What the first handler that knows the word does, handler by handler. -/
theorem carryOut_cons (p : Handler → Bool) (h : Handler) (hs : List Handler) (f : Handler → Serial)
    (unknown : Serial) :
    (match (h :: hs).find? p with | some h => f h | none => unknown)
      = if p h then f h else (match hs.find? p with | some h => f h | none => unknown) := by
  rw [List.find?_cons]
  split_ifs with hp
  · rw [hp]
  · rw [Bool.eq_false_iff.2 hp]

/-- The serial model goes by the same table. -/
theorem mainLoopCommand_eq (s : Serial) (buf : List Byte) :
    img.mainLoopCommand s buf = match img.handler s.mode buf with
      | some h => img.carryOut s buf h
      | none => s.responseOutputErr (ascii "Unknown command") := by
  unfold Stage2.mainLoopCommand Image.handler
  cases hmode : s.mode with
  | i8086 =>
    simp only [Mode.handlers, carryOut_cons, true_and]
    rfl
  | _ =>
    simp only [Mode.handlers, carryOut_cons, reduceCtorEq, false_and, if_false]
    rfl

end RemoteX86
