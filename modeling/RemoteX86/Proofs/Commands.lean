import RemoteX86.Exchange
import RemoteX86.Proofs.Routines
import RemoteX86.Proofs.SerialFraming

/-!
# What the handlers do

A handler that does not know its command returns to `_main_loop_command`; one that does goes past
it, back to the main loop, with the carry flag clear and one response sent.
-/

namespace RemoteX86

open Hex Memory CallStack

variable (img : Image) (mode : Mode)

/-! ## The comparisons -/

theorem isPrefixOf_append (c cs l : List Byte) :
    (c ++ cs).isPrefixOf l = (c.isPrefixOf l && cs.isPrefixOf (l.drop c.length)) := by
  rw [Bool.eq_iff_iff, Bool.and_eq_true, List.isPrefixOf_iff_prefix, List.isPrefixOf_iff_prefix,
    List.isPrefixOf_iff_prefix]
  constructor
  · rintro ⟨t, rfl⟩
    refine ⟨⟨cs ++ t, (List.append_assoc c cs t).symm⟩, ?_⟩
    rw [List.append_assoc, List.drop_left]
    exact List.prefix_append cs t
  · rintro ⟨⟨t, rfl⟩, hcs⟩
    rw [List.drop_left] at hcs
    exact (List.prefix_append_right_inj c).2 hcs

theorem cmpWord_runs : ∀ (cs : List (List Byte)) (off : ℕ) (d : Cpu), ∃ cf, ∀ k st,
    Runs img.listing ⟨cmpWord mode off cs ++ k, st, d⟩
      ⟨if cs.flatten.isPrefixOf (d.si.drop off) then k else img.listing (mode, .fail), st,
        { d with cf := cf }⟩
  | [], off, d => ⟨d.cf, fun k st => .refl _⟩
  | c :: cs, off, d => by
    rw [List.flatten_cons, isPrefixOf_append, List.drop_drop]
    let below := decide (Nat.ofDigits 256 (((d.si.drop off).take c.length).map BitVec.toNat)
      < Nat.ofDigits 256 (c.map BitVec.toNat))
    by_cases hc : c.isPrefixOf (d.si.drop off) = true
    · obtain ⟨cf, hrest⟩ := cmpWord_runs cs (off + c.length)
        { d with cf := below }
      refine ⟨cf, fun k st => ?_⟩
      rw [hc, Bool.true_and]
      exact .op rfl (.past (by simp [hc]) (hrest k st))
    · refine ⟨below, fun k st => ?_⟩
      rw [Bool.eq_false_iff.2 hc, Bool.false_and]
      exact .op rfl (.taken (by simp [hc]) (.refl _))

theorem flatten_chunks (h : Handler) : (h.chunks mode).flatten = h.word := by
  cases mode <;> rcases h with _ | _ | _ | _ | _ | _ | target | _ <;> try rfl
  all_goals cases target <;> rfl

/-- The comparisons of a handler, for another word and for its own. -/
theorem command_other {h : Handler} {d : Cpu} (hword : h.word.isPrefixOf d.si = false) :
    ∃ cf, Returns img.listing mode.bytes (mode, .command h) d { d with cf := cf } := by
  obtain ⟨cf, hcmp⟩ := cmpWord_runs img mode (h.chunks mode) 0 d
  rw [flatten_chunks, List.drop_zero, hword] at hcmp
  refine ⟨cf, fun k st => ?_⟩
  have hrun := hcmp (mov (note (.heard h)) :: img.accepted mode h) (.address mode.bytes k :: st)
  exact hrun.trans (.ret (.refl _))

theorem command_own {h : Handler} {d : Cpu} (hword : h.word.isPrefixOf d.si = true) :
    ∃ cf, ∀ st, Runs img.listing ⟨img.listing (mode, .command h), st, d⟩
      ⟨img.accepted mode h, st, note (.heard h) { d with cf := cf }⟩ := by
  obtain ⟨cf, hcmp⟩ := cmpWord_runs img mode (h.chunks mode) 0 d
  rw [flatten_chunks, List.drop_zero, hword] at hcmp
  exact ⟨cf, fun st => (hcmp (mov (note (.heard h)) :: img.accepted mode h) st).trans
    (.op rfl (.refl _))⟩

/-! ## The address -/

theorem parseAddress_none {h : Handler} {d : Cpu}
    (haddress : (mode.address (d.si.drop h.word.length)).1 = none) : ∃ d' : Cpu,
    d'.world = d.world ∧ d'.si = cstr "Invalid address" ∧
      ∀ k st, Runs img.listing ⟨Image.parseAddress mode h, .address mode.bytes k :: st, d⟩
        ⟨img.listing (mode, .responseOutputErr), st, d'⟩ := by
  cases mode with
  | i8086 =>
    have hlimit : ¬ (strtohex32 (d.si.drop h.word.length)).1.1 < 0x10#16 := by
      intro hlt
      simp [Mode.address, hlt] at haddress
    refine ⟨_, ?_, ?_, fun k st => .op rfl (.drop (.call (strtohex32_returns img _ rfl _)
      (.op rfl (.past ?_ (.op rfl (.jump (.refl _)))))))⟩
    · rfl
    · rfl
    · simpa using hlimit
  | i286 =>
    have hlimit : ¬ (strtohex32 (d.si.drop h.word.length)).1.1 < 0x100#16 := by
      intro hlt
      simp [Mode.address, hlt] at haddress
    refine ⟨_, ?_, ?_, fun k st => .op rfl (.drop (.call (strtohex32_returns img _ rfl _)
      (.op rfl (.past ?_ (.op rfl (.jump (.refl _)))))))⟩
    · rfl
    · rfl
    · simpa using hlimit
  | i386x16 | i386x32 | x64 => simp [Mode.address] at haddress

theorem parseAddress_some {h : Handler} {d : Cpu} {ptr : Pointer}
    (haddress : (mode.address (d.si.drop h.word.length)).1 = some ptr) : ∃ d' : Cpu,
    d'.world = d.world ∧ d'.di = d.di ∧ d'.si = (mode.address (d.si.drop h.word.length)).2 ∧
      addressRegs mode d' = ptr ∧
      ∀ k st, Runs img.listing ⟨Image.parseAddress mode h, .address mode.bytes k :: st, d⟩
        ⟨img.listing (mode, .addrOk h), st, d'⟩ := by
  cases mode with
  | i8086 =>
    have hlimit : (strtohex32 (d.si.drop h.word.length)).1.1 < 0x10#16 := by
      by_contra hge
      simp [Mode.address, hge] at haddress
    refine ⟨_, ?_, ?_, ?_, ?_, fun k st => .op rfl (.drop (.call (strtohex32_returns img _ rfl _)
      (.op rfl (.taken ?_ (.refl _)))))⟩
    · rfl
    · rfl
    · simp [Mode.address]
    · simpa [Mode.address, hlimit, addressRegs] using haddress
    · simpa using hlimit
  | i286 =>
    have hlimit : (strtohex32 (d.si.drop h.word.length)).1.1 < 0x100#16 := by
      by_contra hge
      simp [Mode.address, hge] at haddress
    refine ⟨_, ?_, ?_, ?_, ?_, fun k st => .op rfl (.drop (.call (strtohex32_returns img _ rfl _)
      (.op rfl (.taken ?_ (.refl _)))))⟩
    · rfl
    · rfl
    · simp [Mode.address]
    · simpa [Mode.address, hlimit, addressRegs] using haddress
    · simpa using hlimit
  | i386x16 =>
    refine ⟨_, ?_, ?_, ?_, ?_, fun k st => .op rfl (.drop (.call (strtohex32_returns img _ rfl _)
      (.jump (.refl _))))⟩
    · rfl
    · rfl
    · simp [Mode.address]
    · simpa [Mode.address, addressRegs] using haddress
  | i386x32 | x64 =>
    refine ⟨_, ?_, ?_, ?_, ?_, fun k st => .op rfl (.drop (.call (strtohex_returns img _ _)
      (.jump (.refl _))))⟩
    · rfl
    · rfl
    · simp [Mode.address, Mode.bits]
    · simpa [Mode.address, addressRegs, Mode.bits] using haddress

/-! ## The loops -/

theorem toNat_decCx {d : Cpu} {n : ℕ} (hn : (mode.reg d.cx).toNat = n + 1) :
    (mode.reg ((mode.reg d.cx - 1).setWidth 64)).toNat = n := by
  have hone : (1 : BitVec mode.bits).toNat = 1 := by cases mode <;> rfl
  have hle : (1 : BitVec mode.bits) ≤ mode.reg d.cx := by
    rw [BitVec.le_def, hone, hn]
    omega
  rw [reg_setWidth, BitVec.toNat_sub_of_le hle, hone, hn]
  rfl

/-- The loop's code sends the byte in AL. -/
def Sends (body : Code) (send : Byte → List Byte) : Prop :=
  ∀ d : Cpu, ∃ ax, ∀ k st, Runs img.listing ⟨body ++ k, st, d⟩ ⟨k, st,
    { d with
      ax := ax, cf := false, world := { d.world with out := d.world.out ++ send (al d.ax) } }⟩

/-- The loop of READ and READB, when every byte has a page. -/
theorem readLoop_runs {h : Handler} {body : Code} {send : Byte → List Byte}
    (hloop : img.listing (mode, .loop h)
      = [orCx, Image.jcc mode (fun d => mode.reg d.cx == 0) (.loopEnd h), mode.decCx, mode.loadAl]
        ++ (body ++ Image.stepPointer mode h))
    (hsends : Sends img body send) : ∀ (n : ℕ) (d : Cpu), (mode.reg d.cx).toNat = n →
      (readLoop send d.world.mem n (mode.pointer d)).2 = true → ∃ d' : Cpu,
        d'.world = { d.world with
          out := d.world.out ++ (readLoop send d.world.mem n (mode.pointer d)).1 } ∧
        ∀ st, Runs img.listing ⟨img.listing (mode, .loop h), st, d⟩
          ⟨img.listing (mode, .loopEnd h), st, d'⟩
  | 0, d, hn, _ => by
    refine ⟨{ d with cf := false }, ?_, fun st => ?_⟩
    · rw [readLoop, List.append_nil]
    · rw [hloop]
      refine .op rfl (.taken ?_ (.refl _))
      simpa using BitVec.eq_of_toNat_eq hn
  | n + 1, d, hn, hpages => by
    rw [readLoop] at hpages ⊢
    rcases hphys : (mode.pointer d).phys with _ | a
    · rw [hphys] at hpages
      cases hpages
    rw [hphys] at hpages
    obtain ⟨ax, hsent⟩ := hsends
      { d with
        cf := false, cx := (mode.reg d.cx - 1).setWidth 64, ax := withAl d.ax (d.world.mem a) }
    obtain ⟨d₁, hcx, -, -, hworld, hptr, hstep⟩ := stepPointer_runs img mode h
      { d with
        cf := false, cx := (mode.reg d.cx - 1).setWidth 64, ax := ax
        world := { d.world with
          out := d.world.out ++ send (al (withAl d.ax (d.world.mem a))) } }
    have hptr' : mode.pointer d₁ = (mode.pointer d).next comCharOutCarry := hptr
    have hmem : d₁.world.mem = d.world.mem := by rw [hworld]
    obtain ⟨d', hd', hrest⟩ := readLoop_runs hloop hsends n d₁
      (by rw [hcx]; exact toNat_decCx mode hn) (by rw [hmem, hptr']; exact hpages)
    refine ⟨d', ?_, fun st => ?_⟩
    · rw [hd', hmem, hptr', hworld, al_withAl]
      simp
    · have hne : mode.reg d.cx ≠ 0 := by
        intro hzero
        rw [hzero] at hn
        cases hn
      rw [hloop]
      refine .op rfl (.past (by simpa using hne) (.op rfl (.op (congrArg _ hphys) ?_)))
      exact (hsent _ st).trans ((hstep st).trans (hrest st))

/-! ## Carrying out a command -/

/-- The machine as the serial model sees it. -/
def Cpu.serial (d : Cpu) : Serial :=
  { mode := mode, mem := d.world.mem, ctl := .line d.buf, out := d.world.out }

/-- The handler knows the command and does to memory and line what leads to `t`. -/
def Carries (h : Handler) (d : Cpu) (t : Serial) (input : List Byte) : Prop :=
  ∃ d' : Cpu, d'.cf = false ∧
    d'.world = { mem := t.mem, input := input, out := t.out
                 log := d.world.log ++ [.heard h, .answer] } ∧
    Leaves img.listing mode.bytes (mode, .command h) d d'

section Carries

variable {h : Handler} {d : Cpu}

theorem carries_test (hword : Handler.test.word.isPrefixOf d.si = true) :
    Carries img mode .test d ((d.serial mode).responseOutput (ascii "Test successful"))
      d.world.input := by
  obtain ⟨cf, hown⟩ := command_own img mode hword
  refine ⟨_, ?_, ?_, fun k k' st => (hown _).trans (.drop (.op rfl (.jump
    (response_returns img mode rfl (by decide) ?_ rfl k' st))))⟩
  · rfl
  · simp [note, Cpu.serial, Serial.responseOutput]
  · decide

/-! ## Addresses and counts -/

/-- The commands with an address answer one that is out of range. -/
theorem carries_refused (hcode : img.accepted mode h = Image.parseAddress mode h)
    (hword : h.word.isPrefixOf d.si = true)
    (haddress : (mode.address (d.si.drop h.word.length)).1 = none) :
    Carries img mode h d ((d.serial mode).responseOutputErr (ascii "Invalid address"))
      d.world.input := by
  obtain ⟨cf, hown⟩ := command_own img mode hword
  obtain ⟨d₁, hworld, hsi, hparse⟩ :=
    parseAddress_none img mode (d := note (.heard h) { d with cf := cf }) haddress
  have hmsg : 0#8 ∉ ascii "Invalid address" := by decide
  refine ⟨_, ?_, ?_, fun k k' st => (hown _).trans ((Runs.of_eq (by rw [hcode])).trans
    ((hparse k _).trans (response_returns img mode rfl (by decide) hmsg hsi k' st)))⟩
  · rfl
  · rw [hworld]
    simp [note, Cpu.serial, Serial.responseOutputErr]

theorem setCount_runs (d : Cpu) : ∃ d' : Cpu, d'.world = d.world ∧
    mode.pointer d' = mode.pointer d ∧
    (mode.reg d'.cx).toNat = (strtohex (w := mode.bits) d.si).1.toNat ∧
    ∀ k st, Runs img.listing ⟨Image.setCount mode ++ k, st, d⟩ ⟨k, st, d'⟩ := by
  refine ⟨_, ?_, ?_, ?_, fun k st => .call (strtohex_returns img mode d) (.op rfl (.refl _))⟩
  · rfl
  · cases mode <;> rfl
  · rw [reg_setWidth]

/-- Address and count, in READ, READB and WRITEB. -/
theorem operands_runs {ptr : Pointer} {si : List Byte} {code : Code}
    (hcode : img.listing (mode, .addrOk h) = Image.setPointer mode ++ (Image.setCount mode ++ code))
    (haddress : mode.address (d.si.drop h.word.length) = (some ptr, si)) :
    ∃ d' : Cpu, d'.world = d.world ∧ mode.pointer d' = ptr ∧
      (mode.reg d'.cx).toNat = mode.count si ∧
      ∀ k st, Runs img.listing ⟨Image.parseAddress mode h, .address mode.bytes k :: st, d⟩
        ⟨code, st, d'⟩ := by
  obtain ⟨d₁, hworld₁, -, hsi₁, hregs, hparse⟩ :=
    parseAddress_some img mode (congrArg Prod.fst haddress)
  obtain ⟨d₂, hworld₂, -, hsi₂, hptr₂, hset⟩ := setPointer_runs img mode d₁
  obtain ⟨d₃, hworld₃, hptr₃, hcx, hcount⟩ := setCount_runs img mode d₂
  refine ⟨d₃, ?_, ?_, ?_, fun k st => (hparse k st).trans ((Runs.of_eq (by rw [hcode])).trans
    ((hset _ st).trans (hcount _ st)))⟩
  · rw [hworld₃, hworld₂, hworld₁]
  · rw [hptr₃, hptr₂, hregs]
  · rw [hcx, hsi₂, hsi₁, haddress, Mode.count]

/-! ## READ and READB -/

theorem carries_readCommand {body : Code} {send : Byte → List Byte}
    (haccepted : img.accepted mode h = Image.parseAddress mode h)
    (haddrOk : img.listing (mode, .addrOk h) = Image.setPointer mode ++ (Image.setCount mode ++
      [movSiHead "OK ", Image.near mode .comStrOut, Image.jmp mode (.loop h)]))
    (hloop : img.listing (mode, .loop h)
      = [orCx, Image.jcc mode (fun d => mode.reg d.cx == 0) (.loopEnd h), mode.decCx, mode.loadAl]
        ++ (body ++ Image.stepPointer mode h))
    (hend : img.listing (mode, .loopEnd h)
      = [movSi crlfZ, Image.near mode .comStrOut, clc, Image.return_ mode])
    (hsends : Sends img body send) (hword : h.word.isPrefixOf d.si = true)
    (hreach : ∀ ptr si, mode.address (d.si.drop h.word.length) = (some ptr, si) →
      ptr.Present (mode.count si)) :
    Carries img mode h d ((d.serial mode).readCommand send (d.si.drop h.word.length))
      d.world.input := by
  have hmode : (d.serial mode).mode = mode := rfl
  rw [Serial.readCommand, hmode]
  rcases haddress : mode.address (d.si.drop h.word.length) with ⟨_ | ptr, si⟩
  · exact carries_refused img mode haccepted hword (congrArg Prod.fst haddress)
  have hpages := (readLoop_done_iff send d.world.mem _ ptr).2 (hreach ptr si haddress)
  have hdone : (readLoop send (d.serial mode).mem (mode.count si) ptr).2 = true := hpages
  simp only [hdone, if_true]
  obtain ⟨cf, hown⟩ := command_own img mode hword
  obtain ⟨d₁, hworld₁, hptr₁, hcx₁, hparse⟩ :=
    operands_runs img mode (d := note (.heard h) { d with cf := cf }) haddrOk haddress
  let d₂ : Cpu := note .answer { d₁ with si := cstr "OK " }
  let d₃ : Cpu := { d₂ with
    cf := false, world := { d₂.world with out := d₂.world.out ++ ascii "OK " } }
  have hmem₃ : d₃.world.mem = d.world.mem := by
    show d₁.world.mem = _
    rw [hworld₁]
    rfl
  have hptr₃ : mode.pointer d₃ = ptr := by
    rw [← hptr₁]
    cases mode <;> rfl
  have hhead : Returns img.listing mode.bytes (mode, .comStrOut) d₂ d₃ :=
    comStrOut_returns img mode (by decide) rfl
  obtain ⟨d₄, hworld₄, hread⟩ := readLoop_runs img mode hloop hsends (mode.count si) d₃ hcx₁
    (by rw [hmem₃, hptr₃]; exact hpages)
  have hcrlf : Returns img.listing mode.bytes (mode, .loopEnd h) d₄
      { d₄ with
        si := crlfZ, cf := false
        world := { d₄.world with out := d₄.world.out ++ crlf } } := by
    intro k st
    rw [hend]
    exact .op rfl (.call (comStrOut_returns img mode (by decide) rfl) (.op rfl (.ret (.refl _))))
  refine ⟨_, ?_, ?_, fun k k' st => (hown _).trans ((Runs.of_eq (by rw [haccepted])).trans
    ((hparse k _).trans (.op rfl (.call hhead (.jump ((hread _).trans (hcrlf k' st)))))))⟩
  · rfl
  · rw [hworld₄, hmem₃, hptr₃]
    simp [d₃, d₂, note, hworld₁, Cpu.serial, Serial.responseOutput]

theorem carries_read (hword : Handler.read.word.isPrefixOf d.si = true)
    (hreach : ∀ ptr si, mode.address (d.si.drop 5) = (some ptr, si) →
      ptr.Present (mode.count si)) :
    Carries img mode .read d ((d.serial mode).commandRead (d.si.drop 5)) d.world.input := by
  have hsends : Sends img [Image.near mode .comHex8Out,
      mov fun d => { d with ax := withAl d.ax 0x20#8 }, Image.near mode .comCharOut]
      fun al => comHex8Out al ++ [0x20#8] := by
    intro d
    refine ⟨withAl d.ax 0x20, fun k st => .call (comHex8Out_returns img mode d) (.op rfl
      (.call (comCharOut_returns img mode _) (.of_eq ?_)))⟩
    simp
  have hloop : img.listing (mode, .loop .read)
      = [orCx, Image.jcc mode (fun d => mode.reg d.cx == 0) (.loopEnd .read), mode.decCx,
          mode.loadAl] ++ ([Image.near mode .comHex8Out,
        mov fun d => { d with ax := withAl d.ax 0x20#8 }, Image.near mode .comCharOut]
        ++ Image.stepPointer mode .read) := rfl
  exact carries_readCommand img mode rfl (List.append_assoc _ _ _) hloop rfl hsends hword hreach

theorem carries_readb (hword : Handler.readb.word.isPrefixOf d.si = true)
    (hreach : ∀ ptr si, mode.address (d.si.drop 6) = (some ptr, si) →
      ptr.Present (mode.count si)) :
    Carries img mode .readb d ((d.serial mode).commandReadb (d.si.drop 6)) d.world.input := by
  have hsends : Sends img [Image.near mode .comCharOut] fun al => [al] := fun d =>
    ⟨d.ax, fun k st => .call (comCharOut_returns img mode d) (.refl _)⟩
  have hloop : img.listing (mode, .loop .readb)
      = [orCx, Image.jcc mode (fun d => mode.reg d.cx == 0) (.loopEnd .readb), mode.decCx,
          mode.loadAl] ++ ([Image.near mode .comCharOut] ++ Image.stepPointer mode .readb) := rfl
  exact carries_readCommand img mode rfl (List.append_assoc _ _ _) hloop rfl hsends hword hreach

/-! ## WRITE -/

/-- The loop of WRITE, when every value has a page to go to. -/
theorem writeLoop_runs : ∀ (fuel : ℕ) (d : Cpu), d.si.length ≤ fuel →
    (writeLoop mode d.di fuel (mode.pointer d) d.si d.world.mem).2 = true → ∃ d' : Cpu,
      d'.world = { d.world with
        mem := (writeLoop mode d.di fuel (mode.pointer d) d.si d.world.mem).1 } ∧
      ∀ st, Runs img.listing ⟨img.listing (mode, .loop .write), st, d⟩
        ⟨img.listing (mode, .loopEnd .write), st, d'⟩
  | 0, d, hfuel, _ => by
    have hsi := List.eq_nil_of_length_eq_zero (Nat.le_zero.1 hfuel)
    refine ⟨_, ?_, fun st => .call (strSkipWhitespace_returns img mode d) (.op rfl
      (.taken ?_ (.refl _)))⟩
    · rfl
    · simp [hsi, strSkipWhitespace]
  | fuel + 1, d, hfuel, hpages => by
    rw [writeLoop] at hpages ⊢
    simp only [] at hpages ⊢
    by_cases hend : (strSkipWhitespace d.si).length ≤ d.di
    · rw [if_pos hend]
      refine ⟨_, ?_, fun st => .call (strSkipWhitespace_returns img mode d) (.op rfl
        (.taken ?_ (.refl _)))⟩
      · rfl
      · simpa using hend
    rw [if_neg hend] at hpages ⊢
    rcases hphys : (mode.pointer d).phys with _ | a
    · rw [hphys] at hpages
      cases hpages
    rw [hphys] at hpages
    let r := strtohex (w := mode.bits) (strSkipWhitespace d.si)
    let d₁ : Cpu := { d with
      ax := r.1.setWidth 64, si := strSkipWhitespace r.2
      cf := decide ((strSkipWhitespace r.2).getD 0 0 < 0x20#8)
      world := { d.world with mem := Function.update d.world.mem a (r.1.setWidth 8) } }
    obtain ⟨d₂, -, hsi, hdi, hworld, hptr, hstep⟩ := stepPointer_runs img mode .write d₁
    have hptr' : mode.pointer d₂ = (mode.pointer d).next
      (decide ((strSkipWhitespace r.2).getD 0 0 < 0x20#8)) := hptr
    have hlen : d₂.si.length ≤ fuel := by
      have hne : strSkipWhitespace d.si ≠ [] := by
        intro hnil
        rw [hnil] at hend
        exact hend (Nat.zero_le _)
      have hskip : ∀ p, (strSkipWhitespace p).length ≤ p.length := List.length_dropWhile_le _
      have hlt := length_strtohexLoop _ (BitVec.ofNat mode.bits 0) hne
      rw [hsi]
      exact (hskip r.2).trans (Nat.le_of_lt_succ (hlt.trans_le ((hskip d.si).trans hfuel)))
    have hpages' : (writeLoop mode d₂.di fuel (mode.pointer d₂) d₂.si d₂.world.mem).2 = true := by
      rw [hdi, hptr', hsi, hworld]
      exact hpages
    obtain ⟨d', hd', hrest⟩ := writeLoop_runs fuel d₂ hlen hpages'
    refine ⟨d', ?_, fun st => .call (strSkipWhitespace_returns img mode d) (.op rfl (.past ?_
      (.call (strtohex_returns img mode _) (.call (strSkipWhitespace_returns img mode _)
      (.op (show _ = some d₁ from ?_) ((hstep st).trans (hrest st)))))))⟩
    · rw [hd', hdi, hptr', hsi, hworld]
    · simpa using hend
    · have hload : (mode.pointer d).phys = some a := hphys
      show Option.map _ (mode.pointer d).phys = _
      rw [hload]
      simp [d₁, r, al_setWidth]

theorem carries_write (hword : Handler.write.word.isPrefixOf d.si = true)
    (hreach : ∀ ptr si, mode.address (d.si.drop 6) = (some ptr, si) →
      (writeLoop mode d.di si.length ptr si d.world.mem).2 = true) :
    Carries img mode .write d ((d.serial mode).commandWrite (d.si.drop 6) d.di) d.world.input := by
  have hmode : (d.serial mode).mode = mode := rfl
  rw [Serial.commandWrite, hmode]
  rcases haddress : mode.address (d.si.drop 6) with ⟨_ | ptr, si⟩
  · exact carries_refused img mode rfl hword (congrArg Prod.fst haddress)
  have hpages := hreach ptr si haddress
  have hdone : (writeLoop mode d.di si.length ptr si (d.serial mode).mem).2 = true := hpages
  simp only [hdone, if_true]
  obtain ⟨cf, hown⟩ := command_own img mode hword
  obtain ⟨d₁, hworld₁, hdi₁, hsi₁, hregs, hparse⟩ := parseAddress_some img mode (h := .write)
    (d := note (.heard .write) { d with cf := cf }) (congrArg Prod.fst haddress)
  have hrest₁ : d₁.si = si := hsi₁.trans (congrArg Prod.snd haddress)
  obtain ⟨d₂, hworld₂, hdi₂, hsi₂, hptr₂, hset⟩ := setPointer_runs img mode d₁
  have hloop : writeLoop mode d₂.di si.length (mode.pointer d₂) d₂.si d₂.world.mem
      = writeLoop mode d.di si.length ptr si d.world.mem := by
    rw [hdi₂, hdi₁, hptr₂, hregs, hsi₂, hrest₁, writeLoop_skip, hworld₂, hworld₁]
    rfl
  have hlen : d₂.si.length ≤ si.length := by
    rw [hsi₂, hrest₁]
    exact length_strSkipWhitespace_le si
  obtain ⟨d₃, hworld₃, hwrite⟩ := writeLoop_runs img mode _ d₂ hlen (by rw [hloop]; exact hpages)
  refine ⟨_, ?_, ?_, fun k k' st => (hown _).trans ((hparse k _).trans ((hset _ _).trans (.jump
    ((hwrite _).trans (.op rfl (.jump (response_returns img mode rfl (by decide)
      (by decide : 0#8 ∉ ascii "Accepted") rfl k' st)))))))⟩
  · rfl
  · rw [hworld₃, hloop, hworld₂, hworld₁]
    simp [note, Cpu.serial, Serial.responseOutput]

/-! ## WRITEB -/

/-- The step of WRITEB, behind a byte that has come in with the carry flag clear. -/
theorem stepPointerWriteb_runs {d : Cpu} (hcf : d.cf = false) : ∃ d' : Cpu,
    d'.cx = d.cx ∧ d'.world = d.world ∧ mode.pointer d' = (mode.pointer d).next false ∧
      ∀ st, Runs img.listing ⟨Image.stepPointerWriteb mode, st, d⟩
        ⟨img.listing (mode, .loop .writeb), st, d'⟩ := by
  rcases hs : mode.sixteen with _ | _
  · have hcode : Image.stepPointerWriteb mode = [mode.incBx,
        Image.jcc mode (fun d => !d.cf) (.loop .writeb), Image.jmp mode (.loopEnd .writeb)] := by
      rw [Image.stepPointerWriteb, hs]
      rfl
    refine ⟨{ d with bx := (mode.reg d.bx + 1).setWidth 64 }, rfl, rfl, ?_, fun st => ?_⟩
    · cases mode with
      | i386x32 | x64 =>
        simp [Mode.pointer, Pointer.next, Mode.reg, Mode.bits]
        rfl
      | i8086 | i286 | i386x16 => cases hs
    · rw [hcode]
      exact .op rfl (.taken (by simp [hcf]) (.refl _))
  · obtain ⟨d', hcx, -, -, hworld, hptr, hstep⟩ := stepPointer_runs img mode .writeb d
    have hcode : Image.stepPointerWriteb mode = Image.stepPointer mode .writeb := by
      rw [Image.stepPointerWriteb, hs]
      rfl
    rw [hcf] at hptr
    refine ⟨d', hcx, hworld, hptr, fun st => ?_⟩
    rw [hcode]
    exact hstep st

/-- The loop of WRITEB, when every byte has a page to go to. -/
theorem writebLoop_runs (rest : List Byte) : ∀ (data : List Byte) (d : Cpu) (s : Serial),
    d.world.input = data ++ rest → (mode.reg d.cx).toNat = data.length →
      (mode.pointer d).Present data.length → s.mem = d.world.mem → ∃ mem,
        img.feedAll (s.writebLoop (mode.pointer d) data.length) data
          = { s with mem := mem }.responseOutput (ascii "Accepted") ∧
        ∃ d' : Cpu, d'.world = { d.world with mem := mem, input := rest } ∧
          ∀ st, Runs img.listing ⟨img.listing (mode, .loop .writeb), st, d⟩
            ⟨img.listing (mode, .loopEnd .writeb), st, d'⟩
  | [], d, s, hinput, hcx, _, hmem => by
    refine ⟨d.world.mem, ?_, { d with cf := false }, ?_, fun st => .op rfl (.taken ?_ (.refl _))⟩
    · rw [← hmem]
      rfl
    · rw [List.nil_append] at hinput
      rw [← hinput]
    · simpa using BitVec.eq_of_toNat_eq hcx
  | b :: data, d, s, hinput, hcx, ⟨hphys, hpresent⟩, hmem => by
    obtain ⟨a, ha⟩ := Option.isSome_iff_exists.1 hphys
    let d₁ : Cpu := { d with
      cx := (mode.reg d.cx - 1).setWidth 64, ax := withAl d.ax b
      cf := false
      world := { d.world with
        input := data ++ rest, mem := Function.update d.world.mem a b } }
    obtain ⟨d₂, hcx₂, hworld₂, hptr₂, hstep⟩ := stepPointerWriteb_runs img mode (d := d₁) rfl
    have hptr : mode.pointer d₂ = (mode.pointer d).next false := hptr₂
    obtain ⟨mem, hfeed, d', hworld', hloop⟩ := writebLoop_runs rest data d₂
      { s with mem := Function.update s.mem a b } (by rw [hworld₂])
      (by rw [hcx₂]; exact toNat_decCx mode hcx) (by rw [hptr]; exact hpresent)
      (by rw [hworld₂, hmem])
    refine ⟨mem, ?_, d', ?_, fun st => .op rfl (.past ?_ (.op rfl (.call
      (comCharIn_returns img mode hinput) (.op (show _ = some d₁ from ?_)
      ((hstep st).trans (hloop st))))))⟩
    · rw [Stage2.feedAll, List.foldl_cons, img.feed_writebLoop s ha (by simp), ← hptr]
      exact hfeed
    · rw [hworld', hworld₂]
    · have hne : mode.reg d.cx ≠ 0 := by
        intro hzero
        rw [hzero] at hcx
        cases hcx
      simpa using hne
    · show Option.map _ (mode.pointer d).phys = _
      rw [ha]
      simp [d₁, Image.port, comCharInCarry_comports]

theorem carries_writeb {data rest : List Byte} (hword : Handler.writeb.word.isPrefixOf d.si = true)
    {ptr : Pointer} {si : List Byte} (haddress : mode.address (d.si.drop 7) = (some ptr, si))
    (hinput : d.world.input = data ++ rest) (hdata : data.length = mode.count si)
    (hreach : ptr.Present (mode.count si)) :
    Carries img mode .writeb d
      (img.feedAll ((d.serial mode).commandWriteb (d.si.drop 7)) data) rest := by
  have hmode : (d.serial mode).mode = mode := rfl
  rw [Serial.commandWriteb, hmode, haddress]
  obtain ⟨cf, hown⟩ := command_own img mode hword
  have haddrOk : img.listing (mode, .addrOk .writeb) = Image.setPointer mode ++
      (Image.setCount mode ++ [Image.jmp mode (.loop .writeb)]) := List.append_assoc _ _ _
  obtain ⟨d₁, hworld₁, hptr₁, hcx₁, hparse⟩ :=
    operands_runs img mode (d := note (.heard .writeb) { d with cf := cf }) haddrOk haddress
  obtain ⟨mem, hfeed, d₂, hworld₂, hloop⟩ := writebLoop_runs img mode rest data d₁
    (d.serial mode) (by rw [hworld₁]; exact hinput) (hcx₁.trans hdata.symm)
    (by rw [hptr₁, hdata]; exact hreach) (by rw [hworld₁]; rfl)
  rw [hptr₁, hdata] at hfeed
  refine ⟨_, ?_, ?_, fun k k' st => (hown _).trans ((hparse k _).trans (.jump ((hloop _).trans
    (.op rfl (.jump (response_returns img mode rfl (by decide)
      (by decide : 0#8 ∉ ascii "Accepted") rfl k' st))))))⟩
  · rfl
  · rw [hworld₂, hworld₁]
    simp only [hfeed]
    simp [note, Cpu.serial, Serial.responseOutput]

/-! ## EXEC, LOW and the jumps -/

theorem parseEntry_runs (d : Cpu) : ∃ d' : Cpu, d'.world = d.world ∧
    Image.entry mode d' = mode.entryPoint d.si ∧
    ∀ k st, Runs img.listing ⟨Image.parseEntry mode ++ k, st, d⟩ ⟨k, st, d'⟩ := by
  cases mode with
  | i8086 =>
    refine ⟨_, ?_, ?_, fun k st => .call (strtohex_returns img _ d) (.op rfl (.call
      (strSkipWhitespace_returns img _ _) (.call (strtohex_returns img _ _) (.op rfl (.refl _)))))⟩
    · rfl
    · simp [Image.entry, Mode.entryPoint, Mode.bits]
  | i286 | i386x16 =>
    refine ⟨_, ?_, ?_, fun k st => .call (strtohex32_returns img _ rfl d) (.call
      (fun k st => Runs.steps 6 rfl) (.op rfl (.call (strSkipWhitespace_returns img _ _) (.call
      (strtohex_returns img _ _) (.op rfl (.refl _))))))⟩
    · rfl
    · simp [Image.entry, Mode.entryPoint, Mode.bits]
  | i386x32 | x64 =>
    refine ⟨_, ?_, ?_, fun k st => .call (strtohex_returns img _ d) (.op rfl (.refl _))⟩
    · rfl
    · simp [Image.entry, Mode.entryPoint, Mode.bits]

theorem carries_exec (hword : Handler.exec.word.isPrefixOf d.si = true)
    (hreturns : (img.leaves (mode.entryPoint (d.si.drop 5)) d.world.mem).isSome) :
    Carries img mode .exec d (img.commandExec (d.serial mode) (d.si.drop 5)) d.world.input := by
  obtain ⟨cf, hown⟩ := command_own img mode hword
  obtain ⟨d₁, hworld₁, hentry, hparse⟩ := parseEntry_runs img mode
    { note (.heard .exec) { d with cf := cf } with si := d.si.drop 5, cf := false }
  obtain ⟨r, hr⟩ := Option.isSome_iff_exists.1 hreturns
  have hmem₁ : d₁.world.mem = d.world.mem := by
    rw [hworld₁]
    rfl
  have hrun : img.runCode mode d₁ = some { d₁ with
      toRegisters := r
      world := { d₁.world with
        mem := img.code (mode.entryPoint (d.si.drop 5)) d.world.mem } } := by
    rw [Image.runCode, hentry, hmem₁, hr]
    rfl
  refine ⟨_, ?_, ?_, fun k k' st => (hown _).trans (.op rfl (.drop ((hparse _ _).trans
    (.op hrun (.op rfl (.jump (response_returns img mode rfl (by decide)
      (by decide : 0#8 ∉ ascii "Function complete") rfl k' st)))))))⟩
  · rfl
  · simp [hworld₁, note, Cpu.serial, Serial.responseOutput, Stage2.commandExec]

/-- What LOW says, with as many digits as the register has. -/
theorem commandLow_eq (img : Image) (s : Serial) : ∃ a : BitVec s.mode.bits,
    img.lowValue s.mode = a.setWidth 64 ∧
      img.commandLow s = s.responseOutput (comHexOut a (s.mode.bits / 4)) := by
  unfold Stage2.commandLow Image.lowValue
  cases hmode : s.mode with
  | i8086 | i286 | i386x16 => exact ⟨img.lastByte.setWidth 16, rfl, rfl⟩
  | i386x32 => exact ⟨img.lastByte, rfl, rfl⟩
  | x64 => exact ⟨finalLow, rfl, rfl⟩

theorem carries_low (hword : Handler.low.word.isPrefixOf d.si = true) :
    Carries img mode .low d (img.commandLow (d.serial mode)) d.world.input := by
  obtain ⟨cf, hown⟩ := command_own img mode hword
  obtain ⟨a, hvalue, hlow⟩ := commandLow_eq img (d.serial mode)
  let d₁ : Cpu := note .answer { note (.heard .low) { d with cf := cf } with si := cstr "OK " }
  let d₂ : Cpu := { d₁ with
    ax := img.lowValue mode, cf := false
    world := { d₁.world with out := d₁.world.out ++ ascii "OK " } }
  obtain ⟨cf', hhex⟩ := comHexOut_returns img mode (d := d₂) (a := a) hvalue
  have hhead : Returns img.listing mode.bytes (mode, .comStrOut) d₁
      { d₁ with cf := false, world := { d₁.world with out := d₁.world.out ++ ascii "OK " } } :=
    comStrOut_returns img mode (by decide) rfl
  refine ⟨_, ?_, ?_, fun k k' st => (hown _).trans (.drop (.op rfl (.call hhead (.op rfl
    (.call hhex (.op rfl (.call (comStrOut_returns img mode (by decide : 0#8 ∉ crlf) rfl)
      (.ret (.refl _)))))))))⟩
  · rfl
  · rw [hlow]
    simp [d₂, d₁, note, Cpu.serial, Serial.responseOutput]

theorem jumpHere_runs (d : Cpu) : ∃ d' : Cpu,
    d'.world = { d.world with
      out := d.world.out ++ (ascii "OK " ++ ascii (Image.greeting mode) ++ crlf)
      log := d.world.log ++ [.answer] } ∧
    ∀ st, Runs img.listing ⟨img.listing (mode, .jumpHere), st, d⟩
      ⟨img.listing (mode, .mainLoop), [], d'⟩ := by
  have hgreeting : 0#8 ∉ ascii (Image.greeting mode) := by cases mode <;> decide
  refine ⟨_, ?_, fun st => .reset (.op rfl (.call
    (comStrOut_returns img mode (by decide : 0#8 ∉ ascii "OK ") rfl) (.op rfl (.call
    (comStrOut_returns img mode hgreeting rfl) (.op rfl (.call
    (comStrOut_returns img mode (by decide : 0#8 ∉ crlf) rfl) (.jump (.refl _))))))))⟩
  simp [note]

end Carries

/-- What a handler does, in the serial model. -/
def Image.carryOut (s : Serial) (buf : List Byte) : Handler → Serial
  | .test => s.responseOutput (ascii "Test successful")
  | .read => s.commandRead ((img.inBuf buf).drop 5)
  | .readb => s.commandReadb ((img.inBuf buf).drop 6)
  | .write => s.commandWrite ((img.inBuf buf).drop 6) ((img.inBuf buf).length - buf.length)
  | .writeb => s.commandWriteb ((img.inBuf buf).drop 7)
  | .exec => img.commandExec s ((img.inBuf buf).drop 5)
  | .jump .x64 => img.jmpX64 s
  | .jump .i386x32 => s.jumpTo .i386x32 "386-32"
  | .jump .i386x16 => s.jumpTo .i386x16 "386-16"
  | .jump .i286 => s.jumpTo .i286 "286"
  | .jump .i8086 => img.command8086 s
  | .low => img.commandLow s

theorem carryOut_jump (s : Serial) (buf : List Byte) (target : Mode) :
    ∃ mem, img.carryOut s buf (.jump target)
        = { s with mode := img.destination target, mem := mem }.responseOutput
          (ascii (Image.greeting (img.destination target))) ∧
      ∀ d : Cpu, d.world.mem = s.mem →
        (if target = .i8086 then img.resetVector s.mode d else d).world
          = { d.world with mem := mem } := by
  cases target with
  | i8086 =>
    refine ⟨_, rfl, fun d hd => ?_⟩
    rw [← hd]
    rfl
  | x64 =>
    refine ⟨s.mem, ?_, fun d hd => by rw [← hd]; rfl⟩
    rcases hx : img.hasX64 with _ | _ <;>
      simp [Image.carryOut, Image.destination, Stage2.jmpX64, hx, Serial.jumpTo, Image.greeting]
  | i286 | i386x16 | i386x32 => exact ⟨s.mem, rfl, fun d hd => by rw [← hd]; rfl⟩

/-- A jump starts over with an empty stack. -/
theorem command_jump {target : Mode} {d : Cpu} (buf : List Byte)
    (hword : (Handler.jump target).word.isPrefixOf d.si = true) : ∃ d' : Cpu,
    d'.world = { mem := (img.carryOut (d.serial mode) buf (.jump target)).mem
                 input := d.world.input
                 out := (img.carryOut (d.serial mode) buf (.jump target)).out
                 log := d.world.log ++ [.heard (.jump target), .answer] } ∧
    ∀ st, Runs img.listing ⟨img.listing (mode, .command (.jump target)), st, d⟩
      ⟨img.listing (img.destination target, .mainLoop), [], d'⟩ := by
  obtain ⟨cf, hown⟩ := command_own img mode hword
  obtain ⟨mem, hcarry, hvector⟩ := carryOut_jump img (d.serial mode) buf target
  let d₁ : Cpu := note (.heard (.jump target)) { d with cf := cf }
  have hworld₁ : (if target = .i8086 then img.resetVector mode d₁ else d₁).world
      = { d₁.world with mem := mem } := hvector d₁ rfl
  obtain ⟨d', hworld', hjump⟩ := jumpHere_runs img (img.destination target)
    (if target = .i8086 then img.resetVector mode d₁ else d₁)
  refine ⟨d', ?_, fun st => (hown st).trans (.op rfl (.jump (hjump st)))⟩
  rw [hworld', hworld₁, hcarry]
  simp [d₁, note, Cpu.serial, Serial.responseOutput]

end RemoteX86
