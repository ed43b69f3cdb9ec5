import RemoteX86.Code
import RemoteX86.Proofs.Serial

/-!
# What the routines do

One theorem for each routine below the handlers: called from anywhere it comes back with the stack
as it was and does to registers, line and carry flag what it says here.  Registers it does not
mention are as they were.
-/

namespace RemoteX86

open Hex Memory CallStack

/-! ## AL -/

@[simp] theorem al_withAl (x : BitVec 64) (b : Byte) : al (withAl x b) = b := by
  ext i
  simp [al, withAl]

@[simp] theorem withAl_withAl (x : BitVec 64) (b c : Byte) :
    withAl (withAl x b) c = withAl x c := by
  ext i hi
  by_cases h : i < 8
  · simp [withAl, h]
  · simp [withAl, h, hi, Nat.add_sub_cancel' (Nat.le_of_not_lt h),
      BitVec.getLsbD_of_ge b i (Nat.le_of_not_lt h)]

@[simp] theorem al_setWidth {w : ℕ} (a : BitVec w) : al (a.setWidth 64) = a.setWidth 8 := by
  rw [al, BitVec.setWidth_setWidth_of_le _ (by decide)]

/-! ## One byte, and strings -/

variable (img : Image) (mode : Mode)

theorem comCharIn_returns {d : Cpu} {b : Byte} {input : List Byte}
    (h : d.world.input = b :: input) :
    Returns img.listing mode.bytes (mode, .comCharIn) d
      { d with
        ax := withAl d.ax b, cf := comCharInCarry img.port
        world := { d.world with input := input } } := by
  intro k st
  obtain ⟨⟨ax, bx, cx, dx, si, di, cf⟩, es, access, userCode, buf, ⟨mem, _, out, log⟩⟩ := d
  obtain rfl := h
  have hcf : comCharInCarry img.port
      = decide ((((img.port.setWidth 64).setWidth 16 + 5#16).setWidth 64).setWidth 16 < 5#16) := by
    simp [comCharInCarry]
  rw [← withAl_withAl ax 1, hcf]
  cases mode <;> exact Runs.steps 8 rfl

theorem comCharOut_returns (d : Cpu) : Returns img.listing mode.bytes (mode, .comCharOut) d
    { d with cf := false, world := { d.world with out := d.world.out ++ [al d.ax] } } := by
  intro k st
  cases mode <;> exact Runs.steps 14 rfl

/-- The loop of `com_str_out`. -/
theorem comStrOutL_runs (st : List (Word Loc Cpu Saved)) : ∀ (p tail : List Byte) (d : Cpu),
    0#8 ∉ p → d.si = p ++ 0#8 :: tail → Runs img.listing ⟨img.listing (mode, .comStrOutL), st, d⟩
      ⟨img.listing (mode, .comStrOutE), st,
        { d with
          ax := withAl d.ax 0, si := tail, cf := false
          world := { d.world with out := d.world.out ++ p } }⟩
  | [], tail, d, _, hsi => by
    refine .op rfl (.op rfl (.taken ?_ (.of_eq ?_)))
    · simp [hsi]
    · simp [hsi]
  | c :: p, tail, d, h0, hsi => by
    obtain ⟨hc, hp⟩ := not_or.1 (mt List.mem_cons.2 h0)
    refine .op rfl (.op rfl (.past ?_ (.call (comCharOut_returns img mode _) (.jump ?_))))
    · simpa [hsi] using Ne.symm hc
    · have ih := comStrOutL_runs st p tail
        { d with
          ax := withAl d.ax c, si := p ++ 0#8 :: tail, cf := false
          world := { d.world with out := d.world.out ++ [c] } } hp rfl
      simpa [hsi] using ih

theorem comStrOut_returns {p tail : List Byte} {d : Cpu} (h0 : 0#8 ∉ p)
    (hsi : d.si = p ++ 0#8 :: tail) : Returns img.listing mode.bytes (mode, .comStrOut) d
      { d with cf := false, world := { d.world with out := d.world.out ++ p } } := by
  intro k st
  refine .push (.push (.jump ((comStrOutL_runs img mode _ p tail d h0 hsi).trans ?_)))
  exact .pop (.pop (.ret (.of_eq rfl)))

theorem strSkipWhitespace_returns (d : Cpu) :
    Returns img.listing mode.bytes (mode, .strSkipWhitespace) d
      { d with
        si := strSkipWhitespace d.si
        cf := decide ((strSkipWhitespace d.si).getD 0 0 < 0x20#8) } := by
  intro k st
  generalize hn : d.si.length = n
  induction n generalizing d with
  | zero =>
    have hsi := List.eq_nil_of_length_eq_zero hn
    refine .op rfl (.past ?_ (.ret (.of_eq ?_)))
    · simp [hsi]
    · simp [hsi, strSkipWhitespace]
  | succ n ih =>
    obtain ⟨c, p, hsi⟩ := List.exists_cons_of_length_eq_add_one hn
    have hlen : p.length = n := by simpa [hsi] using hn
    by_cases hc : c = 0x20#8
    · refine .op rfl (.taken ?_ (.op rfl (.jump ?_)))
      · simp [hsi, hc]
      · have hrest := ih { d with si := p, cf := decide (c < 0x20#8) } hlen
        simpa [hsi, hc, strSkipWhitespace] using hrest
    · refine .op rfl (.past ?_ (.ret (.of_eq ?_)))
      · simpa [hsi] using hc
      · simp [hsi, hc, strSkipWhitespace]

/-! ## Numbers -/

theorem strtohexGetdigit_digit {d : Cpu} {c : Byte} {v : ℕ} (hc : d.si[0]?.getD 0#8 = c)
    (h : strtohexGetdigit c = some v) :
    Returns img.listing mode.bytes (mode, .strtohexGetdigit) d
      { d with si := d.si.tail, bx := withAl d.bx (BitVec.ofNat 8 v), cf := false } := by
  intro k st
  rw [strtohexGetdigit] at h
  by_cases h30 : c < 0x30#8
  · rw [if_pos h30] at h
    cases h
  rw [if_neg h30] at h
  refine .push (.op rfl (.op rfl (.past (by simpa [hc] using h30) ?_)))
  by_cases h39 : c ≤ 0x39#8
  · rw [if_pos h39] at h
    obtain rfl := Option.some.inj h
    have hv : BitVec.ofNat 8 (c.toNat - 0x30) = c - 0x30#8 := by
      rw [BitVec.lt_def] at h30
      bv_omega
    refine .op rfl (.taken (by simpa [hc] using h39) (.op rfl (.jump ?_)))
    refine .op rfl (.op rfl (.pop (.ret (.of_eq ?_))))
    simp [hc, hv, Saved.regOr]
  rw [if_neg h39] at h
  refine .op rfl (.past (by simpa [hc] using h39) ?_)
  by_cases h61 : c ||| 0x20#8 < 0x61#8
  · rw [if_pos h61] at h
    cases h
  rw [if_neg h61] at h
  refine .op rfl (.op rfl (.past (by simpa [hc] using h61) ?_))
  by_cases h66 : 0x66#8 < c ||| 0x20#8
  · rw [if_pos h66] at h
    cases h
  rw [if_neg h66] at h
  obtain rfl := Option.some.inj h
  have hv : BitVec.ofNat 8 ((c ||| 0x20#8).toNat - 0x61 + 10) = (c ||| 0x20#8) - 87#8 := by
    rw [BitVec.lt_def] at h61
    bv_omega
  refine .op rfl (.past (by simpa [hc] using h66) (.op rfl (.jump ?_)))
  refine .op rfl (.op rfl (.pop (.ret (.of_eq ?_))))
  rw [hv]
  simp [hc, Saved.regOr]

/-- The three ways to `.err`. -/
theorem strtohexGetdigit_none {d : Cpu} {c : Byte} (hc : d.si[0]?.getD 0#8 = c)
    (h : strtohexGetdigit c = none) : Returns img.listing mode.bytes (mode, .strtohexGetdigit) d
      { d with si := d.si.tail, cf := true } := by
  intro k st
  rw [strtohexGetdigit] at h
  by_cases h30 : c < 0x30#8
  · refine .push (.op rfl (.op rfl (.taken (by simpa [hc] using h30) ?_)))
    exact .op rfl (.pop (.ret (.of_eq rfl)))
  rw [if_neg h30] at h
  refine .push (.op rfl (.op rfl (.past (by simpa [hc] using h30) ?_)))
  by_cases h39 : c ≤ 0x39#8
  · rw [if_pos h39] at h
    cases h
  rw [if_neg h39] at h
  refine .op rfl (.past (by simpa [hc] using h39) ?_)
  by_cases h61 : c ||| 0x20#8 < 0x61#8
  · refine .op rfl (.op rfl (.taken (by simpa [hc] using h61) ?_))
    exact .op rfl (.pop (.ret (.of_eq rfl)))
  rw [if_neg h61] at h
  refine .op rfl (.op rfl (.past (by simpa [hc] using h61) ?_))
  by_cases h66 : 0x66#8 < c ||| 0x20#8
  · refine .op rfl (.taken (by simpa [hc] using h66) ?_)
    exact .op rfl (.pop (.ret (.of_eq rfl)))
  · rw [if_neg h66] at h
    cases h

theorem reg_setWidth (a : BitVec mode.bits) : mode.reg (a.setWidth 64) = a := by
  have hle : mode.bits ≤ 64 := by cases mode <;> decide
  rw [Mode.reg, BitVec.setWidth_setWidth_of_le _ hle, BitVec.setWidth_eq]

theorem setWidth_digit {w : ℕ} {c : Byte} {v : ℕ} (hw : 8 ≤ w) (h : strtohexGetdigit c = some v) :
    (BitVec.ofNat w v).setWidth 64 = (BitVec.ofNat 8 v).setWidth 64 := by
  have hv : v < 16 := digitVal_lt (by rw [← strtohexGetdigit_eq, h])
  have hpow : 2 ^ 8 ≤ 2 ^ w := Nat.pow_le_pow_right (by decide) hw
  apply BitVec.eq_of_toNat_eq
  rw [BitVec.toNat_setWidth, BitVec.toNat_setWidth, BitVec.toNat_ofNat, BitVec.toNat_ofNat,
    Nat.mod_eq_of_lt (by omega : v < 2 ^ w), Nat.mod_eq_of_lt (by omega : v < 2 ^ 8)]

/-- `shl` and `or al,bl`. -/
theorem shiftDigit (a : BitVec mode.bits) {c : Byte} {v : ℕ} (h : strtohexGetdigit c = some v) :
    (a <<< 4).setWidth 64 ||| (BitVec.ofNat 8 v).setWidth 64
      = ((a <<< 4) ||| BitVec.ofNat mode.bits v).setWidth 64 := by
  have hle : 8 ≤ mode.bits := by cases mode <;> decide
  rw [BitVec.setWidth_or, setWidth_digit hle h]

/-- One digit. -/
theorem strtohexLoop_turn (st : List (Word Loc Cpu Saved)) {d : Cpu} {a : BitVec mode.bits}
    (hax : d.ax = a.setWidth 64) {c : Byte} {v : ℕ} (hc : d.si[0]?.getD 0#8 = c)
    (h : strtohexGetdigit c = some v) :
    Runs img.listing ⟨img.listing (mode, .strtohexLoop), st, d⟩
      ⟨img.listing (mode, .strtohexLoop), st,
        { d with
          ax := ((a <<< 4) ||| BitVec.ofNat mode.bits v).setWidth 64, si := d.si.tail, cf := false
          bx := withAl d.bx (BitVec.ofNat 8 v)
          cx := if mode.sixteen then withAl d.cx 4 else d.cx }⟩ := by
  refine .call (strtohexGetdigit_digit img mode hc h) (.past rfl ?_)
  rw [← shiftDigit mode a h]
  rcases hs : mode.sixteen with _ | _
  · rw [if_neg (by decide)]
    refine .op rfl (.op rfl (.jump (.of_eq ?_)))
    simp [hax, reg_setWidth]
  · rw [if_pos (by decide)]
    refine .op rfl (.op rfl (.op rfl (.jump (.of_eq ?_))))
    simp [hax, reg_setWidth]

theorem strtohexLoop_runs (st : List (Word Loc Cpu Saved)) : ∀ (n : ℕ) (d : Cpu)
    (a : BitVec mode.bits), d.si.length = n → d.ax = a.setWidth 64 → ∃ bx cx,
      Runs img.listing ⟨img.listing (mode, .strtohexLoop), st, d⟩
        ⟨img.listing (mode, .strtohexEnd), st,
          { d with
            ax := (strtohexLoop a d.si).1.setWidth 64, si := (strtohexLoop a d.si).2, cf := true
            bx := bx, cx := if mode.sixteen then cx else d.cx }⟩ := by
  intro n
  induction n with
  | zero =>
    intro d a hn hax
    have hsi := List.eq_nil_of_length_eq_zero hn
    refine ⟨d.bx, d.cx, .call (strtohexGetdigit_none img mode rfl ?_) (.taken rfl (.of_eq ?_))⟩
    · rw [hsi]
      rfl
    · simp [hsi, hax, strtohexLoop]
  | succ n ih =>
    intro d a hn hax
    obtain ⟨c, p, hsi⟩ := List.exists_cons_of_length_eq_add_one hn
    have hlen : d.si.tail.length = n := by simp [hn]
    have hc : d.si[0]?.getD 0#8 = c := by simp [hsi]
    rcases hdigit : strtohexGetdigit c with _ | v
    · refine ⟨d.bx, d.cx, .call (strtohexGetdigit_none img mode hc hdigit)
        (.taken rfl (.of_eq ?_))⟩
      simp [hsi, hax, strtohexLoop, hdigit]
    · have hturn := strtohexLoop_turn img mode st hax hc hdigit
      obtain ⟨bx, cx, hrest⟩ := ih
        { d with
          ax := ((a <<< 4) ||| BitVec.ofNat mode.bits v).setWidth 64, si := d.si.tail, cf := false
          bx := withAl d.bx (BitVec.ofNat 8 v)
          cx := if mode.sixteen then withAl d.cx 4 else d.cx }
        ((a <<< 4) ||| BitVec.ofNat mode.bits v) hlen rfl
      have hloop : strtohexLoop a d.si
          = strtohexLoop ((a <<< 4) ||| BitVec.ofNat mode.bits v) d.si.tail := by
        rw [hsi, strtohexLoop, hdigit]
        rfl
      refine ⟨bx, cx, (hturn.trans hrest).trans (.of_eq ?_)⟩
      rw [hloop]
      cases mode <;> rfl

theorem strtohex_returns (d : Cpu) : Returns img.listing mode.bytes (mode, .strtohex) d
    { d with
      ax := (strtohex (w := mode.bits) d.si).1.setWidth 64
      si := (strtohex (w := mode.bits) d.si).2, cf := true } := by
  intro k st
  have hzero : ({ d with ax := 0, cf := false } : Cpu).ax = (0 : BitVec mode.bits).setWidth 64 := by
    simp
  rcases hs : mode.sixteen with _ | _
  · have hhead : img.listing (mode, .strtohex)
        = [pushBx mode.bytes, xorAx, Image.jmp mode .strtohexLoop] := by
      rw [Image.listing, Image.routine, hs, if_neg (by decide)]
      rfl
    have hend : img.listing (mode, .strtohexEnd)
        = [popBx mode.bytes, Image.return_ mode] := by
      rw [Image.listing, Image.routine, hs, if_neg (by decide)]
      rfl
    obtain ⟨bx, cx, hloop⟩ := strtohexLoop_runs img mode
      (.value mode.bytes (.reg d.bx) :: .address mode.bytes k :: st) _ _ 0 rfl hzero
    rw [hs, if_neg (by decide), hend] at hloop
    rw [hhead]
    exact .push (.op rfl (.jump (hloop.trans (.pop (.ret (.of_eq rfl))))))
  · have hhead : img.listing (mode, .strtohex)
        = [pushBx 2, pushCx 2, xorAx, Image.jmp mode .strtohexLoop] := by
      rw [Image.listing, Image.routine, hs, if_pos rfl]
      rfl
    have hend : img.listing (mode, .strtohexEnd) = [popCx 2, popBx 2, Image.return_ mode] := by
      rw [Image.listing, Image.routine, hs, if_pos rfl]
      rfl
    obtain ⟨bx, cx, hloop⟩ := strtohexLoop_runs img mode
      (.value 2 (.reg d.cx) :: .value 2 (.reg d.bx) :: .address mode.bytes k :: st) _ _ 0 rfl hzero
    rw [hs, if_pos rfl, hend] at hloop
    rw [hhead]
    exact .push (.push (.op rfl (.jump (hloop.trans (.pop (.pop (.ret (.of_eq rfl))))))))

/-! ## The operand of the 16-bit parts -/

theorem shl16 (hs : mode.sixteen = true) (a : BitVec 16) :
    (mode.reg (a.setWidth 64) <<< 4).setWidth 64 = (a <<< 4).setWidth 64 := by
  cases mode with
  | i8086 => exact congrArg (fun x : BitVec 16 => (x <<< 4).setWidth 64) (reg_setWidth .i8086 a)
  | i286 => exact congrArg (fun x : BitVec 16 => (x <<< 4).setWidth 64) (reg_setWidth .i286 a)
  | i386x16 => exact congrArg (fun x : BitVec 16 => (x <<< 4).setWidth 64) (reg_setWidth .i386x16 a)
  | i386x32 | x64 => cases hs

theorem setWidth_nibble (a : BitVec 16) :
    ((a >>> 12).setWidth 8).setWidth 64 = (a >>> 12).setWidth 64 := by
  apply BitVec.eq_of_toNat_eq
  have h := a.isLt
  have h12 : a.toNat / 2 ^ 12 < 16 := by omega
  simp only [BitVec.toNat_setWidth, BitVec.toNat_ushiftRight, Nat.shiftRight_eq_div_pow]
  omega

theorem strtohex32Loop_turn (hs : mode.sixteen = true) (st : List (Word Loc Cpu Saved)) {d : Cpu}
    {e a : BitVec 16} (hdx : d.dx = e.setWidth 64) (hax : d.ax = a.setWidth 64) {c : Byte} {v : ℕ}
    (hc : d.si[0]?.getD 0#8 = c) (h : strtohexGetdigit c = some v) :
    Runs img.listing ⟨img.listing (mode, .strtohex32Loop), st, d⟩
      ⟨img.listing (mode, .strtohex32Loop), st,
        { d with
          ax := ((a <<< 4) ||| BitVec.ofNat 16 v).setWidth 64
          dx := ((e <<< 4) ||| (a >>> 12)).setWidth 64, si := d.si.tail, cf := false
          bx := withAl d.bx (BitVec.ofNat 8 v), cx := withAl d.cx 4 }⟩ := by
  have hdigit : (BitVec.ofNat 16 v).setWidth 64 = (BitVec.ofNat 8 v).setWidth 64 :=
    setWidth_digit (by decide) h
  have hsixteen : ∀ x : BitVec 16, (x.setWidth 64).setWidth 16 = x := by simp
  refine .call (strtohexGetdigit_digit img mode hc h) (.past rfl ?_)
  refine .push (.op rfl (.op rfl (.op rfl (.op rfl (.op rfl (.op rfl (.pop ?_)))))))
  refine .op rfl (.op rfl (.jump (.of_eq ?_)))
  simp only [hax, hdx, hsixteen, shl16 mode hs, Saved.regOr, al_withAl, al_setWidth,
    setWidth_nibble, BitVec.setWidth_or, hdigit, withAl_withAl]

theorem strtohex32Loop_runs (hs : mode.sixteen = true) (st : List (Word Loc Cpu Saved)) :
    ∀ (n : ℕ) (d : Cpu) (e a : BitVec 16), d.si.length = n → d.dx = e.setWidth 64 →
      d.ax = a.setWidth 64 → ∃ bx cx,
      Runs img.listing ⟨img.listing (mode, .strtohex32Loop), st, d⟩
        ⟨img.listing (mode, .strtohex32End), st,
          { d with
            ax := (strtohex32Loop e a d.si).1.2.setWidth 64
            dx := (strtohex32Loop e a d.si).1.1.setWidth 64
            si := (strtohex32Loop e a d.si).2, cf := true, bx := bx, cx := cx }⟩ := by
  intro n
  induction n with
  | zero =>
    intro d e a hn hdx hax
    have hsi := List.eq_nil_of_length_eq_zero hn
    refine ⟨d.bx, d.cx, .call (strtohexGetdigit_none img mode rfl ?_) (.taken rfl (.of_eq ?_))⟩
    · rw [hsi]
      rfl
    · simp [hsi, hdx, hax, strtohex32Loop]
  | succ n ih =>
    intro d e a hn hdx hax
    obtain ⟨c, p, hsi⟩ := List.exists_cons_of_length_eq_add_one hn
    have hlen : d.si.tail.length = n := by simp [hn]
    have hc : d.si[0]?.getD 0#8 = c := by simp [hsi]
    rcases hdigit : strtohexGetdigit c with _ | v
    · refine ⟨d.bx, d.cx, .call (strtohexGetdigit_none img mode hc hdigit)
        (.taken rfl (.of_eq ?_))⟩
      simp [hsi, hdx, hax, strtohex32Loop, hdigit]
    · have hturn := strtohex32Loop_turn img mode hs st hdx hax hc hdigit
      obtain ⟨bx, cx, hrest⟩ := ih
        { d with
          ax := ((a <<< 4) ||| BitVec.ofNat 16 v).setWidth 64
          dx := ((e <<< 4) ||| (a >>> 12)).setWidth 64, si := d.si.tail, cf := false
          bx := withAl d.bx (BitVec.ofNat 8 v), cx := withAl d.cx 4 }
        ((e <<< 4) ||| (a >>> 12)) ((a <<< 4) ||| BitVec.ofNat 16 v) hlen rfl rfl
      have hloop : strtohex32Loop e a d.si = strtohex32Loop ((e <<< 4) ||| (a >>> 12))
          ((a <<< 4) ||| BitVec.ofNat 16 v) d.si.tail := by
        rw [hsi, strtohex32Loop, hdigit]
        rfl
      refine ⟨bx, cx, (hturn.trans hrest).trans (.of_eq ?_)⟩
      rw [hloop]

theorem strtohex32_returns (hs : mode.sixteen = true) (d : Cpu) :
    Returns img.listing mode.bytes (mode, .strtohex32) d
      { d with
        ax := (strtohex32 d.si).1.2.setWidth 64, dx := (strtohex32 d.si).1.1.setWidth 64
        si := (strtohex32 d.si).2, cf := true } := by
  intro k st
  obtain ⟨bx, cx, hloop⟩ := strtohex32Loop_runs img mode hs
    (.value 2 (.reg d.cx) :: .value 2 (.reg d.bx) :: .address mode.bytes k :: st) _
    { d with ax := 0, dx := 0, cf := false } 0 0 rfl (by simp) (by simp)
  exact .push (.push (.op rfl (.op rfl (.jump (hloop.trans (.pop (.pop (.ret (.of_eq rfl)))))))))

/-! ## Pointers -/

/-- What the registers of an address stand for. -/
def addressRegs (d : Cpu) : Pointer :=
  match mode with
  | .i8086 => dxAxPhysToReal (d.dx.setWidth 16) (d.ax.setWidth 16)
  | .i286 => .acc286 (dxAxPhysTo286seg accessSelector286 (d.dx.setWidth 16) (d.ax.setWidth 16)) 0
  | .i386x16 => .acc386 (dxAxPhysTo386seg accessSelector386 (d.dx.setWidth 16) (d.ax.setWidth 16)) 0
  | .i386x32 => .flat32 (d.ax.setWidth 32)
  | .x64 => .flat64 d.ax

theorem setPointer_runs (d : Cpu) : ∃ d' : Cpu, d'.world = d.world ∧ d'.di = d.di ∧
    d'.si = strSkipWhitespace d.si ∧ mode.pointer d' = addressRegs mode d ∧
    ∀ k st, Runs img.listing ⟨Image.setPointer mode ++ k, st, d⟩ ⟨k, st, d'⟩ := by
  have hskip := strSkipWhitespace_returns img mode d
  cases mode with
  | i8086 =>
    refine ⟨_, ?_, ?_, ?_, ?_, fun k st => .call hskip (.call (fun k st => Runs.steps 9 rfl)
      (.op rfl (.op rfl (.refl _))))⟩
    · rfl
    · rfl
    · rfl
    · have hback : ∀ x : BitVec 16, (x.setWidth 64).setWidth 16 = x := fun x => by
        rw [BitVec.setWidth_setWidth_of_le _ (by decide), BitVec.setWidth_eq]
      simp only [Mode.pointer, addressRegs, dxAxPhysToReal, Saved.regOr, Word.popped,
        BitVec.setWidth_or, BitVec.setWidth_and, hback]
      rfl
  | i286 | i386x16 =>
    refine ⟨_, ?_, ?_, ?_, ?_, fun k st => .call hskip (.call (fun k st => Runs.steps 6 rfl)
      (.op rfl (.op rfl (.refl _))))⟩
    · rfl
    · rfl
    · rfl
    · simp [Mode.pointer, addressRegs]
  | i386x32 | x64 =>
    exact ⟨{ d with si := strSkipWhitespace d.si, cf := _, bx := d.ax }, rfl, rfl, rfl, rfl,
      fun k st => .call hskip (.op rfl (.refl _))⟩

/-- The step of a pointer, back to the head of the loop. -/
theorem stepPointer_runs (h : Handler) (d : Cpu) : ∃ d' : Cpu,
    d'.cx = d.cx ∧ d'.si = d.si ∧ d'.di = d.di ∧ d'.world = d.world ∧
      mode.pointer d' = (mode.pointer d).next d.cf ∧
      ∀ st, Runs img.listing ⟨Image.stepPointer mode h, st, d⟩
        ⟨img.listing (mode, .loop h), st, d'⟩ := by
  cases mode with
  | i8086 =>
    rcases hcf : d.cf with _ | _
    · refine ⟨_, ?_, ?_, ?_, ?_, ?_, fun st => .op rfl (.taken (by simp [hcf]) (.refl _))⟩
      iterate 4 rfl
      simp [Mode.pointer, Pointer.next, Mode.reg, Mode.bits]
      rfl
    · refine ⟨_, ?_, ?_, ?_, ?_, ?_, fun st => .op rfl (.past (by simp [hcf]) (.op rfl
        (.op rfl (.op rfl (.jump (.refl _))))))⟩
      iterate 4 rfl
      simp [Mode.pointer, Pointer.next, Mode.reg, Mode.bits]
      rfl
  | i286 | i386x16 =>
    rcases hcf : d.cf with _ | _
    · refine ⟨_, ?_, ?_, ?_, ?_, ?_, fun st => .op rfl (.taken (by simp [hcf]) (.refl _))⟩
      iterate 4 rfl
      simp [Mode.pointer, Pointer.next, Mode.reg, Mode.bits]
      rfl
    · refine ⟨_, ?_, ?_, ?_, ?_, ?_, fun st => .op rfl (.past (by simp [hcf]) (.call
        (fun k st => Runs.steps 7 rfl) (.jump (.refl _))))⟩
      iterate 4 rfl
      simp [Mode.pointer, Pointer.next, Mode.reg, Mode.bits]
      rfl
  | i386x32 | x64 =>
    refine ⟨_, ?_, ?_, ?_, ?_, ?_, fun st => .op rfl (.jump (.refl _))⟩
    iterate 4 rfl
    simp [Mode.pointer, Pointer.next, Mode.reg, Mode.bits]
    rfl

/-! ## Output -/

theorem comPuthexDigit_returns (d : Cpu) :
    Returns img.listing mode.bytes (mode, .comPuthexDigit) d
      { d with
        cf := false
        world := { d.world with
          out := d.world.out ++ [hexdigits.getD (d.ax &&& 0xF).toNat 0] } } := by
  intro k st
  refine .push (.push (.op rfl (.op rfl (.op rfl (.call (comCharOut_returns img mode _) ?_)))))
  refine .pop (.pop (.ret (.of_eq ?_)))
  simp [Saved.regOr]

theorem toNat_nibble {w : ℕ} (hw : 4 ≤ w) (a : BitVec w) : (a &&& 0xF).toNat = a.toNat % 16 := by
  have hmask : (0xF : BitVec w).toNat = 2 ^ 4 - 1 := by
    have hpow : 2 ^ 4 ≤ 2 ^ w := Nat.pow_le_pow_right (by decide) hw
    have h15 : 15 < 2 ^ w := by omega
    exact (BitVec.toNat_ofNat 15 w).trans (Nat.mod_eq_of_lt h15)
  rw [BitVec.toNat_and, hmask, Nat.and_two_pow_sub_one_eq_mod]

theorem lowNibble {w : ℕ} (hw : 4 ≤ w) (hw' : w ≤ 64) (a : BitVec w) :
    (a.setWidth 64 &&& 0xF).toNat = (a &&& 0xF).toNat := by
  have hpow : 2 ^ w ≤ 2 ^ 64 := Nat.pow_le_pow_right (by decide) hw'
  rw [toNat_nibble (by decide), toNat_nibble hw, BitVec.toNat_setWidth,
    Nat.mod_eq_of_lt (a.isLt.trans_le hpow)]

theorem lowNibble_withAl (x : BitVec 64) (b : Byte) :
    (withAl x b &&& 0xF).toNat = (b &&& 0xF).toNat := by
  have hal : al (withAl x b &&& 0xF) = b &&& 0xF := by
    rw [al, BitVec.setWidth_and]
    exact congrArg (· &&& (0xF : Byte)) (al_withAl x b)
  have hlt : (withAl x b &&& 0xF).toNat < 2 ^ 8 := by
    rw [toNat_nibble (by decide)]
    omega
  rw [← hal, al, BitVec.toNat_setWidth, Nat.mod_eq_of_lt hlt]

theorem comHex8Out_returns (d : Cpu) : Returns img.listing mode.bytes (mode, .comHex8Out) d
    { d with
      cf := false, world := { d.world with out := d.world.out ++ comHex8Out (al d.ax) } } := by
  intro k st
  have hout : d.world.out ++ comHex8Out (al d.ax) = (d.world.out
      ++ [hexdigits.getD (withAl d.ax ((al d.ax).rotateLeft 4) &&& 0xF).toNat 0])
      ++ [hexdigits.getD (withAl (withAl d.ax ((al d.ax).rotateLeft 4))
        ((al (withAl d.ax ((al d.ax).rotateLeft 4))).rotateLeft 4) &&& 0xF).toNat 0] := by
    rw [lowNibble_withAl, lowNibble_withAl, al_withAl, List.append_assoc]
    rfl
  rw [hout]
  rcases hs : mode.sixteen with _ | _
  · have hcode : img.listing (mode, .comHex8Out) = [pushAx mode.half, rolAl4,
        Image.near mode .comPuthexDigit, rolAl4, Image.near mode .comPuthexDigit,
        popAx mode.half, Image.return_ mode] := by
      rw [Image.listing, Image.routine, hs]
      rfl
    rw [hcode]
    refine .push (.op rfl (.call (comPuthexDigit_returns img mode _) (.op rfl ?_)))
    exact .call (comPuthexDigit_returns img mode _) (.pop (.ret (.of_eq rfl)))
  · have hcode : img.listing (mode, .comHex8Out) = [pushAx mode.half, pushCx 2, movCl 4, rolAl4,
        Image.near mode .comPuthexDigit, rolAl4, Image.near mode .comPuthexDigit,
        popCx 2, popAx mode.half, Image.return_ mode] := by
      rw [Image.listing, Image.routine, hs]
      rfl
    rw [hcode]
    refine .push (.push (.op rfl (.op rfl ?_)))
    refine .call (comPuthexDigit_returns img mode _) (.op rfl ?_)
    exact .call (comPuthexDigit_returns img mode _) (.pop (.pop (.ret (.of_eq rfl))))

theorem hexDigits_runs : ∀ (n : ℕ) (d : Cpu) (a : BitVec mode.bits), d.ax = a.setWidth 64 →
    ∃ ax cf, ∀ k st, Runs img.listing ⟨Image.hexDigits mode n ++ k, st, d⟩ ⟨k, st,
      { d with ax := ax, cf := cf, world := { d.world with out := d.world.out ++ comHexOut a n } }⟩
  | 0, d, a, _ => ⟨d.ax, d.cf, fun k st => .of_eq (by simp [Image.hexDigits, comHexOut])⟩
  | n + 1, d, a, hax => by
    have h4 : 4 ≤ mode.bits := by cases mode <;> decide
    have h64 : mode.bits ≤ 64 := by cases mode <;> decide
    obtain ⟨ax, cf, hrest⟩ := hexDigits_runs n
      { d with
        ax := (a.rotateLeft 4).setWidth 64, cf := false
        world := { d.world with
          out := d.world.out ++ [hexdigits.getD ((a.rotateLeft 4) &&& 0xF).toNat 0] } }
      (a.rotateLeft 4) rfl
    refine ⟨ax, cf, fun k st => .op rfl (.call (comPuthexDigit_returns img mode _) ?_)⟩
    simp only [hax, reg_setWidth, lowNibble h4 h64]
    refine (hrest k st).trans (.of_eq ?_)
    simp [comHexOut]

theorem comHexOut_returns {d : Cpu} {a : BitVec mode.bits} (hax : d.ax = a.setWidth 64) : ∃ cf,
    Returns img.listing mode.bytes (mode, .comHexOut) d
      { d with
        cf := cf
        world := { d.world with out := d.world.out ++ comHexOut a (mode.bits / 4) } } := by
  rcases hs : mode.sixteen with _ | _
  · have hcode : img.listing (mode, .comHexOut) = pushAx mode.bytes
        :: (Image.hexDigits mode (mode.bits / 4) ++ [popAx mode.bytes, Image.return_ mode]) := by
      simp [Image.listing, Image.routine, hs]
    obtain ⟨ax, cf, hdigits⟩ := hexDigits_runs img mode (mode.bits / 4) d a hax
    refine ⟨cf, fun k st => ?_⟩
    rw [hcode]
    exact .push ((hdigits _ _).trans (.pop (.ret (.of_eq rfl))))
  · have hcode : img.listing (mode, .comHexOut) = pushAx mode.bytes :: pushCx 2 :: movCl 4
        :: (Image.hexDigits mode (mode.bits / 4)
          ++ [popCx 2, popAx mode.bytes, Image.return_ mode]) := by
      simp [Image.listing, Image.routine, hs]
    obtain ⟨ax, cf, hdigits⟩ := hexDigits_runs img mode (mode.bits / 4)
      { d with cx := withAl d.cx 4 } a hax
    refine ⟨cf, fun k st => ?_⟩
    rw [hcode]
    exact .push (.push (.op rfl ((hdigits _ _).trans (.pop (.pop (.ret (.of_eq rfl)))))))

theorem response_returns {l : Label} {head : String} {msg tail : List Byte} {d : Cpu}
    (hl : img.listing (mode, l) = Image.routine.response mode head)
    (hhead : 0#8 ∉ ascii head) (hmsg : 0#8 ∉ msg) (hsi : d.si = msg ++ 0#8 :: tail) :
    Returns img.listing mode.bytes (mode, l) d
      { d with
        si := crlfZ, cf := false
        world := { d.world with
          out := d.world.out ++ (ascii head ++ msg ++ crlf)
          log := d.world.log ++ [.answer] } } := by
  intro k st
  rw [hl]
  have hcrlf : 0#8 ∉ crlf := by decide
  refine .push (.op rfl (.call (comStrOut_returns img mode hhead rfl) (.pop ?_)))
  refine .call (comStrOut_returns img mode hmsg hsi) (.op rfl ?_)
  refine .call (comStrOut_returns img mode hcrlf rfl) (.op rfl (.ret (.of_eq ?_)))
  simp [note, List.append_assoc]
end RemoteX86
