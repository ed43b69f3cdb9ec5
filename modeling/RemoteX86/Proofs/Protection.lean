import RemoteX86.Protection
import RemoteX86.Proofs.SerialModes

/-!
# Every part finds the processor as it needs it

A part that is entered writes its table before it loads from it, and a part that is left puts 16-bit
descriptors into the segment registers before it turns protection off, since real mode keeps all but
their bases.  What commands do to the table in between is undone by the next command that uses it.
-/

namespace RemoteX86

open Hex

/-! ## Loads -/

section Loads

variable {s : Protection} {ok : Descriptor → Bool} {r : SegReg} {selector : BitVec 16}

theorem load_real (hpe : s.pe = false) : s.load ok r selector = some (r.loadReal selector) := by
  rw [Protection.load, hpe]
  rfl

theorem load_protected {d : Descriptor} (hpe : s.pe = true)
    (hd : s.descriptor selector = some d) (hok : ok d = true) :
    s.load ok r selector = some (d.segReg selector) := by
  rw [Protection.load, hpe, hd, if_pos rfl, Option.bind_some, if_pos hok]

end Loads

/-- Protected mode with two entries as `genGdt` writes them. -/
structure Protection.Flat (f : Byte) (s : Protection) : Prop where
  pe : s.pe = true
  gdtr : s.gdtr = true
  code : s.code = gdtEntry 0x9A f
  data : s.data = gdtEntry 0x92 f

section Flat

variable {s : Protection} {f : Byte}

theorem Protection.Flat.descriptor_data (h : s.Flat f) :
    s.descriptor dataSelector = some (gdtEntry 0x92 f) := by
  rw [Protection.descriptor, h.gdtr, ← h.data]
  rfl

theorem Protection.Flat.load_data (h : s.Flat f) (r : SegReg) :
    s.load Descriptor.isReadable r dataSelector = some ((gdtEntry 0x92 f).segReg dataSelector) :=
  load_protected h.pe h.descriptor_data (by simp only [Descriptor.isReadable, gdtEntry]; decide)

theorem Protection.Flat.movDs (h : s.Flat f) :
    s.movDs dataSelector = some { s with ds := (gdtEntry 0x92 f).segReg dataSelector } := by
  rw [Protection.movDs, h.load_data]
  rfl

theorem Protection.Flat.movEs (h : s.Flat f) :
    s.movEs dataSelector = some { s with es := (gdtEntry 0x92 f).segReg dataSelector } := by
  rw [Protection.movEs, h.load_data]
  rfl

theorem Protection.Flat.movSs (h : s.Flat f) :
    s.movSs dataSelector = some { s with ss := (gdtEntry 0x92 f).segReg dataSelector } := by
  rw [Protection.movSs, load_protected h.pe h.descriptor_data
    (by simp only [Descriptor.isStack, gdtEntry]; decide)]
  rfl

/-- CS once it is loaded again. -/
def Protection.inCode (f : Byte) (s : Protection) : Protection :=
  { s with cs := (gdtEntry 0x9A f).segReg codeSelector }

theorem Protection.Flat.far (h : s.Flat f) (hcode : (gdtEntry 0x9A f).isCode = true) :
    s.far codeSelector = some (s.inCode f) := by
  have hd : s.descriptor codeSelector = some (gdtEntry 0x9A f) := by
    rw [Protection.descriptor, h.gdtr, ← h.code]
    rfl
  rw [Protection.far, load_protected h.pe hd hcode]
  rfl

theorem Protection.Flat.inCode (h : s.Flat f) : (s.inCode f).Flat f := { h with }

/-- The registers of data once they are loaded again. -/
def Protection.reloaded (f : Byte) (s : Protection) : Protection :=
  { s with ds := (gdtEntry 0x92 f).segReg dataSelector, es := (gdtEntry 0x92 f).segReg dataSelector
           ss := (gdtEntry 0x92 f).segReg dataSelector }

theorem Protection.Flat.reload {α : Type} (h : s.Flat f) (k : Protection → Option α) :
    (do
      let s ← s.movDs dataSelector
      let s ← s.movEs dataSelector
      let s ← s.movSs dataSelector
      k s) = k (s.reloaded f) := by
  have hds : Protection.Flat f { s with ds := (gdtEntry 0x92 f).segReg dataSelector } := { h with }
  have hes : Protection.Flat f { s with ds := (gdtEntry 0x92 f).segReg dataSelector
                                        es := (gdtEntry 0x92 f).segReg dataSelector } := { h with }
  simp only [Option.bind_eq_bind]
  rw [h.movDs, Option.bind_some, hds.movEs, Option.bind_some, hes.movSs, Option.bind_some]
  rfl

theorem Protection.Flat.reloaded (h : s.Flat f) : (s.reloaded f).Flat f := { h with }

end Flat

/-! ## The table -/

/-- Byte 6 of the entries of a part's table. -/
def Mode.flags : Mode → Byte
  | .i8086 => 0
  | .i286 => 0
  | .i386x16 => 0x8F
  | .i386x32 => 0xCF
  | .x64 => 0xAF

/-- An entry that is as the part has written it but for its base; the 286 part has none above
16 MB. -/
structure Descriptor.Fills (d : Descriptor) (a f : Byte) : Prop where
  access : d.access = a
  flags : d.flags = f
  baseHigh : f = 0 → d.baseHigh = 0

/-- The table of a part in protected mode, and CS loaded from it. -/
structure Protection.Tables (mode : Mode) (s : Protection) : Prop where
  gdtr : s.gdtr = true
  code : s.code = gdtEntry 0x9A mode.flags
  data : s.data = gdtEntry 0x92 mode.flags
  cs : s.cs = s.code.segReg codeSelector
  segments : mode = .i286 ∨ mode = .i386x16 →
    s.access.Fills 0x92 mode.flags ∧ s.userCode.Fills 0x9A mode.flags

/-- The processor under a part, between two main loops: all it relies on but the base of ES. -/
structure Protection.Ready (mode : Mode) (s : Protection) : Prop where
  pe : s.pe = decide (mode ≠ .i8086)
  ia32e : s.ia32e = decide (mode = .x64)
  cs : s.cs.base = 0 ∧ mode.reach ≤ s.cs.last
  big : s.cs.big = decide (mode = .i386x32)
  long : s.cs.long = decide (mode = .x64)
  ds : s.ds.base = 0 ∧ mode.reach ≤ s.ds.last
  es : mode.reach ≤ s.es.last ∧ (mode = .x64 → s.es.base = 0)
  ss : mode.reach ≤ s.ss.last ∧ s.ss.big = decide (mode = .i386x32 ∨ mode = .x64)
  idtr : s.idtr = Protection.realIdtr
  idtrRealmode : s.idtrRealmode = Protection.realIdtr
  selector : mode = .i8086 → s.cs.selector = 0
  tables : mode ≠ .i8086 → s.Tables mode

/-- The processor at a main loop. -/
def Protection.AtLoop (mode : Mode) (s : Protection) : Prop := s.Ready mode ∧ s.Fits mode

theorem Protection.Boots.atLoop {s : Protection} (h : s.Boots) : s.AtLoop .i8086 :=
  ⟨{ pe := h.pe, ia32e := h.ia32e, cs := h.cs, big := h.big, long := h.long, ds := h.ds
     es := ⟨h.es.2, nofun⟩, ss := h.ss, idtr := h.idtr, idtrRealmode := h.idtrRealmode
     selector := fun _ => h.selector, tables := absurd rfl }, h.toFits⟩

section Ready

variable {mode : Mode} {s : Protection}

/-- The main loop takes ES back. -/
theorem Protection.Ready.mainLoop (h : s.Ready mode) :
    ∃ t, s.mainLoop mode = some t ∧ t.AtLoop mode := by
  have hready : s.cli.Ready mode :=
    { h with tables := fun hmode => { h.tables hmode with } }
  have hes : ∀ r : SegReg, r.base = 0 → mode.reach ≤ r.last →
      Protection.AtLoop mode { s.cli with es := r } := fun r hbase hlast =>
    ⟨{ hready with es := ⟨hlast, fun _ => hbase⟩
                   tables := fun hmode => { hready.tables hmode with } },
      { h with es := ⟨hbase, hlast⟩, interrupts := rfl }⟩
  have hprotected : mode ≠ .i8086 → ∃ t, s.cli.movEs dataSelector = some t ∧ t.AtLoop mode := by
    intro hmode
    have htables := h.tables hmode
    have hd : s.cli.descriptor dataSelector = some (gdtEntry 0x92 mode.flags) := by
      rw [Protection.descriptor, show s.cli.gdtr = true from htables.gdtr]
      exact congrArg some htables.data
    have hload := @load_protected s.cli Descriptor.isReadable s.es dataSelector _
      (h.pe.trans (decide_eq_true hmode)) hd (by cases mode <;> rfl)
    refine ⟨_, congrArg (Option.map _) hload, hes _ (by cases mode <;> rfl) ?_⟩
    cases mode <;> decide
  cases mode with
  | i8086 =>
    have hload := @load_real s.cli Descriptor.isReadable s.es s.cs.selector h.pe
    refine ⟨_, congrArg (Option.map _) hload, hes _ ?_ h.es.1⟩
    rw [h.selector rfl]
    rfl
  | x64 => exact ⟨_, rfl, hes s.es (h.es.2 rfl) h.es.1⟩
  | i286 => exact hprotected nofun
  | i386x16 => exact hprotected nofun
  | i386x32 => exact hprotected nofun

end Ready

/-! ## Back to real mode -/

/-- Segments real mode can go on with. -/
structure Protection.Sixteen (s : Protection) : Prop where
  cs : 0xFFFF ≤ s.cs.last ∧ s.cs.big = false ∧ s.cs.long = false
  ds : 0xFFFF ≤ s.ds.last
  es : 0xFFFF ≤ s.es.last
  ss : 0xFFFF ≤ s.ss.last ∧ s.ss.big = false

section Back

variable {s : Protection}

/-- The 8086 part, entered in a segment at address 0. -/
theorem Protection.Ready.jmp8086 (h : s.Ready .i8086) :
    ∃ t, s.jmp8086 = some t ∧ t.AtLoop .i8086 := by
  obtain ⟨code, data, access, userCode, gdtr, idtr, idtrRealmode, pe, ia32e, interrupts, cs, ds, es,
    ss⟩ := s
  obtain ⟨selector, base, last, access', big, long⟩ := cs
  obtain ⟨hpe, hia32e, hcs, hbig, hlong, hds, hes, hss, hidtr, hidtrRealmode, hselector, -⟩ := h
  obtain rfl : pe = false := hpe
  obtain rfl : idtr = Protection.realIdtr := hidtr
  obtain rfl : selector = 0 := hselector rfl
  refine @Protection.Ready.mainLoop .i8086 ⟨code, data, access, userCode, gdtr, Protection.realIdtr,
    idtrRealmode, false, ia32e, true, ⟨0, base, last, access', big, long⟩, ds.loadReal 0, es,
    ss.loadReal 0⟩ ?_
  exact { pe := rfl, ia32e := hia32e, cs := hcs, big := hbig, long := hlong, ds := ⟨rfl, hds.2⟩
          es := hes, ss := hss, idtr := rfl, idtrRealmode := hidtrRealmode, selector := fun _ => rfl
          tables := absurd rfl }

theorem Protection.Sixteen.realmode (h : s.Sixteen) (hpe : s.pe = false) (hia32e : s.ia32e = false)
    (hidtr : s.idtr = Protection.realIdtr) (hidtrRealmode : s.idtrRealmode = Protection.realIdtr) :
    ∃ t, s.realmode = some t ∧ t.AtLoop .i8086 := by
  obtain ⟨code, data, access, userCode, gdtr, idtr, idtrRealmode, pe, ia32e, interrupts, cs, ds, es,
    ss⟩ := s
  subst hpe hia32e hidtr hidtrRealmode
  refine @Protection.Ready.jmp8086 ⟨code, data, access, userCode, gdtr, Protection.realIdtr,
    Protection.realIdtr, false, false, interrupts, cs.loadReal 0, ds.loadReal 0, es.loadReal 0,
    ss.loadReal 0⟩ ?_
  exact { pe := rfl, ia32e := rfl, cs := ⟨rfl, h.cs.1⟩, big := h.cs.2.1, long := h.cs.2.2
          ds := ⟨rfl, h.ds⟩, es := ⟨h.es, nofun⟩, ss := h.ss, idtr := rfl, idtrRealmode := rfl
          selector := fun _ => rfl, tables := absurd rfl }

theorem Protection.Sixteen.leave386x16 (h : s.Sixteen)
    (hidtr : s.idtrRealmode = Protection.realIdtr) :
    ∃ t, s.leave386x16 = some t ∧ t.AtLoop .i8086 := by
  obtain ⟨code, data, access, userCode, gdtr, idtr, idtrRealmode, pe, ia32e, interrupts, cs, ds, es,
    ss⟩ := s
  obtain ⟨selector, base, last, access', big, long⟩ := cs
  obtain ⟨hlast, rfl, rfl⟩ := h.cs
  subst hidtr
  have hreal : Protection.leave386x16 ⟨code, data, access, userCode, gdtr, idtr,
      Protection.realIdtr, pe, ia32e, interrupts, ⟨selector, base, last, access', false, false⟩, ds,
      es, ss⟩ = Protection.realmode ⟨code, data, access, userCode, false, Protection.realIdtr,
      Protection.realIdtr, false, false, interrupts, ⟨0, 0, last, access', false, false⟩, ds, es,
      ss⟩ := by
    cases ia32e <;> rfl
  rw [hreal]
  exact Protection.Sixteen.realmode ⟨⟨hlast, rfl, rfl⟩, h.ds, h.es, h.ss⟩ rfl rfl rfl rfl

end Back

section Commands

variable {mode : Mode} {s : Protection}

/-- A 32-bit part makes its descriptors 16-bit ones, and loads them, before it leaves. -/
theorem Protection.Tables.leave32 (h : s.Tables mode) (hpe : s.pe = true)
    (hidtr : s.idtrRealmode = Protection.realIdtr) :
    ∃ t, s.leave32 = some t ∧ t.AtLoop .i8086 := by
  have hflat : Protection.Flat 0x8F (s.setFlags 0x8F) :=
    { pe := hpe
      gdtr := h.gdtr
      code := congrArg (fun d => { d with flags := 0x8F }) h.code
      data := congrArg (fun d => { d with flags := 0x8F }) h.data }
  have hdata : 0xFFFF ≤ ((gdtEntry 0x92 0x8F).segReg dataSelector).last := by decide
  have hcode : 0xFFFF ≤ ((gdtEntry 0x9A 0x8F).segReg codeSelector).last := by decide
  rw [Protection.leave32, hflat.reload, hflat.reloaded.far rfl, Option.bind_eq_bind,
    Option.bind_some]
  exact Protection.Sixteen.leave386x16 ⟨⟨hcode, rfl, rfl⟩, hdata, hdata, hdata, rfl⟩ hidtr

theorem Protection.Ready.command8086 (h : s.Ready mode) :
    ∃ t, s.command8086 mode = some t ∧ t.AtLoop .i8086 := by
  have hsixteen : mode.reach = 0xFFFF → s.cs.big = false → s.cs.long = false → s.ss.big = false →
      s.Sixteen := fun hreach hbig hlong hss => by
    have hcs := h.cs.2
    have hds := h.ds.2
    have hes := h.es.1
    have hss' := h.ss.1
    rw [hreach] at hcs hds hes hss'
    exact ⟨⟨hcs, hbig, hlong⟩, hds, hes, hss', hss⟩
  cases mode with
  | i8086 => exact h.jmp8086
  | i286 =>
    have hs := hsixteen rfl h.big h.long h.ss.2
    have hreal : s.leave286 = Protection.realmode { s with gdtr := false, idtr := s.idtrRealmode
                                                           pe := false, ia32e := false } := by
      rw [Protection.leave286, Protection.realMode, show s.ia32e = false from h.ia32e]
      rfl
    rw [Protection.command8086, hreal]
    exact Protection.Sixteen.realmode { hs with } rfl rfl h.idtrRealmode h.idtrRealmode
  | i386x16 => exact (hsixteen rfl h.big h.long h.ss.2).leave386x16 h.idtrRealmode
  | i386x32 => exact (h.tables Mode.noConfusion).leave32 h.pe h.idtrRealmode
  | x64 => exact (h.tables Mode.noConfusion).leave32 h.pe h.idtrRealmode

end Commands

/-! ## Into protected mode -/

section Into

variable {mode : Mode} {s : Protection}

/-- The segments of a table that is fresh. -/
theorem flags_fit (hmode : mode ≠ .i8086) :
    (gdtEntry 0x9A mode.flags).isCode = true ∧ mode.reach ≤ (gdtEntry 0x9A mode.flags).last ∧
      mode.reach ≤ (gdtEntry 0x92 mode.flags).last := by
  cases mode with
  | i8086 => exact absurd rfl hmode
  | i286 => decide
  | i386x16 => decide
  | i386x32 => decide
  | x64 => decide

/-- Protected mode is on, with a table that is fresh. -/
def Protection.switched (f : Byte) (s : Protection) : Protection :=
  { s.genGdt f with gdtr := true, pe := true }

theorem Protection.switched_flat (f : Byte) (s : Protection) : (s.switched f).Flat f :=
  ⟨rfl, rfl, rfl, rfl⟩

theorem Protection.protect_genGdt (hmode : mode ≠ .i8086) (hx64 : mode ≠ .x64)
    (hia32e : s.ia32e = false) (hidtr : s.idtr = Protection.realIdtr)
    (hidtrRealmode : s.idtrRealmode = Protection.realIdtr) :
    ∃ t, (s.genGdt mode.flags).protect mode = some t ∧ t.AtLoop mode := by
  obtain ⟨hcode, hlast, hdata⟩ := flags_fit hmode
  have hflat := s.switched_flat mode.flags
  have hprotect : (s.genGdt mode.flags).protect mode = Protection.mainLoop mode
      (((s.switched mode.flags).inCode mode.flags).reloaded mode.flags) := by
    rw [← hflat.inCode.reload (Protection.mainLoop mode)]
    exact congrArg (Option.bind · _) (hflat.far hcode)
  rw [hprotect]
  refine Protection.Ready.mainLoop ?_
  exact { pe := (decide_eq_true hmode).symm, ia32e := hia32e.trans (decide_eq_false hx64).symm
          cs := ⟨by cases mode <;> rfl, hlast⟩, big := by cases mode <;> trivial
          long := by cases mode <;> trivial, ds := ⟨by cases mode <;> rfl, hdata⟩
          es := ⟨hdata, fun h => absurd h hx64⟩, ss := ⟨hdata, by cases mode <;> trivial⟩
          idtr := hidtr, idtrRealmode := hidtrRealmode, selector := fun h => absurd h hmode
          tables := fun _ => ⟨rfl, rfl, rfl, rfl, fun _ => ⟨⟨rfl, rfl, fun _ => rfl⟩,
            ⟨rfl, rfl, fun _ => rfl⟩⟩⟩ }

/-- What the 16-bit parts of `_jmp_286` and the like begin with. -/
theorem load_stack {α : Type} (hpe : s.pe = false) (k : Protection → Option α) :
    (do
      let s ← s.cli.movDs s.cs.selector
      let s ← s.movSs s.cs.selector
      k s) = k { s.cli with ds := s.ds.loadReal s.cs.selector
                            ss := s.ss.loadReal s.cs.selector } := by
  obtain ⟨code, data, access, userCode, gdtr, idtr, idtrRealmode, pe, ia32e, interrupts, cs, ds, es,
    ss⟩ := s
  subst hpe
  rfl

theorem Protection.Ready.jmp286 (h : s.Ready .i8086) : ∃ t, s.jmp286 = some t ∧ t.AtLoop .i286 := by
  rw [Protection.jmp286, load_stack h.pe]
  exact Protection.protect_genGdt Mode.noConfusion Mode.noConfusion h.ia32e h.idtr h.idtrRealmode

theorem Protection.Ready.jmp386x16 (h : s.Ready .i8086) :
    ∃ t, s.jmp386x16 = some t ∧ t.AtLoop .i386x16 := by
  rw [Protection.jmp386x16, load_stack h.pe]
  exact Protection.protect_genGdt Mode.noConfusion Mode.noConfusion h.ia32e h.idtr h.idtrRealmode

theorem Protection.Ready.jmp386x32 (h : s.Ready .i8086) :
    ∃ t, s.jmp386x32 = some t ∧ t.AtLoop .i386x32 := by
  rw [Protection.jmp386x32, load_stack h.pe]
  exact Protection.protect_genGdt Mode.noConfusion Mode.noConfusion h.ia32e h.idtr h.idtrRealmode

/-- CS is loaded twice: with 32-bit code, and with 64-bit code once paging is on. -/
theorem Protection.Ready.jmpX64 (h : s.Ready .i8086) : ∃ t, s.jmpX64 = some t ∧ t.AtLoop .x64 := by
  let u : Protection := { s.cli.genGdt32 with
    ds := s.ds.loadReal s.cs.selector, es := s.es.loadReal s.cs.selector
    ss := s.ss.loadReal s.cs.selector, idtrRealmode := s.idtr, gdtr := true, pe := true }
  let v : Protection := (u.inCode 0xCF).reloaded 0xCF
  let w : Protection := { v.setFlags 0xAF with ia32e := true }
  have hu : u.Flat 0xCF := ⟨rfl, rfl, rfl, rfl⟩
  have hw : w.Flat 0xAF := ⟨rfl, rfl, rfl, rfl⟩
  have hlong : (v.setFlags 0xAF).longMode = some w := rfl
  have hreal : s.jmpX64 = (u.far codeSelector).bind (fun s => do
      let s ← s.movDs dataSelector
      let s ← s.movEs dataSelector
      let s ← s.movSs dataSelector
      let s ← (s.setFlags 0xAF).longMode
      let s ← s.far codeSelector
      s.mainLoop .x64) := by
    have hpe := h.pe
    obtain ⟨code, data, access, userCode, gdtr, idtr, idtrRealmode, pe, ia32e, interrupts, cs, ds,
      es, ss⟩ := s
    obtain rfl : pe = false := hpe
    rfl
  rw [hreal, hu.far rfl, Option.bind_some, hu.inCode.reload,
    show (u.inCode 0xCF).reloaded 0xCF = v from rfl, hlong, Option.bind_eq_bind, Option.bind_some,
    hw.far rfl, Option.bind_some]
  have hdata : Mode.x64.reach ≤ ((gdtEntry 0x92 0xCF).segReg dataSelector).last := by decide
  refine Protection.Ready.mainLoop ?_
  exact { pe := rfl, ia32e := rfl, cs := ⟨rfl, (flags_fit Mode.noConfusion).2.1⟩, big := rfl
          long := rfl, ds := ⟨rfl, hdata⟩, es := ⟨hdata, fun _ => rfl⟩
          ss := ⟨hdata, rfl⟩, idtr := h.idtr, idtrRealmode := h.idtr
          selector := Mode.noConfusion, tables := fun _ => ⟨rfl, rfl, rfl, rfl, nofun⟩ }

theorem Protection.Ready.jump (h : s.Ready mode) (hasX64 : Bool) (target : Mode) :
    ∃ t, s.jump hasX64 mode target = some ((PartCommand.jump target).part hasX64 mode, t) ∧
      t.AtLoop ((PartCommand.jump target).part hasX64 mode) := by
  by_cases hmode : mode = .i8086
  · subst hmode
    cases target with
    | i8086 =>
      obtain ⟨t, ht, hloop⟩ := h.jmp8086
      exact ⟨t, congrArg (Option.map _) ht, hloop⟩
    | i286 =>
      obtain ⟨t, ht, hloop⟩ := h.jmp286
      exact ⟨t, congrArg (Option.map _) ht, hloop⟩
    | i386x16 =>
      obtain ⟨t, ht, hloop⟩ := h.jmp386x16
      exact ⟨t, congrArg (Option.map _) ht, hloop⟩
    | i386x32 =>
      obtain ⟨t, ht, hloop⟩ := h.jmp386x32
      exact ⟨t, congrArg (Option.map _) ht, hloop⟩
    | x64 =>
      cases hasX64 with
      | false =>
        obtain ⟨t, ht, hloop⟩ := h.jmp8086
        exact ⟨t, congrArg (Option.map _) ht, hloop⟩
      | true =>
        obtain ⟨t, ht, hloop⟩ := h.jmpX64
        exact ⟨t, congrArg (Option.map _) ht, hloop⟩
  · rw [Protection.jump, if_neg hmode]
    by_cases htarget : target = .i8086
    · subst htarget
      obtain ⟨t, ht, hloop⟩ := h.command8086
      have hpart : (PartCommand.jump .i8086).part hasX64 mode = .i8086 := by
        simp [PartCommand.part]
      rw [hpart, if_pos rfl, ht]
      exact ⟨t, rfl, hloop⟩
    · obtain ⟨t, ht, hloop⟩ := h.mainLoop
      have hpart : (PartCommand.jump target).part hasX64 mode = mode := by
        simp [PartCommand.part, hmode, htarget]
      rw [hpart, if_neg htarget, ht]
      exact ⟨t, rfl, hloop⟩

end Into

/-! ## Transfers -/

/-- ES is at the segment a pointer names, where the pointer has one. -/
def Protection.Points (mode : Mode) (p : Pointer) (s : Protection) : Prop :=
  match p with
  | .real es _ => mode = .i8086 ∧ s.es.selector = es ∧ s.es.base = es.setWidth 32 <<< 4
  | .acc286 d _ => mode = .i286 ∧ s.access = d ∧ s.es = d.segReg accessSelector
  | .acc386 d _ => mode = .i386x16 ∧ s.access = d ∧ s.es = d.segReg accessSelector
  | .flat32 _ => mode = .i386x32
  | .flat64 _ => mode = .x64

/-- The last byte of an entry whose limit has been written again. -/
theorem Descriptor.Fills.last {d : Descriptor} {a f : Byte} (hd : d.Fills a f)
    (hlimit : d.limit = 0xFFFF) : d.last = (gdtEntry a f).last := by
  rw [Descriptor.last, Descriptor.last, hlimit, hd.flags]
  rfl

theorem Descriptor.Fills.big {d : Descriptor} {a f : Byte} (hd : d.Fills a f) :
    d.big = f.getLsbD 6 := congrArg (BitVec.getLsbD · 6) hd.flags

theorem Descriptor.Fills.long {d : Descriptor} {a f : Byte} (hd : d.Fills a f) :
    d.long = f.getLsbD 5 := congrArg (BitVec.getLsbD · 5) hd.flags

section Transfers

variable {mode : Mode} {s : Protection}

theorem Protection.Ready.movEs_real (h : s.Ready .i8086) (selector : BitVec 16) :
    ∃ t, s.movEs selector = some t ∧ t.Ready .i8086 ∧ t.es.selector = selector ∧
      t.es.base = selector.setWidth 32 <<< 4 := by
  refine ⟨{ s with es := s.es.loadReal selector }, ?_, ?_, rfl, rfl⟩
  · rw [Protection.movEs, load_real h.pe]
    rfl
  · exact { h with es := ⟨h.es.1, nofun⟩, tables := absurd rfl }

/-- The access entry is written again and loaded. -/
theorem Protection.Ready.movEs_access (h : s.Ready mode) (hmode : mode = .i286 ∨ mode = .i386x16)
    {d : Descriptor} (hd : d.Fills 0x92 mode.flags) (hlimit : d.limit = 0xFFFF) :
    ∃ t, movEs accessSelector { s with access := d } = some t ∧ t.Ready mode ∧ t.access = d ∧
      t.es = d.segReg accessSelector := by
  have hreal : mode ≠ .i8086 := by rcases hmode with rfl | rfl <;> exact Mode.noConfusion
  have hx64 : mode ≠ .x64 := by rcases hmode with rfl | rfl <;> exact Mode.noConfusion
  have htables := h.tables hreal
  have hok : d.isReadable = true := by
    rw [Descriptor.isReadable, hd.access]
    decide
  refine ⟨{ s with access := d, es := d.segReg accessSelector }, ?_, ?_, rfl, rfl⟩
  · have hdescriptor : Protection.descriptor { s with access := d } accessSelector = some d := by
      rw [Protection.descriptor, show ({ s with access := d } : Protection).gdtr = true from
        htables.gdtr]
      rfl
    rw [Protection.movEs, @load_protected { s with access := d } _ _ _ _
      (h.pe.trans (decide_eq_true hreal)) hdescriptor hok]
    rfl
  · have hlast : mode.reach ≤ d.last := hd.last hlimit ▸ (flags_fit hreal).2.2
    exact { h with es := ⟨hlast, fun hmode' => absurd hmode' hx64⟩
                   tables := fun _ => { htables with
                     segments := fun hmode' => ⟨hd, (htables.segments hmode').2⟩ } }

theorem Protection.Ready.pointTo (h : s.Ready mode) (dx ax : BitVec 16) :
    ∃ t, s.pointTo mode dx ax = some t ∧ t.Ready mode ∧ t.Points mode (mode.pointTo dx ax) := by
  cases mode with
  | i8086 =>
    obtain ⟨t, ht, hready, hselector, hbase⟩ := h.movEs_real ((dx <<< 12) ||| (ax >>> 4))
    exact ⟨t, ht, hready, rfl, hselector, hbase⟩
  | i286 =>
    obtain ⟨haccess, hflags, hhigh⟩ := ((h.tables Mode.noConfusion).segments (.inl rfl)).1
    have hfresh : dxAxPhysTo286seg s.access dx ax = dxAxPhysTo286seg accessSelector286 dx ax := by
      rw [dxAxPhysTo286seg, haccess, hflags, hhigh rfl]
      rfl
    obtain ⟨t, ht, hready, hd, hes⟩ := @Protection.Ready.movEs_access .i286 s h (.inl rfl)
      (dxAxPhysTo286seg accessSelector286 dx ax) ⟨rfl, rfl, fun _ => rfl⟩ rfl
    refine ⟨t, ?_, hready, rfl, hd, hes⟩
    rw [Protection.pointTo, hfresh]
    exact ht
  | i386x16 =>
    obtain ⟨haccess, hflags, -⟩ := ((h.tables Mode.noConfusion).segments (.inr rfl)).1
    have hfresh : dxAxPhysTo386seg s.access dx ax = dxAxPhysTo386seg accessSelector386 dx ax := by
      rw [dxAxPhysTo386seg, haccess, hflags]
      rfl
    obtain ⟨t, ht, hready, hd, hes⟩ := @Protection.Ready.movEs_access .i386x16 s h (.inr rfl)
      (dxAxPhysTo386seg accessSelector386 dx ax) ⟨rfl, rfl, fun h => absurd h (by decide)⟩ rfl
    refine ⟨t, ?_, hready, rfl, hd, hes⟩
    rw [Protection.pointTo, hfresh]
    exact ht
  | i386x32 => exact ⟨s, rfl, h, rfl⟩
  | x64 => exact ⟨s, rfl, h, rfl⟩

theorem Protection.Ready.bump (h : s.Ready mode) {p : Pointer} (hp : s.Points mode p) :
    ∃ t, s.bump mode = some t ∧ t.Ready mode ∧ t.Points mode (p.next true) := by
  cases p with
  | real es bx =>
    obtain ⟨rfl, rfl, -⟩ := hp
    obtain ⟨t, ht, hready, hselector, hbase⟩ := h.movEs_real (s.es.selector + 0x1000)
    exact ⟨t, ht, hready, rfl, hselector, hbase⟩
  | acc286 d bx =>
    obtain ⟨rfl, rfl, -⟩ := hp
    obtain ⟨haccess, hflags, hhigh⟩ := ((h.tables Mode.noConfusion).segments (.inl rfl)).1
    obtain ⟨t, ht, hready, hd, hes⟩ := @Protection.Ready.movEs_access .i286 s h (.inl rfl)
      (acc286_64kBump s.access) ⟨haccess, hflags, hhigh⟩ rfl
    exact ⟨t, ht, hready, rfl, hd, hes⟩
  | acc386 d bx =>
    obtain ⟨rfl, rfl, -⟩ := hp
    obtain ⟨haccess, hflags, -⟩ := ((h.tables Mode.noConfusion).segments (.inr rfl)).1
    obtain ⟨t, ht, hready, hd, hes⟩ := @Protection.Ready.movEs_access .i386x16 s h (.inr rfl)
      (acc386_64kBump s.access) ⟨haccess, hflags, fun h => absurd h (by decide)⟩ rfl
    exact ⟨t, ht, hready, rfl, hd, hes⟩
  | flat32 ebx =>
    obtain rfl := hp
    exact ⟨s, rfl, h, rfl⟩
  | flat64 rbx =>
    obtain rfl := hp
    exact ⟨s, rfl, h, rfl⟩

theorem Protection.Ready.through (h : s.Ready mode) {p : Pointer} (hp : s.Points mode p) :
    (s.through mode).base = p.segmentBase ∧ mode.reach ≤ (s.through mode).last := by
  cases p with
  | real es bx =>
    obtain ⟨rfl, -, hbase⟩ := hp
    exact ⟨hbase, h.es.1⟩
  | acc286 d bx =>
    obtain ⟨rfl, -, hes⟩ := hp
    exact ⟨congrArg SegReg.base hes, h.es.1⟩
  | acc386 d bx =>
    obtain ⟨rfl, -, hes⟩ := hp
    exact ⟨congrArg SegReg.base hes, h.es.1⟩
  | flat32 ebx =>
    obtain rfl := hp
    exact h.ds
  | flat64 rbx =>
    obtain rfl := hp
    exact h.ds

theorem Protection.Ready.transfer (h : s.Ready mode) {p : Pointer} (hp : s.Points mode p) (n : ℕ) :
    ∃ t used, s.transfer mode n = some (t, used) ∧ t.Ready mode ∧
      used.map SegReg.base = p.bases n ∧ ∀ r ∈ used, mode.reach ≤ r.last := by
  obtain ⟨hbase, hlast⟩ := h.through hp
  induction n generalizing s p with
  | zero =>
    refine ⟨s, [s.through mode], rfl, h, ?_, ?_⟩
    · rw [List.map_singleton, hbase]
      rfl
    · intro r hr
      rwa [List.mem_singleton.mp hr]
  | succ n ih =>
    obtain ⟨u, hu, hready, hpoints⟩ := h.bump hp
    have hthrough := hready.through hpoints
    obtain ⟨t, used, ht, htready, hmap, hused⟩ := ih hready hpoints hthrough.1 hthrough.2
    refine ⟨t, s.through mode :: used, ?_, htready, ?_, ?_⟩
    · rw [Protection.transfer, hu, Option.bind_eq_bind, Option.bind_some, ht]
      rfl
    · rw [List.map_cons, hbase, hmap]
      rfl
    · intro r hr
      rcases List.mem_cons.mp hr with rfl | hr
      · exact hlast
      · exact hused r hr

end Transfers

/-! ## Code that is called -/

section Calls

variable {mode : Mode} {s : Protection}

theorem call_of_loads {selector : BitVec 16} {es cs back : SegReg}
    (hes : s.load Descriptor.isReadable s.es selector = some es)
    (hcs : s.load Descriptor.isCode s.cs selector = some cs)
    (hback : s.load Descriptor.isCode cs s.cs.selector = some back) :
    s.call selector = some ({ s with es := es, cs := back }, [cs]) := by
  have hfar : Protection.far selector { s with es := es } = some { s with es := es, cs := cs } :=
    congrArg (Option.map _) hcs
  have hreturn : Protection.far s.cs.selector { s with es := es, cs := cs } =
      some { s with es := es, cs := back } := congrArg (Option.map _) hback
  rw [Protection.call, Protection.movEs, hes, Option.map_some, Option.bind_eq_bind,
    Option.bind_some, hfar, Option.bind_some, hreturn]
  rfl

theorem Protection.Ready.call_real (h : s.Ready .i8086) (selector : BitVec 16) :
    ∃ t, s.call selector = some (t, [s.cs.loadReal selector]) ∧ t.Ready .i8086 := by
  refine ⟨_, call_of_loads (load_real h.pe) (load_real h.pe) (load_real h.pe), ?_⟩
  have hbase : ((s.cs.loadReal selector).loadReal s.cs.selector).base = 0 := by
    rw [SegReg.loadReal, h.selector rfl]
    rfl
  exact { h with cs := ⟨hbase, h.cs.2⟩, es := ⟨h.es.1, nofun⟩, tables := absurd rfl }

/-- The user code entry is written again and called, and the part's own code is what it returns
to. -/
theorem Protection.Ready.call_userCode (h : s.Ready mode) (hmode : mode = .i286 ∨ mode = .i386x16)
    {d : Descriptor} (hd : d.Fills 0x9A mode.flags) (hlimit : d.limit = 0xFFFF) :
    ∃ t, call userCodeSelector { s with userCode := d } = some (t, [d.segReg userCodeSelector]) ∧
      t.Ready mode := by
  have hreal : mode ≠ .i8086 := by rcases hmode with rfl | rfl <;> exact Mode.noConfusion
  have hx64 : mode ≠ .x64 := by rcases hmode with rfl | rfl <;> exact Mode.noConfusion
  have htables := h.tables hreal
  have hpe := h.pe.trans (decide_eq_true hreal)
  have hgdtr : ({ s with userCode := d } : Protection).gdtr = true := htables.gdtr
  have huser : Protection.descriptor { s with userCode := d } userCodeSelector = some d := by
    rw [Protection.descriptor, hgdtr]
    rfl
  have hself : Protection.descriptor { s with userCode := d } s.cs.selector = some s.code := by
    rw [htables.cs, Protection.descriptor, hgdtr]
    rfl
  have hreadable : d.isReadable = true := by
    rw [Descriptor.isReadable, hd.access]
    decide
  have hcode : d.isCode = true := by
    have hfresh : d.isCode = (gdtEntry 0x9A mode.flags).isCode := by
      rw [Descriptor.isCode, hd.access, hd.long, hd.big]
      rfl
    exact hfresh.trans (flags_fit hreal).1
  have hown : s.code.isCode = true := htables.code ▸ (flags_fit hreal).1
  have hcs : s.code.segReg s.cs.selector = s.cs := by
    rw [htables.cs]
    rfl
  refine ⟨_, @call_of_loads { s with userCode := d } _ _ _ _ (load_protected hpe huser hreadable)
    (load_protected hpe huser hcode) (load_protected hpe hself hown), ?_⟩
  have hlast : mode.reach ≤ d.last := by
    have hsame : (gdtEntry 0x9A mode.flags).last = (gdtEntry 0x92 mode.flags).last := rfl
    rw [hd.last hlimit, hsame]
    exact (flags_fit hreal).2.2
  rw [hcs]
  exact { h with es := ⟨hlast, fun hmode' => absurd hmode' hx64⟩
                 tables := fun _ => { htables with
                   segments := fun hmode' => ⟨(htables.segments hmode').1, hd⟩ } }

theorem Protection.Ready.exec (h : s.Ready mode) (dx ax : BitVec 16) :
    ∃ t used, s.exec mode dx ax = some (t, used) ∧ t.Ready mode ∧
      (PartCommand.exec dx ax).Uses mode used := by
  cases mode with
  | i8086 =>
    obtain ⟨t, ht, hready⟩ := h.call_real ax
    exact ⟨t, _, ht, hready, _, rfl, rfl, h.cs.2, h.big, h.long⟩
  | i286 =>
    obtain ⟨haccess, hflags, hhigh⟩ := ((h.tables Mode.noConfusion).segments (.inl rfl)).2
    have hfresh : dxAxPhysTo286seg s.userCode dx ax =
        dxAxPhysTo286seg { accessSelector286 with access := 0x9A } dx ax := by
      rw [dxAxPhysTo286seg, haccess, hflags, hhigh rfl]
      rfl
    have hd : Descriptor.Fills (dxAxPhysTo286seg { accessSelector286 with access := 0x9A } dx ax)
        0x9A Mode.i286.flags := ⟨rfl, rfl, fun _ => rfl⟩
    obtain ⟨t, ht, hready⟩ := @Protection.Ready.call_userCode .i286 s h (.inl rfl) _ hd rfl
    rw [← hfresh] at hd ht
    exact ⟨t, _, ht, hready, _, rfl, congrArg Descriptor.base hfresh,
      (flags_fit Mode.noConfusion).2.1.trans_eq (hd.last rfl).symm, hd.big, hd.long⟩
  | i386x16 =>
    obtain ⟨haccess, hflags, -⟩ := ((h.tables Mode.noConfusion).segments (.inr rfl)).2
    have hfresh : dxAxPhysTo386seg s.userCode dx ax =
        dxAxPhysTo386seg { accessSelector386 with access := 0x9A } dx ax := by
      rw [dxAxPhysTo386seg, haccess, hflags]
      rfl
    have hd : Descriptor.Fills (dxAxPhysTo386seg { accessSelector386 with access := 0x9A } dx ax)
        0x9A Mode.i386x16.flags := ⟨rfl, rfl, fun h => absurd h (by decide)⟩
    obtain ⟨t, ht, hready⟩ := @Protection.Ready.call_userCode .i386x16 s h (.inr rfl) _ hd rfl
    rw [← hfresh] at hd ht
    exact ⟨t, _, ht, hready, _, rfl, congrArg Descriptor.base hfresh,
      (flags_fit Mode.noConfusion).2.1.trans_eq (hd.last rfl).symm, hd.big, hd.long⟩
  | i386x32 => exact ⟨s, _, rfl, h, _, rfl, h.cs.1, h.cs.2, h.big, h.long⟩
  | x64 => exact ⟨s, _, rfl, h, _, rfl, h.cs.1, h.cs.2, h.big, h.long⟩

end Calls

/-! ## Runs of commands -/

section Runs

variable {mode : Mode} {s : Protection}

/-- One command. -/
theorem PartCommand.run_ready (h : s.Ready mode) (hasX64 : Bool) (c : PartCommand) :
    ∃ t used, c.run hasX64 mode s = some ((c.part hasX64 mode, t), used) ∧
      t.AtLoop (c.part hasX64 mode) ∧ c.Uses mode used := by
  cases c with
  | jump target =>
    obtain ⟨t, ht, hloop⟩ := h.jump hasX64 target
    exact ⟨t, [], congrArg (Option.map _) ht, hloop, rfl⟩
  | transfer dx ax bumps =>
    obtain ⟨u, hu, huready, hpoints⟩ := h.pointTo dx ax
    obtain ⟨v, used, hv, hvready, hused⟩ := huready.transfer hpoints bumps
    obtain ⟨t, ht, hloop⟩ := hvready.mainLoop
    refine ⟨t, used, ?_, hloop, hused⟩
    rw [PartCommand.run, hu, Option.bind_eq_bind, Option.bind_some, hv, Option.bind_eq_bind,
      Option.bind_some, ht]
    rfl
  | exec dx ax =>
    obtain ⟨v, used, hv, hvready, hused⟩ := h.exec dx ax
    obtain ⟨t, ht, hloop⟩ := hvready.mainLoop
    refine ⟨t, used, ?_, hloop, hused⟩
    rw [PartCommand.run, hv, Option.bind_eq_bind, Option.bind_some, ht]
    rfl
  | other =>
    obtain ⟨t, ht, hloop⟩ := h.mainLoop
    exact ⟨t, [], congrArg (Option.map _) ht, hloop, rfl⟩

theorem runAll_atLoop (h : s.AtLoop mode) (hasX64 : Bool) (cmds : List PartCommand) :
    ∃ used t, Protection.runAll hasX64 cmds (mode, s) =
        some (used, cmds.foldl (fun m c => c.part hasX64 m) mode, t) ∧
      t.AtLoop (cmds.foldl (fun m c => c.part hasX64 m) mode) ∧
      used.map (fun u => u.2.1) = cmds ∧ ∀ u ∈ used, u.2.1.Uses u.1 u.2.2 := by
  induction cmds generalizing mode s with
  | nil => exact ⟨[], s, rfl, h, rfl, fun u hu => absurd hu List.not_mem_nil⟩
  | cons c cmds ih =>
    obtain ⟨t, used, ht, hloop, hused⟩ := PartCommand.run_ready h.1 hasX64 c
    obtain ⟨rest, u, hu, huloop, hmap, hrest⟩ := ih hloop
    refine ⟨(mode, c, used) :: rest, u, ?_, huloop, congrArg (c :: ·) hmap, ?_⟩
    · rw [Protection.runAll, ht, Option.bind_eq_bind, Option.bind_some, hu]
      rfl
    · intro v hv
      rcases List.mem_cons.mp hv with rfl | hv
      · exact hused
      · exact hrest v hv

/-- Whatever commands stage 2 is given, no load of a segment or control register faults, every part
finds the processor as it needs it, and segments are based where its pointer is, as long as what EXEC
runs leaves processor and table as they were. -/
theorem parts_run_protected (hasX64 : Bool) (h : s.Boots) (cmds : List PartCommand) :
    ∃ used t, Protection.runAll hasX64 cmds (.i8086, s) =
        some (used, cmds.foldl (fun m c => c.part hasX64 m) .i8086, t) ∧
      t.Fits (cmds.foldl (fun m c => c.part hasX64 m) .i8086) ∧
      used.map (fun u => u.2.1) = cmds ∧ ∀ u ∈ used, u.2.1.Uses u.1 u.2.2 := by
  obtain ⟨used, t, ht, hloop, hused⟩ := runAll_atLoop h.atLoop hasX64 cmds
  exact ⟨used, t, ht, hloop.2, hused⟩

/-- What a BIOS may have left. -/
def Protection.booted : Protection where
  code := gdtEntry 0 0
  data := gdtEntry 0 0
  access := gdtEntry 0 0
  userCode := gdtEntry 0 0
  gdtr := false
  idtr := realIdtr
  idtrRealmode := realIdtr
  pe := false
  ia32e := false
  interrupts := false
  cs := ⟨0, 0, 0xFFFF, 0x93, false, false⟩
  ds := ⟨0, 0, 0xFFFF, 0x93, false, false⟩
  es := ⟨0, 0, 0xFFFF, 0x93, false, false⟩
  ss := ⟨0, 0, 0xFFFF, 0x93, false, false⟩

theorem parts_run_protected_286 :
    Protection.booted.Boots ∧
      ∃ used t, Protection.runAll true [.jump .i286, .transfer 0x12 0x3456 1, .jump .i8086]
          (.i8086, Protection.booted) = some (used, .i8086, t) ∧ t.Fits .i8086 := by
  have hboots : Protection.booted.Boots :=
    { pe := rfl, ia32e := rfl, cs := by decide, big := rfl, long := rfl, ds := by decide
      es := by decide, ss := by decide, interrupts := rfl, idtr := rfl, selector := rfl
      idtrRealmode := rfl }
  obtain ⟨used, t, ht, hfits, -⟩ := parts_run_protected true hboots
    [.jump .i286, .transfer 0x12 0x3456 1, .jump .i8086]
  exact ⟨hboots, used, t, ht, hfits⟩

end Runs

/-! ## The serial debugger's own model -/

/-- A part is left and entered as the commands of the line say. -/
theorem part_understood (m : Stage2) {now target : Mode} (h : Stage2.Understands now target) :
    (PartCommand.jump target).part m.hasX64 now = m.switches target := by
  refine (if_pos h).trans ?_
  unfold Stage2.switches
  cases target with
  | x64 => cases m.hasX64 <;> rfl
  | i8086 => rfl
  | i286 => rfl
  | i386x16 => rfl
  | i386x32 => rfl

theorem part_unknown (m : Stage2) {now target : Mode} (h : ¬ Stage2.Understands now target) :
    (PartCommand.jump target).part m.hasX64 now = now := if_neg h

theorem bases_flat {p : Pointer} (hp : p.flat = true) (n : ℕ) :
    p.bases n = List.replicate (n + 1) 0 := by
  induction n generalizing p with
  | zero => cases p <;> trivial
  | succ n ih =>
    have hnext : (p.next true).flat = true := by cases p <;> trivial
    have hbase : p.segmentBase = 0 := by cases p <;> trivial
    rw [Pointer.bases, ih hnext, hbase]
    rfl

/-- The address of a command is DX:AX, or an offset of its own in a flat segment. -/
theorem address_bases {mode : Mode} {si : List Byte} {p : Pointer}
    (hp : (mode.address si).1 = some p) :
    ∃ dx ax, ∀ n, p.bases n = (mode.pointTo dx ax).bases n := by
  cases mode with
  | i8086 =>
    simp only [Mode.address, Option.ite_none_right_eq_some, Option.some.injEq] at hp
    exact ⟨_, _, fun n => congrArg (Pointer.bases n) hp.2.symm⟩
  | i286 =>
    simp only [Mode.address, Option.ite_none_right_eq_some, Option.some.injEq] at hp
    exact ⟨_, _, fun n => congrArg (Pointer.bases n) hp.2.symm⟩
  | i386x16 => exact ⟨_, _, fun n => congrArg (Pointer.bases n) (Option.some.inj hp).symm⟩
  | i386x32 =>
    obtain rfl := Option.some.inj hp
    exact ⟨0, 0, fun n => by rw [bases_flat rfl, bases_flat rfl]⟩
  | x64 =>
    obtain rfl := Option.some.inj hp
    exact ⟨0, 0, fun n => by rw [bases_flat rfl, bases_flat rfl]⟩

end RemoteX86
