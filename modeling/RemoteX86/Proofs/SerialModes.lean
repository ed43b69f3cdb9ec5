import RemoteX86.SerialHost
import RemoteX86.Proofs.Serial

/-!
# Host and device on the CPU mode

Only the 8086 part knows the other modes, and every part knows the way back.  The stub of the x64
part answers with the mode it has stayed in, which the host takes for success.
-/

namespace RemoteX86

open Hex Memory

namespace Stage2

variable (m : Stage2)

/-! ## The device -/

/-- Where the command for a mode leads from real mode. -/
def switches : Mode → Mode
  | .x64 => if m.hasX64 then .x64 else .i8086
  | mode => mode

/-- The part understands the command for `mode`. -/
def Understands (now mode : Mode) : Prop := now = .i8086 ∨ mode = .i8086

section Dispatch

variable {s : Serial} {mode : Mode} {buf q : List Byte}
  (h : m.inBuf buf = mode.command ++ 0#8 :: q)

include h

theorem mainLoopCommand_switch (hto : Understands s.mode mode) :
    ∃ mem, m.mainLoopCommand s buf
      = { s with mode := m.switches mode, mem := mem }.responseOutput (m.switches mode).command := by
  rcases mode with - | - | - | - | -
  · rw [m.mainLoopCommand_8086 s h]
    exact ⟨_, rfl⟩
  all_goals
    have hnow : s.mode = .i8086 := hto.resolve_right (by simp)
    refine ⟨s.mem, ?_⟩
  · rw [m.mainLoopCommand_286 s h, if_pos hnow]
    rfl
  · rw [m.mainLoopCommand_386_16 s h, if_pos hnow]
    rfl
  · rw [m.mainLoopCommand_386_32 s h, if_pos hnow]
    rfl
  · rw [m.mainLoopCommand_x64 s h, if_pos hnow]
    unfold jmpX64 switches
    cases m.hasX64 <;> rfl

theorem mainLoopCommand_unknown (hto : ¬ Understands s.mode mode) :
    m.mainLoopCommand s buf = s.responseOutputErr (ascii "Unknown command") := by
  obtain ⟨hnow, hmode⟩ := not_or.1 hto
  rcases mode with - | - | - | - | -
  · exact absurd rfl hmode
  · rw [m.mainLoopCommand_286 s h, if_neg hnow]
  · rw [m.mainLoopCommand_386_16 s h, if_neg hnow]
  · rw [m.mainLoopCommand_386_32 s h, if_neg hnow]
  · rw [m.mainLoopCommand_x64 s h, if_neg hnow]

end Dispatch

theorem feedAll_mode {s : Serial} (hs : s.ctl = .line []) (mode : Mode) :
    ∃ buf q, m.inBuf buf = mode.command ++ 0#8 :: q
      ∧ m.feedAll s (remoteRs232SendCommand mode.command)
        = m.mainLoopCommand { s with ctl := .line buf } buf := by
  have hplain : ∀ c ∈ mode.command, Plain c := by
    rcases mode with - | - | - | - | - <;> exact plain_of_all rfl
  have hlen : mode.command.length < 256 ∧ mode.command ≠ [] := by
    rcases mode with - | - | - | - | - <;> simp [Mode.command, ascii]
  obtain ⟨q, hq⟩ := m.inBuf_eq hlen.1
  exact ⟨_, q, hq, m.feedAll_sendCommand s hplain hlen.1 hlen.2 hs⟩

/-! ## A call -/

/-- The note of a part that has been jumped to is read as a success. -/
theorem getResponse_note (mode : Mode) :
    remoteRs232GetResponseLoop 128 [] (ascii "OK " ++ mode.command ++ crlf)
      = some (ascii "OK " ++ mode.command, []) := by
  rcases mode with - | - | - | - | - <;> rfl

theorem getResponse_unknown :
    remoteRs232GetResponseLoop 128 [] (ascii "ERR " ++ ascii "Unknown command" ++ crlf)
      = some (ascii "ERR Unknown command", []) := rfl

section Call

variable {s : Serial} {mode : Mode} (hs : s.ctl = .line []) (hout : s.out = [])

include hs hout

/-- A command that is understood returns 1, whatever mode it has led to. -/
theorem remoteRs232Mode_switch (hto : Understands s.mode mode) :
    ∃ t, m.remoteRs232Mode s mode = (true, t) ∧ t.mode = m.switches mode ∧ t.ctl = .line []
      ∧ t.out = [] := by
  obtain ⟨buf, q, hbuf, hfeed⟩ := m.feedAll_mode hs mode
  obtain ⟨mem, hcommand⟩ := m.mainLoopCommand_switch (s := { s with ctl := .line buf }) hbuf hto
  refine ⟨{ s with mode := m.switches mode, mem := mem, ctl := .line [], out := [] }, ?_, rfl, rfl,
    rfl⟩
  unfold remoteRs232Mode
  rw [hfeed, hcommand]
  simp only [Serial.responseOutput, hout, List.nil_append, getResponse_note]
  rfl

/-- One that is not returns 0 and changes nothing. -/
theorem remoteRs232Mode_unknown (hto : ¬ Understands s.mode mode) :
    m.remoteRs232Mode s mode = (false, s) := by
  obtain ⟨buf, q, hbuf, hfeed⟩ := m.feedAll_mode hs mode
  have hcommand := m.mainLoopCommand_unknown (s := { s with ctl := .line buf }) hbuf hto
  unfold remoteRs232Mode
  rw [hfeed, hcommand]
  simp only [Serial.responseOutputErr, hout, List.nil_append, getResponse_unknown]
  rw [← hs, ← hout]
  rfl

end Call

end Stage2

/-! ## Sequences of calls -/

/-- Host and device agree throughout exactly when no stub is asked for long mode. -/
theorem modesAgree_iff (m : Stage2) : ∀ (calls : List Mode) (s : Serial), s.ctl = .line [] →
    s.out = [] → (m.ModesAgree s calls ↔ m.AsksForX64 s calls)
  | [], _, _, _ => Iff.rfl
  | mode :: calls, s, hs, hout => by
    unfold Stage2.ModesAgree Stage2.AsksForX64
    by_cases hto : Stage2.Understands s.mode mode
    · obtain ⟨t, hcall, hmode, hctl, hrx⟩ := m.remoteRs232Mode_switch hs hout hto
      have hnames : m.switches mode = mode ↔ (mode = .x64 → s.mode = .i8086 → m.hasX64 = true) := by
        rcases mode with - | - | - | - | -
        case x64 =>
          have hnow : s.mode = .i8086 := hto.resolve_right (by simp)
          unfold Stage2.switches
          rcases hx : m.hasX64 <;> simp [hnow]
        all_goals exact iff_of_true rfl (by simp)
      rw [hcall]
      simp only [hmode, Bool.true_eq_false, false_imp_iff, true_and, true_imp_iff,
        modesAgree_iff m calls t hctl hrx, hnames]
    · rw [m.remoteRs232Mode_unknown hs hout hto]
      simp only [Bool.false_eq_true, false_imp_iff, true_and, modesAgree_iff m calls s hs hout,
        (not_or.1 hto).1, imp_true_iff]

theorem modesAgree_round_trips :
    stage2.ModesAgree .start [.i286, .i386x16, .i8086, .x64, .i386x32, .i8086, .i8086] :=
  (modesAgree_iff stage2 _ .start rfl rfl).2
    (by simp [Stage2.AsksForX64, stage2])

/-- Without the x64 part the device says that it is in 8086 mode, and the call for x64 returns 1. -/
theorem not_modesAgree_stub :
    ¬ ({ stage2 with hasX64 := false } : Stage2).ModesAgree .start [.x64] := by
  intro h
  have hmode := h.1 (by decide)
  revert hmode
  decide

end RemoteX86
