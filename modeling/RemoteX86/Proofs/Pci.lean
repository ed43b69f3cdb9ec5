import RemoteX86.Pci
import Mathlib.Tactic

/-!
# What the PCI scan records

Sizing writes zeros and ones to a register and puts back what it read, so configuration space is as
it was after every round (`sizeBar_bus`).  The entry of a register pair takes its base from both
halves but its end from the lower one alone: `decodes_iff`, a device is recorded as it is exactly if
its 64-bit windows end below 4 GB.
-/

namespace RemoteX86

open Hex Registers

/-! ## Configuration space -/

namespace PciFunction

variable (f : PciFunction) (regDw : Byte)

@[simp] theorem write_write (u v : BitVec 32) :
    (f.write regDw u).write regDw v = f.write regDw v := by
  unfold write
  cases barOf regDw with
  | none => rfl
  | some k => simp

@[simp] theorem write_read_self : f.write regDw (f.read regDw) = f := by
  unfold write read
  cases barOf regDw with
  | none => rfl
  | some k => simp

variable {f regDw}

theorem read_bar {k : ℕ} (h : barOf regDw = some k) : f.read regDw = (f.bars k).read := by
  unfold read; rw [h]

theorem read_write_bar {k : ℕ} (h : barOf regDw = some k) (v : BitVec 32) :
    (f.write regDw v).read regDw = ((f.bars k).write v).read := by
  unfold read write; rw [h]; simp

end PciFunction

namespace PciBus

variable (b : PciBus) (bus dev func regDw : Byte)

@[simp] theorem write_route (v : BitVec 32) : (b.write bus dev func regDw v).route = b.route := by
  unfold write; split <;> rfl

@[simp] theorem write_bridge (v : BitVec 32) : (b.write bus dev func regDw v).bridge = b.bridge := by
  unfold write; split <;> rfl

@[simp] theorem write_write (u v : BitVec 32) :
    (b.write bus dev func regDw u).write bus dev func regDw v = b.write bus dev func regDw v := by
  unfold write
  cases h : b.route bus dev func with
  | none => simp [h]
  | some i => simp [h]

@[simp] theorem write_read_self :
    b.write bus dev func regDw (b.read bus dev func regDw) = b := by
  unfold write read
  cases b.route bus dev func with
  | none => rfl
  | some i => simp

variable {b bus dev func regDw}

theorem read_some {i : ℕ} (h : b.route bus dev func = some i) :
    b.read bus dev func regDw = (b.functions i).read regDw := by
  unfold read; rw [h]

theorem read_write_some {i : ℕ} (h : b.route bus dev func = some i) (v : BitVec 32) :
    (b.write bus dev func regDw v).read bus dev func regDw
      = ((b.functions i).write regDw v).read regDw := by
  rw [read_some (i := i) (by rw [write_route, h])]
  unfold write
  rw [h]
  simp

end PciBus

/-! ## The latch -/

section Latch

variable (m : PciMachine) (bus dev func regDw : Byte)

theorem pciAddr_busNumber : (m.outlAddress (pciAddr bus dev func regDw)).busNumber = bus := by
  unfold PciMachine.busNumber PciMachine.outlAddress pciAddr
  ext i hi
  interval_cases i <;> simp

theorem pciAddr_device : (m.outlAddress (pciAddr bus dev func regDw)).device = dev &&& 0x1F := by
  unfold PciMachine.device PciMachine.outlAddress pciAddr
  ext i hi
  interval_cases i <;> simp

theorem pciAddr_function : (m.outlAddress (pciAddr bus dev func regDw)).function = func &&& 7 := by
  unfold PciMachine.function PciMachine.outlAddress pciAddr
  ext i hi
  interval_cases i <;> simp

theorem pciAddr_register :
    (m.outlAddress (pciAddr bus dev func regDw)).register = regDw &&& 0xFC := by
  unfold PciMachine.register PciMachine.outlAddress pciAddr
  ext i hi
  interval_cases i <;> simp

theorem pciAddr_enabled (h : m.bus.bridge = true) :
    (m.outlAddress (pciAddr bus dev func regDw)).Enabled := by
  refine ⟨h, ?_⟩
  unfold PciMachine.outlAddress pciAddr
  simp

@[simp] theorem pciConfigReadImm_bus : (pciConfigReadImm m bus dev func regDw).2.bus = m.bus := rfl

theorem pciConfigReadImm_eq (h : m.bus.bridge = true) :
    (pciConfigReadImm m bus dev func regDw).1
      = m.bus.read bus (dev &&& 0x1F) (func &&& 7) (regDw &&& 0xFC) := by
  unfold pciConfigReadImm
  simp only [PciMachine.inlData]
  rw [if_pos (pciAddr_enabled m bus dev func regDw h), pciAddr_busNumber, pciAddr_device,
    pciAddr_function, pciAddr_register]
  rfl

@[simp] theorem pciConfigWriteImm_bridge (data : BitVec 32) :
    (pciConfigWriteImm m bus dev func regDw data).bus.bridge = m.bus.bridge := by
  unfold pciConfigWriteImm PciMachine.outlData
  split_ifs
  · exact PciBus.write_bridge ..
  · rfl

theorem pciConfigWriteImm_bus (h : m.bus.bridge = true) (data : BitVec 32) :
    (pciConfigWriteImm m bus dev func regDw data).bus
      = m.bus.write bus (dev &&& 0x1F) (func &&& 7) (regDw &&& 0xFC) data := by
  unfold pciConfigWriteImm PciMachine.outlData
  rw [if_pos (pciAddr_enabled m bus dev func regDw h), pciAddr_busNumber, pciAddr_device,
    pciAddr_function, pciAddr_register]
  rfl

end Latch

/-! ## One register -/

/-- A round of the loop over a register that `upper` stands above, as far as the entries go. -/
def sizedBar (r : Register 32) (upper : BitVec 32) (bar : ℕ) (entries : ℕ → PciBar) :
    (ℕ → PciBar) × ℕ :=
  let max := r.writable ||| r.fixed
  if r.read = r.fixed ∧ r.fixed = max ∧ (r.read = 0 ∨ r.read = ~~~0) then (entries, bar + 1)
  else
    let pbar := barEntry r.read max
    if pbar.flags.type = 2 ∧ bar + 1 < 6 then
      (Function.update entries bar { pbar with start := pbar.start ||| upper.setWidth 64 <<< 32 },
        bar + 2)
    else (Function.update entries bar pbar, bar + 1)

section SizeBar

variable {m : PciMachine} (hm : m.bus.bridge = true) (bus dev func reg : Byte)

include hm

/-- The last write puts back what the first read found. -/
theorem sizeRegister_bus : (sizeRegister m bus dev func reg).2.bus = m.bus := by
  unfold sizeRegister
  simp only []
  rw [pciConfigWriteImm_bus, pciConfigReadImm_bus, pciConfigWriteImm_bus, pciConfigReadImm_bus,
    pciConfigWriteImm_bus, pciConfigReadImm_bus, pciConfigReadImm_eq, PciBus.write_write,
    PciBus.write_write, PciBus.write_read_self]
  all_goals simpa using hm

variable {bus dev func reg}

theorem sizeRegister_reads {i k : ℕ} (hroute : m.bus.route bus (dev &&& 0x1F) (func &&& 7) = some i)
    (hbar : PciFunction.barOf (reg &&& 0xFC) = some k) :
    (sizeRegister m bus dev func reg).1
      = ⟨((m.bus.functions i).bars k).read, ((m.bus.functions i).bars k).fixed,
          ((m.bus.functions i).bars k).writable ||| ((m.bus.functions i).bars k).fixed⟩ := by
  unfold sizeRegister
  simp only [BarReads.mk.injEq]
  refine ⟨?_, ?_, ?_⟩
  · rw [pciConfigReadImm_eq _ _ _ _ _ hm, PciBus.read_some hroute, PciFunction.read_bar hbar]
  · rw [pciConfigReadImm_eq, pciConfigWriteImm_bus, pciConfigReadImm_bus,
      PciBus.read_write_some hroute, PciFunction.read_write_bar hbar]
    · exact Register.read_write_zero _
    all_goals simpa using hm
  · rw [pciConfigReadImm_eq, pciConfigWriteImm_bus, pciConfigReadImm_bus, pciConfigWriteImm_bus,
      pciConfigReadImm_bus, PciBus.write_write, PciBus.read_write_some hroute,
      PciFunction.read_write_bar hbar]
    · exact Register.read_write_allOnes _
    all_goals simpa using hm

variable (bus dev func) in
theorem sizeBar_bus (bar : ℕ) (entries : ℕ → PciBar) :
    (sizeBar m bus dev func bar entries).2.2.bus = m.bus := by
  have h := sizeRegister_bus hm bus dev func (BitVec.ofNat 8 (0x10 + bar * 4))
  unfold sizeBar
  simp only []
  split_ifs
  · exact h
  · exact h
  · exact h

theorem sizeBar_eq {i bar : ℕ}
    (hroute : m.bus.route bus (dev &&& 0x1F) (func &&& 7) = some i) (hbar : bar < 6)
    (entries : ℕ → PciBar) :
    ((sizeBar m bus dev func bar entries).1, (sizeBar m bus dev func bar entries).2.1)
      = sizedBar ((m.bus.functions i).bars bar) ((m.bus.functions i).bars (bar + 1)).read bar
          entries := by
  have hreg : ∀ k < 6, PciFunction.barOf (BitVec.ofNat 8 (0x10 + k * 4) &&& 0xFC) = some k := by
    decide
  have hnext : ∀ k < 5, PciFunction.barOf ((BitVec.ofNat 8 (0x10 + k * 4) + 4) &&& 0xFC)
      = some (k + 1) := by decide
  have hreads := sizeRegister_reads hm hroute (hreg bar hbar)
  have hbus := sizeRegister_bus hm bus dev func (BitVec.ofNat 8 (0x10 + bar * 4))
  unfold sizeBar sizedBar
  simp only [hreads]
  split_ifs with hskip hpair
  · rfl
  · rw [pciConfigReadImm_eq _ _ _ _ _ (by rw [hbus, hm]), hbus, PciBus.read_some hroute,
      PciFunction.read_bar (hnext bar (by omega))]
  · rfl

end SizeBar

/-! ## One window -/

section Entry

variable {r : Register 32}

theorem not_skipped (hones : r.fixed ≠ ~~~0) (h : r.fixed = 0 → r.writable ≠ 0) :
    ¬ (r.read = r.fixed ∧ r.fixed = r.writable ||| r.fixed ∧ (r.read = 0 ∨ r.read = ~~~0)) := by
  rintro ⟨hread, hmax, hzero | hall⟩
  · rw [hzero] at hread
    rw [← hread] at hmax h
    exact h rfl (by simpa using hmax.symm)
  · exact hones (hread ▸ hall)

theorem getLsbD_of_and {x m : BitVec 32} (h : x &&& m = 0#32) {j : ℕ} (hj : m.getLsbD j = true) :
    x.getLsbD j = false := by
  have hbit : (x &&& m).getLsbD j = false := by rw [h]; simp
  rw [BitVec.getLsbD_and, hj, Bool.and_true] at hbit
  exact hbit

theorem barEntry_io (hv : r.value &&& 3#32 = 0#32) (hw : r.writable &&& 3#32 = 0#32)
    (hf : r.fixed = 1#32) :
    barEntry r.read (r.writable ||| r.fixed)
      = { flags := { present := true, io := true }
          start := r.value.setWidth 64
          last := (r.value ||| ~~~r.writable).setWidth 64
          mask := 0xFFFFFFFF } := by
  have h0 : (r.writable ||| r.fixed).getLsbD 0 = true := by simp [hf]
  unfold barEntry Register.read
  simp only [h0, if_true]
  rw [or_and_not hv (by rw [hf]; decide), or_and_not hw (by rw [hf]; decide)]

theorem memoryType_bits : ∀ (p : Bool) (t : BitVec 2),
    let x := memoryType 32 p (t.setWidth 32 <<< 1)
    x.getLsbD 0 = false ∧ x.getLsbD 3 = p ∧ x.extractLsb' 1 2 = t ∧ x &&& ~~~15#32 = 0#32
      ∧ x ≠ ~~~0 ∧ (t ≠ 0 → x ≠ 0) := by decide

/-- The type bits of a 64-bit window are in its lower register. -/
theorem memoryType_halves : ∀ p : Bool,
    (memoryType 64 p 4).extractLsb' 0 32 = memoryType 32 p ((2 : BitVec 2).setWidth 32 <<< 1)
      ∧ (memoryType 64 p 4).extractLsb' 32 32 = 0#32 := by decide

theorem barEntry_memory (p : Bool) (t : BitVec 2) (hv : r.value &&& 15#32 = 0#32)
    (hw : r.writable &&& 15#32 = 0#32) (hf : r.fixed = memoryType 32 p (t.setWidth 32 <<< 1)) :
    barEntry r.read (r.writable ||| r.fixed)
      = { flags := { present := true, prefetchable := p, type := t }
          start := r.value.setWidth 64
          last := (r.value ||| ~~~r.writable).setWidth 64
          mask := 0xFFFFFFFF } := by
  have hbit : ∀ j < 4, (r.writable ||| r.fixed).getLsbD j = r.fixed.getLsbD j := by
    intro j hj
    rw [BitVec.getLsbD_or, getLsbD_of_and hw (by interval_cases j <;> rfl), Bool.false_or]
  have htype : (r.writable ||| r.fixed).extractLsb' 1 2 = r.fixed.extractLsb' 1 2 := by
    apply BitVec.eq_of_getLsbD_eq
    intro j hj
    simp only [BitVec.getLsbD_extractLsb', hbit (1 + j) (by omega)]
  obtain ⟨h0, h3, ht, hlow, -⟩ := memoryType_bits p t
  rw [← hf] at h0 h3 ht hlow
  unfold barEntry Register.read
  simp only [hbit 0 (by omega), h0, hbit 3 (by omega), h3, htype, ht, Bool.false_eq_true, if_false]
  rw [or_and_not hv hlow, or_and_not hw hlow]

end Entry

namespace Bar

/-- The entry that is made; the end of a 64-bit window is cut to 32 bits. -/
def entry : Bar → PciBar
  | unimplemented => {}
  | io win _ =>
    { flags := { present := true, io := true }
      start := win.base.setWidth 64
      last := (win.base ||| ~~~win.mask).setWidth 64
      mask := 0xFFFFFFFF }
  | memory32 p win _ =>
    { flags := { present := true, prefetchable := p }
      start := win.base.setWidth 64
      last := (win.base ||| ~~~win.mask).setWidth 64
      mask := 0xFFFFFFFF }
  | memory64 p win _ =>
    { flags := { present := true, prefetchable := p, type := 2 }
      start := win.base
      last := ((win.base ||| ~~~win.mask).extractLsb' 0 32).setWidth 64
      mask := 0xFFFFFFFF }

/-- The low bits of base and mask, which a type takes. -/
theorem low_clear {w k : ℕ} (win : Window w) (h : k ≤ win.log) {x : BitVec w}
    (hx : x.toNat < 2 ^ k) : win.base &&& x = 0#w ∧ win.mask &&& x = 0#w := by
  have hlt : x.toNat < 2 ^ win.log := Nat.lt_of_lt_of_le hx (Nat.pow_le_pow_right Nat.two_pos h)
  exact ⟨win.base_and_of_lt hlt, by rw [BitVec.and_comm, win.and_mask_of_lt hlt]⟩

theorem mask_ne_zero {w : ℕ} (win : Window w) : win.mask ≠ 0#w := by
  intro h
  have hbit := win.getLsbD_mask win.log
  rw [h] at hbit
  simp [win.log_lt] at hbit

theorem join_halves (x : BitVec 64) :
    (x.extractLsb' 0 32).setWidth 64 ||| (x.extractLsb' 32 32).setWidth 64 <<< 32 = x := by
  apply BitVec.eq_of_getLsbD_eq
  intro i hi
  simp only [BitVec.getLsbD_or, BitVec.getLsbD_setWidth, BitVec.getLsbD_extractLsb',
    BitVec.getLsbD_shiftLeft]
  by_cases h : i < 32
  · simp [h, hi]
  · simp only [h, hi, show i - 32 < 32 by omega, show 32 + (i - 32) = i by omega, decide_true,
      decide_false, Bool.not_false, Bool.false_and, Bool.and_false, Bool.true_and, Bool.false_or,
      show i - 32 < 64 by omega]

variable {r : Register 32} {bar : ℕ} {entries : ℕ → PciBar}

theorem sizedBar_unimplemented (upper : BitVec 32) (hempty : entries bar = {}) :
    sizedBar ⟨0, 0, 0, by decide, by decide⟩ upper bar entries
      = (Function.update entries bar {}, bar + 1) := by
  rw [← hempty, Function.update_eq_self]
  rfl

theorem sizedBar_io (win : Window 32) (h : 2 ≤ win.log) (upper : BitVec 32) :
    sizedBar (ioRegister win h) upper bar entries
      = (Function.update entries bar (io win h).entry, bar + 1) := by
  obtain ⟨hv, hw⟩ := low_clear win h (x := 3#32) (by decide)
  have hf : (ioRegister win h).fixed = 1 := rfl
  unfold sizedBar
  simp only []
  rw [if_neg (not_skipped (by rw [hf]; decide) fun h => absurd (hf.symm.trans h) (by decide)),
    barEntry_io hv hw hf]
  rfl

theorem sizedBar_memory32 (p : Bool) (win : Window 32) (h : 4 ≤ win.log) (upper : BitVec 32) :
    sizedBar (memoryRegister (memoryType 32 p 0) (by cases p <;> decide) win h) upper bar entries
      = (Function.update entries bar (memory32 p win h).entry, bar + 1) := by
  obtain ⟨hv, hw⟩ := low_clear win h (x := 15#32) (by decide)
  unfold sizedBar
  simp only []
  rw [if_neg (not_skipped (memoryType_bits p 0).2.2.2.2.1 fun _ => mask_ne_zero win),
    barEntry_memory p 0 hv hw rfl]
  rfl

theorem sizedBar_memory64 (p : Bool) (win : Window 64) (h : 4 ≤ win.log) (hfit : bar + 1 < 6) :
    let r := memoryRegister (memoryType 64 p 4) (by cases p <;> decide) win h
    sizedBar (r.extract 0 32) (r.extract 32 32).read bar entries
      = (Function.update entries bar (memory64 p win h).entry, bar + 2) := by
  obtain ⟨hv, hw⟩ := low_clear win h (x := 15#64) (by decide)
  intro r
  obtain ⟨hf, hzero⟩ := memoryType_halves p
  obtain ⟨-, -, -, -, hones, hne⟩ := memoryType_bits p 2
  have hlow : ∀ x : BitVec 64, x &&& 15#64 = 0#64 → x.extractLsb' 0 32 &&& 15#32 = 0#32 := by
    intro x hx
    rw [show 15#32 = (15#64).extractLsb' 0 32 by decide, ← BitVec.extractLsb'_and, hx]
    rfl
  have hupper : (r.extract 32 32).read = win.base.extractLsb' 32 32 := by
    change win.base.extractLsb' 32 32 ||| (memoryType 64 p 4).extractLsb' 32 32 = _
    rw [hzero, BitVec.or_zero]
  unfold sizedBar
  simp only []
  rw [← hf] at hones hne
  rw [if_neg (not_skipped hones fun h0 => absurd h0 (hne (by decide))),
    barEntry_memory p 2 (hlow _ hv) (hlow _ hw) hf, hupper]
  rw [if_pos ⟨rfl, hfit⟩]
  have hstart : (r.extract 0 32).value.setWidth 64
      ||| (win.base.extractLsb' 32 32).setWidth 64 <<< 32 = win.base := join_halves win.base
  have hlast : (r.extract 0 32).value ||| ~~~(r.extract 0 32).writable
      = (win.base ||| ~~~win.mask).extractLsb' 0 32 := by
    change win.base.extractLsb' 0 32 ||| ~~~win.mask.extractLsb' 0 32 = _
    rw [BitVec.extractLsb'_or, BitVec.extractLsb'_not_of_lt (by decide)]
  simp only [hstart, hlast]
  rfl

theorem registers_length (b : Bar) : 1 ≤ b.registers.length := by cases b <;> simp [registers]

/-- A round over a window's registers makes its entry, and goes on after them. -/
theorem sizedBar_bar (b : Bar) {f : PciFunction} (hempty : entries bar = {})
    (hfit : bar + b.registers.length ≤ 6)
    (h : ∀ (k : ℕ) (r : Register 32), b.registers[k]? = some r → f.bars (bar + k) = r) :
    sizedBar (f.bars bar) (f.bars (bar + 1)).read bar entries
      = (Function.update entries bar b.entry, bar + b.registers.length) := by
  cases b with
  | unimplemented =>
    rw [show f.bars bar = _ from h 0 _ rfl]
    exact sizedBar_unimplemented _ hempty
  | io win hlog =>
    rw [show f.bars bar = _ from h 0 _ rfl]
    exact sizedBar_io win hlog _
  | memory32 p win hlog =>
    rw [show f.bars bar = _ from h 0 _ rfl]
    exact sizedBar_memory32 p win hlog _
  | memory64 p win hlog =>
    rw [show f.bars bar = _ from h 0 _ rfl, h 1 _ rfl]
    exact sizedBar_memory64 p win hlog (by simp only [registers, List.length_cons] at hfit; omega)

/-- The entry is at `i`, and none at a second register. -/
structure Entered (entries : ℕ → PciBar) (i : ℕ) (b : Bar) : Prop where
  entry : entries i = b.entry
  rest : ∀ j, i < j → j < i + b.registers.length → entries j = {}

end Bar

/-! ## The loop over the registers -/

/-- From register `bar` on a function has the registers of `bars`. -/
def PciFunction.HasFrom (f : PciFunction) (bar : ℕ) (bars : List Bar) : Prop :=
  ∀ (k : ℕ) (r : Register 32), (bars.flatMap Bar.registers)[k]? = some r → f.bars (bar + k) = r

theorem PciFunction.HasFrom.cons {f : PciFunction} {bar : ℕ} {w : Bar} {bars : List Bar}
    (h : f.HasFrom bar (w :: bars)) :
    (∀ (k : ℕ) (r : Register 32), w.registers[k]? = some r → f.bars (bar + k) = r)
      ∧ f.HasFrom (bar + w.registers.length) bars := by
  unfold HasFrom at h
  rw [List.flatMap_cons] at h
  constructor
  · intro k r hr
    refine h k r ?_
    rw [List.getElem?_append_left (List.getElem?_eq_some_iff.1 hr).1, hr]
  · intro k r hr
    rw [Nat.add_assoc]
    refine h _ r ?_
    rw [List.getElem?_append_right (by omega), Nat.add_sub_cancel_left, hr]

section BarLoop

variable {bus dev func : Byte}

theorem barLoop_bus : ∀ (rounds : ℕ) (m : PciMachine) (bar : ℕ) (entries : ℕ → PciBar),
    m.bus.bridge = true → (barLoop bus dev func rounds m bar entries).2.bus = m.bus
  | 0, _, _, _, _ => rfl
  | rounds + 1, m, bar, entries, hm => by
    have hbus := sizeBar_bus hm bus dev func bar entries
    unfold barLoop
    split_ifs
    · exact (barLoop_bus rounds _ _ _ (by rw [hbus, hm])).trans hbus
    · rfl

/-- The loop enters the windows in order. -/
theorem barLoop_slots {b : PciBus} (hb : b.bridge = true) {i : ℕ}
    (hroute : b.route bus (dev &&& 0x1F) (func &&& 7) = some i) :
    ∀ (bars : List Bar) (rounds bar : ℕ) (m : PciMachine) (entries : ℕ → PciBar),
      m.bus = b → bar + (bars.flatMap Bar.registers).length = 6 → 6 ≤ bar + rounds →
      (b.functions i).HasFrom bar bars → (∀ j ≥ bar, entries j = {}) →
      (∀ slot ∈ Bar.slots bar bars,
        slot.2.Entered (barLoop bus dev func rounds m bar entries).1 slot.1)
      ∧ ∀ j < bar, (barLoop bus dev func rounds m bar entries).1 j = entries j
  | [], rounds, bar, m, entries, _, hlen, _, _, _ => by
    have hdone : barLoop bus dev func rounds m bar entries = (entries, m) := by
      cases rounds with
      | zero => rfl
      | succ rounds =>
        simp only [List.flatMap_nil, List.length_nil] at hlen
        exact if_neg (by omega)
    rw [hdone]
    exact ⟨by simp [Bar.slots], fun _ _ => rfl⟩
  | w :: bars, rounds, bar, m, entries, hm, hlen, hrounds, hregs, hempty => by
    have hw := w.registers_length
    rw [List.flatMap_cons, List.length_append] at hlen
    obtain ⟨rounds, rfl⟩ : ∃ n, rounds = n + 1 := Nat.exists_eq_succ_of_ne_zero (by omega)
    obtain ⟨hfirst, hothers⟩ := hregs.cons
    have hbus := sizeBar_bus (m := m) (by rw [hm, hb]) bus dev func bar entries
    have hsize := sizeBar_eq (m := m) (by rw [hm, hb]) (by rw [hm]; exact hroute)
      (show bar < 6 by omega) entries
    rw [hm, w.sizedBar_bar (hempty bar le_rfl) (by omega) hfirst, Prod.mk.injEq] at hsize
    have hloop : barLoop bus dev func (rounds + 1) m bar entries
        = barLoop bus dev func rounds (sizeBar m bus dev func bar entries).2.2
            (bar + w.registers.length) (Function.update entries bar w.entry) := by
      rw [← hsize.1, ← hsize.2]
      exact if_pos (by omega)
    have hempty' : ∀ j ≥ bar + w.registers.length, Function.update entries bar w.entry j = {} := by
      intro j hj
      rw [Function.update_of_ne (by omega)]
      exact hempty j (by omega)
    obtain ⟨hslots, hframe⟩ := barLoop_slots hb hroute bars rounds (bar + w.registers.length) _ _
      (hbus.trans hm) (by omega) (by omega) hothers hempty'
    rw [hloop]
    refine ⟨List.forall_mem_cons.2 ⟨⟨?_, ?_⟩, hslots⟩, ?_⟩
    · rw [hframe bar (by omega), Function.update_self]
    · intro j hj hj'
      rw [hframe j hj', Function.update_of_ne (by omega)]
      exact hempty j (by omega)
    · intro j hj
      rw [hframe j (by omega), Function.update_of_ne (by omega)]

end BarLoop

namespace Bar

theorem records_of_entry {e : PciBar} {win : Window 32} (hp : e.flags.present = true)
    (hs : e.start = win.base.setWidth 64) (hl : e.last = (win.base ||| ~~~win.mask).setWidth 64) :
    e.Records win := by
  refine ⟨hp, ?_, ?_⟩
  · rw [hs, BitVec.toNat_setWidth_of_le (by decide)]
  · rw [hl, BitVec.toNat_setWidth_of_le (by decide), win.toNat_base_or_not_mask]

/-- The entry has the window's end exactly if that fits 32 bits. -/
theorem entered_iff {entries : ℕ → PciBar} {i : ℕ} : ∀ {b : Bar}, b.Entered entries i →
    (b.Recorded entries i ↔ b.Below4G)
  | unimplemented, _ => Iff.rfl
  | io win h, hb => by
    have hrec : (io win h).entry.Records win := records_of_entry rfl rfl rfl
    simp only [Recorded, Below4G, iff_true]
    rwa [hb.entry]
  | memory32 p win h, hb => by
    have hrec : (memory32 p win h).entry.Records win := records_of_entry rfl rfl rfl
    simp only [Recorded, Below4G, iff_true]
    rwa [hb.entry]
  | memory64 p win h, hb => by
    have hlast : (memory64 p win h).entry.last.toNat = win.last % 2 ^ 32 := by
      simp only [entry]
      rw [BitVec.toNat_setWidth_of_le (by decide), BitVec.extractLsb'_toNat, Nat.shiftRight_zero,
        win.toNat_base_or_not_mask]
    have hupper : entries (i + 1) = {} := hb.rest (i + 1) (by omega) (by simp [registers])
    have hpos := Nat.two_pow_pos win.log
    unfold Recorded Below4G
    rw [hb.entry, hupper]
    constructor
    · rintro ⟨⟨-, -, hend⟩, -⟩
      rw [hlast] at hend
      unfold Window.last at hend
      omega
    · intro hle
      refine ⟨⟨rfl, rfl, ?_⟩, rfl⟩
      rw [hlast, Nat.mod_eq_of_lt (by unfold Window.last; omega)]

theorem slots_forall {P : Bar → Prop} : ∀ (bars : List Bar) (i : ℕ),
    (∀ slot ∈ slots i bars, P slot.2) ↔ ∀ b ∈ bars, P b
  | [], _ => by simp [slots]
  | b :: bars, i => by
    unfold slots
    rw [List.forall_mem_cons, List.forall_mem_cons, slots_forall bars]

end Bar

/-! ## The scan -/

/-- A device in the table: a function that answers, and the entries the loop over its registers
made. -/
structure Probed (b : PciBus) (pdev : PciDeviceRecord) : Prop where
  bridge : b.bridge = true
  device : pdev.device &&& 0x1F = pdev.device
  function : pdev.function &&& 7 = pdev.function
  answers : ∃ i, b.route pdev.bus pdev.device pdev.function = some i
  entries : ∃ m : PciMachine, m.bus = b
    ∧ pdev.bar = (barLoop pdev.bus pdev.device pdev.function 6 m 0 fun _ => {}).1

/-- Configuration space is `b` again, and what is in the table was probed. -/
structure PciScan.Keeps (b : PciBus) (s : PciScan) : Prop where
  bus : s.machine.bus = b
  probed : ∀ pdev ∈ s.devices, Probed b pdev

section Scan

variable {b : PciBus}

theorem probeFunction_bus (hb : b.bridge = true) {m : PciMachine} (hm : m.bus = b)
    (bus dev func : Byte) (id : BitVec 32) : (probeFunction m bus dev func id).2.bus = b := by
  unfold probeFunction
  simp only []
  rw [barLoop_bus _ _ _ _ (by simpa [hm] using hb)]
  exact hm

theorem probeFunction_probed (hb : b.bridge = true) {m : PciMachine} (hm : m.bus = b)
    {bus dev func : Byte} (hdev : dev &&& 0x1F = dev) (hfunc : func &&& 7 = func)
    (hanswers : ∃ i, b.route bus dev func = some i) (id : BitVec 32) :
    Probed b (probeFunction m bus dev func id).1 :=
  ⟨hb, hdev, hfunc, hanswers, _, hm, rfl⟩

/-- What does not read as ones is there. -/
theorem answers_of_read {m : PciMachine} (hb : b.bridge = true) (hm : m.bus = b)
    {bus dev func regDw : Byte} (hdev : dev &&& 0x1F = dev) (hfunc : func &&& 7 = func)
    (h : (pciConfigReadImm m bus dev func regDw).1 ≠ 0xFFFFFFFF) :
    ∃ i, b.route bus dev func = some i := by
  rw [pciConfigReadImm_eq _ _ _ _ _ (by rw [hm, hb]), hm, hdev, hfunc] at h
  unfold PciBus.read at h
  split at h
  · rename_i i hroute
    exact ⟨i, hroute⟩
  · exact absurd rfl h

variable (hb : b.bridge = true)

include hb

theorem funcLoop_keeps {bus dev : ℕ} (hdev : dev < 32) : ∀ (n : ℕ) (s : PciScan), n ≤ 8 →
    s.Keeps b → (funcLoop bus dev n s).Keeps b
  | 0, _, _, hs => hs
  | n + 1, s, hn, hs => by
    have hdev' : ∀ d < 32, BitVec.ofNat 8 d &&& 0x1F = BitVec.ofNat 8 d := by decide
    have hfunc : ∀ f < 8, BitVec.ofNat 8 f &&& 7 = BitVec.ofNat 8 f := by decide
    unfold funcLoop
    simp only []
    split_ifs with hroom habsent
    · exact ⟨hs.bus, hs.probed⟩
    · set func := BitVec.ofNat 8 (7 - n)
      set id := pciConfigReadImm s.machine (BitVec.ofNat 8 bus) (BitVec.ofNat 8 dev) func 0
      have hid : id.2.bus = b := hs.bus
      have hanswers := answers_of_read hb hs.bus (hdev' dev hdev) (hfunc (7 - n) (by omega)) habsent
      have hprobed := probeFunction_probed hb hid (hdev' dev hdev) (hfunc (7 - n) (by omega))
        hanswers id.1
      have hbus := probeFunction_bus hb hid (BitVec.ofNat 8 bus) (BitVec.ofNat 8 dev) func id.1
      refine funcLoop_keeps hdev n _ (by omega) ⟨hbus, ?_⟩
      intro pdev hpdev
      rcases List.mem_append.1 hpdev with hmem | hmem
      · exact hs.probed pdev hmem
      · rw [List.mem_singleton.1 hmem]
        exact hprobed
    · exact hs

theorem devLoop_keeps {bus : ℕ} : ∀ (n : ℕ) (s : PciScan), n ≤ 32 → s.Keeps b →
    (devLoop bus n s).Keeps b
  | 0, _, _, hs => hs
  | n + 1, s, hn, hs => by
    unfold devLoop
    split_ifs
    · exact devLoop_keeps n _ (by omega) (funcLoop_keeps hb (by omega) 8 s le_rfl hs)
    · exact hs

theorem busLoop_keeps {busMax : ℕ} : ∀ (n : ℕ) (s : PciScan), s.Keeps b →
    (busLoop busMax n s).Keeps b
  | 0, _, hs => hs
  | n + 1, s, hs => by
    unfold busLoop
    split_ifs
    · exact busLoop_keeps n _ (devLoop_keeps hb 32 s le_rfl hs)
    · exact hs

omit hb in
theorem pciMaxBusLoop_bus (matchId : BitVec 32) : ∀ (n : ℕ) (m : PciMachine) (busMax : ℕ),
    (pciMaxBusLoop matchId n m busMax).2.bus = m.bus
  | 0, _, _ => rfl
  | n + 1, m, busMax => by
    unfold pciMaxBusLoop
    simp only []
    split_ifs
    · rfl
    · exact pciMaxBusLoop_bus matchId n _ _

end Scan

/-- The scan leaves configuration space as it was, and its table holds what it probed. -/
theorem pciInit_keeps (m : PciMachine) : (pciInit m).2.Keeps m.bus := by
  unfold pciInit
  simp only []
  split_ifs with habsent habsent'
  · exact ⟨rfl, by simp⟩
  · exact ⟨rfl, by simp⟩
  · have hb : m.bus.bridge = true := by
      by_contra hno
      refine habsent ?_
      simp only [PciMachine.inlAddress, PciMachine.outlAddress, hno]
      decide
    refine busLoop_keeps hb _ _ ⟨?_, by simp⟩
    exact pciMaxBusLoop_bus ..

/-- What was probed is recorded as it is exactly if its 64-bit windows end below 4 GB. -/
theorem Probed.decodes_below {b : PciBus} {pdev : PciDeviceRecord} (h : Probed b pdev) {i : ℕ}
    (hroute : b.route pdev.bus pdev.device pdev.function = some i) {bars : List Bar}
    (hbars : (b.functions i).HasBars bars) :
    pdev.Decodes bars (b.functions i) (b.functions i) ↔ ∀ bar ∈ bars, bar.Below4G := by
  obtain ⟨m, hm, hentries⟩ := h.entries
  have hentered := (barLoop_slots h.bridge (by rw [h.device, h.function]; exact hroute) bars 6 0 m
    (fun _ => {}) hm (by rw [hbars.length]) le_rfl
    (fun k r hr => by rw [Nat.zero_add]; exact hbars.get k r hr) (fun _ _ => rfl)).1
  rw [← hentries] at hentered
  rw [← Bar.slots_forall bars 0]
  constructor
  · intro hdecodes slot hslot
    exact (Bar.entered_iff (hentered slot hslot)).1 (hdecodes.recorded slot hslot)
  · intro hbelow
    exact ⟨fun slot hslot => (Bar.entered_iff (hentered slot hslot)).2 (hbelow slot hslot),
      fun _ _ => rfl⟩

/-- Whatever is behind configuration space: a device in the table is recorded as it is, and its
registers hold what they held, exactly if its 64-bit windows end below 4 GB. -/
theorem decodes_iff (m : PciMachine) (pdev : PciDeviceRecord)
    (hpdev : pdev ∈ (pciInit m).2.devices) (i : ℕ)
    (hroute : m.bus.route pdev.bus pdev.device pdev.function = some i) (bars : List Bar)
    (hbars : (m.bus.functions i).HasBars bars) :
    pdev.Decodes bars (m.bus.functions i) ((pciInit m).2.machine.bus.functions i)
      ↔ ∀ bar ∈ bars, bar.Below4G := by
  have hkeeps := pciInit_keeps m
  rw [hkeeps.bus]
  exact (hkeeps.probed pdev hpdev).decodes_below hroute hbars

/-! ### A bus with one network card -/

/-- A card with an I/O window of 256 bytes, and 4 KB of memory from `base` on. -/
def cardBars (base : BitVec 64) (h : 2 ^ 12 ∣ base.toNat) : List Bar :=
  [.io ⟨0xC000, 8, by decide, by decide⟩ (by decide), .unimplemented,
    .memory64 false ⟨base, 12, by decide, h⟩ (show 4 ≤ 12 by decide),
    .unimplemented, .unimplemented]

/-- The card as the only device of the only bus. -/
def cardBus (bars : List Bar) : PciBus where
  bridge := true
  route _ dev func := if dev = 0 ∧ func = 0 then some 0 else none
  functions _ :=
    { space := fun regDw => if regDw = 0 then 0x813610EC else 0
      bars := fun k => (bars.flatMap Bar.registers).getD k .zero }

theorem cardBus_hasBars {bars : List Bar} (h : (bars.flatMap Bar.registers).length = 6) (i : ℕ) :
    ((cardBus bars).functions i).HasBars bars :=
  ⟨h, fun k r hr => by simp only [cardBus, List.getD_eq_getElem?_getD, hr, Option.getD_some]⟩

def cardBelow : List Bar := cardBars 0xFEBFF000 (by decide)

def cardAbove : List Bar := cardBars 0x1FEBFF000 (by decide)

theorem cardBelow_found : (pciInit ⟨0, cardBus cardBelow⟩).2.devices ≠ [] :=
  fun h => absurd (congrArg List.length h) (by decide +kernel)

theorem cardAbove_found : (pciInit ⟨0, cardBus cardAbove⟩).2.devices ≠ [] :=
  fun h => absurd (congrArg List.length h) (by decide +kernel)

theorem cardBus_route {bars : List Bar} {pdev : PciDeviceRecord} (h : Probed (cardBus bars) pdev) :
    (cardBus bars).route pdev.bus pdev.device pdev.function = some 0 := by
  obtain ⟨i, hi⟩ := h.answers
  obtain ⟨-, rfl⟩ : _ ∧ 0 = i := by simpa [cardBus] using hi
  exact hi

theorem decodes_iff_card :
    let pdev := (pciInit ⟨0, cardBus cardBelow⟩).2.devices.head cardBelow_found
    pdev.Decodes cardBelow ((cardBus cardBelow).functions 0)
        ((pciInit ⟨0, cardBus cardBelow⟩).2.machine.bus.functions 0)
      ↔ ∀ bar ∈ cardBelow, bar.Below4G :=
  decodes_iff ⟨0, cardBus cardBelow⟩ _ (List.head_mem cardBelow_found) 0
    (cardBus_route ((pciInit_keeps _).probed _ (List.head_mem cardBelow_found))) cardBelow
    (cardBus_hasBars rfl 0)

/-- The card with its memory at 1FEBFF000h: the scan lists it, with the memory's end cut to 32
bits. -/
theorem not_decodes_above : ∃ pdev ∈ (pciInit ⟨0, cardBus cardAbove⟩).2.devices,
    (cardBus cardAbove).route pdev.bus pdev.device pdev.function = some 0
      ∧ ((cardBus cardAbove).functions 0).HasBars cardAbove
      ∧ ¬ pdev.Decodes cardAbove ((cardBus cardAbove).functions 0)
        ((pciInit ⟨0, cardBus cardAbove⟩).2.machine.bus.functions 0) := by
  have hmem := List.head_mem cardAbove_found
  have hkeeps := pciInit_keeps ⟨0, cardBus cardAbove⟩
  have hprobed := hkeeps.probed _ hmem
  have hbars : ((cardBus cardAbove).functions 0).HasBars cardAbove := cardBus_hasBars rfl 0
  have hroute := cardBus_route hprobed
  refine ⟨_, hmem, hroute, hbars, ?_⟩
  rw [hkeeps.bus, hprobed.decodes_below hroute hbars]
  intro hall
  have hbelow := hall _ (List.mem_cons_of_mem _ (List.mem_cons_of_mem _ List.mem_cons_self))
  unfold Bar.Below4G at hbelow
  exact absurd hbelow (by decide)

end RemoteX86
