import RemoteX86.Rtl8101
import RemoteX86.Proofs.Alloc

/-!
# The wait for the reset

The loop gives up where its counter is not zero, so the first value that reads the reset bit set ends
the attempt.  An attempt that gets through allocates what `NetworkDriver.initCalls` says, and its
buffers lie one behind another, as the receive ring has them.
-/

namespace RemoteX86

open Hex

/-! ## The loop -/

/-- One value decides. -/
theorem rtl8101ResetLoop_cons (v : Byte) (cmd : List Byte) :
    rtl8101ResetLoop 200 0 (v :: cmd) = (some (decide (v &&& 0x10 = 0)), 1) := by
  have hpatience : (200 : BitVec 32) - 1 ≠ 0 := by decide
  rw [rtl8101ResetLoop]
  by_cases hv : v &&& 0x10 = 0
  · rw [if_pos hv, decide_eq_true hv]
  · rw [if_neg hv, decide_eq_false hv]
    exact if_pos hpatience

section Card

variable {pdev : PciDeviceRecord} {m : PciMachine} {p : Rtl8101Pointers} {h : Heap}

/-- How an attempt gets on that finds its card. -/
theorem rtl8101Init_ended (hcard : rtl8101KnownPciId (some pdev) = true)
    (hio : (rtl8101Io pdev).isSome = true) (cmd : List Byte) :
    ((rtl8101Init (some pdev) cmd m p h).ended, (rtl8101Init (some pdev) cmd m p h).polls) =
      match cmd with
      | [] => (.resetWait, 0)
      | v :: _ => if v &&& 0x10 = 0 then (.opened, 1) else (.resetFail, 1) := by
  obtain ⟨io, hio⟩ := Option.isSome_iff_exists.1 hio
  rcases cmd with _ | ⟨v, cmd⟩
  · simp [rtl8101Init, hcard, hio, rtl8101ResetLoop]
  · by_cases hv : v &&& 0x10 = 0 <;>
      simp only [rtl8101Init, hcard, hio, rtl8101ResetLoop_cons, hv, Bool.not_true,
        Bool.false_eq_true, if_true, if_false, decide_true, decide_false]

/-- The wait is patient exactly if the first value reads the reset bit clear. -/
theorem rtl8101Init_patient_iff (pdev : PciDeviceRecord)
    (hcard : rtl8101KnownPciId (some pdev) = true) (hio : (rtl8101Io pdev).isSome = true)
    (cmd : List Byte) (m : PciMachine) (p : Rtl8101Pointers) (h : Heap) :
    (rtl8101Init (some pdev) cmd m p h).Patient cmd
      ↔ ∀ v, cmd.head? = some v → v &&& 0x10 = 0 := by
  have hend := rtl8101Init_ended (m := m) (p := p) (h := h) hcard hio cmd
  rcases cmd with _ | ⟨v, cmd⟩
  · obtain ⟨hended, -⟩ := Prod.mk.injEq .. ▸ hend
    refine ⟨fun _ v hv => by simp at hv, fun _ => ⟨?_, ?_, fun _ v hv => by simp at hv⟩⟩ <;>
      simp [hended]
  · by_cases hv : v &&& 0x10 = 0
    · simp only [hv, if_true, Prod.mk.injEq] at hend
      refine ⟨fun _ u hu => ?_, fun _ => ⟨?_, fun _ => ?_, ?_⟩⟩
      · obtain rfl : v = u := by simpa using hu
        exact hv
      · simp [hend.1]
      · exact ⟨[], v, cmd, rfl, hend.2, hv, by simp⟩
      · simp [hend.1]
    · simp only [hv, if_false, Prod.mk.injEq] at hend
      constructor
      · intro hpatient
        have := (hpatient.gaveUp hend.1).1
        omega
      · intro hclear
        exact absurd (hclear v rfl) hv

end Card

/-! ## A card -/

/-- A RealTek card with its ports at C000. -/
def rtl8101Card : PciDeviceRecord where
  deviceId := 0x8136
  classCode := 0x020000
  bus := 0
  device := 3
  function := 0
  vendorId := 0x10EC
  revisionId := 1
  subsystemId := 0
  subsystemVendorId := 0
  expansionRom := 0
  bar i :=
    if i = 0 then
      { flags := { io := true, present := true }, start := 0xC000, last := 0xC0FF, mask := 0xFFFFFFFF }
    else {}

/-- A bus with nothing on it that the attempt looks at. -/
def rtl8101Machine : PciMachine where
  address := 0
  bus := { bridge := true, route := fun _ _ _ => none, functions := fun _ => ⟨fun _ => 0, fun _ => .zero⟩ }

/-- The card is ready at once. -/
theorem rtl8101Init_patient_ready :
    (rtl8101Init (some rtl8101Card) [0x00] rtl8101Machine ⟨0, 0, 0, 0⟩ (.init 0x30000)).Patient [0x00] :=
  (rtl8101Init_patient_iff rtl8101Card rfl rfl [0x00] _ _ _).2 fun v hv => by
    obtain rfl : 0x00 = v := by simpa using hv
    rfl

/-- The card takes until the second poll. -/
theorem not_patient_second_poll :
    (rtl8101Init (some rtl8101Card) [0x10, 0x00] rtl8101Machine ⟨0, 0, 0, 0⟩ (.init 0x30000)).ended
        = .resetFail
      ∧ (rtl8101Init (some rtl8101Card) [0x10, 0x00] rtl8101Machine ⟨0, 0, 0, 0⟩ (.init 0x30000)).polls
        = 1
      ∧ ¬ (rtl8101Init (some rtl8101Card) [0x10, 0x00] rtl8101Machine ⟨0, 0, 0, 0⟩
        (.init 0x30000)).Patient [0x10, 0x00] := by
  have hend : (rtl8101Init (some rtl8101Card) [0x10, 0x00] rtl8101Machine ⟨0, 0, 0, 0⟩
      (.init 0x30000)).ended = .resetFail := rfl
  exact ⟨hend, rfl, fun h => absurd (h.gaveUp hend).1 (by decide)⟩

/-! ## What an attempt allocates -/

theorem doAllocs_heap (n : BitVec 32) : ∀ (k : ℕ) (h : Heap),
    (doAllocs n k h).2 = h.calls (List.replicate k (.doAlloc n))
  | 0, _ => rfl
  | k + 1, h => doAllocs_heap n k (h.call (.doAlloc n))

theorem alloc_call_doAlloc (h : Heap) (n : BitVec 32) :
    (h.call (.doAlloc n)).alloc = h.alloc + n := rfl

/-- Buffers allocated in a row are those of a receive ring. -/
theorem getD_doAllocs : ∀ (k : ℕ) (h : Heap) (i : ℕ), i < k →
    (doAllocs 1600 k h).1.getD i 0 = rxPackets h.alloc i
  | k + 1, h, 0, _ => by simp [doAllocs, doAlloc, rxPackets]
  | k + 1, h, i + 1, hi => by
    have ih := getD_doAllocs k (h.call (.doAlloc 1600)) i (by omega)
    rw [doAllocs, List.getD_cons_succ, ih, alloc_call_doAlloc]
    simp only [rxPackets, Nat.mul_succ]
    rw [BitVec.add_assoc, BitVec.add_comm (1600 : BitVec 32)]
    exact congrArg _ (BitVec.ofNat_add (1600 * i) 1600).symm

/-- All pointers of the driver are null, or none is. -/
def Rtl8101Pointers.Tried (p : Rtl8101Pointers) (first : Bool) : Prop :=
  (p.rx = 0 ↔ first = true) ∧ (p.tx = 0 ↔ first = true) ∧ (p.rxPackets = 0 ↔ first = true)
    ∧ (p.txPackets = 0 ↔ first = true)

theorem allocIfNull_heap {p : BitVec 32} {first : Bool} (hp : p = 0 ↔ first = true)
    (n : BitVec 32) (h : Heap) :
    (allocIfNull p n h).2 = h.calls (if first then [.doAlloc n] else []) := by
  unfold allocIfNull
  cases first
  · rw [if_neg (by simpa using hp)]
    rfl
  · rw [if_pos (by simpa using hp)]
    rfl

/-- An attempt that gets through allocates what the list of its calls says. -/
theorem rtl8101Alloc_heap {p : Rtl8101Pointers} {first : Bool} (hp : p.Tried first) (h : Heap) :
    (rtl8101Alloc p h).heap = h.calls (NetworkDriver.rtl8101.initCalls first) := by
  obtain ⟨hrx, htx, hrxPackets, htxPackets⟩ := hp
  have hcalls : NetworkDriver.rtl8101.initCalls first =
      .align256 :: (if first then [.doAlloc (4 * 16)] else []) ++
      .align256 :: (if first then [.doAlloc (4 * 16)] else []) ++
      .align16 :: (if first then [.doAlloc (4 * 4)] else []) ++
      (if first then [.doAlloc (4 * 4)] else []) ++
      .align32 :: List.replicate 4 (.doAlloc 1600) ++ List.replicate 4 (.doAlloc 1600) := by
    rw [NetworkDriver.initCalls, List.replicate_add 4 4]
    cases first <;> simp only [if_true, Bool.false_eq_true, if_false, List.cons_append,
      List.nil_append, List.append_nil]
  rw [hcalls]
  simp only [rtl8101Alloc, doAllocs_heap, allocIfNull_heap hrx, allocIfNull_heap htx,
    allocIfNull_heap hrxPackets, allocIfNull_heap htxPackets, calls_append, calls_cons]

theorem rtl8101Alloc_rxBuffers (p : Rtl8101Pointers) (h : Heap) :
    ∃ alloc, ∀ i < 4, (rtl8101Alloc p h).rxBuffers.getD i 0 = rxPackets alloc i :=
  ⟨_, fun i hi => getD_doAllocs 4 _ i hi⟩

/-- The ring of an attempt that gets through has its buffers one behind another. -/
theorem rtl8101Init_ring {pdev : Option PciDeviceRecord} {cmd : List Byte} {m : PciMachine}
    {p : Rtl8101Pointers} {h : Heap} (hopened : (rtl8101Init pdev cmd m p h).ended = .opened) :
    ∃ alloc, ∀ i < 4, (rtl8101Init pdev cmd m p h).ring i = rtl8101.init (rxPackets alloc) i := by
  unfold rtl8101Init at hopened ⊢
  rcases pdev with _ | pdev
  · cases hopened
  · rcases hcard : rtl8101KnownPciId (some pdev) with _ | _
    · simp [hcard] at hopened
    · rcases hio : rtl8101Io pdev with _ | io
      · simp [hcard, hio] at hopened
      · simp only [hcard, hio, Bool.not_true, Bool.false_eq_true, if_false] at hopened ⊢
        split at hopened <;> cases hopened
        obtain ⟨alloc, hbuffers⟩ := rtl8101Alloc_rxBuffers p h
        refine ⟨alloc, fun i hi => ?_⟩
        simp only [rtl8101, hbuffers i hi]

end RemoteX86
