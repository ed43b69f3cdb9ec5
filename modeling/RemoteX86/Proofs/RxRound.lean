import RemoteX86.Proofs.RxRing

/-!
# What a round hands back

Every way out of `get_packet` but one reinitialises the descriptor or returns it, to be reinitialised
by `put_packet`.  A whole good frame shorter than its header is neither: the descriptor stays as it
is, and so does every later round.
-/

namespace RemoteX86

open Hex Memory

section Round

variable {D : Type} {drv : RxDriver D} {packets : ℕ → BitVec 32} {s : RxRing D}

/-- Handing a descriptor back is what a round is to do. -/
theorem RxDriver.recycles_putPacket (hown : ∀ rx i, drv.own (drv.rxReinit packets rx i) = true)
    (hs : s.rxOffset < drv.ringSize)
    (hround : drv.round packets s = drv.putPacket packets s) : drv.Recycles packets s where
  own := by
    rw [hround, RxDriver.putPacket, RxDriver.advPacket, RxDriver.reinit]
    simp only [Function.update_self]
    exact hown _ _
  rxOffset := by
    rw [hround, RxDriver.putPacket, RxDriver.advPacket, RxDriver.reinit]
    dsimp only
    split_ifs with h
    · rw [show s.rxOffset + 1 = drv.ringSize by omega, Nat.mod_self]
    · rw [Nat.mod_eq_of_lt (by omega)]

/-- A runt is left where it is. -/
theorem RxDriver.round_runt (hown : drv.own (s.rx s.rxOffset) = false)
    (h : drv.Runt (s.rx s.rxOffset)) : drv.round packets s = s := by
  have hshort : ¬14 ≤ drv.frameLength (s.rx s.rxOffset) := BitVec.not_le.2 h.length
  simp only [RxDriver.round, RxDriver.getPacket, hown, h.error, h.first, h.last, Bool.false_eq_true,
    Bool.and_self, if_true, if_false, if_neg hshort]

theorem RxDriver.round_of_not_runt (hown : drv.own (s.rx s.rxOffset) = false)
    (h : ¬drv.Runt (s.rx s.rxOffset)) : drv.round packets s = drv.putPacket packets s := by
  rcases herror : drv.error (s.rx s.rxOffset) with - | -
  · rcases hwhole : drv.first (s.rx s.rxOffset) && drv.last (s.rx s.rxOffset) with - | -
    · simp [RxDriver.round, RxDriver.getPacket, hown, herror, hwhole, RxDriver.putPacket]
    · have hlen : 14 ≤ drv.frameLength (s.rx s.rxOffset) := by
        rw [Bool.and_eq_true] at hwhole
        by_contra hlt
        exact h ⟨herror, hwhole.1, hwhole.2, BitVec.not_le.1 hlt⟩
      simp only [RxDriver.round, RxDriver.getPacket, hown, herror, hwhole, Bool.false_eq_true,
        if_true, if_false, if_pos hlen]
  · simp [RxDriver.round, RxDriver.getPacket, hown, herror, RxDriver.putPacket]

theorem RxDriver.recycles_iff (hreinit : ∀ rx i, drv.own (drv.rxReinit packets rx i) = true)
    (hs : s.rxOffset < drv.ringSize) (hown : drv.own (s.rx s.rxOffset) = false) :
    drv.Recycles packets s ↔ ¬drv.Runt (s.rx s.rxOffset) := by
  constructor
  · intro h hrunt
    have := h.own
    rw [RxDriver.round_runt hown hrunt, hown] at this
    exact Bool.false_ne_true this
  · intro h
    exact RxDriver.recycles_putPacket hreinit hs (RxDriver.round_of_not_runt hown h)

end Round

theorem pcnet32_own_rxReinit (packets : ℕ → BitVec 32) (rx : Pcnet32RxHead) (i : ℕ) :
    pcnet32.own (pcnet32.rxReinit packets rx i) = true := by
  simp only [pcnet32, pcnet32RxReinit]
  decide

theorem rtl8101_own_rxReinit (packets : ℕ → BitVec 32) (rx : Rtl8101RxHead) (i : ℕ) :
    rtl8101.own (rtl8101.rxReinit packets rx i) = true := by
  have hmask : (rtl8101RxReinit packets rx i).d1 &&& 0x80000000#32 = 0x80000000#32 := by
    refine (rtl8101RxReinit_d1 packets rx i rfl).trans ?_
    split_ifs <;> rfl
  exact congrArg (· != 0#32) hmask

/-- Whatever the card left in the descriptor, a round hands it back and goes on, unless it is a
whole good frame shorter than its header. -/
theorem round_recycles_iff (packets : ℕ → BitVec 32) :
    (∀ s : RxRing Pcnet32RxHead, s.rxOffset < pcnet32.ringSize →
      pcnet32.own (s.rx s.rxOffset) = false →
        (pcnet32.Recycles packets s ↔ ¬pcnet32.Runt (s.rx s.rxOffset))) ∧
    ∀ s : RxRing Rtl8101RxHead, s.rxOffset < rtl8101.ringSize →
      rtl8101.own (s.rx s.rxOffset) = false →
        (rtl8101.Recycles packets s ↔ ¬rtl8101.Runt (s.rx s.rxOffset)) :=
  ⟨fun _ => RxDriver.recycles_iff (pcnet32_own_rxReinit packets),
    fun _ => RxDriver.recycles_iff (rtl8101_own_rxReinit packets)⟩

/-- The PCnet's ring with a frame of `len` bytes in the first descriptor. -/
def ringWith (len : BitVec 32) : RxRing Pcnet32RxHead where
  rx _ := { base := 0x100000, bufLength := -1600, status := 0x0300, msgLength := len, reserved := 0 }
  rxOffset := 0
  mem := fun _ => 0

theorem round_recycles_60 : pcnet32.Recycles (rxPackets 0x100000) (ringWith 60) :=
  (((round_recycles_iff (rxPackets 0x100000)).1 (ringWith 60) (by decide) (by decide)).2
    fun h => absurd h.length (by decide))

/-- Thirteen bytes, whole and without an error: the descriptor is not handed back. -/
theorem round_keeps_runt : ¬pcnet32.Recycles (rxPackets 0x100000) (ringWith 13) := by
  intro h
  have hrunt : pcnet32.Runt ((ringWith 13).rx (ringWith 13).rxOffset) :=
    ⟨by decide, by decide, by decide, by decide⟩
  have hround : pcnet32.round (rxPackets 0x100000) (ringWith 13) = ringWith 13 :=
    RxDriver.round_runt (by decide) hrunt
  have hoffset := h.rxOffset
  rw [hround] at hoffset
  exact absurd hoffset (by decide)

end RemoteX86
