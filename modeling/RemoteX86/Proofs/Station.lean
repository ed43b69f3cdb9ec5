import RemoteX86.Station
import RemoteX86.Proofs.TxRing

/-!
# What comes in is answered, in order

The two rings share a memory and keep out of each other's buffers: a step of the one leaves the
other's frames as they are (`RxDriver.Inv.same`, `TxDriver.Inv.same`).  So a run of the station is a
run of either ring, and between them stands the program: the packets it has worked on are those that
were delivered, and the frames it has handed over, with those it still has to send, are what it
answers to them (`Station.Inv`).
-/

namespace RemoteX86

open Hex Memory

/-! ## The buffers of both rings -/

/-- The buffers from the `lo`-th up to the `hi`-th hold the same in both memories. -/
def SameBuffers (alloc : BitVec 32) (lo hi : ℕ) (m m' : Mem 32) : Prop :=
  ∀ j, lo ≤ j → j < hi → ∀ k < 1600,
    m' (rxPackets alloc j + BitVec.ofNat 32 k) = m (rxPackets alloc j + BitVec.ofNat 32 k)

theorem SameBuffers.read {alloc : BitVec 32} {lo hi j len : ℕ} {m m' : Mem 32}
    (h : SameBuffers alloc lo hi m m') (hlo : lo ≤ j) (hhi : j < hi) (hlen : len ≤ 1600) :
    read m' (rxPackets alloc j) len = read m (rxPackets alloc j) len :=
  read_congr fun k hk => h j hlo hhi k (by omega)

theorem sameBuffers_refl (alloc : BitVec 32) (lo hi : ℕ) (m : Mem 32) :
    SameBuffers alloc lo hi m m := fun _ _ _ _ _ => rfl

/-- A copy into one buffer leaves the others. -/
theorem sameBuffers_write (alloc : BitVec 32) {n lo hi i : ℕ} (m : Mem 32) {bs : List Byte} {k : ℕ}
    (hn : 1600 * n ≤ 2 ^ 32) (hi' : i < n) (hhi : hi ≤ n) (hout : i < lo ∨ hi ≤ i)
    (hbs : k + bs.length ≤ 1600) :
    SameBuffers alloc lo hi m (write m (rxPackets alloc i + BitVec.ofNat 32 k) bs) := by
  intro j hlo hj l hl
  have hapart := rxPackets_disjoint alloc hn hi' (by omega : j < n) (by omega) hl
  have hk : (BitVec.ofNat 32 k).toNat = k := by
    rw [BitVec.toNat_ofNat]
    omega
  have hsub : (rxPackets alloc j + BitVec.ofNat 32 l
      - (rxPackets alloc i + BitVec.ofNat 32 k)).toNat
        = (rxPackets alloc j + BitVec.ofNat 32 l - rxPackets alloc i).toNat - k := by
    rw [sub_add_eq_sub_sub, BitVec.toNat_sub_of_le, hk]
    rw [BitVec.le_def, hk]
    omega
  rw [write_apply _ _ _ _ (by omega), List.getElem?_eq_none (by omega), Option.getD_none]

/-! ## The receive ring -/

section Rx

variable {D : Type} {drv : RxDriver D} {Canonical : (ℕ → BitVec 32) → ℕ → D → Prop}
  {alloc : BitVec 32} {s s' : Reception D} {past q : List (Deposit D)} {a : RxAction D}

/-- The ring is as good in any memory with the same frames in its buffers. -/
theorem RxDriver.Inv.same (h : drv.Inv Canonical alloc s past q) {mem : Mem 32}
    (hmem : SameBuffers alloc 0 drv.ringSize s.ring.mem mem) :
    drv.Inv Canonical alloc { s with ring := { s.ring with mem := mem } } past q where
  holds := h.holds.imp (fun _ hi _ hx => ⟨hx.desc, hx.own, hx.rxReinit, hx.length_le, hx.length_eq,
    (hmem.read (Nat.zero_le _) hi hx.length_le).trans hx.frame⟩) fun _ _ hfree => hfree
  deposited := h.deposited
  delivered := h.delivered
  held := h.held

theorem RxDriver.getPacket_mem (drv : RxDriver D) (packets : ℕ → BitVec 32) (ring : RxRing D) :
    (drv.getPacket packets ring).1.mem = ring.mem := by
  unfold RxDriver.getPacket
  simp only []
  split_ifs <;> rfl

/-- A step of the ring keeps to its own buffers. -/
theorem RxDriver.Inv.step_same (hdrv : drv.Lawful Canonical) (h : drv.Inv Canonical alloc s past q)
    {n : ℕ} (hn : 1600 * n ≤ 2 ^ 32) (hle : drv.ringSize ≤ n) (hmay : drv.mayDeposit s a = true)
    (hstep : drv.step (rxPackets alloc) s a = some s') :
    SameBuffers alloc drv.ringSize n s.ring.mem s'.ring.mem := by
  cases a with
  | deposit x =>
    simp only [RxDriver.mayDeposit, Bool.and_eq_true, Bool.or_eq_true, Bool.not_eq_true',
      decide_eq_true_eq, beq_iff_eq] at hmay
    obtain ⟨⟨⟨⟨hown, -⟩, -⟩, hlen⟩, -⟩ := hmay
    obtain ⟨-, hnic, hcanon⟩ := h.nic_free hown
    simp only [RxDriver.step, Option.some.injEq, hdrv.address hcanon] at hstep
    subst hstep
    have hwrite := @sameBuffers_write alloc n drv.ringSize n _ s.ring.mem _ _ hn (by omega) le_rfl
      (.inl hnic) (by omega : 0 + x.frame.length ≤ 1600)
    rw [BitVec.add_zero] at hwrite
    exact hwrite
  | getPacket =>
    simp only [RxDriver.step] at hstep
    split_ifs at hstep
    have hmem := drv.getPacket_mem (rxPackets alloc) s.ring
    split at hstep
    · rename_i ring hget
      rw [hget] at hmem
      rw [← Option.some.inj hstep]
      exact hmem ▸ sameBuffers_refl _ _ _ _
    · rename_i ring pkt hget
      rw [hget] at hmem
      rw [← Option.some.inj hstep]
      exact hmem ▸ sameBuffers_refl _ _ _ _
  | putPacket =>
    simp only [RxDriver.step] at hstep
    split_ifs at hstep
    rw [← Option.some.inj hstep]
    exact sameBuffers_refl _ _ _ _

end Rx

/-! ## The transmit ring -/

section Tx

variable {D : Type} {drv : TxDriver D} {Usable : (ℕ → BitVec 32) → ℕ → D → Prop} {slots : ℕ}
  {alloc : BitVec 32} {s s' : Transmission D} {q : List (List Byte)} {a : TxAction D}

theorem TxDriver.Inv.same (hdrv : drv.Lawful Usable slots)
    (h : drv.Inv Usable slots (txPackets drv.ringSize alloc) s q) {mem : Mem 32}
    (hmem : SameBuffers alloc drv.ringSize (2 * drv.ringSize) s.mem mem) :
    drv.Inv Usable slots (txPackets drv.ringSize alloc) { s with mem := mem } q := by
  have hslots := hdrv.slots_le
  have hread : ∀ i < slots, ∀ len ≤ 1600, read mem (txPackets drv.ringSize alloc i) len
      = read s.mem (txPackets drv.ringSize alloc i) len := fun i hi len hlen =>
    hmem.read (by omega) (by omega) hlen
  refine ⟨?_, h.txOffset_lt, h.handed, h.fifo, ?_⟩
  · exact h.holds.imp (fun i hi _ hx => ⟨hx.usable, hx.given, hx.length_le,
      (hread i hi _ hx.length_le).trans hx.frame⟩) fun _ _ hfree => hfree
  · have hready := h.ready
    rcases hphase : s.phase with - | ⟨sz, hdr, patience⟩ | ⟨sz, hdr, p⟩ | patience
    · exact trivial
    · rw [TxDriver.Ready, hphase] at hready
      exact hready
    · rw [TxDriver.Ready, hphase] at hready
      exact ⟨hready.sz_le, hready.p_eq, hready.own, hready.desc,
        (hread _ h.txOffset_lt 14 (by omega)).trans hready.hdr⟩
    · exact trivial

theorem TxDriver.Inv.step_same (hdrv : drv.Lawful Usable slots)
    (h : drv.Inv Usable slots (txPackets drv.ringSize alloc) s q)
    (hmay : drv.mayTransmit s a = true)
    (hstep : drv.step (txPackets drv.ringSize alloc) s a = some s') :
    SameBuffers alloc 0 drv.ringSize s.mem s'.mem := by
  have hslots := hdrv.slots_le
  have hoffset := h.txOffset_lt
  have hwrite : ∀ (k : ℕ) (bs : List Byte), k + bs.length ≤ 1600 →
      SameBuffers alloc 0 drv.ringSize s.mem
        (write s.mem (txPackets drv.ringSize alloc s.txOffset + BitVec.ofNat 32 k) bs) :=
    fun k bs hbs => sameBuffers_write alloc s.mem hdrv.ringSize_le (by omega) (by omega)
      (.inr (Nat.le_add_right _ _)) hbs
  cases a with
  | prepareSendPacket sz hdr =>
    simp only [TxDriver.step] at hstep
    split at hstep
    · split_ifs at hstep
      · exact (Option.some.inj hstep) ▸ sameBuffers_refl _ _ _ _
      · rw [← Option.some.inj hstep]
        exact sameBuffers_refl _ _ _ _
    · cases hstep
  | poll =>
    simp only [TxDriver.step] at hstep
    split at hstep
    · split_ifs at hstep
      · rw [← Option.some.inj hstep]
        exact sameBuffers_refl _ _ _ _
      · have hhdr := hwrite 0 ‹EthernetFrameHeader›.toList (by simp)
        rw [BitVec.add_zero] at hhdr
        rw [← Option.some.inj hstep]
        exact hhdr
    · split_ifs at hstep
      · rw [← Option.some.inj hstep]
        exact sameBuffers_refl _ _ _ _
      · rw [← Option.some.inj hstep]
        exact sameBuffers_refl _ _ _ _
    · cases hstep
  | fill k bs =>
    rcases hphase : s.phase with - | ⟨sz, hdr, patience⟩ | ⟨sz, hdr, p⟩ | patience
    · simp [TxDriver.step, hphase] at hstep
    · simp [TxDriver.step, hphase] at hstep
    · simp only [TxDriver.step, hphase, Option.some.injEq] at hstep
      simp only [TxDriver.mayTransmit, hphase, decide_eq_true_eq] at hmay
      have hprep := h.ready
      rw [TxDriver.Ready, hphase] at hprep
      have hsz := hprep.sz_le
      have hp : p + BitVec.ofNat 32 k =
          txPackets drv.ringSize alloc s.txOffset + BitVec.ofNat 32 (14 + k) := by
        rw [hprep.p_eq, BitVec.ofNat_add, ← BitVec.add_assoc]
        rfl
      rw [← hstep, hp]
      exact hwrite (14 + k) bs (by omega)
    · simp [TxDriver.step, hphase] at hstep
  | sendPacket =>
    simp only [TxDriver.step] at hstep
    split at hstep
    · split at hstep
      · rw [← Option.some.inj hstep]
        exact sameBuffers_refl _ _ _ _
      · rw [← Option.some.inj hstep]
        exact sameBuffers_refl _ _ _ _
    · cases hstep
  | fetch =>
    simp only [TxDriver.step] at hstep
    split_ifs at hstep
    rw [← Option.some.inj hstep]
    exact sameBuffers_refl _ _ _ _
  | transmit tx =>
    simp only [TxDriver.step] at hstep
    split at hstep
    · rw [← Option.some.inj hstep]
      exact sameBuffers_refl _ _ _ _
    · cases hstep

/-! ### What the driver is asked for -/

/-- The size and the header of the frame it is at work on. -/
def TxPhase.asks : TxPhase → Option (ℕ × EthernetFrameHeader)
  | .waiting sz hdr _ => some (sz, hdr)
  | .filling sz hdr _ => some (sz, hdr)
  | _ => none

/-- Only the two calls of the driver change what it is asked for. -/
theorem TxDriver.step_asks {packets : ℕ → BitVec 32}
    (hcall : a ≠ .sendPacket ∧ ∀ sz hdr, a ≠ .prepareSendPacket sz hdr)
    (hstep : drv.step packets s a = some s') :
    s'.handed = s.handed ∧ s'.phase.asks = s.phase.asks ∧ (s.phase = .idle → s'.phase = .idle) := by
  cases a with
  | prepareSendPacket sz hdr => exact absurd rfl (hcall.2 sz hdr)
  | sendPacket => exact absurd rfl hcall.1
  | poll =>
    rcases hphase : s.phase with - | ⟨sz, hdr, patience⟩ | ⟨sz, hdr, p⟩ | patience
    · simp [TxDriver.step, hphase] at hstep
    · simp only [TxDriver.step, hphase] at hstep
      split_ifs at hstep
      · exact (Option.some.inj hstep) ▸ ⟨rfl, rfl, TxPhase.noConfusion⟩
      · exact (Option.some.inj hstep) ▸ ⟨rfl, rfl, TxPhase.noConfusion⟩
    · simp [TxDriver.step, hphase] at hstep
    · simp only [TxDriver.step, hphase] at hstep
      split_ifs at hstep
      · exact (Option.some.inj hstep) ▸ ⟨rfl, rfl, TxPhase.noConfusion⟩
      · exact (Option.some.inj hstep) ▸ ⟨rfl, rfl, TxPhase.noConfusion⟩
  | fill k bs =>
    simp only [TxDriver.step] at hstep
    split at hstep
    · exact (Option.some.inj hstep) ▸ ⟨rfl, rfl, id⟩
    · cases hstep
  | fetch =>
    simp only [TxDriver.step] at hstep
    split at hstep
    · exact (Option.some.inj hstep) ▸ ⟨rfl, rfl, id⟩
    · cases hstep
  | transmit tx =>
    simp only [TxDriver.step] at hstep
    split at hstep
    · exact (Option.some.inj hstep) ▸ ⟨rfl, rfl, id⟩
    · cases hstep

theorem TxDriver.step_prepare {packets : ℕ → BitVec 32} {sz : ℕ} {hdr : EthernetFrameHeader}
    (hstep : drv.step packets s (.prepareSendPacket sz hdr) = some s') :
    s'.handed = s.handed ∧ (s'.phase.asks = s.phase.asks ∨ s'.phase.asks = some (sz, hdr)) := by
  simp only [TxDriver.step] at hstep
  split at hstep
  · split_ifs at hstep
    · exact (Option.some.inj hstep) ▸ ⟨rfl, .inl rfl⟩
    · exact (Option.some.inj hstep) ▸ ⟨rfl, .inr rfl⟩
  · cases hstep

theorem TxDriver.step_sendPacket {packets : ℕ → BitVec 32}
    (hstep : drv.step packets s .sendPacket = some s') :
    ∃ sz hdr p, s.phase = .filling sz hdr p
      ∧ s'.handed = s.handed ++ [hdr.toList ++ read s.mem p sz] ∧ s'.phase.asks = none := by
  rcases hphase : s.phase with - | ⟨sz, hdr, patience⟩ | ⟨sz, hdr, p⟩ | patience
  · simp [TxDriver.step, hphase] at hstep
  · simp [TxDriver.step, hphase] at hstep
  · refine ⟨sz, hdr, p, rfl, ?_⟩
    simp only [TxDriver.step, hphase] at hstep
    split at hstep
    · exact (Option.some.inj hstep) ▸ ⟨rfl, rfl⟩
    · exact (Option.some.inj hstep) ▸ ⟨rfl, rfl⟩
  · simp [TxDriver.step, hphase] at hstep

end Tx

/-! ## Packets and rounds -/

/-- The header is copied as it stands. -/
theorem EthernetFrameHeader.toList_ofBytes {bs : List Byte} (h : bs.length = 14) :
    (ofBytes bs).toList = bs := by
  match bs, h with
  | [a, b, c, d, e, f, g, h, i, j, k, l, m, n], _ => ?_
  have hlow : (n ++ m : BitVec 16).setWidth 8 = m := by
    refine BitVec.eq_of_getLsbD_eq fun i hi => ?_
    rw [BitVec.getLsbD_setWidth, BitVec.getLsbD_append]
    simp [hi]
  have hhigh : ((n ++ m : BitVec 16) >>> 8).setWidth 8 = n := by
    refine BitVec.eq_of_getLsbD_eq fun i hi => ?_
    rw [BitVec.getLsbD_setWidth, BitVec.getLsbD_ushiftRight, BitVec.getLsbD_append]
    simp [hi]
  show [a, b, c, d, e, f, g, h, i, j, k, l, (n ++ m : BitVec 16).setWidth 8,
    ((n ++ m : BitVec 16) >>> 8).setWidth 8] = _
  rw [hlow, hhigh]

/-- What came with the frame is what was delivered. -/
theorem RxPacket.delivery_received {pkt : RxPacket} (h : pkt.hdr.length = 14) (mem : Mem 32)
    (reach : BitVec 32) : (pkt.received mem reach).delivery
      = { sz := pkt.sz, hdr := pkt.hdr, data := read mem pkt.p pkt.sz.toNat } := by
  unfold Received.delivery RxPacket.received
  simp only [EthernetFrameHeader.toList_ofBytes h, BitVec.ofNat_toNat, BitVec.setWidth_eq,
    read_take mem pkt.p (le_max_left pkt.sz.toNat reach.toNat)]

/-- A packet taken up is delivered with the header that was copied. -/
theorem RxDriver.step_getPacket {D : Type} {drv : RxDriver D} {packets : ℕ → BitVec 32}
    {s s' : Reception D} (hstep : drv.step packets s .getPacket = some s') :
    s.held = none ∧ ((s'.held = none ∧ s'.delivered = s.delivered)
      ∨ ∃ pkt, s'.held = some pkt ∧ pkt.hdr.length = 14 ∧ s'.delivered = s.delivered ++
        [{ sz := pkt.sz, hdr := pkt.hdr, data := read s'.ring.mem pkt.p pkt.sz.toNat }]) := by
  simp only [RxDriver.step] at hstep
  split_ifs at hstep with hheld
  have hnone : s.held = none := by simpa using hheld
  refine ⟨hnone, ?_⟩
  split at hstep
  · exact .inl ((Option.some.inj hstep) ▸ ⟨hnone, rfl⟩)
  · rename_i ring pkt hget
    have hhdr : pkt.hdr.length = 14 := by
      unfold RxDriver.getPacket at hget
      simp only [] at hget
      split_ifs at hget <;> simp only [Prod.mk.injEq, reduceCtorEq, and_false, Option.some.injEq]
        at hget
      rw [← hget.2, length_read]
    exact .inr ((Option.some.inj hstep) ▸ ⟨pkt, rfl, hhdr, rfl⟩)

theorem netIdleRounds_concat (code : BitVec 32 → Mem 32 → Mem 32) (r : Received) :
    ∀ (dev : Device) (rs : List Received), netIdleRounds code dev (rs ++ [r])
      = ((netIdle code (netIdleRounds code dev rs).1 (some r)).1, (netIdleRounds code dev rs).2
        ++ (netIdle code (netIdleRounds code dev rs).1 (some r)).2.sent)
  | dev, [] => by simp [netIdleRounds]
  | dev, r' :: rs => by
    rw [List.cons_append, netIdleRounds, netIdleRounds_concat code r _ rs, netIdleRounds]
    simp only [List.append_assoc]

/-! ## The station -/

section Station

variable {D E : Type} {rxd : RxDriver D} {txd : TxDriver E}
  (Canonical : (ℕ → BitVec 32) → ℕ → D → Prop) (Usable : (ℕ → BitVec 32) → ℕ → E → Prop)
  (slots : ℕ) (alloc : BitVec 32) (code : BitVec 32 → Mem 32 → Mem 32) (reach : BitVec 32)

/-- Each ring is in order in the memory they share, and between them the program has sent what it
answers to the packets that were delivered, but for what it still has to send. -/
structure Station.Inv (rxd : RxDriver D) (txd : TxDriver E) (dev : Device) (s : Station D E) :
    Prop where
  rx : ∃ past q, rxd.Inv Canonical alloc s.rx past q
  tx : ∃ q, txd.Inv Usable slots (txPackets txd.ringSize alloc) s.tx q
  mem : s.tx.mem = s.rx.ring.mem
  seen : s.seen.map Received.delivery = s.rx.delivered
  handed : s.tx.handed ++ s.todo.map Frame.wire
    = (netIdleRounds code dev s.seen).2.map Frame.wire
  state : s.dev = (netIdleRounds code dev s.seen).1
  idle : s.rx.held = none → s.todo = [] ∧ s.tx.phase = .idle
  asked : ∀ sz hdr, s.tx.phase.asks = some (sz, hdr) →
    ∃ f rest, s.todo = f :: rest ∧ f.hdr = hdr ∧ f.payload.length = sz

variable {Canonical Usable slots alloc code reach} {dev : Device} {s s' : Station D E}

theorem Station.Inv.start (hrx : rxd.Lawful Canonical) (htx : txd.Lawful Usable slots) (mem : Mem 32)
    (dev : Device) : Station.Inv Canonical Usable slots alloc code rxd txd dev
      (Station.start rxd txd alloc mem dev) where
  rx := ⟨[], [], .start hrx mem⟩
  tx := ⟨[], .start htx mem⟩
  mem := rfl
  seen := rfl
  handed := rfl
  state := rfl
  idle _ := ⟨rfl, rfl⟩
  asked _ _ h := by simp [Station.start, TxDriver.start, TxPhase.asks] at h

/-- After a step of the receive ring both rings are in order. -/
theorem Station.Inv.withRx (hrx : rxd.Lawful Canonical) (htx : txd.Lawful Usable slots)
    (hsize : rxd.ringSize = txd.ringSize) {rx : Reception D} {a : RxAction D}
    (h : Station.Inv Canonical Usable slots alloc code rxd txd dev s)
    (hmay : rxd.mayDeposit s.rx a = true) (hstep : rxd.step (rxPackets alloc) s.rx a = some rx) :
    (∃ past q, rxd.Inv Canonical alloc rx past q)
      ∧ ∃ q, txd.Inv Usable slots (txPackets txd.ringSize alloc) (s.withRx rx).tx q := by
  have hrun := RxDriver.Inv.step hrx h.rx hmay hstep
  obtain ⟨past, q, hrxInv⟩ := h.rx
  obtain ⟨p, htxInv⟩ := h.tx
  have hsame := hrxInv.step_same hrx htx.ringSize_le (by omega) hmay hstep
  rw [hsize, ← h.mem] at hsame
  exact ⟨hrun, p, htxInv.same htx hsame⟩

/-- And after a step of the transmit ring. -/
theorem Station.Inv.withTx (htx : txd.Lawful Usable slots) (hsize : rxd.ringSize = txd.ringSize)
    {tx : Transmission E} {a : TxAction E}
    (h : Station.Inv Canonical Usable slots alloc code rxd txd dev s)
    (hmay : txd.mayTransmit s.tx a = true)
    (hstep : txd.step (txPackets txd.ringSize alloc) s.tx a = some tx) :
    (∃ past q, rxd.Inv Canonical alloc (s.withTx tx).rx past q)
      ∧ ∃ q, txd.Inv Usable slots (txPackets txd.ringSize alloc) tx q := by
  have hrun := TxDriver.Inv.step htx h.tx hmay hstep
  obtain ⟨past, q, hrxInv⟩ := h.rx
  obtain ⟨p, htxInv⟩ := h.tx
  have hsame := htxInv.step_same htx hmay hstep
  rw [← hsize, h.mem] at hsame
  exact ⟨⟨past, q, hrxInv.same hsame⟩, hrun⟩

theorem Station.Inv.deposit (hrx : rxd.Lawful Canonical) (htx : txd.Lawful Usable slots)
    (hsize : rxd.ringSize = txd.ringSize) {x : Deposit D}
    (h : Station.Inv Canonical Usable slots alloc code rxd txd dev s)
    (hmay : Station.may rxd txd s (.deposit x) = true)
    (hstep : Station.step rxd txd alloc code reach s (.deposit x) = some s') :
    Station.Inv Canonical Usable slots alloc code rxd txd dev s' := by
  rw [Station.step] at hstep
  obtain ⟨rx, hrxstep, rfl⟩ := Option.map_eq_some_iff.1 hstep
  obtain ⟨hrxInv, htxInv⟩ := h.withRx (a := .deposit x) hrx htx hsize hmay hrxstep
  have hkept : rx.delivered = s.rx.delivered ∧ rx.held = s.rx.held := by
    rw [RxDriver.step, Option.some.injEq] at hrxstep
    exact hrxstep ▸ ⟨rfl, rfl⟩
  exact ⟨hrxInv, htxInv, rfl, h.seen.trans hkept.1.symm, h.handed, h.state,
    fun hheld => h.idle (hkept.2 ▸ hheld), h.asked⟩

/-- The round takes a packet up and finds out what there is to send. -/
theorem Station.Inv.getPacket (hrx : rxd.Lawful Canonical) (htx : txd.Lawful Usable slots)
    (hsize : rxd.ringSize = txd.ringSize)
    (h : Station.Inv Canonical Usable slots alloc code rxd txd dev s)
    (hstep : Station.step rxd txd alloc code reach s .getPacket = some s') :
    Station.Inv Canonical Usable slots alloc code rxd txd dev s' := by
  rw [Station.step] at hstep
  split_ifs at hstep
  obtain ⟨rx, hrxstep, rfl⟩ := Option.map_eq_some_iff.1 hstep
  obtain ⟨hrxInv, htxInv⟩ := h.withRx hrx htx hsize rfl hrxstep
  obtain ⟨hnone, hcases⟩ := RxDriver.step_getPacket hrxstep
  obtain ⟨htodo, hphase⟩ := h.idle hnone
  rcases hcases with ⟨hheld, hdelivered⟩ | ⟨pkt, hheld, hhdr, hdelivered⟩
  · have hworked : s.worked code reach rx = s.withRx rx := by
      rw [Station.worked, hheld]
    rw [hworked]
    exact ⟨hrxInv, htxInv, rfl, h.seen.trans hdelivered.symm, h.handed, h.state,
      fun _ => ⟨htodo, hphase⟩, h.asked⟩
  · have hhanded := h.handed
    rw [htodo, List.map_nil, List.append_nil] at hhanded
    have hworked : s.worked code reach rx
        = { s.withRx rx with
            dev := (netIdle code s.dev (some (pkt.received rx.ring.mem reach))).1
            todo := (netIdle code s.dev (some (pkt.received rx.ring.mem reach))).2.sent
            seen := s.seen ++ [pkt.received rx.ring.mem reach] } := by
      rw [Station.worked, hheld]
    rw [hworked]
    refine ⟨hrxInv, htxInv, rfl, ?_, ?_, ?_, ?_, ?_⟩
    · show (s.seen ++ [pkt.received rx.ring.mem reach]).map Received.delivery = rx.delivered
      rw [List.map_append, h.seen, hdelivered, List.map_singleton,
        RxPacket.delivery_received hhdr]
    · rw [netIdleRounds_concat, List.map_append, ← hhanded, h.state]
      rfl
    · rw [netIdleRounds_concat, h.state]
    · exact fun hidle => absurd (hheld.symm.trans hidle) nofun
    · intro sz hdr hasks
      have hidle : (s.withRx rx).tx.phase = .idle := hphase
      simp only [hidle, TxPhase.asks, reduceCtorEq] at hasks

theorem Station.Inv.putPacket (hrx : rxd.Lawful Canonical) (htx : txd.Lawful Usable slots)
    (hsize : rxd.ringSize = txd.ringSize)
    (h : Station.Inv Canonical Usable slots alloc code rxd txd dev s)
    (hstep : Station.step rxd txd alloc code reach s .putPacket = some s') :
    Station.Inv Canonical Usable slots alloc code rxd txd dev s' := by
  rw [Station.step] at hstep
  split at hstep
  · rename_i htodo hphase
    obtain ⟨rx, hrxstep, rfl⟩ := Option.map_eq_some_iff.1 hstep
    obtain ⟨hrxInv, htxInv⟩ := h.withRx hrx htx hsize rfl hrxstep
    have hkept : rx.delivered = s.rx.delivered := by
      rw [RxDriver.step] at hrxstep
      split_ifs at hrxstep
      exact (Option.some.inj hrxstep) ▸ rfl
    exact ⟨hrxInv, htxInv, rfl, h.seen.trans hkept.symm, h.handed, h.state,
      fun _ => ⟨htodo, hphase⟩, h.asked⟩
  · cases hstep

/-! ### Sending -/

/-- The place is asked for with the header and the size of the frame to be sent. -/
theorem Station.Inv.prepare (htx : txd.Lawful Usable slots) (hsize : rxd.ringSize = txd.ringSize)
    {sz : ℕ} {hdr : EthernetFrameHeader}
    (h : Station.Inv Canonical Usable slots alloc code rxd txd dev s)
    (hmay : Station.may rxd txd s (.transmit (.prepareSendPacket sz hdr)) = true)
    (hstep : Station.step rxd txd alloc code reach s (.transmit (.prepareSendPacket sz hdr))
      = some s') : Station.Inv Canonical Usable slots alloc code rxd txd dev s' := by
  obtain ⟨tx, htxstep, rfl⟩ := Option.map_eq_some_iff.1 hstep
  obtain ⟨hrxInv, htxInv⟩ := h.withTx htx hsize rfl htxstep
  obtain ⟨hhanded, hasks⟩ := TxDriver.step_prepare htxstep
  obtain ⟨f, rest, htodo, hf⟩ : ∃ f rest, s.todo = f :: rest ∧ f.hdr = hdr
      ∧ f.payload.length = sz := by
    rcases htodo : s.todo with - | ⟨f, rest⟩
    · simp [Station.may, Station.mayPrepare, htodo] at hmay
    · refine ⟨f, rest, rfl, ?_⟩
      simpa [Station.may, Station.mayPrepare, htodo] using hmay
  refine ⟨hrxInv, htxInv, rfl, h.seen, ?_, h.state, fun hheld => ?_, fun sz' hdr' h' => ?_⟩
  · show tx.handed ++ _ = _
    rw [hhanded]
    exact h.handed
  · rw [(h.idle hheld).1] at htodo
    exact absurd htodo nofun
  · rcases hasks with hsame | hnew
    · exact h.asked sz' hdr' (hsame ▸ h')
    · obtain ⟨rfl, rfl⟩ := Prod.mk.inj (Option.some.inj (hnew.symm.trans h'))
      exact ⟨f, rest, htodo, hf⟩

/-- What is handed over is the frame to be sent. -/
theorem Station.Inv.sendPacket (htx : txd.Lawful Usable slots) (hsize : rxd.ringSize = txd.ringSize)
    (h : Station.Inv Canonical Usable slots alloc code rxd txd dev s)
    (hmay : Station.may rxd txd s (.transmit .sendPacket) = true)
    (hstep : Station.step rxd txd alloc code reach s (.transmit .sendPacket) = some s') :
    Station.Inv Canonical Usable slots alloc code rxd txd dev s' := by
  obtain ⟨tx, htxstep, rfl⟩ := Option.map_eq_some_iff.1 hstep
  obtain ⟨hrxInv, htxInv⟩ := h.withTx htx hsize rfl htxstep
  obtain ⟨sz, hdr, p, hphase, hhanded, hasks⟩ := TxDriver.step_sendPacket htxstep
  obtain ⟨f, rest, htodo, hhdr, -⟩ := h.asked sz hdr (by rw [hphase]; rfl)
  have hpayload : read s.tx.mem p sz = f.payload := by
    simpa [Station.may, Station.maySend, hphase, htodo] using hmay
  refine ⟨hrxInv, htxInv, rfl, h.seen, ?_, h.state, fun hheld => ?_, fun sz' hdr' h' => ?_⟩
  · show tx.handed ++ s.todo.tail.map Frame.wire = (netIdleRounds code dev s.seen).2.map Frame.wire
    have hsent := h.handed
    rw [htodo, List.map_cons] at hsent
    rw [hhanded, htodo, hpayload, ← hhdr, ← hsent, List.append_assoc]
    rfl
  · rw [(h.idle hheld).1] at htodo
    exact absurd htodo nofun
  · exact absurd (hasks.symm.trans h') nofun

/-- The other steps at the transmit ring are no calls of the driver. -/
theorem Station.Inv.transmit (htx : txd.Lawful Usable slots) (hsize : rxd.ringSize = txd.ringSize)
    {a : TxAction E} (hcall : a ≠ .sendPacket ∧ ∀ sz hdr, a ≠ .prepareSendPacket sz hdr)
    (h : Station.Inv Canonical Usable slots alloc code rxd txd dev s)
    (hmay : txd.mayTransmit s.tx a = true)
    (hstep : (txd.step (txPackets txd.ringSize alloc) s.tx a).map s.withTx = some s') :
    Station.Inv Canonical Usable slots alloc code rxd txd dev s' := by
  obtain ⟨tx, htxstep, rfl⟩ := Option.map_eq_some_iff.1 hstep
  obtain ⟨hrxInv, htxInv⟩ := h.withTx htx hsize hmay htxstep
  obtain ⟨hhanded, hasks, hidle⟩ := TxDriver.step_asks hcall htxstep
  refine ⟨hrxInv, htxInv, rfl, h.seen, ?_, h.state, fun hheld => ?_, fun sz hdr h' => ?_⟩
  · show tx.handed ++ _ = _
    rw [hhanded]
    exact h.handed
  · obtain ⟨htodo, hphase⟩ := h.idle hheld
    exact ⟨htodo, hidle hphase⟩
  · exact h.asked sz hdr (hasks ▸ h')

theorem Station.Inv.step (hrx : rxd.Lawful Canonical) (htx : txd.Lawful Usable slots)
    (hsize : rxd.ringSize = txd.ringSize) {a : StationAction D E}
    (h : Station.Inv Canonical Usable slots alloc code rxd txd dev s)
    (hmay : Station.may rxd txd s a = true)
    (hstep : Station.step rxd txd alloc code reach s a = some s') :
    Station.Inv Canonical Usable slots alloc code rxd txd dev s' := by
  cases a with
  | deposit x => exact h.deposit hrx htx hsize hmay hstep
  | getPacket => exact h.getPacket hrx htx hsize hstep
  | putPacket => exact h.putPacket hrx htx hsize hstep
  | transmit a =>
    cases a with
    | prepareSendPacket sz hdr => exact h.prepare htx hsize hmay hstep
    | sendPacket => exact h.sendPacket htx hsize hmay hstep
    | poll => exact h.transmit (a := .poll) htx hsize ⟨nofun, nofun⟩ hmay hstep
    | fill k bs => exact h.transmit (a := .fill k bs) htx hsize ⟨nofun, nofun⟩ hmay hstep
    | fetch => exact h.transmit (a := .fetch) htx hsize ⟨nofun, nofun⟩ hmay hstep
    | transmit tx => exact h.transmit (a := .transmit tx) htx hsize ⟨nofun, nofun⟩ hmay hstep

theorem Station.Inv.answering (hrx : rxd.Lawful Canonical)
    (h : Station.Inv Canonical Usable slots alloc code rxd txd dev s) :
    s.Answering rxd txd code slots dev := by
  obtain ⟨past, q, hrxInv⟩ := h.rx
  obtain ⟨p, htxInv⟩ := h.tx
  have htxOrder := htxInv.inOrder
  refine ⟨?_, ?_, h.state, ?_, fun hheld hown => ?_⟩
  · rw [h.seen]
    exact (hrxInv.inOrder hrx).delivered
  · rw [← h.handed]
    exact htxOrder.sent.trans (List.prefix_append _ _)
  · have hlen := congrArg List.length h.handed
    rw [List.length_append, List.length_map, List.length_map] at hlen
    have hwaiting := htxOrder.waiting
    omega
  · have hhanded := h.handed
    rw [(h.idle hheld).1, List.map_nil, List.append_nil] at hhanded
    rw [htxOrder.drained hown, hhanded]

theorem Station.Runs.answering (hrx : rxd.Lawful Canonical) (htx : txd.Lawful Usable slots)
    (hsize : rxd.ringSize = txd.ringSize) {mem : Mem 32}
    (h : Station.Runs rxd txd alloc code reach mem dev s) : s.Answering rxd txd code slots dev :=
  (Transition.Reaches.invariant h (Station.Inv.start hrx htx mem dev)
    fun _ _ _ hs hok hstep => hs.step hrx htx hsize hok hstep).answering hrx

end Station

/-- From the wire and back: in every run of a debugger on either PCI card in which the card gives a
transmit descriptor back before the driver's wait for it ends, what goes out is what `net_idle`
answers to the whole good frames that came in, in order and byte for byte. -/
theorem stations_answer (alloc : BitVec 32) (code : BitVec 32 → Mem 32 → Mem 32)
    (reach : BitVec 32) (mem : Mem 32) (dev : Device) :
    (∀ s, Station.Runs pcnet32 pcnet32Tx alloc code reach mem dev s →
      s.Answering pcnet32 pcnet32Tx code 16 dev) ∧
    ∀ s, Station.Runs rtl8101 rtl8101Tx alloc code reach mem dev s →
      s.Answering rtl8101 rtl8101Tx code 1 dev :=
  ⟨fun _ h => h.answering pcnet32_lawful pcnet32Tx_lawful rfl,
    fun _ h => h.answering rtl8101_lawful rtl8101Tx_lawful rfl⟩

/-- 192.168.0.`n` asks everyone for 192.168.0.2. -/
def whoHas (n : Byte) : List Byte :=
  List.replicate 6 0xFF ++ [2, 0, 0, 0, 0, n, 0x08, 0x06]
    ++ [0, 1, 8, 0, 6, 4, 0, 1, 2, 0, 0, 0, 0, n, 192, 168, 0, n, 0, 0, 0, 0, 0, 0, 192, 168, 0, 2]

/-- The debugger's answer. -/
def isAt (n : Byte) : Frame where
  hdr := { dstMac := mac 2 0 0 0 0 n, srcMac := mac 2 0 0 0 0 2, type := ntoh16 0x0806 }
  payload :=
    [0, 1, 8, 0, 6, 4, 0, 2, 2, 0, 0, 0, 0, 2, 192, 168, 0, 2, 2, 0, 0, 0, 0, n, 192, 168, 0, n]

/-- The host that asks the `i`-th question. -/
def asker (i : ℕ) : Byte := BitVec.ofNat 8 (3 + i)

/-- `n` frames come and go that `net_idle` does nothing about. -/
def passOver {D E : Type} (rx : ℕ → D) (n : ℕ) : List (StationAction D E) :=
  (List.range n).flatMap fun i => [.deposit ⟨rx i, numberedFrame i⟩, .getPacket, .putPacket]

/-- The next question comes in, a question is answered, the answer put together in two pieces, and
the card sends it.  `waits` is the driver's wait for the card, if it has one. -/
def answerNext {D E : Type} (waits : List (StationAction D E)) (rx : ℕ → D) (tx : ℕ → E) (i : ℕ) :
    List (StationAction D E) :=
  List.flatten
    [[.deposit ⟨rx (i + 1), whoHas (asker (i + 1))⟩, .getPacket,
        .transmit (.prepareSendPacket 28 (isAt (asker i)).hdr), .transmit .poll,
        .transmit (.fill 8 ((isAt (asker i)).payload.drop 8)),
        .transmit (.fill 0 ((isAt (asker i)).payload.take 8)), .transmit .sendPacket],
      List.replicate 42 (.transmit .fetch), [.transmit (.transmit (tx i))], waits, [.putPacket]]

/-- `n` of these rounds, with a question always waiting. -/
def answerRounds {D E : Type} (waits : List (StationAction D E)) (rx : ℕ → D) (tx : ℕ → E)
    (n : ℕ) : List (StationAction D E) :=
  .deposit ⟨rx 0, whoHas (asker 0)⟩ :: (List.range n).flatMap (answerNext waits rx tx)

/-- Two questions are answered, the first out of the receive ring's last descriptor, the second out
of its first one. -/
theorem stations_answer_around :
    (∃ s, Station.Runs pcnet32 pcnet32Tx 0x100000 (fun _ mem => mem) 0 (fun _ => 0)
        { debugger with chosenNetDrv := .pcnet32 } s ∧
      s.tx.sent = [(isAt (asker 0)).wire, (isAt (asker 1)).wire] ∧
      s.Answering pcnet32 pcnet32Tx (fun _ mem => mem) 16
        { debugger with chosenNetDrv := .pcnet32 }) ∧
    ∃ s, Station.Runs rtl8101 rtl8101Tx 0x100000 (fun _ mem => mem) 0 (fun _ => 0)
        { debugger with chosenNetDrv := .rtl8101 } s ∧
      s.tx.sent = [(isAt (asker 0)).wire, (isAt (asker 1)).wire] ∧
      s.Answering rtl8101 rtl8101Tx (fun _ mem => mem) 1
        { debugger with chosenNetDrv := .rtl8101 } := by
  constructor
  · obtain ⟨s, hs, hsent⟩ := Transition.exists_reaches_of_exec_map
      (Station.step pcnet32 pcnet32Tx 0x100000 (fun _ mem => mem) 0)
      (Station.may pcnet32 pcnet32Tx · · = true)
      (passOver (fun i => ⟨rxPackets 0x100000 i, -1600, 0x0300, 15, 0⟩) 15 ++
        answerRounds [] (fun i => ⟨rxPackets 0x100000 ((15 + i) % 16), -1600, 0x0300, 42, 0⟩)
          (fun i => ⟨txPackets 16 0x100000 i, 0, 0, 0, 0⟩) 2)
      (s := Station.start pcnet32 pcnet32Tx 0x100000 (fun _ => 0)
        { debugger with chosenNetDrv := .pcnet32 })
      (f := fun s => s.tx.sent) (b := [(isAt (asker 0)).wire, (isAt (asker 1)).wire])
      (by decide +kernel)
    exact ⟨s, hs, hsent,
      (stations_answer 0x100000 (fun _ mem => mem) 0 (fun _ => 0)
        { debugger with chosenNetDrv := .pcnet32 }).1 s hs⟩
  · obtain ⟨s, hs, hsent⟩ := Transition.exists_reaches_of_exec_map
      (Station.step rtl8101 rtl8101Tx 0x100000 (fun _ mem => mem) 0)
      (Station.may rtl8101 rtl8101Tx · · = true)
      (passOver (fun _ => ⟨0x3000000F, 0, 0⟩) 3 ++
        answerRounds [.transmit .poll] (fun _ => ⟨0x3000002A, 0, 0⟩) (fun _ => ⟨0, 0, 0⟩) 2)
      (s := Station.start rtl8101 rtl8101Tx 0x100000 (fun _ => 0)
        { debugger with chosenNetDrv := .rtl8101 })
      (f := fun s => s.tx.sent) (b := [(isAt (asker 0)).wire, (isAt (asker 1)).wire])
      (by decide +kernel)
    exact ⟨s, hs, hsent,
      (stations_answer 0x100000 (fun _ mem => mem) 0 (fun _ => 0)
        { debugger with chosenNetDrv := .rtl8101 }).2 s hs⟩

end RemoteX86
