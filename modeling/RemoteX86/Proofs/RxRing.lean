import RemoteX86.RxRing

/-!
# Both rings deliver in order, once

The card's descriptors are canonical, and a descriptor it gave up becomes canonical when it is
reinitialised, whatever else the card wrote into it (`RxDriver.Lawful`).  That and the disjointness
of the buffers is all a run needs: what was deposited is what was taken up, followed by what the
ring still holds in order (`RxDriver.Inv`).
-/

namespace RemoteX86

open Hex Memory

section Laws

variable {D : Type}

/-- What the ring needs of its descriptors. -/
structure RxDriver.Lawful (drv : RxDriver D) (Canonical : (ℕ → BitVec 32) → ℕ → D → Prop) :
    Prop where
  ringSize_pos : 0 < drv.ringSize
  ringSize_le : 1600 * drv.ringSize ≤ 2 ^ 32
  init : ∀ {packets i}, i < drv.ringSize → Canonical packets i (drv.init packets i)
  rxReinit : ∀ {packets i d d'}, i < drv.ringSize → Canonical packets i d →
    drv.keeps d d' = true → Canonical packets i (drv.rxReinit packets d' i)
  own : ∀ {packets i d}, Canonical packets i d → drv.own d = true
  address : ∀ {packets i d}, Canonical packets i d → drv.address d = packets i
  wraps : ∀ {packets i d}, i < drv.ringSize → Canonical packets i d →
    drv.wraps d i = decide (drv.ringSize ≤ i + 1)

theorem pcnet32_lawful : pcnet32.Lawful Pcnet32RxHead.Canonical where
  ringSize_pos := by decide
  ringSize_le := by decide
  init _ := ⟨rfl, rfl, rfl, rfl, rfl⟩
  rxReinit _ h hkeep := by
    refine ⟨?_, rfl, rfl, rfl, rfl⟩
    rw [← h.base]
    exact eq_of_beq hkeep
  own h := by
    simp only [pcnet32, h.status]
    decide
  address h := h.base
  wraps {_ i _} hi _ := by
    have hlt : i < 16 := hi
    simp only [pcnet32, beq_eq_decide]
    exact decide_eq_decide.2 (by omega)

/-- A mask that meets none of the bits `rtl8101_rx_reinit` keeps sees only those it sets. -/
theorem rtl8101RxReinit_d1 (packets : ℕ → BitVec 32) (rx : Rtl8101RxHead) (entry : ℕ)
    {mask : BitVec 32} (h : 0x3FFFC000#32 &&& mask = 0#32) :
    (rtl8101RxReinit packets rx entry).d1 &&& mask =
      (if entry = 3 then 0x40000000#32 else 0#32) &&& mask ||| (0x80000640#32 &&& mask) := by
  have hkept : rx.d1 &&& 0x3FFFC000#32 &&& mask = 0#32 := by
    rw [BitVec.and_assoc, h, BitVec.and_zero]
  unfold rtl8101RxReinit
  split_ifs with hlast
  · calc (rx.d1 &&& 0x3FFFC000#32 ||| 0x40000000#32 ||| 0x80000640#32) &&& mask
        = (rx.d1 &&& 0x3FFFC000#32 &&& mask) ||| (0x40000000#32 &&& mask) |||
          (0x80000640#32 &&& mask) := by
          rw [BitVec.and_or_distrib_right, BitVec.and_or_distrib_right]
      _ = (0x40000000#32 &&& mask) ||| (0x80000640#32 &&& mask) := by
          rw [hkept, BitVec.zero_or]
  · calc (rx.d1 &&& 0x3FFFC000#32 ||| 0x80000640#32) &&& mask
        = (rx.d1 &&& 0x3FFFC000#32 &&& mask) ||| (0x80000640#32 &&& mask) := by
          rw [BitVec.and_or_distrib_right]
      _ = (0#32 &&& mask) ||| (0x80000640#32 &&& mask) := by rw [hkept, BitVec.zero_and]

theorem rtl8101_lawful : rtl8101.Lawful Rtl8101RxHead.Canonical where
  ringSize_pos := by decide
  ringSize_le := by decide
  init {_ i} _ := by
    refine ⟨rfl, ?_, ?_, ?_, rfl⟩ <;> by_cases hi : i = 3 <;> simp [rtl8101, hi]
  rxReinit {packets i d d'} _ _ _ := by
    refine ⟨rfl, ?_, ?_, ?_, rfl⟩
    · refine (rtl8101RxReinit_d1 packets d' i rfl).trans ?_
      split_ifs <;> rfl
    · refine (rtl8101RxReinit_d1 packets d' i rfl).trans ?_
      split_ifs <;> rfl
    · refine (rtl8101RxReinit_d1 packets d' i rfl).trans ?_
      split_ifs <;> rfl
  own h := by
    simp only [rtl8101, h.own]
    decide
  address h := by simp [rtl8101, h.addr]
  wraps {_ i _} hi h := by
    have hlt : i < 4 := hi
    have hwraps : rtl8101.wraps _ i = ((if i = 3 then 0x40000000#32 else 0#32) != 0#32) :=
      congrArg (· != 0#32) h.eor
    rw [hwraps]
    by_cases hlast : i = 3
    · subst hlast
      rfl
    · rw [if_neg hlast]
      exact (decide_eq_false (by omega : ¬4 ≤ i + 1)).symm

end Laws

/-! ## The buffers -/

/-- The buffers of two entries have no byte in common. -/
theorem rxPackets_disjoint (alloc : BitVec 32) {n i j k : ℕ} (hn : 1600 * n ≤ 2 ^ 32) (hi : i < n)
    (hj : j < n) (hne : j ≠ i) (hk : k < 1600) :
    1600 ≤ (rxPackets alloc j + BitVec.ofNat 32 k - rxPackets alloc i).toNat := by
  have hsub : rxPackets alloc j + BitVec.ofNat 32 k - rxPackets alloc i =
      BitVec.ofNat 32 (1600 * j + k) - BitVec.ofNat 32 (1600 * i) := by
    rw [rxPackets, rxPackets, BitVec.ofNat_add, BitVec.add_assoc]
    exact add_sub_add_left_eq_sub _ _ _
  rw [hsub, BitVec.toNat_sub, BitVec.toNat_ofNat, BitVec.toNat_ofNat,
    Nat.mod_eq_of_lt (by omega : 1600 * i < 2 ^ 32),
    Nat.mod_eq_of_lt (by omega : 1600 * j + k < 2 ^ 32)]
  rcases Nat.lt_or_gt_of_ne hne with hlt | hgt
  · rw [Nat.mod_eq_of_lt (by omega)]
    omega
  · rw [Nat.mod_eq_sub_mod (by omega), Nat.mod_eq_of_lt (by omega)]
    omega

/-- A deposit into one buffer leaves the frames in the others. -/
theorem read_rxPackets (alloc : BitVec 32) (m : Mem 32) {n i j : ℕ} {bs : List Byte} {len : ℕ}
    (hn : 1600 * n ≤ 2 ^ 32) (hi : i < n) (hj : j < n) (hne : j ≠ i) (hbs : bs.length ≤ 1600)
    (hlen : len ≤ 1600) :
    read (write m (rxPackets alloc i) bs) (rxPackets alloc j) len =
      read m (rxPackets alloc j) len := by
  refine read_write_of_disjoint _ _ _ (by omega) fun k hk => ?_
  exact hbs.trans (rxPackets_disjoint alloc hn hi hj hne (by omega))

/-! ## Runs -/

section Runs

variable {D : Type} (drv : RxDriver D) (Canonical : (ℕ → BitVec 32) → ℕ → D → Prop)
  (alloc : BitVec 32)

/-- Descriptor `i` is the driver's, and it and its buffer are as the card left them. -/
structure RxDriver.Filled (s : RxRing D) (i : ℕ) (x : Deposit D) : Prop where
  desc : s.rx i = x.desc
  own : drv.own x.desc = false
  rxReinit : Canonical (rxPackets alloc) i (drv.rxReinit (rxPackets alloc) x.desc i)
  length_le : x.frame.length ≤ 1600
  length_eq : drv.complete x = true → drv.frameLength x.desc = BitVec.ofNat 32 x.frame.length
  frame : read s.mem (rxPackets alloc i) x.frame.length = x.frame

/-- The frames of these descriptors that are to be delivered. -/
def RxDriver.deliveries (xs : List (Deposit D)) : List Delivery :=
  (xs.filter drv.complete).map Deposit.delivery

/-- `past` was taken up, and the ring holds `q`, of which the first is being worked on if any is. -/
structure RxDriver.Inv (s : Reception D) (past q : List (Deposit D)) : Prop where
  holds : Ring.Holds drv.ringSize (drv.Filled Canonical alloc s.ring)
    (fun i => Canonical (rxPackets alloc) i (s.ring.rx i)) s.ring.rxOffset s.nic q
  deposited : s.deposited = past ++ q
  delivered : s.delivered = drv.deliveries (past ++ q.take s.held.toList.length)
  held : ∀ pkt, s.held = some pkt → ∃ x rest, q = x :: rest ∧ drv.complete x = true ∧
    14 ≤ x.frame.length ∧ pkt = { sz := x.delivery.sz, hdr := x.delivery.hdr,
                                  p := rxPackets alloc s.ring.rxOffset + 14 }

variable {drv Canonical alloc} {s s' : Reception D} {past q : List (Deposit D)} {x : Deposit D}

theorem RxDriver.Inv.start (hdrv : drv.Lawful Canonical) (mem : Mem 32) :
    drv.Inv Canonical alloc (drv.start (rxPackets alloc) mem) [] [] where
  holds := Ring.holds_nil hdrv.ringSize_pos fun _ hi => hdrv.init hi
  deposited := rfl
  delivered := rfl
  held := by simp [RxDriver.start]

theorem RxDriver.Inv.held_le (h : drv.Inv Canonical alloc s past q) :
    s.held.toList.length ≤ q.length := by
  rcases hheld : s.held with - | pkt
  · exact Nat.zero_le _
  · obtain ⟨x, rest, rfl, -⟩ := h.held pkt hheld
    simp

/-- The descriptor at the card's place, while it is the card's. -/
theorem RxDriver.Inv.nic_free (h : drv.Inv Canonical alloc s past q)
    (hown : drv.own (s.ring.rx s.nic) = true) :
    q.length < drv.ringSize ∧ s.nic < drv.ringSize ∧
      Canonical (rxPackets alloc) s.nic (s.ring.rx s.nic) := by
  have hlt : q.length < drv.ringSize := by
    refine h.holds.length_lt fun x hx => ?_
    rw [hx.desc, hx.own] at hown
    exact Bool.false_ne_true hown
  have hnic : s.nic < drv.ringSize := by
    rw [h.holds.pos_eq]
    exact Ring.place_lt h.holds.offset_lt
  exact ⟨hlt, hnic, h.holds.free_of _ hnic (h.holds.ahead_pos hlt).ge⟩

theorem RxDriver.Inv.deposit (hdrv : drv.Lawful Canonical) (h : drv.Inv Canonical alloc s past q)
    (hmay : drv.mayDeposit s (.deposit x) = true)
    (hstep : drv.step (rxPackets alloc) s (.deposit x) = some s') :
    drv.Inv Canonical alloc s' past (q ++ [x]) := by
  simp only [RxDriver.mayDeposit, Bool.and_eq_true, Bool.or_eq_true, Bool.not_eq_true',
    decide_eq_true_eq, beq_iff_eq] at hmay
  obtain ⟨⟨⟨⟨hown, hgiven⟩, hkeeps⟩, hle⟩, hlen⟩ := hmay
  obtain ⟨hlt, hnic, hcanon⟩ := h.nic_free hown
  simp only [RxDriver.step, Option.some.injEq, hdrv.wraps hnic hcanon, decide_eq_true_eq,
    hdrv.address hcanon] at hstep
  subst hstep
  refine ⟨h.holds.push hlt ?_ ?_ ?_, ?_, ?_, ?_⟩
  · refine ⟨Function.update_self _ _ _, hgiven, hdrv.rxReinit hnic hcanon hkeeps, hle, ?_, ?_⟩
    · intro hc
      rcases hlen with hno | hlen
      · rw [hc] at hno
        exact absurd hno (by decide)
      · exact hlen
    · exact read_write _ _ (by omega)
  · intro i hi hne y hy
    refine ⟨?_, hy.own, hy.rxReinit, hy.length_le, hy.length_eq, ?_⟩
    · rw [← hy.desc]
      exact Function.update_of_ne hne _ _
    · exact (read_rxPackets alloc _ hdrv.ringSize_le hnic hi hne hle hy.length_le).trans hy.frame
  · intro i _ hne hi
    simpa only [Function.update_of_ne hne] using hi
  · simp [h.deposited]
  · rw [List.take_append_of_le_length h.held_le]
    exact h.delivered
  · intro pkt hpkt
    obtain ⟨y, rest, rfl, hy⟩ := h.held pkt hpkt
    exact ⟨y, rest ++ [x], rfl, hy⟩

/-! ### The driver's steps -/

section Driver

variable {ring : RxRing D} {nic : ℕ}

/-- Handing the first descriptor back takes it off the ring's queue. -/
theorem RxDriver.holds_putPacket
    (h : Ring.Holds drv.ringSize (drv.Filled Canonical alloc ring)
      (fun i => Canonical (rxPackets alloc) i (ring.rx i)) ring.rxOffset nic (x :: q)) :
    Ring.Holds drv.ringSize
      (drv.Filled Canonical alloc (drv.putPacket (rxPackets alloc) ring))
      (fun i => Canonical (rxPackets alloc) i ((drv.putPacket (rxPackets alloc) ring).rx i))
      (drv.putPacket (rxPackets alloc) ring).rxOffset nic q := by
  refine h.pop ?_ ?_ ?_
  · have hx := h.front
    simp only [RxDriver.putPacket, RxDriver.advPacket, RxDriver.reinit, Function.update_self,
      hx.desc]
    exact hx.rxReinit
  · intro i _ hne y hy
    refine ⟨?_, hy.own, hy.rxReinit, hy.length_le, hy.length_eq, hy.frame⟩
    rw [← hy.desc]
    exact Function.update_of_ne hne _ _
  · intro i _ hne hi
    simpa only [RxDriver.putPacket, RxDriver.advPacket, RxDriver.reinit,
      Function.update_of_ne hne] using hi

/-- With an empty ring there is no packet. -/
theorem RxDriver.getPacket_nil (hdrv : drv.Lawful Canonical)
    (h : Ring.Holds drv.ringSize (drv.Filled Canonical alloc ring)
      (fun i => Canonical (rxPackets alloc) i (ring.rx i)) ring.rxOffset nic []) :
    drv.getPacket (rxPackets alloc) ring = (ring, none) := by
  have hown := hdrv.own (h.free_of _ h.offset_lt (Nat.zero_le _))
  simp only [RxDriver.getPacket, hown, if_true]

/-- What is not one whole good frame is handed back at once; a frame shorter than its header stays
where it is. -/
theorem RxDriver.Filled.getPacket (hx : drv.Filled Canonical alloc ring ring.rxOffset x) :
    drv.getPacket (rxPackets alloc) ring =
      if drv.complete x then
        if 14 ≤ x.frame.length then
          (ring, some { sz := x.delivery.sz, hdr := x.delivery.hdr,
                        p := rxPackets alloc ring.rxOffset + 14 })
        else (ring, none)
      else (drv.putPacket (rxPackets alloc) ring, none) := by
  unfold RxDriver.getPacket
  simp only [hx.desc, hx.own, Bool.false_eq_true, if_false]
  rcases hc : drv.complete x with - | -
  · -- an error, a frame's later part, or its start only
    rcases he : drv.error x.desc with - | -
    · have hpart : (drv.first x.desc && drv.last x.desc) = false := by
        simpa [RxDriver.complete, he] using hc
      simp [hpart, RxDriver.putPacket]
    · simp [RxDriver.putPacket]
  · have hlen := hx.length_eq hc
    have hle := hx.length_le
    simp only [RxDriver.complete, Bool.and_eq_true, Bool.not_eq_true'] at hc
    obtain ⟨⟨he, hf⟩, hl⟩ := hc
    have hmin : 14 ≤ drv.frameLength x.desc ↔ 14 ≤ x.frame.length := by
      rw [hlen, BitVec.le_def, BitVec.toNat_ofNat, Nat.mod_eq_of_lt (by omega)]
      rfl
    simp only [he, hf, hl, Bool.and_self, if_true, Bool.false_eq_true, if_false, hmin]
    split_ifs with h14
    · have hsz : drv.frameLength x.desc - 14 = x.delivery.sz := by
        rw [hlen]
        exact BitVec.ofNat_sub_ofNat_of_le _ 14 (by norm_num) h14
      have hhdr : read ring.mem (rxPackets alloc ring.rxOffset) 14 = x.delivery.hdr := by
        rw [← read_take _ _ h14, hx.frame]
        rfl
      rw [hsz, hhdr]
    · rfl

/-- The payload of a frame that is in its buffer. -/
theorem RxDriver.Filled.read_data (hx : drv.Filled Canonical alloc ring ring.rxOffset x)
    (h14 : 14 ≤ x.frame.length) :
    read ring.mem (rxPackets alloc ring.rxOffset + 14) x.delivery.sz.toNat = x.delivery.data := by
  have hle := hx.length_le
  have hdrop := read_drop ring.mem (rxPackets alloc ring.rxOffset) h14
  rw [hx.frame] at hdrop
  rw [Deposit.delivery, Delivery.ofFrame, BitVec.toNat_ofNat, Nat.mod_eq_of_lt (by omega)]
  exact hdrop.symm

end Driver

theorem RxDriver.deliveries_append (xs ys : List (Deposit D)) :
    drv.deliveries (xs ++ ys) = drv.deliveries xs ++ drv.deliveries ys := by
  simp [RxDriver.deliveries]

/-- The first descriptor is handed back, and its frame was delivered if it was to be. -/
theorem RxDriver.Inv.release (h : drv.Inv Canonical alloc s past (x :: q))
    (hdelivered : s.delivered = drv.deliveries (past ++ [x])) :
    drv.Inv Canonical alloc
      { s with ring := drv.putPacket (rxPackets alloc) s.ring, held := none } (past ++ [x]) q where
  holds := RxDriver.holds_putPacket h.holds
  deposited := by simp [h.deposited]
  delivered := by simpa using hdelivered
  held := by simp

/-- A call takes the first descriptor up, or hands it back, or leaves the ring as it was. -/
theorem RxDriver.Inv.getPacket (hdrv : drv.Lawful Canonical) (h : drv.Inv Canonical alloc s past q)
    (hstep : drv.step (rxPackets alloc) s .getPacket = some s') :
    ∃ past' q', drv.Inv Canonical alloc s' past' q' := by
  rcases hheld : s.held with - | pkt
  · rw [RxDriver.step, if_neg (by simp [hheld])] at hstep
    rcases q with - | ⟨x, q⟩
    · rw [RxDriver.getPacket_nil hdrv h.holds] at hstep
      simp only [Option.some.injEq] at hstep
      exact ⟨past, [], hstep ▸ h⟩
    · have hx := h.holds.front
      have hdelivered := h.delivered
      rw [hx.getPacket] at hstep
      rw [hheld, Option.toList_none, List.length_nil, List.take_zero, List.append_nil] at hdelivered
      split_ifs at hstep with hc h14
      · simp only [Option.some.injEq] at hstep
        subst hstep
        refine ⟨past, x :: q, h.holds, h.deposited, ?_, ?_⟩
        · rw [hx.read_data h14, hdelivered]
          simp [RxDriver.deliveries, hc]
        · rintro pkt ⟨⟩
          exact ⟨x, q, rfl, hc, h14, rfl⟩
      · simp only [Option.some.injEq] at hstep
        exact ⟨past, x :: q, hstep ▸ h⟩
      · simp only [Option.some.injEq] at hstep
        subst hstep
        refine ⟨past ++ [x], q, hheld ▸ h.release ?_⟩
        rw [hdelivered, RxDriver.deliveries_append]
        simp [RxDriver.deliveries, hc]
  · simp [RxDriver.step, hheld] at hstep

theorem RxDriver.Inv.putPacket (h : drv.Inv Canonical alloc s past q)
    (hstep : drv.step (rxPackets alloc) s .putPacket = some s') :
    ∃ past' q', drv.Inv Canonical alloc s' past' q' := by
  rcases hheld : s.held with - | pkt
  · simp [RxDriver.step, hheld] at hstep
  · obtain ⟨x, rest, rfl, -⟩ := h.held pkt hheld
    have hdelivered := h.delivered
    rw [RxDriver.step, hheld, Option.isNone_some, if_neg Bool.false_ne_true,
      Option.some.injEq] at hstep
    subst hstep
    refine ⟨past ++ [x], rest, h.release ?_⟩
    rw [hdelivered, hheld]
    rfl

theorem RxDriver.Inv.step (hdrv : drv.Lawful Canonical) {a : RxAction D}
    (h : ∃ past q, drv.Inv Canonical alloc s past q) (hmay : drv.mayDeposit s a = true)
    (hstep : drv.step (rxPackets alloc) s a = some s') :
    ∃ past q, drv.Inv Canonical alloc s' past q := by
  obtain ⟨past, q, h⟩ := h
  cases a with
  | deposit x => exact ⟨past, q ++ [x], h.deposit hdrv hmay hstep⟩
  | getPacket => exact h.getPacket hdrv hstep
  | putPacket => exact h.putPacket hstep

theorem RxDriver.Inv.inOrder (hdrv : drv.Lawful Canonical) (h : drv.Inv Canonical alloc s past q) :
    drv.InOrder (rxPackets alloc) Canonical s where
  run := by
    refine ⟨q.length, h.holds.length_le, h.holds.pos_eq, fun i hi => ⟨fun hown => ?_, fun hlt => ?_⟩⟩
    · by_contra hge
      have := hdrv.own (h.holds.free_of i hi (not_lt.1 hge))
      rw [hown] at this
      exact Bool.false_ne_true this
    · obtain ⟨x, hx⟩ := h.holds.exists_full hi hlt
      rw [hx.desc, hx.own]
  canonical i hi hown := by
    refine h.holds.free_of i hi (not_lt.1 fun hlt => ?_)
    obtain ⟨x, hx⟩ := h.holds.exists_full hi hlt
    rw [hx.desc, hx.own] at hown
    exact Bool.false_ne_true hown
  delivered := by
    rw [h.delivered, h.deposited]
    refine (List.IsPrefix.filter _ ?_).map _
    exact List.prefix_append_right_inj _ |>.2 (List.take_prefix _ _)
  held pkt hpkt := by
    obtain ⟨x, rest, rfl, hc, h14, rfl⟩ := h.held pkt hpkt
    refine ⟨x.delivery, ?_, ?_⟩
    · rw [h.delivered, hpkt, Option.toList_some, List.length_singleton, List.take_succ_cons,
        List.take_zero, RxDriver.deliveries_append]
      simp [RxDriver.deliveries, hc]
    · rw [h.holds.front.read_data h14]

theorem RxDriver.Receives.inOrder (hdrv : drv.Lawful Canonical) {mem : Mem 32}
    (h : drv.Receives (rxPackets alloc) mem s) : drv.InOrder (rxPackets alloc) Canonical s := by
  obtain ⟨past, q, hinv⟩ := Transition.Reaches.invariant h ⟨[], [], .start hdrv mem⟩
    fun _ _ _ hs hok hstep => RxDriver.Inv.step hdrv hs hok hstep
  exact hinv.inOrder hdrv

end Runs

/-- In every run of either ring the driver owns the descriptors from its place to the card's, the
card's are as they were set up, and what was delivered is how the whole good frames began. -/
theorem rings_in_order (alloc : BitVec 32) (mem : Mem 32) :
    (∀ s, pcnet32.Receives (rxPackets alloc) mem s →
      pcnet32.InOrder (rxPackets alloc) Pcnet32RxHead.Canonical s) ∧
    ∀ s, rtl8101.Receives (rxPackets alloc) mem s →
      rtl8101.InOrder (rxPackets alloc) Rtl8101RxHead.Canonical s :=
  ⟨fun _ h => h.inOrder pcnet32_lawful, fun _ h => h.inOrder rtl8101_lawful⟩

/-- A header of ones, and the low byte of `i` for payload. -/
def numberedFrame (i : ℕ) : List Byte := List.replicate 14 0xFF ++ [BitVec.ofNat 8 i]

/-- The card deposits a frame, and then before each of the driver's `n` reads the next one. -/
def receiveAhead {D : Type} (desc : ℕ → D) (n : ℕ) : List (RxAction D) :=
  .deposit ⟨desc 0, numberedFrame 0⟩ :: (List.range n).flatMap fun i =>
    [.deposit ⟨desc (i + 1), numberedFrame (i + 1)⟩, .getPacket, .putPacket]

/-- One frame more than the ring has descriptors is delivered, with another always waiting. -/
theorem rings_in_order_around :
    (∃ s, pcnet32.Receives (rxPackets 0x100000) (fun _ => 0) s ∧
      s.delivered = (List.range 17).map (Delivery.ofFrame ∘ numberedFrame) ∧
      pcnet32.InOrder (rxPackets 0x100000) Pcnet32RxHead.Canonical s) ∧
    ∃ s, rtl8101.Receives (rxPackets 0x100000) (fun _ => 0) s ∧
      s.delivered = (List.range 5).map (Delivery.ofFrame ∘ numberedFrame) ∧
      rtl8101.InOrder (rxPackets 0x100000) Rtl8101RxHead.Canonical s := by
  constructor
  · obtain ⟨s, hs, hdelivered⟩ := Transition.exists_reaches_of_exec_map
      (pcnet32.step (rxPackets 0x100000)) (pcnet32.mayDeposit · · = true)
      (receiveAhead (fun i => ⟨rxPackets 0x100000 (i % 16), -1600, 0x0300, 15, 0⟩) 17)
      (s := pcnet32.start (rxPackets 0x100000) fun _ => 0)
      (f := Reception.delivered) (b := (List.range 17).map (Delivery.ofFrame ∘ numberedFrame))
      (by decide +kernel)
    exact ⟨s, hs, hdelivered, (rings_in_order 0x100000 fun _ => 0).1 s hs⟩
  · obtain ⟨s, hs, hdelivered⟩ := Transition.exists_reaches_of_exec_map
      (rtl8101.step (rxPackets 0x100000)) (rtl8101.mayDeposit · · = true)
      (receiveAhead (fun _ => ⟨0x3000000F, 0, 0⟩) 5)
      (s := rtl8101.start (rxPackets 0x100000) fun _ => 0)
      (f := Reception.delivered) (b := (List.range 5).map (Delivery.ofFrame ∘ numberedFrame))
      (by decide +kernel)
    exact ⟨s, hs, hdelivered, (rings_in_order 0x100000 fun _ => 0).2 s hs⟩

end RemoteX86
