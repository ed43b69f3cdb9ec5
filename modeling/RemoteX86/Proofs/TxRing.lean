import RemoteX86.TxRing
import RemoteX86.Proofs.RxRing

/-!
# Both rings transmit in order, once

A descriptor the driver has prepared and sent says where its frame is and how long it is, and the
card keeps of a descriptor what the driver goes on to rely on (`TxDriver.Lawful`).  While a
descriptor is the card's the driver writes nowhere near its buffer, so the card reads what was handed
over: what was handed over is what was sent, followed by what the ring holds in order
(`TxDriver.Inv`).
-/

namespace RemoteX86

open Hex Memory

section Laws

variable {D : Type}

/-- The descriptor of a frame that the card is to send. -/
structure TxDriver.Given (drv : TxDriver D) (slots : ℕ) (packets : ℕ → BitVec 32) (i : ℕ) (tx : D)
    (len : ℕ) : Prop where
  own : drv.own tx = true
  address : drv.address tx = packets i
  frameLength : drv.frameLength tx = len
  wraps : drv.wraps tx i = decide (slots ≤ i + 1)

/-- What the first `slots` of the ring need of their descriptors. -/
structure TxDriver.Lawful (drv : TxDriver D) (Usable : (ℕ → BitVec 32) → ℕ → D → Prop)
    (slots : ℕ) : Prop where
  slots_pos : 0 < slots
  slots_le : slots ≤ drv.ringSize
  ringSize_le : 1600 * (2 * drv.ringSize) ≤ 2 ^ 32
  init : ∀ {packets i}, i < slots →
    Usable packets i (drv.init packets i) ∧ drv.own (drv.init packets i) = false
  prepare : ∀ {packets i d sz}, Usable packets i d → drv.own d = false →
    Usable packets i (drv.prepare d sz) ∧ drv.own (drv.prepare d sz) = false
  send : ∀ {packets i d sz}, i < slots → Usable packets i d → sz ≤ 1600 - 14 →
    Usable packets i (drv.send packets (drv.prepare d sz) i sz) ∧
      drv.Given slots packets i (drv.send packets (drv.prepare d sz) i sz) (sz + 14)
  keeps : ∀ {packets i d d'}, Usable packets i d → drv.keeps d d' = true → Usable packets i d'
  advance : ∀ {i}, i < slots → drv.advance i = Ring.next slots i

/-- The length field counts up to zero. -/
theorem pcnet32Tx_frameLength {sz : ℕ} (h : sz ≤ 1600 - 14) :
    ((- -BitVec.ofNat 16 (sz + 14)) &&& 0xFFF).toNat = sz + 14 := by
  have hmask : (0xFFF : BitVec 16).toNat = 2 ^ 12 - 1 := rfl
  rw [BitVec.neg_neg, BitVec.toNat_and, BitVec.toNat_ofNat, hmask, Nat.and_two_pow_sub_one_eq_mod]
  omega

theorem pcnet32Tx_lawful : pcnet32Tx.Lawful (fun packets i tx => tx.base = packets i) 16 where
  slots_pos := by decide
  slots_le := by decide
  ringSize_le := by decide
  init _ := ⟨rfl, by simp [pcnet32Tx]⟩
  prepare h _ := ⟨h, by simp [pcnet32Tx]⟩
  send {_ i _ _} hi h hsz := by
    refine ⟨h, by simp [pcnet32Tx], h, pcnet32Tx_frameLength hsz, ?_⟩
    simp only [pcnet32Tx, beq_eq_decide]
    exact decide_eq_decide.2 (by omega)
  keeps h hkeep := (eq_of_beq hkeep).trans h
  advance _ := rfl

/-- A mask that meets none of the bits of the length sees only the flags. -/
theorem rtl8101Tx_d1 {len : ℕ} (h : len < 2 ^ 14) (mask : BitVec 32)
    (hmask : 0x3FFF#32 &&& mask = 0#32) :
    (0x30000000#32 ||| 0x80000000#32 ||| BitVec.ofNat 32 len ||| 0x40000000#32) &&& mask =
      0xF0000000#32 &&& mask := by
  have hlen : BitVec.ofNat 32 len = BitVec.ofNat 32 len &&& 0x3FFF#32 := by
    have h14 : (0x3FFF#32).toNat = 2 ^ 14 - 1 := rfl
    refine BitVec.eq_of_toNat_eq ?_
    rw [BitVec.toNat_and, BitVec.toNat_ofNat, h14, Nat.and_two_pow_sub_one_eq_mod]
    omega
  have hzero : BitVec.ofNat 32 len &&& mask = 0#32 := by
    rw [hlen, BitVec.and_assoc, hmask, BitVec.and_zero]
  calc (0x30000000#32 ||| 0x80000000#32 ||| BitVec.ofNat 32 len ||| 0x40000000#32) &&& mask
      = 0xB0000000#32 &&& mask ||| BitVec.ofNat 32 len &&& mask ||| 0x40000000#32 &&& mask := by
        rw [BitVec.and_or_distrib_right, BitVec.and_or_distrib_right]
        rfl
    _ = (0xB0000000#32 ||| 0x40000000#32) &&& mask := by
        rw [hzero, BitVec.or_zero, BitVec.and_or_distrib_right]

theorem rtl8101Tx_frameLength {len : ℕ} (h : len < 2 ^ 14) :
    ((0x30000000#32 ||| 0x80000000#32 ||| BitVec.ofNat 32 len ||| 0x40000000#32) &&&
      0xFFFF#32).toNat = len := by
  have h16 : (0xFFFF#32).toNat = 2 ^ 16 - 1 := rfl
  have hflags : (0x30000000#32 ||| 0x80000000#32 ||| BitVec.ofNat 32 len ||| 0x40000000#32) &&&
      0xFFFF#32 = BitVec.ofNat 32 len &&& 0xFFFF#32 := by
    rw [BitVec.and_or_distrib_right, BitVec.and_or_distrib_right]
    simp
  rw [hflags, BitVec.toNat_and, BitVec.toNat_ofNat, h16, Nat.and_two_pow_sub_one_eq_mod]
  omega

/-- The driver never leaves the first descriptor, and nor does the card. -/
theorem rtl8101Tx_lawful : rtl8101Tx.Lawful (fun _ _ _ => True) 1 where
  slots_pos := by decide
  slots_le := by decide
  ringSize_le := by decide
  init {packets i} hi := by
    have hzero : i = 0 := by omega
    subst hzero
    exact ⟨trivial, by simp [rtl8101Tx]⟩
  prepare _ h := ⟨trivial, h⟩
  send {packets i _ sz} hi _ hsz := by
    have hlen : sz + 14 < 2 ^ 14 := by omega
    refine ⟨trivial, ?_, ?_, rtl8101Tx_frameLength hlen, ?_⟩
    · have h := rtl8101Tx_d1 hlen 0x80000000#32 rfl
      exact (congrArg (· != 0#32) h).trans rfl
    · simp [rtl8101Tx]
    · have h := rtl8101Tx_d1 hlen 0x40000000#32 rfl
      refine (congrArg (· != 0#32) h).trans ?_
      exact (decide_eq_true (by omega)).symm
  keeps _ _ := trivial
  advance {i} hi := by
    rw [Ring.next, if_pos (by omega)]
    rfl

end Laws

/-! ## The buffers -/

/-- A copy into one buffer leaves the frames in the others. -/
theorem read_txPackets (alloc : BitVec 32) (m : Mem 32) {n i j k : ℕ} {bs : List Byte} {len : ℕ}
    (hn : 1600 * (2 * n) ≤ 2 ^ 32) (hi : i < n) (hj : j < n) (hne : j ≠ i)
    (hbs : k + bs.length ≤ 1600) (hlen : len ≤ 1600) :
    read (write m (txPackets n alloc i + BitVec.ofNat 32 k) bs) (txPackets n alloc j) len =
      read m (txPackets n alloc j) len := by
  refine read_write_of_disjoint _ _ _ (by omega) fun l hl => ?_
  have hapart := rxPackets_disjoint alloc hn (by omega : n + i < 2 * n) (by omega : n + j < 2 * n)
    (by omega) (by omega : l < 1600)
  have hk : (BitVec.ofNat 32 k).toNat = k := by
    rw [BitVec.toNat_ofNat]
    omega
  rw [txPackets, txPackets, sub_add_eq_sub_sub, BitVec.toNat_sub_of_le, hk]
  · omega
  · rw [BitVec.le_def, hk]
    omega

/-! ## Runs -/

section Runs

variable {D : Type} (drv : TxDriver D) (Usable : (ℕ → BitVec 32) → ℕ → D → Prop) (slots : ℕ)
  (packets : ℕ → BitVec 32)

/-- Descriptor `i` is the card's, and its buffer holds this frame. -/
structure TxDriver.Filled (tx : ℕ → D) (mem : Mem 32) (i : ℕ) (frame : List Byte) : Prop where
  usable : Usable packets i (tx i)
  given : drv.Given slots packets i (tx i) frame.length
  length_le : frame.length ≤ 1600
  frame : read mem (packets i) frame.length = frame

/-- Descriptor `i` is the driver's. -/
structure TxDriver.Free (tx : ℕ → D) (i : ℕ) : Prop where
  usable : Usable packets i (tx i)
  own : drv.own (tx i) = false

/-- Where the next frame will be put. -/
def TxDriver.tail (s : Transmission D) : ℕ :=
  match s.phase with
  | .sending _ => drv.advance s.txOffset
  | _ => s.txOffset

/-- The descriptor the driver is at work on is its own and prepared, and its buffer begins with the
header. -/
structure TxDriver.Prepared (tx : ℕ → D) (txOffset : ℕ) (mem : Mem 32) (sz : ℕ)
    (hdr : EthernetFrameHeader) (p : BitVec 32) : Prop where
  sz_le : sz ≤ 1600 - 14
  p_eq : p = packets txOffset + 14
  own : drv.own (tx txOffset) = false
  desc : ∃ d, Usable packets txOffset d ∧ tx txOffset = drv.prepare d sz
  hdr : read mem (packets txOffset) 14 = hdr.toList

/-- What `prepare_send_packet` has come to. -/
def TxDriver.Ready (s : Transmission D) : Prop :=
  match s.phase with
  | .waiting sz _ _ => sz ≤ 1600 - 14
  | .filling sz hdr p => drv.Prepared Usable packets s.tx s.txOffset s.mem sz hdr p
  | _ => True

/-- The ring holds `q`, what was handed over was sent or is in `q`, and the card has read a part of
its first frame. -/
structure TxDriver.Inv (s : Transmission D) (q : List (List Byte)) : Prop where
  holds : Ring.Holds slots (drv.Filled Usable slots packets s.tx s.mem)
    (drv.Free Usable packets s.tx) s.nic (drv.tail s) q
  txOffset_lt : s.txOffset < slots
  handed : s.handed = s.sent ++ q
  fifo : s.fifo <+: q.headD []
  ready : drv.Ready Usable packets s

variable {drv Usable slots packets} {alloc : BitVec 32} {s s' : Transmission D} {q : List (List Byte)}
  {tx : ℕ → D} {mem : Mem 32} {i j : ℕ} {frame : List Byte}

theorem TxDriver.Filled.update (h : drv.Filled Usable slots packets tx mem i frame) (hne : i ≠ j)
    (d : D) : drv.Filled Usable slots packets (Function.update tx j d) mem i frame := by
  have hget : Function.update tx j d i = tx i := Function.update_of_ne hne _ _
  exact ⟨hget ▸ h.usable, hget ▸ h.given, h.length_le, h.frame⟩

theorem TxDriver.Free.update (h : drv.Free Usable packets tx i) (hne : i ≠ j) (d : D) :
    drv.Free Usable packets (Function.update tx j d) i := by
  have hget : Function.update tx j d i = tx i := Function.update_of_ne hne _ _
  exact ⟨hget ▸ h.usable, hget ▸ h.own⟩

theorem TxDriver.Filled.update_self {d : D} (husable : Usable packets i d)
    (hgiven : drv.Given slots packets i d frame.length) (hle : frame.length ≤ 1600)
    (hframe : read mem (packets i) frame.length = frame) :
    drv.Filled Usable slots packets (Function.update tx i d) mem i frame := by
  have hget : Function.update tx i d i = d := Function.update_self _ _ _
  exact ⟨hget.symm ▸ husable, hget.symm ▸ hgiven, hle, hframe⟩

theorem TxDriver.Free.update_self {d : D} (husable : Usable packets i d)
    (hown : drv.own d = false) : drv.Free Usable packets (Function.update tx i d) i := by
  have hget : Function.update tx i d i = d := Function.update_self _ _ _
  exact ⟨hget.symm ▸ husable, hget.symm ▸ hown⟩

/-- The driver writes into another buffer. -/
theorem TxDriver.Filled.write (hdrv : drv.Lawful Usable slots) {k : ℕ} {bs : List Byte}
    (h : drv.Filled Usable slots (txPackets drv.ringSize alloc) tx mem i frame)
    (hi : i < slots) (hj : j < slots) (hne : i ≠ j) (hbs : k + bs.length ≤ 1600) :
    drv.Filled Usable slots (txPackets drv.ringSize alloc) tx
      (write mem (txPackets drv.ringSize alloc j + BitVec.ofNat 32 k) bs) i frame := by
  refine ⟨h.usable, h.given, h.length_le, Eq.trans ?_ h.frame⟩
  exact read_txPackets alloc mem hdrv.ringSize_le (hj.trans_le hdrv.slots_le)
    (hi.trans_le hdrv.slots_le) hne hbs h.length_le

theorem TxDriver.Inv.start (hdrv : drv.Lawful Usable slots) (mem : Mem 32) :
    drv.Inv Usable slots packets (drv.start packets mem) [] where
  holds := Ring.holds_nil hdrv.slots_pos fun _ hi => ⟨(hdrv.init hi).1, (hdrv.init hi).2⟩
  txOffset_lt := hdrv.slots_pos
  handed := rfl
  fifo := List.prefix_rfl
  ready := trivial

/-- While the next descriptor is the driver's, the ring has a free place and it is this one. -/
theorem TxDriver.Inv.tail_free (h : drv.Inv Usable slots packets s q)
    (hown : drv.own (s.tx (drv.tail s)) = false) :
    q.length < slots ∧ drv.Free Usable packets s.tx (drv.tail s) := by
  have hlt : q.length < slots := by
    refine h.holds.length_lt fun frame hfull => ?_
    rw [hfull.given.own] at hown
    exact Bool.false_ne_true hown.symm
  have htail : drv.tail s < slots := by
    rw [h.holds.pos_eq]
    exact Ring.place_lt h.holds.offset_lt
  exact ⟨hlt, h.holds.free_of _ htail (h.holds.ahead_pos hlt).ge⟩

/-- While the card owns the descriptor at its place, that is the first frame of the queue. -/
theorem TxDriver.Inv.front (h : drv.Inv Usable slots packets s q)
    (hown : drv.own (s.tx s.nic) = true) :
    ∃ frame rest, q = frame :: rest ∧
      drv.Filled Usable slots packets s.tx s.mem s.nic frame := by
  rcases q with - | ⟨frame, rest⟩
  · have hfree := h.holds.free_of _ h.holds.offset_lt (Nat.zero_le _)
    rw [hfree.own] at hown
    exact absurd hown Bool.false_ne_true
  · exact ⟨frame, rest, rfl, h.holds.front⟩

/-! ### The driver's steps -/

theorem TxDriver.Inv.prepared (hdrv : drv.Lawful Usable slots) {sz : ℕ}
    {hdr : EthernetFrameHeader} {patience : Option ℕ}
    (h : drv.Inv Usable slots (txPackets drv.ringSize alloc) s q)
    (hphase : s.phase = .waiting sz hdr patience) (hown : drv.own (s.tx s.txOffset) = false) :
    drv.Inv Usable slots (txPackets drv.ringSize alloc)
      (drv.prepared (txPackets drv.ringSize alloc) s sz hdr) q := by
  have htail : drv.tail s = s.txOffset := by rw [TxDriver.tail, hphase]
  have hsz : sz ≤ 1600 - 14 := by
    have hready := h.ready
    rwa [TxDriver.Ready, hphase] at hready
  obtain ⟨hlt, hfree⟩ := h.tail_free (by rwa [htail])
  have hholds := h.holds
  rw [htail] at hfree hholds
  obtain ⟨husable, hown'⟩ : Usable (txPackets drv.ringSize alloc) s.txOffset
      (drv.prepare (s.tx s.txOffset) sz) ∧ drv.own (drv.prepare (s.tx s.txOffset) sz) = false :=
    hdrv.prepare hfree.usable hown
  have hself : Function.update s.tx s.txOffset (drv.prepare (s.tx s.txOffset) sz) s.txOffset =
      drv.prepare (s.tx s.txOffset) sz := Function.update_self _ _ _
  refine ⟨hholds.touch hlt (.update_self husable hown') ?_ fun i _ hne hi => hi.update hne _,
    h.txOffset_lt, h.handed, h.fifo, ?_⟩
  · intro i hi hne frame hfull
    have hwritten := (hfull.update hne (drv.prepare (s.tx s.txOffset) sz)).write hdrv
      hi h.txOffset_lt hne (by simp : 0 + hdr.toList.length ≤ 1600)
    rw [BitVec.add_zero] at hwritten
    exact hwritten
  · refine ⟨hsz, rfl, (congrArg drv.own hself).trans hown', ⟨_, hfree.usable, hself⟩, ?_⟩
    rw [← hdr.length_toList]
    exact read_write _ _ (by simp)

theorem TxDriver.Inv.fill (hdrv : drv.Lawful Usable slots) {sz k : ℕ} {bs : List Byte}
    {hdr : EthernetFrameHeader} {p : BitVec 32}
    (h : drv.Inv Usable slots (txPackets drv.ringSize alloc) s q)
    (hphase : s.phase = .filling sz hdr p) (hbs : k + bs.length ≤ sz) :
    drv.Inv Usable slots (txPackets drv.ringSize alloc)
      { s with mem := Memory.write s.mem (p + BitVec.ofNat 32 k) bs } q := by
  have htail : drv.tail s = s.txOffset := by rw [TxDriver.tail, hphase]
  have hprep := h.ready
  rw [TxDriver.Ready, hphase] at hprep
  have hsz := hprep.sz_le
  have hp : p + BitVec.ofNat 32 k =
      txPackets drv.ringSize alloc s.txOffset + BitVec.ofNat 32 (14 + k) := by
    rw [hprep.p_eq, BitVec.ofNat_add, ← BitVec.add_assoc]
    rfl
  obtain ⟨hlt, hfree⟩ := h.tail_free (by rw [htail]; exact hprep.own)
  have htail' : drv.tail { s with mem := Memory.write s.mem (p + BitVec.ofNat 32 k) bs } =
      drv.tail s := rfl
  refine ⟨?_, h.txOffset_lt, h.handed, h.fifo, ?_⟩
  · rw [htail']
    refine h.holds.touch hlt hfree ?_ fun i _ _ hi => hi
    intro i hi hne frame hfull
    rw [htail] at hne
    rw [hp]
    exact hfull.write hdrv hi h.txOffset_lt hne (by omega)
  · rw [TxDriver.Ready, hphase]
    refine ⟨hsz, hprep.p_eq, hprep.own, hprep.desc, Eq.trans ?_ hprep.hdr⟩
    rw [hp]
    exact read_write_above _ _ (Nat.le_add_right _ _) (by omega)

theorem prefix_headD_append {α : Type*} {l : List α} {q : List (List α)} (x : List α)
    (h : l <+: q.headD []) : l <+: (q ++ [x]).headD [] := by
  rcases q with - | ⟨y, q⟩
  · rw [List.headD_nil, List.prefix_nil] at h
    rw [h]
    exact List.nil_prefix
  · exact h

/-- The frame is complete, and its descriptor is the card's. -/
theorem TxDriver.Inv.sendPacket (hdrv : drv.Lawful Usable slots) {sz : ℕ}
    {hdr : EthernetFrameHeader} {p : BitVec 32} {phase : TxPhase} {txOffset : ℕ}
    (h : drv.Inv Usable slots (txPackets drv.ringSize alloc) s q)
    (hphase : s.phase = .filling sz hdr p)
    (hnext : phase = .idle ∧ txOffset = drv.advance s.txOffset ∨
      (∃ patience, phase = .sending patience) ∧ txOffset = s.txOffset) :
    drv.Inv Usable slots (txPackets drv.ringSize alloc)
      { s with
        tx := Function.update s.tx s.txOffset
          (drv.send (txPackets drv.ringSize alloc) (s.tx s.txOffset) s.txOffset sz)
        handed := s.handed ++ [hdr.toList ++ read s.mem p sz]
        phase := phase
        txOffset := txOffset } (q ++ [hdr.toList ++ read s.mem p sz]) := by
  have htail : drv.tail s = s.txOffset := by rw [TxDriver.tail, hphase]
  have hprep := h.ready
  rw [TxDriver.Ready, hphase] at hprep
  have hsz := hprep.sz_le
  obtain ⟨hlt, hfree⟩ := h.tail_free (by rw [htail]; exact hprep.own)
  obtain ⟨d, husable, hd⟩ := hprep.desc
  obtain ⟨husable', hgiven⟩ := hdrv.send h.txOffset_lt husable hsz
  rw [← hd] at husable' hgiven
  have hlen : (hdr.toList ++ read s.mem p sz).length = sz + 14 := by
    simp [Nat.add_comm]
  have hframe : read s.mem (txPackets drv.ringSize alloc s.txOffset) (sz + 14) =
      hdr.toList ++ read s.mem p sz := by
    rw [Nat.add_comm, read_add, hprep.hdr, hprep.p_eq]
    rfl
  have hadv := hdrv.advance h.txOffset_lt
  have hpush := h.holds
  rw [htail] at hpush
  refine ⟨?_, ?_, ?_, prefix_headD_append _ h.fifo, ?_⟩
  · have hpos : drv.tail { s with
        tx := Function.update s.tx s.txOffset
          (drv.send (txPackets drv.ringSize alloc) (s.tx s.txOffset) s.txOffset sz)
        handed := s.handed ++ [hdr.toList ++ read s.mem p sz]
        phase := phase
        txOffset := txOffset } = Ring.next slots s.txOffset := by
      rcases hnext with ⟨rfl, rfl⟩ | ⟨⟨_, rfl⟩, rfl⟩ <;> exact hadv
    rw [hpos]
    refine hpush.push hlt ?_ (fun i _ hne frame hfull => hfull.update hne _)
      fun i _ hne hi => hi.update hne _
    exact .update_self husable' (hlen.symm ▸ hgiven) (by omega) (hlen.symm ▸ hframe)
  · rcases hnext with ⟨-, rfl⟩ | ⟨-, rfl⟩
    · exact hadv ▸ Ring.next_lt h.txOffset_lt
    · exact h.txOffset_lt
  · rw [h.handed, List.append_assoc]
  · rcases hnext with ⟨rfl, -⟩ | ⟨⟨_, rfl⟩, -⟩ <;> exact trivial

/-! ### The card's steps -/

theorem TxDriver.Inv.fetch (h : drv.Inv Usable slots packets s q)
    (hstep : drv.step packets s .fetch = some s') : drv.Inv Usable slots packets s' q := by
  simp only [TxDriver.step] at hstep
  split_ifs at hstep with hcard
  obtain ⟨frame, rest, rfl, hfull⟩ := h.front hcard.1
  have hlt := hcard.2
  rw [hfull.given.frameLength] at hlt
  simp only [Option.some.injEq] at hstep
  subst hstep
  refine ⟨h.holds, h.txOffset_lt, h.handed, ?_, h.ready⟩
  have hprefix : s.fifo = frame.take s.fifo.length := List.prefix_iff_eq_take.1 h.fifo
  have hbyte : frame[s.fifo.length]? =
      some (s.mem (packets s.nic + BitVec.ofNat 32 s.fifo.length)) := by
    rw [← getElem?_read _ _ _ _ hlt, hfull.frame]
  rw [hfull.given.address, List.prefix_iff_eq_take, List.length_append, List.length_singleton,
    List.headD_cons, List.take_add_one, ← hprefix, hbyte]
  rfl

theorem TxDriver.Inv.transmit (hdrv : drv.Lawful Usable slots) {tx' : D}
    (h : drv.Inv Usable slots packets s q) (hmay : drv.mayTransmit s (.transmit tx') = true)
    (hstep : drv.step packets s (.transmit tx') = some s') :
    ∃ q', drv.Inv Usable slots packets s' q' := by
  simp only [TxDriver.mayTransmit, Bool.and_eq_true, Bool.not_eq_true'] at hmay
  obtain ⟨hgiven, hkeeps⟩ := hmay
  have hcard : drv.own (s.tx s.nic) = true ∧ s.fifo.length = drv.frameLength (s.tx s.nic) := by
    by_contra hno
    simp only [TxDriver.step, if_neg hno, reduceCtorEq] at hstep
  obtain ⟨frame, rest, rfl, hfull⟩ := h.front hcard.1
  have hlen := hcard.2
  rw [hfull.given.frameLength] at hlen
  have hfifo : s.fifo = frame := List.IsPrefix.eq_of_length h.fifo hlen
  simp only [TxDriver.step, if_pos hcard, Option.some.injEq, hfull.given.wraps,
    decide_eq_true_eq] at hstep
  subst hstep
  refine ⟨rest, h.holds.pop (.update_self (hdrv.keeps hfull.usable hkeeps) hgiven)
    (fun i _ hne frame hfull => hfull.update hne _) fun i _ hne hi => hi.update hne _,
    h.txOffset_lt, ?_, List.nil_prefix, ?_⟩
  · rw [h.handed, hfifo, List.append_assoc]
    rfl
  · have hready := h.ready
    rcases hphase : s.phase with - | ⟨sz, hdr, patience⟩ | ⟨sz, hdr, p⟩ | patience
    · exact trivial
    · rw [TxDriver.Ready, hphase] at hready
      exact hready
    · -- the driver's descriptor is not the one the card gave back
      rw [TxDriver.Ready, hphase] at hready
      have hne : s.txOffset ≠ s.nic := by
        intro he
        have hown := hready.own
        rw [he, hcard.1] at hown
        exact Bool.false_ne_true hown.symm
      have hget : Function.update s.tx s.nic tx' s.txOffset = s.tx s.txOffset :=
        Function.update_of_ne hne _ _
      obtain ⟨d, husable, hd⟩ := hready.desc
      exact ⟨hready.sz_le, hready.p_eq, (congrArg drv.own hget).trans hready.own,
        ⟨d, husable, hget.trans hd⟩, hready.hdr⟩
    · exact trivial

/-! ### Every step -/

/-- A poll goes on waiting, or finds the descriptor given up. -/
theorem TxDriver.Inv.poll (hdrv : drv.Lawful Usable slots)
    (h : drv.Inv Usable slots (txPackets drv.ringSize alloc) s q)
    (hmay : drv.mayTransmit s .poll = true)
    (hstep : drv.step (txPackets drv.ringSize alloc) s .poll = some s') :
    drv.Inv Usable slots (txPackets drv.ringSize alloc) s' q := by
  have hready := h.ready
  have hholds := h.holds
  rcases hphase : s.phase with - | ⟨sz, hdr, patience⟩ | ⟨sz, hdr, p⟩ | patience
  · simp [TxDriver.step, hphase] at hstep
  · simp only [TxDriver.step, hphase] at hstep
    simp only [TxDriver.mayTransmit, hphase, Bool.or_eq_true, Bool.not_eq_true'] at hmay
    simp only [TxDriver.Ready, hphase] at hready
    simp only [TxDriver.tail, hphase] at hholds
    split_ifs at hstep with hwait
    · simp only [Option.some.injEq] at hstep
      subst hstep
      exact ⟨hholds, h.txOffset_lt, h.handed, h.fifo, hready⟩
    · have hown : drv.own (s.tx s.txOffset) = false := by
        rcases hmay with hpatience | hown
        · simpa [hpatience] using hwait
        · exact hown
      simp only [Option.some.injEq] at hstep
      exact hstep ▸ h.prepared hdrv hphase hown
  · simp [TxDriver.step, hphase] at hstep
  · simp only [TxDriver.step, hphase] at hstep
    simp only [TxDriver.tail, hphase] at hholds
    split_ifs at hstep with hwait
    · simp only [Option.some.injEq] at hstep
      subst hstep
      exact ⟨hholds, h.txOffset_lt, h.handed, h.fifo, trivial⟩
    · simp only [Option.some.injEq] at hstep
      subst hstep
      refine ⟨hholds, ?_, h.handed, h.fifo, trivial⟩
      exact (hdrv.advance h.txOffset_lt).trans_lt (Ring.next_lt h.txOffset_lt)

theorem TxDriver.Inv.step (hdrv : drv.Lawful Usable slots) {a : TxAction D}
    (h : ∃ q, drv.Inv Usable slots (txPackets drv.ringSize alloc) s q)
    (hmay : drv.mayTransmit s a = true)
    (hstep : drv.step (txPackets drv.ringSize alloc) s a = some s') :
    ∃ q, drv.Inv Usable slots (txPackets drv.ringSize alloc) s' q := by
  obtain ⟨q, h⟩ := h
  cases a with
  | prepareSendPacket sz hdr =>
    rcases hphase : s.phase with - | ⟨sz', hdr', patience⟩ | ⟨sz', hdr', p⟩ | patience
    · have hholds := h.holds
      simp only [TxDriver.tail, hphase] at hholds
      simp only [TxDriver.step, hphase] at hstep
      split_ifs at hstep with hsz
      · simp only [Option.some.injEq] at hstep
        exact ⟨q, hstep ▸ h⟩
      · simp only [Option.some.injEq] at hstep
        subst hstep
        exact ⟨q, hholds, h.txOffset_lt, h.handed, h.fifo, not_lt.1 hsz⟩
    all_goals simp [TxDriver.step, hphase] at hstep
  | poll => exact ⟨q, h.poll hdrv hmay hstep⟩
  | fill k bs =>
    rcases hphase : s.phase with - | ⟨sz, hdr, patience⟩ | ⟨sz, hdr, p⟩ | patience
    · simp [TxDriver.step, hphase] at hstep
    · simp [TxDriver.step, hphase] at hstep
    · simp only [TxDriver.step, hphase, Option.some.injEq] at hstep
      simp only [TxDriver.mayTransmit, hphase, decide_eq_true_eq] at hmay
      have hfill := h.fill hdrv hphase hmay
      rw [hphase] at hfill
      exact ⟨q, hstep ▸ hfill⟩
    · simp [TxDriver.step, hphase] at hstep
  | sendPacket =>
    rcases hphase : s.phase with - | ⟨sz, hdr, patience⟩ | ⟨sz, hdr, p⟩ | patience
    · simp [TxDriver.step, hphase] at hstep
    · simp [TxDriver.step, hphase] at hstep
    · rcases hwait : drv.sendPatience with - | patience
      · simp only [TxDriver.step, hphase, hwait, Option.some.injEq] at hstep
        subst hstep
        exact ⟨_, h.sendPacket hdrv hphase (.inl ⟨rfl, rfl⟩)⟩
      · simp only [TxDriver.step, hphase, hwait, Option.some.injEq] at hstep
        subst hstep
        exact ⟨_, h.sendPacket hdrv hphase (.inr ⟨⟨patience, rfl⟩, rfl⟩)⟩
    · simp [TxDriver.step, hphase] at hstep
  | fetch => exact ⟨q, h.fetch hstep⟩
  | transmit tx => exact h.transmit hdrv hmay hstep

theorem TxDriver.Inv.inOrder (h : drv.Inv Usable slots packets s q) : drv.InOrder slots s where
  sent := h.handed ▸ List.prefix_append _ _
  waiting := by
    rw [h.handed, List.length_append]
    exact Nat.add_le_add_left h.holds.length_le _
  fifo hne := by
    have hfifo := h.fifo
    rcases q with - | ⟨frame, rest⟩
    · exact absurd (List.prefix_nil.1 hfifo) hne
    · exact ⟨frame, by rw [h.handed, List.getElem?_append_right le_rfl, Nat.sub_self]; rfl, hfifo⟩
  drained hown := by
    rcases q with - | ⟨frame, rest⟩
    · rw [h.handed, List.append_nil]
    · have hgiven := h.holds.front.given.own
      rw [hown] at hgiven
      exact absurd hgiven Bool.false_ne_true
  progress hown := by
    rcases q with - | ⟨frame, rest⟩
    · have hfree := h.holds.free_of _ h.txOffset_lt (Nat.zero_le _)
      rw [hfree.own] at hown
      exact absurd hown Bool.false_ne_true
    · exact h.holds.front.given.own

theorem TxDriver.Transmits.inOrder (hdrv : drv.Lawful Usable slots)
    (h : drv.Transmits (txPackets drv.ringSize alloc) mem s) : drv.InOrder slots s := by
  obtain ⟨q, hinv⟩ := Transition.Reaches.invariant h ⟨[], .start hdrv mem⟩
    fun _ _ _ hs hok hstep => TxDriver.Inv.step hdrv hs hok hstep
  exact hinv.inOrder

end Runs

/-- In every run in which the card gives a descriptor back before the wait for it ends, both drivers'
frames go out as they were handed over, in order and each once.  At most 16 of the PCnet driver's
and one of the RealTek driver's are waiting, and a driver that waits waits for a frame the card can
send. -/
theorem rings_transmit_in_order (alloc : BitVec 32) (mem : Mem 32) :
    (∀ s, pcnet32Tx.Transmits (txPackets 16 alloc) mem s → pcnet32Tx.InOrder 16 s) ∧
    ∀ s, rtl8101Tx.Transmits (txPackets 4 alloc) mem s → rtl8101Tx.InOrder 1 s :=
  ⟨fun _ h => TxDriver.Transmits.inOrder pcnet32Tx_lawful h,
    fun _ h => TxDriver.Transmits.inOrder rtl8101Tx_lawful h⟩

/-- A header of ones. -/
def broadcastHeader : EthernetFrameHeader where
  dstMac := mac 0xFF 0xFF 0xFF 0xFF 0xFF 0xFF
  srcMac := mac 0xFF 0xFF 0xFF 0xFF 0xFF 0xFF
  type := 0xFFFF

/-- The driver hands over `numberedFrame i`. -/
def handOver {D : Type} (i : ℕ) : List (TxAction D) :=
  [.prepareSendPacket 1 broadcastHeader, .poll, .fill 0 [BitVec.ofNat 8 i], .sendPacket]

/-- The card reads the descriptor and the frame's 15 bytes, sends them and gives the descriptor
back. -/
def sendNext {D : Type} (tx : D) : List (TxAction D) :=
  List.replicate 15 .fetch ++ [.transmit tx]

/-- One frame more than the ring has descriptors goes out: of the PCnet driver's with the next one
always handed over, of the RealTek driver's, which waits for each, one by one. -/
theorem rings_transmit_in_order_around :
    (∃ s, pcnet32Tx.Transmits (txPackets 16 0x100000) (fun _ => 0) s ∧
      s.sent = (List.range 17).map numberedFrame ∧ pcnet32Tx.InOrder 16 s) ∧
    ∃ s, rtl8101Tx.Transmits (txPackets 4 0x100000) (fun _ => 0) s ∧
      s.sent = (List.range 5).map numberedFrame ∧ rtl8101Tx.InOrder 1 s := by
  constructor
  · obtain ⟨s, hs, hsent⟩ := Transition.exists_reaches_of_exec_map
      (pcnet32Tx.step (txPackets 16 0x100000)) (pcnet32Tx.mayTransmit · · = true)
      (handOver 0 ++ (List.range 17).flatMap fun i =>
        handOver (i + 1) ++ sendNext ⟨txPackets 16 0x100000 (i % 16), 0, 0, 0, 0⟩)
      (s := pcnet32Tx.start (txPackets 16 0x100000) fun _ => 0)
      (f := Transmission.sent) (b := (List.range 17).map numberedFrame) (by decide +kernel)
    exact ⟨s, hs, hsent, (rings_transmit_in_order 0x100000 fun _ => 0).1 s hs⟩
  · obtain ⟨s, hs, hsent⟩ := Transition.exists_reaches_of_exec_map
      (rtl8101Tx.step (txPackets 4 0x100000)) (rtl8101Tx.mayTransmit · · = true)
      ((List.range 5).flatMap fun i => handOver i ++ sendNext ⟨0, 0, 0⟩ ++ [.poll])
      (s := rtl8101Tx.start (txPackets 4 0x100000) fun _ => 0)
      (f := Transmission.sent) (b := (List.range 5).map numberedFrame) (by decide +kernel)
    exact ⟨s, hs, hsent, (rings_transmit_in_order 0x100000 fun _ => 0).2 s hs⟩

end RemoteX86
