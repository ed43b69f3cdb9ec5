import RemoteX86.Ne2000Tx
import RemoteX86.Proofs.Ne2000
import RemoteX86.Proofs.TxRing

/-!
# Sending and receiving do not meet

The transmit pages lie below the receive ring.  Two cards that agree in the ring and its registers
(`Ne2000.RxEq`) receive alike, and no port write of `ne2000_send_packet` changes what they agree in;
two that agree below the ring and in the transmit registers (`Dp8390.TxEq`) go on loading alike, and
no frame that arrives changes that.  So the two halves of a run can be followed apart: the receive
half is the run without the transmissions, and the transmit half sends what it was handed.
-/

namespace RemoteX86

open Hex Memory

/-! ## The receive half -/

/-- The same registers of the ring, the same PRX, and the same bytes in the ring. -/
structure Ne2000.RxEq (s t : Ne2000) : Prop where
  bnry : s.bnry = t.bnry
  curr : s.curr = t.curr
  prx : s.prx = t.prx
  ring : ∀ o, s.ram (ringAddr o) = t.ram (ringAddr o)

theorem Ne2000.RxEq.refl (s : Ne2000) : s.RxEq s := ⟨rfl, rfl, rfl, fun _ => rfl⟩

theorem Ne2000.RxEq.trans {s t u : Ne2000} (h : s.RxEq t) (h' : t.RxEq u) : s.RxEq u :=
  ⟨h.bnry.trans h'.bnry, h.curr.trans h'.curr, h.prx.trans h'.prx,
    fun o => (h.ring o).trans (h'.ring o)⟩

section Receive

variable {s t : Ne2000}

theorem remoteRead_congr {m m' : Mem 16} (h : ∀ o, m (ringAddr o) = m' (ringAddr o)) (n : ℕ) :
    ∀ o, remoteRead m (ringAddr o) n = remoteRead m' (ringAddr o) n := by
  induction n with
  | zero => exact fun _ => rfl
  | succ n ih =>
    intro o
    have hnext := ih (o + 1)
    rw [← ringNext_ringAddr] at hnext
    rw [remoteRead, Walk.read, h o]
    exact congrArg _ hnext

theorem ringStore_congr : ∀ (bytes : List Byte) {m m' : Mem 16}
    (_ : ∀ o, m (ringAddr o) = m' (ringAddr o)) (o x : ℕ),
    ringStore m (ringAddr o) bytes (ringAddr x) = ringStore m' (ringAddr o) bytes (ringAddr x)
  | [], _, _, h, _, x => h x
  | b :: bytes, m, m', h, o, x => by
    rw [ringStore, ringStore, Walk.write, Walk.write, ringNext_ringAddr]
    refine ringStore_congr bytes (fun y => ?_) (o + 1) x
    by_cases hy : ringAddr y = ringAddr o
    · rw [hy, Function.update_self, Function.update_self]
    · rw [Function.update_of_ne hy, Function.update_of_ne hy, h y]

theorem Ne2000.RxEq.curRead (h : s.RxEq t) : s.curRead = t.curRead := by
  rw [Ne2000.curRead, Ne2000.curRead, h.bnry]

theorem Ne2000.RxEq.remoteRead (h : s.RxEq t) (hpage : RingPage s.curRead) (off : Byte) (n : ℕ) :
    remoteRead s.ram (pageAddr s.curRead off) n = remoteRead t.ram (pageAddr t.curRead off) n := by
  rw [← h.curRead, hpage.pageAddr]
  exact remoteRead_congr h.ring n _

theorem Ne2000.RxEq.tmp (h : s.RxEq t) (hpage : RingPage s.curRead) : s.tmp = t.tmp :=
  h.remoteRead hpage 0 4

theorem Ne2000.RxEq.readPacket (h : s.RxEq t) (hpage : RingPage s.curRead) :
    s.readPacket = t.readPacket := by
  unfold Ne2000.readPacket
  rw [h.tmp hpage]
  dsimp only
  split_ifs
  · exact h.remoteRead hpage 4 _
  · rfl

/-- Cards that agree answer a call alike, and agree after it. -/
theorem Ne2000.RxEq.getPacket (h : s.RxEq t) (hpage : RingPage s.curRead) :
    (ne2000GetPacket s).1.RxEq (ne2000GetPacket t).1 ∧
      (ne2000GetPacket s).2 = (ne2000GetPacket t).2 := by
  have hprx := h.prx
  rcases hs : s.prx with - | -
  · rw [hs] at hprx
    obtain ⟨isr, hisr, hcall⟩ := getPacket_of_not_prx hs
    obtain ⟨isr', hisr', hcall'⟩ := getPacket_of_not_prx hprx.symm
    rw [hcall, hcall']
    exact ⟨⟨h.bnry, h.curr, hisr.trans hisr'.symm, h.ring⟩, rfl⟩
  · rw [hs] at hprx
    have hcaught : t.curRead = t.curr ↔ s.curRead = s.curr := by rw [h.curRead, h.curr]
    by_cases hread : s.curRead = s.curr
    · obtain ⟨isr, hisr, hcall⟩ := getPacket_of_caught_up hs hread
      obtain ⟨isr', hisr', hcall'⟩ := getPacket_of_caught_up hprx.symm (hcaught.2 hread)
      rw [hcall, hcall']
      exact ⟨⟨h.bnry, h.curr, hisr.trans hisr'.symm, h.ring⟩, rfl⟩
    · obtain ⟨isr, hisr, hcall⟩ := getPacket_of_behind hs hread
      obtain ⟨isr', hisr', hcall'⟩ := getPacket_of_behind hprx.symm fun he => hread (hcaught.1 he)
      rw [hcall, hcall', h.tmp hpage, h.readPacket hpage]
      exact ⟨⟨rfl, h.curr, hisr.trans hisr'.symm, h.ring⟩, rfl⟩

theorem Ne2000.RxEq.room (h : s.RxEq t) : s.room = t.room := by
  rw [Ne2000.room, Ne2000.room, h.bnry, h.curr]

theorem Ne2000.receive_of_lt (s : Ne2000) {f : GoodFrame} (h : f.pages < s.room) :
    s.receive f = (s.store f, true) := by
  rw [Ne2000.receive, Ne2000.arrive, if_pos h]

theorem Ne2000.receive_of_not_lt (s : Ne2000) {f : GoodFrame} (h : ¬f.pages < s.room) :
    s.receive f = ({ s with isr := s.isr ||| 0x10 }, false) := by
  rw [Ne2000.receive, Ne2000.arrive, if_neg h]

theorem run_arrive_eq (s : Ne2000Run) (f : GoodFrame) :
    s.step (.arrive f) =
      { s with
        nic := (s.nic.receive f).1
        arrived := if (s.nic.receive f).2 then s.arrived ++ [f] else s.arrived } := by
  rcases h : s.nic.arrive f with - | nic
  · rw [step_drop h, Ne2000.receive, h]
    rfl
  · rw [step_arrive h, Ne2000.receive, h]
    rfl

/-- Cards that agree take a frame alike, and agree after it. -/
theorem Ne2000.RxEq.receive (h : s.RxEq t) (hpage : RingPage s.curr) (f : GoodFrame) :
    (s.receive f).1.RxEq (t.receive f).1 ∧ (s.receive f).2 = (t.receive f).2 := by
  by_cases hroom : f.pages < s.room
  · rw [s.receive_of_lt hroom, t.receive_of_lt (h.room ▸ hroom)]
    refine ⟨⟨h.bnry, ?_, ?_, fun o => ?_⟩, rfl⟩
    · rw [Ne2000.store, Ne2000.store, h.curr]
    · simp [Ne2000.prx, Ne2000.store]
    · rw [Ne2000.store, Ne2000.store]
      dsimp only
      rw [← h.curr, hpage.pageAddr]
      exact ringStore_congr _ h.ring _ _
  · rw [s.receive_of_not_lt hroom, t.receive_of_not_lt (h.room ▸ hroom)]
    refine ⟨⟨h.bnry, h.curr, ?_, h.ring⟩, rfl⟩
    have hprx := h.prx
    simp only [Ne2000.prx] at hprx
    simp only [Ne2000.prx, BitVec.getLsbD_or, hprx]

/-- What arrives leaves the current page in the ring. -/
theorem Ne2000.receive_curr (hpage : RingPage s.curr) (f : GoodFrame) :
    RingPage (s.receive f).1.curr ∧ (s.receive f).1.bnry = s.bnry := by
  by_cases hroom : f.pages < s.room
  · rw [s.receive_of_lt hroom]
    exact ⟨hpage.pageAfter f.pages_lt.le, rfl⟩
  · rw [s.receive_of_not_lt hroom]
    exact ⟨hpage, rfl⟩

/-- Behind the header of a page of the ring the driver reads on there. -/
theorem curRead_of_next {next : Byte} (h : RingPage next) :
    ({ s with bnry := next - 1 } : Ne2000).curRead = next := by
  have hlt : ¬rxPageEnd ≤ next := by
    rw [BitVec.le_def]
    exact not_le.2 h.lt
  change (if rxPageEnd ≤ next - 1 + 1 then rxPageStart else next - 1 + 1) = next
  rw [BitVec.sub_add_cancel, if_neg hlt]

/-- A call whose header, if it reads one, carries a page of the ring leaves the driver reading in
the ring. -/
theorem getPacket_curRead (hcurr : RingPage s.curr) (hread : RingPage s.curRead)
    (hnext : s.boundaryWrite.isSome → RingPage (s.tmp.getD 1 0)) :
    RingPage (ne2000GetPacket s).1.curr ∧ RingPage (ne2000GetPacket s).1.curRead := by
  rcases hprx : s.prx with - | -
  · obtain ⟨isr, -, hcall⟩ := getPacket_of_not_prx hprx
    rw [hcall]
    exact ⟨hcurr, hread⟩
  · by_cases hcaught : s.curRead = s.curr
    · obtain ⟨isr, -, hcall⟩ := getPacket_of_caught_up hprx hcaught
      rw [hcall]
      exact ⟨hcurr, hread⟩
    · obtain ⟨isr, -, hcall⟩ := getPacket_of_behind hprx hcaught
      have hset : s.isr.getLsbD 0 = true := hprx
      have hpage := hnext (by rw [Ne2000.boundaryWrite, if_pos ⟨hset, hcaught⟩]; rfl)
      rw [hcall]
      refine ⟨hcurr, ?_⟩
      have hcur := curRead_of_next (s := { s with isr }) hpage
      exact hcur.symm ▸ hpage

end Receive

/-! ## The transmit half -/

/-- The same transmit registers, and the same bytes below the ring. -/
structure Dp8390.TxEq (s t : Dp8390) : Prop where
  tpsr : s.tpsr = t.tpsr
  tbcr : s.tbcr = t.tbcr
  rsar : s.rsar = t.rsar
  rbcr : s.rbcr = t.rbcr
  dma : s.dma = t.dma
  txp : s.txp = t.txp
  below : ∀ x : BitVec 16, x.toNat < 0x4600 → s.nic.ram x = t.nic.ram x

/-- The write puts no byte into the ring. -/
def Dp8390.Spares (s : Dp8390) : NicWrite → Prop
  | .outb 0x10 _ => s.dma = .write → s.rsar.toNat < 0x4600
  | .outw _ => s.dma = .write → s.rsar.toNat + 1 < 0x4600
  | _ => True

/-- The port writes to come end in the transmission of `frame`, and none of them touches the
ring. -/
def Dp8390.Loads (frame : List Byte) : Dp8390 → List NicWrite → Prop
  | s, [] => s.txp = true ∧ s.tpsr = txPage ∧ s.tbcr.toNat ≤ 0x600 ∧ s.txFrame = frame
  | s, w :: ws => s.txp = false ∧ s.Spares w ∧ (s.portWrite w).Loads frame ws

section Transmit

variable {s t : Dp8390} {frame : List Byte}

theorem ringAddr_ge (o : ℕ) : 0x4600 ≤ (ringAddr o).toNat := by
  rw [toNat_ringAddr]
  omega

theorem Dp8390.dataByte_of_write (h : s.dma = .write ∧ s.rbcr ≠ 0) (v : Byte) :
    ∃ isr, isr.getLsbD 0 = s.nic.prx ∧ s.dataByte v =
      { s with
        nic := { s.nic with ram := Function.update s.nic.ram s.rsar v, isr }
        rsar := ringNext s.rsar
        rbcr := s.rbcr - 1 } := by
  unfold Dp8390.dataByte
  rw [if_pos h]
  refine ⟨_, ?_, rfl⟩
  rw [Ne2000.prx]
  split_ifs <;> simp

theorem Dp8390.dataByte_of_not (h : ¬(s.dma = .write ∧ s.rbcr ≠ 0)) (v : Byte) :
    s.dataByte v = s := if_neg h

theorem Dp8390.TxEq.dataByte (h : s.TxEq t) (v : Byte) : (s.dataByte v).TxEq (t.dataByte v) := by
  by_cases hw : s.dma = .write ∧ s.rbcr ≠ 0
  · obtain ⟨isr, -, hs⟩ := Dp8390.dataByte_of_write hw v
    obtain ⟨isr', -, ht⟩ := Dp8390.dataByte_of_write (h.dma ▸ h.rbcr ▸ hw) v
    rw [hs, ht]
    refine ⟨h.tpsr, h.tbcr, congrArg ringNext h.rsar, congrArg (· - 1) h.rbcr, h.dma, h.txp, ?_⟩
    intro x hx
    dsimp only
    rw [h.rsar]
    by_cases he : x = t.rsar
    · rw [he, Function.update_self, Function.update_self]
    · rw [Function.update_of_ne he, Function.update_of_ne he]
      exact h.below x hx
  · rw [Dp8390.dataByte_of_not hw, Dp8390.dataByte_of_not (h.dma ▸ h.rbcr ▸ hw)]
    exact h

/-- Cards that agree do the same at a port write. -/
theorem Dp8390.TxEq.portWrite (h : s.TxEq t) (w : NicWrite) :
    (s.portWrite w).TxEq (t.portWrite w) := by
  have hregs := h
  obtain ⟨htpsr, htbcr, hrsar, hrbcr, hdma, htxp, hbelow⟩ := h
  unfold Dp8390.portWrite
  split
  · exact ⟨htpsr, htbcr, hrsar, hrbcr, by simp only [Dp8390.command, hdma],
      by simp only [Dp8390.command, htxp], hbelow⟩
  · exact ⟨rfl, htbcr, hrsar, hrbcr, hdma, htxp, hbelow⟩
  · exact ⟨htpsr, by simp only [htbcr], hrsar, hrbcr, hdma, htxp, hbelow⟩
  · exact ⟨htpsr, by simp only [htbcr], hrsar, hrbcr, hdma, htxp, hbelow⟩
  · exact ⟨htpsr, htbcr, by simp only [hrsar], hrbcr, hdma, htxp, hbelow⟩
  · exact ⟨htpsr, htbcr, by simp only [hrsar], hrbcr, hdma, htxp, hbelow⟩
  · exact ⟨htpsr, htbcr, hrsar, by simp only [hrbcr], hdma, htxp, hbelow⟩
  · exact ⟨htpsr, htbcr, hrsar, by simp only [hrbcr], hdma, htxp, hbelow⟩
  · exact hregs.dataByte _
  · exact hregs
  · exact (hregs.dataByte _).dataByte _

theorem Dp8390.TxEq.spares (h : s.TxEq t) {w : NicWrite} (hw : s.Spares w) : t.Spares w := by
  unfold Dp8390.Spares at hw ⊢
  rw [h.dma, h.rsar] at hw
  exact hw

theorem Dp8390.TxEq.txFrame (h : s.TxEq t) (hpage : s.tpsr = txPage) (hlen : s.tbcr.toNat ≤ 0x600) :
    s.txFrame = t.txFrame := by
  rw [Dp8390.txFrame, Dp8390.txFrame, ← h.tpsr, ← h.tbcr, hpage]
  refine List.ext_getElem? fun i => ?_
  rcases Nat.lt_or_ge i s.tbcr.toNat with hi | hi
  · rw [getElem?_read _ _ _ _ hi, getElem?_read _ _ _ _ hi, h.below]
    have hstart : (pageAddr txPage 0).toNat = 0x4000 := rfl
    rw [BitVec.toNat_add, hstart, BitVec.toNat_ofNat]
    omega
  · rw [List.getElem?_eq_none (by simpa using hi), List.getElem?_eq_none (by simpa using hi)]

/-- A port write that spares the ring leaves the receive half as it was. -/
theorem Dp8390.Spares.dataByte {v : Byte} (h : s.dma = .write → s.rsar.toNat < 0x4600) :
    (s.dataByte v).nic.RxEq s.nic := by
  by_cases hw : s.dma = .write ∧ s.rbcr ≠ 0
  · obtain ⟨isr, hisr, hs⟩ := Dp8390.dataByte_of_write hw v
    rw [hs]
    refine ⟨rfl, rfl, hisr, fun o => Function.update_of_ne ?_ _ _⟩
    intro he
    have hge := ringAddr_ge o
    have hlt := h hw.1
    rw [he] at hge
    omega
  · rw [Dp8390.dataByte_of_not hw]
    exact .refl _

theorem toNat_ringNext_le (a : BitVec 16) (h : a.toNat < 0x4600) :
    (ringNext a).toNat = a.toNat + 1 := by
  have hsucc : (a + 1).toNat = a.toNat + 1 := by
    rw [BitVec.toNat_add]
    change (a.toNat + 1) % 65536 = _
    omega
  rw [ringNext, if_neg, hsucc]
  intro he
  have hend := congrArg BitVec.toNat he
  rw [hsucc] at hend
  change _ = 0x7000 at hend
  omega

theorem Dp8390.dataByte_regs (s : Dp8390) (v : Byte) :
    (s.dataByte v).dma = s.dma ∧
      ((s.dataByte v).rsar = s.rsar ∨ (s.dataByte v).rsar = ringNext s.rsar) := by
  unfold Dp8390.dataByte
  split_ifs
  · exact ⟨rfl, .inr rfl⟩
  · exact ⟨rfl, .inr rfl⟩
  · exact ⟨rfl, .inl rfl⟩

theorem Dp8390.Spares.rxEq {w : NicWrite} (h : s.Spares w) : (s.portWrite w).nic.RxEq s.nic := by
  unfold Dp8390.portWrite
  split
  case h_9 => exact Dp8390.Spares.dataByte h
  case h_11 =>
    refine (Dp8390.Spares.dataByte fun hdma => ?_).trans
      (Dp8390.Spares.dataByte fun hdma => Nat.lt_of_succ_lt (h hdma))
    obtain ⟨hsame, hrsar⟩ := s.dataByte_regs (BitVec.setWidth 8 _)
    have hlt := h (hsame ▸ hdma)
    rcases hrsar with hrsar | hrsar
    · rw [hrsar]
      omega
    · rw [hrsar, toNat_ringNext_le _ (by omega)]
      exact hlt
  all_goals exact .refl _

theorem Dp8390.Loads.congr : ∀ {ws : List NicWrite} {s t : Dp8390}, s.Loads frame ws →
    s.TxEq t → t.Loads frame ws
  | [], _, _, hs, h => by
    obtain ⟨htxp, hpage, hlen, hframe⟩ := hs
    exact ⟨h.txp ▸ htxp, h.tpsr ▸ hpage, h.tbcr ▸ hlen, (h.txFrame hpage hlen).symm.trans hframe⟩
  | _ :: _, _, _, hs, h =>
    ⟨h.txp ▸ hs.1, h.spares hs.2.1, hs.2.2.congr (h.portWrite _)⟩

/-! ### The port writes of `ne2000_send_packet` -/

theorem append_ushiftRight (x y : Byte) : ((x ++ y : BitVec 16) >>> 8).setWidth 8 = x := by
  rw [BitVec.setWidth_ushiftRight_eq_extractLsb, BitVec.extractLsb'_append_eq_left]

theorem setHigh_setLow (x : BitVec 16) (low high : Byte) :
    setHigh (setLow x low) high = high ++ low := by
  rw [setHigh, setLow, BitVec.setWidth_append_eq_right]

/-- A size, written in two halves. -/
theorem sizeBytes_eq {size : ℕ} (h : size < 2 ^ 16) :
    (BitVec.ofNat 8 (size / 256) ++ BitVec.ofNat 8 size : BitVec 16) = BitVec.ofNat 16 size := by
  refine BitVec.eq_of_toNat_eq ?_
  rw [toNat_append_add, BitVec.toNat_ofNat, BitVec.toNat_ofNat, BitVec.toNat_ofNat]
  omega

/-- The first `k` bytes are in the transmit pages. -/
structure Dp8390.Writing (p : XmitPacket) (size k : ℕ) (s : Dp8390) : Prop where
  tpsr : s.tpsr = txPage
  tbcr : s.tbcr = BitVec.ofNat 16 size
  rsar : s.rsar = BitVec.ofNat 16 (0x4000 + k)
  rbcr : s.rbcr = BitVec.ofNat 16 (size - k)
  dma : s.dma = .write
  txp : s.txp = false
  bytes : ∀ j < k, s.nic.ram (BitVec.ofNat 16 (0x4000 + j)) = p j

variable {p : XmitPacket} {size k : ℕ} {ws : List NicWrite}

theorem Dp8390.Writing.rsar_lt (h : s.Writing p size k) (hk : k < 0x600) :
    s.rsar.toNat = 0x4000 + k := by
  rw [h.rsar, BitVec.toNat_ofNat]
  omega

theorem Dp8390.Writing.dataByte (h : s.Writing p size k) (hk : k < size) (hsize : size ≤ 0x600) :
    (s.dataByte (p k)).Writing p size (k + 1) := by
  have hcount : s.rbcr ≠ 0 := by
    rw [h.rbcr]
    intro he
    have := congrArg BitVec.toNat he
    rw [BitVec.toNat_ofNat] at this
    change (size - k) % 65536 = 0 at this
    omega
  have hrsar := h.rsar_lt (by omega)
  obtain ⟨isr, -, hs⟩ := Dp8390.dataByte_of_write ⟨h.dma, hcount⟩ (p k)
  rw [hs]
  refine ⟨h.tpsr, h.tbcr, ?_, ?_, h.dma, h.txp, fun j hj => ?_⟩
  · refine BitVec.eq_of_toNat_eq ?_
    dsimp only
    rw [toNat_ringNext_le _ (by omega), hrsar, BitVec.toNat_ofNat]
    omega
  · have hone : (1 : BitVec 16).toNat = 1 := rfl
    refine BitVec.eq_of_toNat_eq ?_
    dsimp only
    rw [h.rbcr, BitVec.toNat_sub, BitVec.toNat_ofNat, BitVec.toNat_ofNat, hone]
    omega
  · dsimp only
    rw [h.rsar]
    by_cases he : j = k
    · rw [he, Function.update_self]
    · rw [Function.update_of_ne, h.bytes j (by omega)]
      intro haddr
      have := congrArg BitVec.toNat haddr
      rw [BitVec.toNat_ofNat, BitVec.toNat_ofNat] at this
      omega

/-- The whole frame is in the transmit pages, and the last write starts the transmission. -/
theorem Dp8390.Writing.start (h : s.Writing p size size) (hsize : size ≤ 0x600) :
    s.Loads (p.get 0 size) [.outb 0x0 (0x22 ||| 0x04)] := by
  refine ⟨h.txp, trivial, ?_, h.tpsr, ?_, ?_⟩
  · simp [Dp8390.portWrite, Dp8390.command]
  · change s.tbcr.toNat ≤ 0x600
    rw [h.tbcr, BitVec.toNat_ofNat]
    omega
  · have hlen : s.tbcr.toNat = size := by
      rw [h.tbcr, BitVec.toNat_ofNat]
      omega
    change Memory.read s.nic.ram (pageAddr s.tpsr 0) s.tbcr.toNat = _
    rw [hlen, h.tpsr, XmitPacket.get]
    refine List.ext_getElem? fun i => ?_
    rcases Nat.lt_or_ge i size with hi | hi
    · rw [getElem?_read _ _ _ _ hi, Walk.getElem?_read _ _ _ _ hi, Nat.succ_iterate, Nat.zero_add,
        ← h.bytes i hi, BitVec.ofNat_add]
      rfl
    · rw [List.getElem?_eq_none (by simpa using hi), List.getElem?_eq_none (by simpa using hi)]

/-- The words of a packet, from the `i`-th on. -/
theorem Dp8390.Writing.words (hsize : size ≤ 0x600) (n : ℕ) : ∀ {i : ℕ} {s : Dp8390},
    s.Writing p size (2 * i) → 2 * (i + n) ≤ size →
    (∀ t : Dp8390, t.Writing p size (2 * (i + n)) → t.Loads frame ws) →
    s.Loads frame
      ((List.range' i n).map (fun i => .outw (p (2 * i + 1) ++ p (2 * i))) ++ ws) := by
  induction n with
  | zero => exact fun h _ hrest => hrest _ h
  | succ n ih =>
    intro i s h hn hrest
    have hlow : (p (2 * i + 1) ++ p (2 * i)).setWidth 8 = p (2 * i) :=
      BitVec.setWidth_append_eq_right
    have hhigh : ((p (2 * i + 1) ++ p (2 * i)) >>> 8).setWidth 8 = p (2 * i + 1) :=
      append_ushiftRight _ _
    refine ⟨h.txp, fun _ => ?_, ?_⟩
    · rw [h.rsar_lt (by omega)]
      omega
    · have hword := (h.dataByte (by omega) hsize).dataByte (by omega) hsize
      rw [Dp8390.portWrite, hlow, hhigh]
      refine ih hword (by omega) fun t ht => hrest t ?_
      have hi : i + 1 + n = i + (n + 1) := by omega
      exact hi ▸ ht

/-- A write to a register that starts no transmission. -/
def NicWrite.Register : NicWrite → Prop
  | .outb 0x0 v => v.getLsbD 2 = false
  | .outb 0x10 _ => False
  | .outw _ => False
  | _ => True

theorem NicWrite.Register.spares {w : NicWrite} (hw : w.Register) (s : Dp8390) :
    s.Spares w ∧ (s.portWrite w).txp = s.txp := by
  unfold NicWrite.Register at hw
  split at hw
  · refine ⟨trivial, ?_⟩
    simp only [Dp8390.portWrite, Dp8390.command, hw, Bool.or_false]
  · exact hw.elim
  · exact hw.elim
  · unfold Dp8390.Spares Dp8390.portWrite
    split <;> split <;> simp_all

theorem loads_registers (rest : List NicWrite) : ∀ {ws : List NicWrite} {s : Dp8390},
    (∀ w ∈ ws, w.Register) → s.txp = false →
    (ws.foldl Dp8390.portWrite s).Loads frame rest → s.Loads frame (ws ++ rest)
  | [], _, _, _, h => h
  | w :: ws, s, hws, htxp, h => by
    obtain ⟨hspares, hsame⟩ := (hws w (by simp)).spares s
    exact ⟨htxp, hspares,
      loads_registers rest (fun w hw => hws w (by simp [hw])) (hsame.trans htxp) h⟩

/-- The writes before the first byte. -/
theorem writing_zero (s : Dp8390) (p : XmitPacket) {size : ℕ} (hsize : size < 2 ^ 16)
    (htxp : s.txp = false) :
    ([.outb 0x4 txPage, .outb 0x5 (BitVec.ofNat 8 size), .outb 0x6 (BitVec.ofNat 8 (size / 256)),
      .outb 0x8 0, .outb 0x0 (0x02 ||| 0x08), .outb 0xA (BitVec.ofNat 8 size),
      .outb 0xB (BitVec.ofNat 8 (size / 256)), .outb 0x8 0, .outb 0x9 txPage,
      .outb 0x0 (0x02 ||| 0x10)].foldl Dp8390.portWrite s).Writing p size 0 where
  tpsr := rfl
  tbcr := (setHigh_setLow _ _ _).trans (sizeBytes_eq hsize)
  rsar := setHigh_setLow _ _ _
  rbcr := (setHigh_setLow _ _ _).trans (sizeBytes_eq hsize)
  dma := rfl
  txp := by simp [Dp8390.portWrite, Dp8390.command, htxp]
  bytes := fun _ hj => absurd hj (Nat.not_lt_zero _)

/-- From any state in which the card is not sending, the port writes send the packet. -/
theorem loads_sendPacket (htxp : s.txp = false) (hsize : size ≤ 0x600) :
    s.Loads (p.get 0 size) (ne2000SendPacket p size) := by
  rw [ne2000SendPacket, List.append_assoc]
  refine loads_registers _ (by simp [NicWrite.Register]) htxp ?_
  have hzero := writing_zero s p (by omega : size < 2 ^ 16) htxp
  rw [XmitPacket.words, List.append_assoc, List.range_eq_range']
  refine Dp8390.Writing.words hsize (size / 2) (i := 0) hzero (by omega) fun t ht => ?_
  rw [Nat.zero_add] at ht
  split_ifs with hodd
  · have hlast := ht.dataByte (by omega) hsize
    have hindex : 2 * (size / 2) = size - 1 := by omega
    rw [hindex] at ht hlast
    rw [Nat.sub_add_cancel (by omega)] at hlast
    refine ⟨ht.txp, fun _ => ?_, hlast.start hsize⟩
    rw [ht.rsar_lt (by omega)]
    omega
  · have hindex : 2 * (size / 2) = size := by omega
    exact (hindex ▸ ht).start hsize

/-! ### The buffer -/

theorem XmitPacket.get_put (p : XmitPacket) (i : ℕ) (bs : List Byte) :
    (p.put i bs).get i bs.length = bs := by
  refine Walk.read_write _ _ _ fun j _ k _ he => ?_
  rw [Nat.succ_iterate, Nat.succ_iterate] at he
  omega

/-- What is put behind a part of the packet leaves it. -/
theorem XmitPacket.get_put_of_le (p : XmitPacket) {i j n : ℕ} (bs : List Byte) (h : j + n ≤ i) :
    (p.put i bs).get j n = p.get j n := by
  refine List.ext_getElem? fun k => ?_
  rcases Nat.lt_or_ge k n with hk | hk
  · rw [XmitPacket.get, XmitPacket.get, Walk.getElem?_read _ _ _ _ hk,
      Walk.getElem?_read _ _ _ _ hk, XmitPacket.put, Walk.write_of_ne]
    intro l _ he
    rw [Nat.succ_iterate, Nat.succ_iterate] at he
    omega
  · rw [XmitPacket.get, XmitPacket.get, List.getElem?_eq_none (by simpa using hk),
      List.getElem?_eq_none (by simpa using hk)]

theorem XmitPacket.get_add (p : XmitPacket) (n m : ℕ) :
    p.get 0 (n + m) = p.get 0 n ++ p.get n m := by
  rw [XmitPacket.get, Walk.read_add, Nat.succ_iterate, Nat.zero_add]
  rfl

theorem ringStore_below (m : Mem 16) (o : ℕ) (bytes : List Byte) {x : BitVec 16}
    (hx : x.toNat < 0x4600) : ringStore m (ringAddr o) bytes x = m x := by
  refine Walk.write_of_ne _ _ _ fun i _ he => ?_
  rw [ringNext_iterate] at he
  have hge := ringAddr_ge (o + i)
  rw [he] at hge
  omega

/-- A frame that arrives leaves the transmit half as it was. -/
theorem Dp8390.txEq_receive (s : Dp8390) (hpage : RingPage s.nic.curr) (f : GoodFrame) :
    s.TxEq { s with nic := (s.nic.receive f).1 } := by
  refine ⟨rfl, rfl, rfl, rfl, rfl, rfl, fun x hx => ?_⟩
  by_cases hroom : f.pages < s.nic.room
  · rw [s.nic.receive_of_lt hroom]
    rw [Ne2000.store]
    dsimp only
    rw [hpage.pageAddr, ringStore_below _ _ _ hx]
  · rw [s.nic.receive_of_not_lt hroom]

end Transmit

/-! ## Runs -/

/-- The port writes of `ne2000_send_packet` that are still to come before the transmission. -/
def Ne2000Phase.rest : Ne2000Phase → Option (List NicWrite)
  | .loading rest => some rest
  | .sending => some []
  | _ => none

section Runs

variable {card : Dp8390} {ram : Mem 16} {s s' : Ne2000Duplex}

/-- Everything handed over is sent, and the card is not sending. -/
structure Ne2000Duplex.Quiet (s : Ne2000Duplex) : Prop where
  txp : s.card.txp = false
  sent : s.sent = s.handed

/-- Outside `ne2000_send_packet` everything is sent, and inside it one frame may be on its way. -/
structure Ne2000Duplex.Sends (s : Ne2000Duplex) : Prop where
  quiet : s.phase.rest = none → s.Quiet
  prepared : ∀ sz hdr, s.phase = .filling sz hdr →
    sz < 1520 ∧ s.xmitPacket.get 0 14 = hdr.toList
  loading : ∀ rest, s.phase.rest = some rest →
    (∃ frame, s.handed = s.sent ++ [frame] ∧ s.card.Loads frame rest) ∨ rest = [] ∧ s.Quiet

/-- The receive half is that of the run without the transmissions, and reads in the ring. -/
structure Ne2000Duplex.Receives (ram : Mem 16) (s : Ne2000Duplex) : Prop where
  curr : RingPage s.card.nic.curr
  curRead : RingPage s.card.nic.curRead
  like : s.card.nic.RxEq ((ne2000Start ram).run s.events).nic
  arrived : s.arrived = ((ne2000Start ram).run s.events).arrived
  returned : s.returned = ((ne2000Start ram).run s.events).returned

theorem ringPage_start : RingPage rxPageStart := ⟨by decide, by decide⟩

theorem Ne2000Duplex.receives_start (card : Dp8390) (ram : Mem 16) :
    (Ne2000Duplex.start card ram).Receives ram where
  curr := ringPage_start
  curRead := by
    have hread : (ne2000Init ram).curRead = 0x47 := by
      change (if rxPageEnd ≤ rxPageStart + 1 then rxPageStart else rxPageStart + 1) = 0x47#8
      decide
    change RingPage (ne2000Init ram).curRead
    exact hread.symm ▸ ⟨by decide, by decide⟩
  like := .refl _
  arrived := rfl
  returned := rfl

theorem ne2000Run_append (s : Ne2000Run) (as : List Ne2000Action) (a : Ne2000Action) :
    s.run (as ++ [a]) = (s.run as).step a := by
  rw [Ne2000Run.run, List.foldl_append, List.foldl_cons, List.foldl_nil]
  rfl

/-- What leaves the ring, its registers and what was received as they are. -/
theorem Ne2000Duplex.Receives.of_rxEq (h : s.Receives ram) (hcard : s'.card.nic.RxEq s.card.nic)
    (harrived : s'.arrived = s.arrived) (hreturned : s'.returned = s.returned)
    (hevents : s'.events = s.events) : s'.Receives ram where
  curr := hcard.curr.symm ▸ h.curr
  curRead := hcard.curRead.symm ▸ h.curRead
  like := by
    rw [hevents]
    exact hcard.trans h.like
  arrived := by rw [harrived, hevents, h.arrived]
  returned := by rw [hreturned, hevents, h.returned]

theorem Ne2000Duplex.Receives.arrive (h : s.Receives ram) (f : GoodFrame)
    (hstep : s.step (.arrive f) = some s') : s'.Receives ram := by
  simp only [Ne2000Duplex.step, Option.some.injEq] at hstep
  subst hstep
  obtain ⟨hlike, hstored⟩ := h.like.receive h.curr f
  obtain ⟨hcurr, hbnry⟩ := Ne2000.receive_curr h.curr f
  refine ⟨hcurr, ?_, ?_, ?_, ?_⟩
  · have hread : (s.card.nic.receive f).1.curRead = s.card.nic.curRead := by
      rw [Ne2000.curRead, Ne2000.curRead, hbnry]
    exact hread.symm ▸ h.curRead
  · rw [ne2000Run_append, run_arrive_eq]
    exact hlike
  · rw [ne2000Run_append, run_arrive_eq, ← hstored, h.arrived]
  · rw [ne2000Run_append, run_arrive_eq]
    exact h.returned

theorem Ne2000Duplex.Receives.getPacket (h : s.Receives ram) {rsar rbcr : BitVec 16}
    {dma : RemoteDma} (hok : s.ok (.getPacket rsar rbcr dma) = true)
    (hstep : s.step (.getPacket rsar rbcr dma) = some s') : s'.Receives ram := by
  have hnext : s.card.nic.boundaryWrite.isSome → RingPage (s.card.nic.tmp.getD 1 0) := by
    intro hsome
    rw [Ne2000Duplex.ok, Bool.or_eq_true, Option.isNone_iff_eq_none, Bool.and_eq_true,
      decide_eq_true_eq, decide_eq_true_eq] at hok
    rcases hok with hnone | hpage
    · rw [hnone] at hsome
      cases hsome
    · exact ⟨hpage.1, hpage.2⟩
  rcases hphase : s.phase with - | ⟨sz, hdr⟩ | ⟨sz, hdr⟩ | rest | -
  · simp only [Ne2000Duplex.step, hphase, Option.some.injEq] at hstep
    subst hstep
    obtain ⟨hlike, hanswer⟩ := h.like.getPacket h.curRead
    obtain ⟨hcurr, hread⟩ := getPacket_curRead h.curr h.curRead hnext
    refine ⟨hcurr, hread, ?_, ?_, ?_⟩
    · rw [ne2000Run_append]
      exact hlike
    · rw [ne2000Run_append]
      exact h.arrived
    · rw [ne2000Run_append, hanswer, h.returned]
      rfl
  all_goals simp [Ne2000Duplex.step, hphase] at hstep

theorem portWrite_start (s : Dp8390) : s.portWrite (.outb 0x0 0x22) = { s with dma := .off } := by
  simp [Dp8390.portWrite, Dp8390.command]

/-- A transmission and a port write that is to come leave the ring alone. -/
theorem Ne2000Duplex.Sends.rxEq {a : Ne2000DuplexAction} (h : s.Sends)
    (hreceive : (∀ f, a ≠ .arrive f) ∧ ∀ rsar rbcr dma, a ≠ .getPacket rsar rbcr dma)
    (hstep : s.step a = some s') :
    s'.card.nic.RxEq s.card.nic ∧ s'.arrived = s.arrived ∧ s'.returned = s.returned ∧
      s'.events = s.events := by
  cases a with
  | arrive f => exact absurd rfl (hreceive.1 f)
  | getPacket rsar rbcr dma => exact absurd rfl (hreceive.2 rsar rbcr dma)
  | prepareSendPacket sz hdr =>
    rcases hphase : s.phase with - | ⟨sz', hdr'⟩ | ⟨sz', hdr'⟩ | rest | -
    · simp only [Ne2000Duplex.step, hphase, portWrite_start, Option.some.injEq] at hstep
      subst hstep
      exact ⟨.refl _, rfl, rfl, rfl⟩
    all_goals simp [Ne2000Duplex.step, hphase] at hstep
  | poll =>
    rcases hphase : s.phase with - | ⟨sz', hdr'⟩ | ⟨sz', hdr'⟩ | rest | -
    case waiting | sending =>
      simp only [Ne2000Duplex.step, hphase] at hstep
      split_ifs at hstep
      all_goals
        simp only [Option.some.injEq] at hstep
        subst hstep
        exact ⟨.refl _, rfl, rfl, rfl⟩
    all_goals simp [Ne2000Duplex.step, hphase] at hstep
  | fill i bs =>
    rcases hphase : s.phase with - | ⟨sz', hdr'⟩ | ⟨sz', hdr'⟩ | rest | -
    case filling =>
      simp only [Ne2000Duplex.step, hphase, Option.some.injEq] at hstep
      subst hstep
      exact ⟨.refl _, rfl, rfl, rfl⟩
    all_goals simp [Ne2000Duplex.step, hphase] at hstep
  | sendPacket =>
    rcases hphase : s.phase with - | ⟨sz', hdr'⟩ | ⟨sz', hdr'⟩ | rest | -
    case filling =>
      simp only [Ne2000Duplex.step, hphase, Option.some.injEq] at hstep
      subst hstep
      exact ⟨.refl _, rfl, rfl, rfl⟩
    all_goals simp [Ne2000Duplex.step, hphase] at hstep
  | portWrite =>
    rcases hphase : s.phase with - | ⟨sz', hdr'⟩ | ⟨sz', hdr'⟩ | rest | -
    case loading =>
      have hloading := h.loading rest (by rw [hphase]; rfl)
      rcases rest with - | ⟨w, rest⟩
      · simp only [Ne2000Duplex.step, hphase, portWrite_start, Option.some.injEq] at hstep
        subst hstep
        exact ⟨.refl _, rfl, rfl, rfl⟩
      · simp only [Ne2000Duplex.step, hphase, Option.some.injEq] at hstep
        subst hstep
        rcases hloading with ⟨frame, -, hloads⟩ | ⟨hnil, -⟩
        · exact ⟨hloads.2.1.rxEq, rfl, rfl, rfl⟩
        · cases hnil
    all_goals simp [Ne2000Duplex.step, hphase] at hstep
  | transmit =>
    simp only [Ne2000Duplex.step] at hstep
    split_ifs at hstep
    simp only [Option.some.injEq] at hstep
    subst hstep
    exact ⟨⟨rfl, rfl, by simp [Dp8390.transmitted, Ne2000.prx], fun _ => rfl⟩, rfl, rfl, rfl⟩

/-- Between two calls and while the buffer is filled nothing is on its way. -/
theorem Ne2000Duplex.Sends.of_quiet (h : s.Quiet) (hrest : s.phase.rest = none)
    (hprepared : ∀ sz hdr, s.phase = .filling sz hdr →
      sz < 1520 ∧ s.xmitPacket.get 0 14 = hdr.toList) : s.Sends where
  quiet _ := h
  prepared := hprepared
  loading rest hsome := by
    rw [hrest] at hsome
    cases hsome

/-- What leaves the transmit half and what was sent as they are. -/
theorem Ne2000Duplex.Sends.of_txEq (h : s.Sends) (hcard : s.card.TxEq s'.card)
    (hphase : s'.phase = s.phase) (hpacket : s'.xmitPacket = s.xmitPacket)
    (hsent : s'.sent = s.sent) (hhanded : s'.handed = s.handed) : s'.Sends where
  quiet hrest := by
    have hquiet := h.quiet (hphase ▸ hrest)
    exact ⟨hcard.txp ▸ hquiet.txp, by rw [hsent, hhanded, hquiet.sent]⟩
  prepared sz hdr hfilling := by
    rw [hpacket]
    exact h.prepared sz hdr (hphase ▸ hfilling)
  loading rest hrest := by
    rcases h.loading rest (hphase ▸ hrest) with ⟨frame, hframe, hloads⟩ | ⟨hnil, hquiet⟩
    · exact .inl ⟨frame, by rw [hsent, hhanded, hframe], hloads.congr hcard⟩
    · exact .inr ⟨hnil, hcard.txp ▸ hquiet.txp, by rw [hsent, hhanded, hquiet.sent]⟩

theorem Ne2000Duplex.Sends.poll (h : s.Sends) (hstep : s.step .poll = some s') : s'.Sends := by
  rcases hphase : s.phase with - | ⟨sz, hdr⟩ | ⟨sz, hdr⟩ | rest | -
  case waiting =>
    have hquiet := h.quiet (by rw [hphase]; rfl)
    simp only [Ne2000Duplex.step, hphase, hquiet.txp, Bool.false_eq_true, if_false] at hstep
    split_ifs at hstep with hsz
    · simp only [Option.some.injEq] at hstep
      subst hstep
      exact .of_quiet ⟨hquiet.txp, hquiet.sent⟩ rfl nofun
    · simp only [Option.some.injEq] at hstep
      subst hstep
      refine .of_quiet ⟨hquiet.txp, hquiet.sent⟩ rfl ?_
      rintro sz' hdr' ⟨⟩
      have hput := XmitPacket.get_put s.xmitPacket 0 hdr.toList
      rw [EthernetFrameHeader.length_toList] at hput
      exact ⟨not_le.1 hsz, hput⟩
  case sending =>
    simp only [Ne2000Duplex.step, hphase] at hstep
    split_ifs at hstep with htxp
    · simp only [Option.some.injEq] at hstep
      exact hstep ▸ h
    · simp only [Option.some.injEq] at hstep
      subst hstep
      rcases h.loading [] (by rw [hphase]; rfl) with ⟨frame, -, hloads⟩ | ⟨-, hquiet⟩
      · exact absurd hloads.1 htxp
      · exact .of_quiet ⟨hquiet.txp, hquiet.sent⟩ rfl nofun
  all_goals simp [Ne2000Duplex.step, hphase] at hstep

theorem Ne2000Duplex.Sends.portWrite (h : s.Sends) (hstep : s.step .portWrite = some s') :
    s'.Sends := by
  rcases hphase : s.phase with - | ⟨sz, hdr⟩ | ⟨sz, hdr⟩ | rest | -
  case loading =>
    have hloading := h.loading rest (by rw [hphase]; rfl)
    rcases rest with - | ⟨w, rest⟩
    · simp only [Ne2000Duplex.step, hphase, portWrite_start, Option.some.injEq] at hstep
      subst hstep
      refine ⟨nofun, nofun, ?_⟩
      rintro rest ⟨⟩
      rcases hloading with ⟨frame, hframe, hloads⟩ | ⟨-, hquiet⟩
      · exact .inl ⟨frame, hframe, hloads⟩
      · exact .inr ⟨rfl, hquiet.txp, hquiet.sent⟩
    · simp only [Ne2000Duplex.step, hphase, Option.some.injEq] at hstep
      subst hstep
      refine ⟨nofun, nofun, ?_⟩
      rintro rest' ⟨⟩
      rcases hloading with ⟨frame, hframe, hloads⟩ | ⟨hnil, -⟩
      · exact .inl ⟨frame, hframe, hloads.2.2⟩
      · cases hnil
  all_goals simp [Ne2000Duplex.step, hphase] at hstep

/-- The frame that goes out is the one handed over last. -/
theorem Ne2000Duplex.Sends.transmit (h : s.Sends) (hstep : s.step .transmit = some s') :
    s'.Sends := by
  simp only [Ne2000Duplex.step] at hstep
  split_ifs at hstep with htxp
  simp only [Option.some.injEq] at hstep
  subst hstep
  have hbusy : ¬s.Quiet := fun hquiet => Bool.false_ne_true (hquiet.txp.symm.trans htxp)
  refine ⟨fun hrest => absurd (h.quiet hrest) hbusy, h.prepared, fun rest hrest => ?_⟩
  rcases h.loading rest hrest with ⟨frame, hframe, hloads⟩ | ⟨-, hquiet⟩
  · rcases rest with - | ⟨w, rest⟩
    · refine .inr ⟨rfl, rfl, ?_⟩
      rw [hframe, hloads.2.2.2]
    · exact absurd (hloads.1.symm.trans htxp) Bool.false_ne_true
  · exact absurd hquiet hbusy

theorem Ne2000Duplex.Sends.step {a : Ne2000DuplexAction} (h : s.Sends)
    (hcurr : RingPage s.card.nic.curr) (hok : s.ok a = true) (hstep : s.step a = some s') :
    s'.Sends := by
  cases a with
  | arrive f =>
    simp only [Ne2000Duplex.step, Option.some.injEq] at hstep
    subst hstep
    exact h.of_txEq (s.card.txEq_receive hcurr f) rfl rfl rfl rfl
  | getPacket rsar rbcr dma =>
    rcases hphase : s.phase with - | ⟨sz, hdr⟩ | ⟨sz, hdr⟩ | rest | -
    · have hquiet := h.quiet (by rw [hphase]; rfl)
      simp only [Ne2000Duplex.step, hphase, Option.some.injEq] at hstep
      subst hstep
      exact .of_quiet ⟨hquiet.txp, hquiet.sent⟩ rfl nofun
    all_goals simp [Ne2000Duplex.step, hphase] at hstep
  | prepareSendPacket sz hdr =>
    rcases hphase : s.phase with - | ⟨sz', hdr'⟩ | ⟨sz', hdr'⟩ | rest | -
    · have hquiet := h.quiet (by rw [hphase]; rfl)
      simp only [Ne2000Duplex.step, hphase, portWrite_start, Option.some.injEq] at hstep
      subst hstep
      exact .of_quiet ⟨hquiet.txp, hquiet.sent⟩ rfl nofun
    all_goals simp [Ne2000Duplex.step, hphase] at hstep
  | poll => exact h.poll hstep
  | fill i bs =>
    rcases hphase : s.phase with - | ⟨sz, hdr⟩ | ⟨sz, hdr⟩ | rest | -
    case filling =>
      have hquiet := h.quiet (by rw [hphase]; rfl)
      simp only [Ne2000Duplex.step, hphase, Option.some.injEq] at hstep
      subst hstep
      refine .of_quiet ⟨hquiet.txp, hquiet.sent⟩ rfl ?_
      intro sz' hdr' hfilling
      obtain ⟨hsz, hhdr⟩ := h.prepared sz' hdr' (hphase.trans hfilling)
      exact ⟨hsz, (XmitPacket.get_put_of_le _ _ (by omega)).trans hhdr⟩
    all_goals simp [Ne2000Duplex.step, hphase] at hstep
  | sendPacket =>
    rcases hphase : s.phase with - | ⟨sz, hdr⟩ | ⟨sz, hdr⟩ | rest | -
    case filling =>
      have hquiet := h.quiet (by rw [hphase]; rfl)
      obtain ⟨hsz, hhdr⟩ := h.prepared sz hdr hphase
      simp only [Ne2000Duplex.step, hphase, Option.some.injEq] at hstep
      subst hstep
      refine ⟨nofun, nofun, ?_⟩
      rintro rest ⟨⟩
      have hloads := loads_sendPacket (p := s.xmitPacket) hquiet.txp (by omega : sz + 14 ≤ 0x600)
      rw [Nat.add_comm sz, XmitPacket.get_add, hhdr] at hloads
      rw [Nat.add_comm sz]
      exact .inl ⟨_, by rw [hquiet.sent], hloads⟩
    all_goals simp [Ne2000Duplex.step, hphase] at hstep
  | portWrite => exact h.portWrite hstep
  | transmit => exact h.transmit hstep

theorem Ne2000Duplex.step_inv {a : Ne2000DuplexAction} (h : s.Sends ∧ s.Receives ram)
    (hok : s.ok a = true) (hstep : s.step a = some s') : s'.Sends ∧ s'.Receives ram := by
  obtain ⟨hsends, hreceives⟩ := h
  refine ⟨hsends.step hreceives.curr hok hstep, ?_⟩
  by_cases hreceive : (∀ f, a ≠ .arrive f) ∧ ∀ rsar rbcr dma, a ≠ .getPacket rsar rbcr dma
  · obtain ⟨hcard, harrived, hreturned, hevents⟩ := hsends.rxEq hreceive hstep
    exact hreceives.of_rxEq hcard harrived hreturned hevents
  · cases a with
    | arrive f => exact hreceives.arrive f hstep
    | getPacket rsar rbcr dma => exact hreceives.getPacket hok hstep
    | _ => exact absurd ⟨nofun, nofun⟩ hreceive

theorem Ne2000Duplex.Sends.waiting (h : s.Sends) :
    s.sent <+: s.handed ∧ s.handed.length ≤ s.sent.length + 1 := by
  rcases hrest : s.phase.rest with - | rest
  · rw [(h.quiet hrest).sent]
    exact ⟨List.prefix_rfl, Nat.le_succ _⟩
  · rcases h.loading rest hrest with ⟨frame, hframe, -⟩ | ⟨-, hquiet⟩
    · rw [hframe]
      exact ⟨List.prefix_append _ _, by simp⟩
    · rw [hquiet.sent]
      exact ⟨List.prefix_rfl, Nat.le_succ _⟩

end Runs

/-- In every run in which the headers that are read carry pages of the ring, each frame handed over
is sent as it was, once and before the next, and what is received is what the same arrivals and
calls bring without any transmission. -/
theorem ne2000_separate {card : Dp8390} {ram : Mem 16} {s : Ne2000Duplex}
    (h : s.Reached card ram) : s.Separate ram := by
  obtain ⟨hsends, hreceives⟩ : s.Sends ∧ s.Receives ram := by
    refine Transition.Reaches.invariant (I := fun s => s.Sends ∧ s.Receives ram) h ?_ ?_
    · exact ⟨.of_quiet ⟨rfl, rfl⟩ rfl nofun, Ne2000Duplex.receives_start card ram⟩
    · exact fun _ _ _ hs hok hstep => Ne2000Duplex.step_inv hs hok hstep
  exact ⟨hsends.waiting.1, hsends.waiting.2,
    fun hidle => (hsends.quiet (by rw [hidle]; rfl)).sent, hreceives.arrived, hreceives.returned⟩

/-- A card with zeros in its registers. -/
def zeroCard : Dp8390 where
  nic := ne2000Init fun _ => 0
  tpsr := 0
  tbcr := 0
  rsar := 0
  rbcr := 0
  dma := .off
  txp := false

/-- `numberedFrame i` is sent, another frame arrives among the port writes, and `net_idle` reads it
afterwards. -/
def sendAndRead (i : ℕ) : List Ne2000DuplexAction :=
  List.flatten
    [[.prepareSendPacket 1 broadcastHeader, .poll, .fill 0 [BitVec.ofNat 8 i], .sendPacket],
      List.replicate 12 .portWrite, [.arrive shortFrame], List.replicate 8 .portWrite,
      [.transmit, .poll, .getPacket 0x4600 0 .read]]

theorem ne2000_separate_two_each_way : ∃ s : Ne2000Duplex, s.Reached zeroCard (fun _ => 0) ∧
    s.sent = [numberedFrame 0, numberedFrame 1] ∧ s.events.length = 4 ∧
    s.returned = [.ofFrame shortFrame.bytes] ∧ s.Separate fun _ => 0 := by
  obtain ⟨s, hs, hends⟩ := Transition.exists_reaches_of_exec_map Ne2000Duplex.step
    (Ne2000Duplex.ok · · = true) (sendAndRead 0 ++ sendAndRead 1)
    (s := .start zeroCard fun _ => 0) (f := fun s => (s.sent, s.events.length, s.returned))
    (b := ([numberedFrame 0, numberedFrame 1], 4, [.ofFrame shortFrame.bytes]))
    (by decide +kernel)
  simp only [Prod.mk.injEq] at hends
  obtain ⟨hsent, hevents, hreturned⟩ := hends
  exact ⟨s, hs, hsent, hevents, hreturned, ne2000_separate hs⟩

end RemoteX86
