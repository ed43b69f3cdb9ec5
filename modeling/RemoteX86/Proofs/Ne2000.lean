import RemoteX86.Ne2000

/-!
# The NE2000 loses the first frame

`ne2000_init` sets the boundary to the page the card stores at first, and the driver reads from the
page after it.  A first frame of one page is passed over; of a longer one the driver takes the bytes
in its second page for a header.  Every frame returned clears PRX, and PRX is set once by each frame
at most, so from then on there is always one more frame than PRX will be set for.
-/

namespace RemoteX86

open Hex Memory

/-! ## Addresses of the ring -/

/-- The address `o` bytes into the ring, around it. -/
def ringAddr (o : ℕ) : BitVec 16 := BitVec.ofNat 16 (0x4600 + o % 0x2A00)

theorem toNat_ringAddr (o : ℕ) : (ringAddr o).toNat = 0x4600 + o % 0x2A00 := by
  rw [ringAddr, BitVec.toNat_ofNat]
  omega

theorem ringAddr_inj {o o' : ℕ} : ringAddr o = ringAddr o' ↔ o % 0x2A00 = o' % 0x2A00 := by
  rw [← BitVec.toNat_inj, toNat_ringAddr, toNat_ringAddr]
  omega

theorem ringNext_ringAddr (o : ℕ) : ringNext (ringAddr o) = ringAddr (o + 1) := by
  have hsucc : (ringAddr o + 1).toNat = 0x4600 + o % 0x2A00 + 1 := by
    rw [BitVec.toNat_add, toNat_ringAddr]
    change (0x4600 + o % 0x2A00 + 1) % 65536 = _
    omega
  unfold ringNext
  split_ifs with hend
  · have hlast : 0x4600 + o % 0x2A00 + 1 = 0x7000 := hsucc.symm.trans (congrArg BitVec.toNat hend)
    refine BitVec.eq_of_toNat_eq ?_
    rw [toNat_ringAddr]
    change 0x4600 = _
    omega
  · have hne : 0x4600 + o % 0x2A00 + 1 ≠ 0x7000 := fun he =>
      hend (BitVec.eq_of_toNat_eq (hsucc.trans he))
    refine BitVec.eq_of_toNat_eq ?_
    rw [hsucc, toNat_ringAddr]
    omega

theorem ringNext_iterate (o : ℕ) : ∀ i, ringNext^[i] (ringAddr o) = ringAddr (o + i)
  | 0 => rfl
  | i + 1 => by
    rw [Function.iterate_succ_apply', ringNext_iterate o i, ringNext_ringAddr, Nat.add_assoc]

/-- The page is one of the ring. -/
structure RingPage (page : Byte) : Prop where
  ge : 0x46 ≤ page.toNat
  lt : page.toNat < 0x70

theorem RingPage.pageAddr {page : Byte} (h : RingPage page) (off : Byte) :
    pageAddr page off = ringAddr ((page.toNat - 0x46) * 256 + off.toNat) := by
  have hge := h.ge
  have hlt := h.lt
  have hoff := off.isLt
  refine BitVec.eq_of_toNat_eq ?_
  rw [toNat_ringAddr, RemoteX86.pageAddr, toNat_append_add]
  omega

/-! ## One call -/

/-- PRX. -/
def Ne2000.prx (s : Ne2000) : Bool := s.isr.getLsbD 0

section Call

variable {s : Ne2000}

theorem prx_ack_rest (isr : Byte) :
    (isr &&& ~~~(isr &&& 0xFE)).getLsbD 0 = isr.getLsbD 0 := by simp

/-- The call after the remote read's own interrupt has been acknowledged. -/
theorem getPacket_rdc (s : Ne2000) :
    ∃ isr, isr.getLsbD 0 = s.prx ∧ (if s.isr.getLsbD 6 then s.ack 0x40 else s) = { s with isr } := by
  split_ifs
  · exact ⟨_, by simp [Ne2000.prx], rfl⟩
  · exact ⟨_, rfl, rfl⟩

theorem getPacket_of_not_prx (h : s.prx = false) :
    ∃ isr, isr.getLsbD 0 = false ∧ ne2000GetPacket s = ({ s with isr }, none) := by
  obtain ⟨isr, hisr, hs⟩ := getPacket_rdc s
  unfold ne2000GetPacket
  rw [h] at hisr
  simp only [hs, hisr, Bool.false_eq_true, if_false]
  exact ⟨_, (prx_ack_rest isr).trans hisr, rfl⟩

theorem getPacket_of_caught_up (h : s.prx = true) (hread : s.curRead = s.curr) :
    ∃ isr, isr.getLsbD 0 = true ∧ ne2000GetPacket s = ({ s with isr }, none) := by
  obtain ⟨isr, hisr, hs⟩ := getPacket_rdc s
  have hread' : ({ s with isr } : Ne2000).curRead = s.curr := hread
  unfold ne2000GetPacket
  rw [h] at hisr
  simp only [hs, hisr, hread', if_true]
  exact ⟨isr, hisr, rfl⟩

theorem getPacket_of_behind (h : s.prx = true) (hread : s.curRead ≠ s.curr) :
    ∃ isr, isr.getLsbD 0 = false ∧ ne2000GetPacket s =
      ({ s with isr, bnry := s.tmp.getD 1 0 - 1 }, lastPacket s.readPacket) := by
  obtain ⟨isr, hisr, hs⟩ := getPacket_rdc s
  have hread' : ({ s with isr } : Ne2000).curRead ≠ s.curr := hread
  unfold ne2000GetPacket
  rw [h] at hisr
  simp only [hs, hisr, if_true, if_neg hread']
  exact ⟨_, by simp [Ne2000.ack], rfl⟩

/-- A call that returns a frame clears PRX, and no call sets it. -/
theorem getPacket_prx (s : Ne2000) :
    (ne2000GetPacket s).2.toList.length + (ne2000GetPacket s).1.prx.toNat ≤ s.prx.toNat := by
  rcases h : s.prx with - | -
  · obtain ⟨isr, hisr, hcall⟩ := getPacket_of_not_prx h
    have hprx : (ne2000GetPacket s).1.prx = false := by
      rw [hcall]
      exact hisr
    rw [hprx, hcall]
    rfl
  · by_cases hread : s.curRead = s.curr
    · obtain ⟨isr, hisr, hcall⟩ := getPacket_of_caught_up h hread
      rw [hcall, Option.toList_none, List.length_nil, Nat.zero_add]
      exact Bool.toNat_le _
    · obtain ⟨isr, hisr, hcall⟩ := getPacket_of_behind h hread
      have hprx : (ne2000GetPacket s).1.prx = false := by
        rw [hcall]
        exact hisr
      rw [hprx, hcall]
      rcases lastPacket s.readPacket with - | d <;> simp

end Call

/-! ## What is lost -/

section Lost

variable {s : Ne2000Run} {a : Ne2000Action} {f : GoodFrame}

/-- There are fewer frames left to be returned than PRX will be set for. -/
def Ne2000Run.Short (s : Ne2000Run) : Prop :=
  s.returned.length + s.nic.prx.toNat < s.arrived.length

/-- The first frame returned is not the first that arrived. -/
def Ne2000Run.Wrong (s : Ne2000Run) : Prop :=
  ∃ f fs d ds, s.arrived = f :: fs ∧ s.returned = d :: ds ∧ d ≠ .ofFrame f.bytes

theorem step_arrive {nic : Ne2000} (h : s.nic.arrive f = some nic) :
    s.step (.arrive f) = { s with nic := nic, arrived := s.arrived ++ [f] } := by
  rw [Ne2000Run.step, h]

theorem step_drop (h : s.nic.arrive f = none) :
    s.step (.arrive f) = { s with nic := { s.nic with isr := s.nic.isr ||| 0x10 } } := by
  rw [Ne2000Run.step, h]

theorem Ne2000Run.Short.step (h : s.Short) (a : Ne2000Action) : (s.step a).Short := by
  unfold Ne2000Run.Short at h ⊢
  cases a with
  | arrive f =>
    rcases harrive : s.nic.arrive f with - | nic
    · have hprx : ({ s.nic with isr := s.nic.isr ||| 0x10 } : Ne2000).prx = s.nic.prx := by
        simp [Ne2000.prx]
      rw [step_drop harrive]
      simpa only [hprx] using h
    · have hprx := Bool.toNat_le nic.prx
      rw [step_arrive harrive, List.length_append, List.length_singleton]
      dsimp only
      omega
  | getPacket =>
    have hcall := getPacket_prx s.nic
    simp only [Ne2000Run.step, Ne2000Run.getPacket, List.length_append]
    omega

theorem Ne2000Run.Wrong.step (h : s.Wrong) (a : Ne2000Action) : (s.step a).Wrong := by
  obtain ⟨f, fs, d, ds, harrived, hreturned, hne⟩ := h
  cases a with
  | arrive f' =>
    rcases harrive : s.nic.arrive f' with - | nic
    · rw [step_drop harrive]
      exact ⟨f, fs, d, ds, harrived, hreturned, hne⟩
    · rw [step_arrive harrive]
      exact ⟨f, fs ++ [f'], d, ds, by simp [harrived], hreturned, hne⟩
  | getPacket =>
    exact ⟨f, fs, d, ds ++ (ne2000GetPacket s.nic).2.toList, harrived,
      by simp [Ne2000Run.step, Ne2000Run.getPacket, hreturned], hne⟩

/-- The first frame has arrived, and no call has got past it. -/
structure Ne2000Run.First (ram : Mem 16) (f : GoodFrame) (s : Ne2000Run) : Prop where
  prx : s.nic.prx = true
  bnry : s.nic.bnry = rxPageStart
  ram : ∃ next, s.nic.ram = ringStore ram (pageAddr rxPageStart 0) (f.header next ++ f.bytes)
  arrived : s.arrived = [f]
  returned : s.returned = []

theorem Delivery.ofFrame_inj {xs ys : List Byte} (h : Delivery.ofFrame xs = .ofFrame ys) :
    xs = ys := by
  simp only [Delivery.ofFrame, Delivery.mk.injEq] at h
  rw [← List.take_append_drop 14 xs, h.2.1, h.2.2, List.take_append_drop]

theorem eq_some_of_lastPacket {bytes : List Byte} {d : Delivery} (h : lastPacket bytes = some d) :
    14 ≤ bytes.length ∧ d = .ofFrame bytes := by
  unfold lastPacket at h
  split_ifs at h with h14
  exact ⟨h14, (Option.some.inj h).symm⟩

theorem readPacket_cases (s : Ne2000) :
    s.readPacket = [] ∨ ∃ n, s.readPacket = remoteRead s.ram (pageAddr s.curRead 4) n := by
  unfold Ne2000.readPacket
  dsimp only
  split_ifs
  · exact .inr ⟨_, rfl⟩
  · exact .inl rfl

/-- What is read behind the header in the second page ends where the frame was not stored. -/
theorem remoteRead_ne {b : Byte} (f : GoodFrame) (next : Byte) (n : ℕ)
    (hb : f.bytes.getLast? ≠ some b) :
    remoteRead (ringStore (fun _ => b) (pageAddr rxPageStart 0) (f.header next ++ f.bytes))
      (pageAddr 0x47 4) n ≠ f.bytes := by
  intro he
  have hlen := f.header_le
  have hle := f.length_le
  have hn : n = f.bytes.length := by
    rw [← he, remoteRead, Walk.length_read]
  have hlast : f.bytes.getLast? = some b := by
    rw [List.getLast?_eq_getElem?]
    nth_rewrite 1 [← he]
    rw [← hn, remoteRead, Walk.getElem?_read _ _ _ _ (by omega), ringStore, Walk.write_of_ne]
    intro i hi
    rw [RingPage.pageAddr ⟨by decide, by decide⟩, RingPage.pageAddr ⟨by decide, by decide⟩,
      ringNext_iterate, ringNext_iterate, Ne, ringAddr_inj]
    rw [List.length_append] at hi
    change i < 4 + f.bytes.length at hi
    change ¬(0 + i) % 0x2A00 = (260 + (n - 1)) % 0x2A00
    omega
  exact hb hlast

theorem Ne2000Run.First.getPacket {b : Byte} (h : s.First (fun _ => b) f)
    (hb : f.bytes.getLast? ≠ some b) :
    s.getPacket.First (fun _ => b) f ∨ s.getPacket.Short ∨ s.getPacket.Wrong := by
  have hread : s.nic.curRead = 0x47 := by
    rw [Ne2000.curRead, h.bnry]
    decide
  by_cases hcaught : s.nic.curRead = s.nic.curr
  · obtain ⟨isr, hisr, hcall⟩ := getPacket_of_caught_up h.prx hcaught
    left
    unfold Ne2000Run.getPacket
    rw [hcall]
    exact ⟨hisr, h.bnry, h.ram, h.arrived, by simp [h.returned]⟩
  · obtain ⟨isr, hisr, hcall⟩ := getPacket_of_behind h.prx hcaught
    right
    unfold Ne2000Run.getPacket
    rw [hcall]
    rcases hpacket : lastPacket s.nic.readPacket with - | d
    · left
      change (s.returned ++ []).length + (isr.getLsbD 0).toNat < s.arrived.length
      rw [hisr, h.returned, h.arrived]
      exact Nat.zero_lt_one
    · right
      obtain ⟨h14, rfl⟩ := eq_some_of_lastPacket hpacket
      refine ⟨f, [], .ofFrame s.nic.readPacket, [], h.arrived, by rw [h.returned]; rfl, fun he => ?_⟩
      obtain ⟨next, hram⟩ := h.ram
      rcases readPacket_cases s.nic with hnil | ⟨n, hread'⟩
      · rw [hnil] at h14
        exact absurd h14 (by decide)
      · refine remoteRead_ne f next n hb ?_
        rw [← hram, ← hread, ← hread']
        exact Delivery.ofFrame_inj he

theorem Ne2000Run.First.step {b : Byte} (h : s.First (fun _ => b) f)
    (hb : f.bytes.getLast? ≠ some b) (a : Ne2000Action) :
    (s.step a).First (fun _ => b) f ∨ (s.step a).Short ∨ (s.step a).Wrong := by
  cases a with
  | arrive f' =>
    rcases harrive : s.nic.arrive f' with - | nic
    · rw [step_drop harrive]
      exact .inl ⟨by simpa [Ne2000.prx] using h.prx, h.bnry, h.ram, h.arrived, h.returned⟩
    · have hprx := Bool.toNat_le nic.prx
      rw [step_arrive harrive]
      refine .inr (.inl ?_)
      simp only [Ne2000Run.Short, h.returned, h.arrived, List.length_append, List.length_nil,
        List.length_singleton]
      omega
  | getPacket => exact h.getPacket hb

/-- The first frame has arrived, and it is not the first returned and will not all be. -/
def Ne2000Run.Lost (b : Byte) (f : GoodFrame) (s : Ne2000Run) : Prop :=
  s.First (fun _ => b) f ∨ s.Short ∨ s.Wrong

theorem Ne2000Run.Lost.step {b : Byte} (h : s.Lost b f) (hb : f.bytes.getLast? ≠ some b)
    (a : Ne2000Action) : (s.step a).Lost b f := by
  rcases h with h | h | h
  · exact h.step hb a
  · exact .inr (.inl (h.step a))
  · exact .inr (.inr (h.step a))

theorem Ne2000Run.Lost.run {b : Byte} (hb : f.bytes.getLast? ≠ some b) :
    ∀ (as : List Ne2000Action) {s : Ne2000Run}, s.Lost b f → (s.run as).Lost b f
  | [], _, h => h
  | a :: as, _, h => Lost.run hb as (h.step hb a)

theorem Ne2000Run.Lost.ne {b : Byte} (h : s.Lost b f) :
    s.returned ≠ s.arrived.map fun f => .ofFrame f.bytes := by
  intro he
  rcases h with h | h | ⟨g, gs, d, ds, harrived, hreturned, hne⟩
  · rw [h.returned, h.arrived] at he
    exact absurd he (by simp)
  · have hlen := congrArg List.length he
    rw [List.length_map] at hlen
    unfold Ne2000Run.Short at h
    omega
  · rw [harrived, hreturned, List.map_cons, List.cons.injEq] at he
    exact hne he.1

/-- No number of further calls returns what arrived. -/
theorem Ne2000Run.Lost.not_fifo {b : Byte} (h : s.Lost b f) (hb : f.bytes.getLast? ≠ some b) :
    ¬s.Fifo := by
  rintro ⟨-, n, hn⟩
  have hcalls : ∀ n, (Ne2000Run.getPacket^[n] s).Lost b f ∧
      (Ne2000Run.getPacket^[n] s).arrived = s.arrived := by
    intro n
    induction n with
    | zero => exact ⟨h, rfl⟩
    | succ n ih =>
      rw [Function.iterate_succ_apply']
      exact ⟨ih.1.step hb .getPacket, ih.2⟩
  refine (hcalls n).1.ne ?_
  rw [hn, (hcalls n).2]

end Lost

/-! ## From `ne2000_init` -/

section Init

variable {s : Ne2000Run}

/-- Nothing has arrived since `ne2000_init`. -/
structure Ne2000Run.Idle (ram : Mem 16) (s : Ne2000Run) : Prop where
  prx : s.nic.prx = false
  bnry : s.nic.bnry = rxPageStart
  curr : s.nic.curr = rxPageStart
  ram : s.nic.ram = ram
  arrived : s.arrived = []
  returned : s.returned = []

theorem ne2000Start_idle (ram : Mem 16) : (ne2000Start ram).Idle ram :=
  ⟨by simp [Ne2000.prx, ne2000Start, ne2000Init], rfl, rfl, rfl, rfl, rfl⟩

theorem Ne2000Run.Idle.getPacket {ram : Mem 16} (h : s.Idle ram) : s.getPacket.Idle ram := by
  obtain ⟨isr, hisr, hcall⟩ := getPacket_of_not_prx h.prx
  unfold Ne2000Run.getPacket
  rw [hcall]
  exact ⟨hisr, h.bnry, h.curr, h.ram, h.arrived, by simp [h.returned]⟩

/-- The first frame finds room. -/
theorem Ne2000Run.Idle.arrive {ram : Mem 16} (h : s.Idle ram) (f : GoodFrame) :
    (s.step (.arrive f)).First ram f := by
  have hroom : s.nic.room = 42 := by
    rw [Ne2000.room, h.bnry, h.curr]
    rfl
  have hpages : f.pages < s.nic.room := by
    have := f.length_le
    rw [hroom, GoodFrame.pages]
    omega
  rw [step_arrive (by rw [Ne2000.arrive, if_pos hpages])]
  refine ⟨by simp [Ne2000.prx, Ne2000.store], h.bnry,
    ⟨pageAfter s.nic.curr f.pages, ?_⟩, by simp [h.arrived], h.returned⟩
  rw [Ne2000.store, h.ram, h.curr]

theorem Ne2000Run.Idle.fifo {ram : Mem 16} (h : s.Idle ram) : s.Fifo := by
  refine ⟨?_, 0, ?_⟩
  · rw [h.returned]
    exact List.nil_prefix
  · rw [Function.iterate_zero_apply, h.returned, h.arrived]
    rfl

theorem exists_byte_ne (x : Option Byte) : ∃ b, x ≠ some b := by
  by_cases h : x = some 0
  · exact ⟨1, by rw [h]; decide⟩
  · exact ⟨0, h⟩

theorem Ne2000Run.Idle.run_calls {ram : Mem 16} : ∀ (as : List Ne2000Action) {s : Ne2000Run},
    s.Idle ram → (∀ a ∈ as, a = .getPacket) → (s.run as).Idle ram
  | [], _, h, _ => h
  | a :: as, s, h, hcalls => by
    obtain rfl := hcalls a (by simp)
    exact Idle.run_calls as h.getPacket fun a ha => hcalls a (by simp [ha])

theorem Ne2000Run.Idle.run_arrive {b : Byte} {f : GoodFrame} (hb : f.bytes.getLast? ≠ some b)
    (h : s.Idle fun _ => b) {pre : List Ne2000Action} (as : List Ne2000Action)
    (hpre : ∀ a ∈ pre, a = .getPacket) :
    (s.run (pre ++ .arrive f :: as)).Lost b f := by
  rw [Ne2000Run.run, List.foldl_append, List.foldl_cons]
  exact Lost.run hb as (.inl ((Idle.run_calls pre h hpre).arrive f))

end Init

/-- The first arrival of a schedule that has one. -/
theorem exists_first_arrive : ∀ as : List Ne2000Action, ¬(∀ a ∈ as, a = .getPacket) →
    ∃ pre f rest, as = pre ++ .arrive f :: rest ∧ ∀ a ∈ pre, a = Ne2000Action.getPacket
  | [], h => absurd (by simp) h
  | .arrive f :: as, _ => ⟨[], f, as, rfl, by simp⟩
  | .getPacket :: as, h => by
    obtain ⟨pre, f, rest, rfl, hpre⟩ := exists_first_arrive as (by simpa using h)
    exact ⟨.getPacket :: pre, f, rest, rfl, by simpa using hpre⟩

/-- What is returned is what arrived, whatever was in the card's memory before, just when nothing
arrives. -/
theorem ne2000_fifo_iff (as : List Ne2000Action) :
    (∀ ram, ((ne2000Start ram).run as).Fifo) ↔ ∀ a ∈ as, a = .getPacket := by
  constructor
  · intro hfifo
    by_contra hcalls
    obtain ⟨pre, f, rest, rfl, hpre⟩ := exists_first_arrive as hcalls
    obtain ⟨b, hb⟩ := exists_byte_ne f.bytes.getLast?
    exact ((ne2000Start_idle _).run_arrive hb rest hpre).not_fifo hb (hfifo fun _ => b)
  · intro hcalls ram
    exact ((ne2000Start_idle ram).run_calls as hcalls).fifo

/-- 60 bytes of zeros. -/
def shortFrame : GoodFrame where
  status := 0x01
  bytes := List.replicate 60 0
  received := by decide
  no_error := by decide
  header_le := by decide
  length_le := by decide

/-- The only frame of all, and never returned. -/
theorem ne2000_loses_first_frame : ¬((ne2000Start fun _ => 1).run [.arrive shortFrame]).Fifo := by
  have hb : shortFrame.bytes.getLast? ≠ some 1 := by decide
  have hlost : ((ne2000Start fun _ => 1).run [.arrive shortFrame]).Lost 1 shortFrame := by
    rw [Ne2000Run.run, List.foldl_cons, List.foldl_nil]
    exact .inl ((ne2000Start_idle fun _ => 1).arrive shortFrame)
  exact hlost.not_fifo hb

/-! ## In step

With the boundary one page behind the current page, and every frame fetched before the next
arrives, the ring is the queue it was meant to be.
-/

section InStep

theorem toNat_pageAfter {page : Byte} (h : RingPage page) {n : ℕ} (hn : n ≤ 42) :
    (pageAfter page n).toNat =
      if 0x70 ≤ page.toNat + n then page.toNat + n - 42 else page.toNat + n := by
  have hge := h.ge
  have hlt := h.lt
  have hadd : (page + BitVec.ofNat 8 n).toNat = page.toNat + n := by
    rw [BitVec.toNat_add, BitVec.toNat_ofNat]
    omega
  have hle : rxPageEnd ≤ page + BitVec.ofNat 8 n ↔ 0x70 ≤ page.toNat + n := by
    rw [BitVec.le_def, hadd]
    rfl
  unfold pageAfter
  simp only [hle]
  split_ifs with hwrap
  · rw [BitVec.toNat_sub, hadd]
    change (256 - 42 + (page.toNat + n)) % 256 = _
    omega
  · exact hadd

theorem RingPage.pageAfter {page : Byte} (h : RingPage page) {n : ℕ} (hn : n ≤ 42) :
    RingPage (pageAfter page n) := by
  have hge := h.ge
  have hlt := h.lt
  constructor <;> rw [toNat_pageAfter h hn] <;> split_ifs <;> omega

theorem RingPage.pageAfter_ne {page : Byte} (h : RingPage page) {n : ℕ} (hpos : 0 < n)
    (hn : n < 42) : RemoteX86.pageAfter page n ≠ page := by
  intro he
  have := congrArg BitVec.toNat he
  rw [toNat_pageAfter h hn.le] at this
  split_ifs at this <;> omega

/-- What fits into the ring is read back, around its end. -/
theorem remoteRead_ringStore {page : Byte} (h : RingPage page) (ram : Mem 16) (bytes : List Byte)
    (hle : bytes.length ≤ 0x2A00) :
    remoteRead (ringStore ram (pageAddr page 0) bytes) (pageAddr page 0) bytes.length = bytes := by
  refine Walk.read_write _ _ _ fun i hi j hj he => ?_
  rw [h.pageAddr, ringNext_iterate, ringNext_iterate, ringAddr_inj] at he
  omega

theorem pageAddr_four {page : Byte} (h : RingPage page) :
    ringNext^[4] (pageAddr page 0) = pageAddr page 4 := by
  have hzero : (0 : Byte).toNat = 0 := rfl
  have hfour : (4 : Byte).toNat = 4 := rfl
  rw [h.pageAddr, h.pageAddr, ringNext_iterate, hzero, hfour]

variable {s s' : Ne2000Run} {f : GoodFrame}

/-- The driver is to read where the card is to write, and has nothing to fetch. -/
structure Ne2000Run.InStep (s : Ne2000Run) : Prop where
  prx : s.nic.prx = false
  curr : RingPage s.nic.curr
  curRead : s.nic.curRead = s.nic.curr
  returned : s.returned = s.arrived.map fun f => .ofFrame f.bytes

/-- One frame is to be fetched. -/
structure Ne2000Run.Pending (f : GoodFrame) (s : Ne2000Run) : Prop where
  prx : s.nic.prx = true
  curRead : RingPage s.nic.curRead
  curr : s.nic.curr = pageAfter s.nic.curRead f.pages
  ram : ∃ ram, s.nic.ram =
    ringStore ram (pageAddr s.nic.curRead 0) (f.header s.nic.curr ++ f.bytes)
  returned : (s.returned ++ [.ofFrame f.bytes]) = s.arrived.map fun f => .ofFrame f.bytes

theorem GoodFrame.pages_pos (f : GoodFrame) : 0 < f.pages := by
  rw [GoodFrame.pages]
  omega

theorem GoodFrame.pages_lt (f : GoodFrame) : f.pages < 42 := by
  have := f.length_le
  rw [GoodFrame.pages]
  omega

/-- A frame that is stored where the driver is to read is the one to be fetched. -/
theorem Ne2000Run.pending_arrive (hcurr : RingPage s.nic.curr) (hread : s.nic.curRead = s.nic.curr)
    (hreturned : s.returned = s.arrived.map fun f => .ofFrame f.bytes)
    (hroom : f.pages < s.nic.room) : (s.step (.arrive f)).Pending f := by
  have hstored : (s.nic.store f).curRead = s.nic.curr := hread
  rw [step_arrive (by rw [Ne2000.arrive, if_pos hroom])]
  refine ⟨by simp [Ne2000.prx, Ne2000.store], ?_, ?_, ⟨s.nic.ram, ?_⟩, by simp [hreturned]⟩
  · exact hstored.symm ▸ hcurr
  · rw [hstored]
    rfl
  · dsimp only
    rw [hstored]
    simp only [Ne2000.store]

theorem Ne2000Run.InStep.arrive (h : s.InStep) (f : GoodFrame) :
    (s.step (.arrive f)).InStep ∨ (s.step (.arrive f)).Pending f := by
  by_cases hroom : f.pages < s.nic.room
  · exact .inr (pending_arrive h.curr h.curRead h.returned hroom)
  · left
    rw [step_drop (by rw [Ne2000.arrive, if_neg hroom])]
    exact ⟨by simpa [Ne2000.prx] using h.prx, h.curr, h.curRead, h.returned⟩

theorem Ne2000Run.InStep.getPacket (h : s.InStep) : s.getPacket.InStep := by
  obtain ⟨isr, hisr, hcall⟩ := getPacket_of_not_prx h.prx
  unfold Ne2000Run.getPacket
  rw [hcall]
  exact ⟨hisr, h.curr, h.curRead, by simp [h.returned]⟩

/-- The header and the frame, as the driver reads them. -/
theorem Ne2000Run.Pending.read (h : s.Pending f) :
    s.nic.tmp = f.header s.nic.curr ∧
      remoteRead s.nic.ram (pageAddr s.nic.curRead 4) f.bytes.length = f.bytes := by
  have hle := f.length_le
  obtain ⟨ram, hram⟩ := h.ram
  have hlen : (f.header s.nic.curr ++ f.bytes).length = 4 + f.bytes.length := by
    rw [List.length_append]
    rfl
  have hread := remoteRead_ringStore h.curRead ram (f.header s.nic.curr ++ f.bytes) (by omega)
  rw [← hram, hlen, remoteRead, Walk.read_add, pageAddr_four h.curRead] at hread
  obtain ⟨htmp, hbytes⟩ := List.append_inj hread (by rw [Walk.length_read]; rfl)
  exact ⟨htmp, hbytes⟩

theorem Ne2000Run.Pending.readPacket (h : s.Pending f) : s.nic.readPacket = f.bytes := by
  have hle := f.length_le
  have hge := f.header_le
  obtain ⟨htmp, hread⟩ := h.read
  have hcount : (BitVec.ofNat 8 (f.bytes.length + 4)).toNat +
      (BitVec.ofNat 8 ((f.bytes.length + 4) / 256)).toNat * 256 = f.bytes.length + 4 := by
    rw [BitVec.toNat_ofNat, BitVec.toNat_ofNat]
    omega
  unfold Ne2000.readPacket
  rw [htmp]
  change (if f.status &&& 1 ≠ 0 ∧ f.status &&& 0x1E = 0 ∧
      14 + 4 ≤ (BitVec.ofNat 8 (f.bytes.length + 4)).toNat +
        (BitVec.ofNat 8 ((f.bytes.length + 4) / 256)).toNat * 256 ∧
      (BitVec.ofNat 8 (f.bytes.length + 4)).toNat +
        (BitVec.ofNat 8 ((f.bytes.length + 4) / 256)).toNat * 256 ≤ 1518 + 4 then
    remoteRead s.nic.ram (pageAddr s.nic.curRead 4)
      ((BitVec.ofNat 8 (f.bytes.length + 4)).toNat +
        (BitVec.ofNat 8 ((f.bytes.length + 4) / 256)).toNat * 256 - 4) else []) = f.bytes
  rw [hcount, if_pos ⟨f.received, f.no_error, by omega, by omega⟩, Nat.add_sub_cancel, hread]

theorem Ne2000Run.Pending.getPacket (h : s.Pending f) : s.getPacket.InStep := by
  have hpages := f.pages_lt
  have hcurr := h.curRead.pageAfter hpages.le
  have hbehind : s.nic.curRead ≠ s.nic.curr := by
    rw [h.curr]
    exact (h.curRead.pageAfter_ne f.pages_pos hpages).symm
  obtain ⟨isr, hisr, hcall⟩ := getPacket_of_behind h.prx hbehind
  rw [← h.curr] at hcurr
  rw [h.readPacket, h.read.1, lastPacket, if_pos f.header_le] at hcall
  unfold Ne2000Run.getPacket
  rw [hcall]
  refine ⟨hisr, hcurr, ?_, h.returned⟩
  have hlt : ¬rxPageEnd ≤ s.nic.curr := by
    rw [BitVec.le_def]
    exact not_le.2 hcurr.lt
  change (if rxPageEnd ≤ s.nic.curr - 1 + 1 then rxPageStart else s.nic.curr - 1 + 1) = s.nic.curr
  rw [BitVec.sub_add_cancel, if_neg hlt]

theorem Ne2000Run.InStep.fifo (h : s.InStep) : s.Fifo :=
  ⟨by rw [h.returned], 0, h.returned⟩

theorem Ne2000Run.Pending.fifo (h : s.Pending f) : s.Fifo :=
  ⟨by rw [← h.returned]; exact List.prefix_append _ _, 1, h.getPacket.returned⟩

/-- In step, and each frame fetched before the next arrives. -/
theorem fifo_of_fetched (h : s.InStep)
    (hrun : Transition.Reaches (fun s a => some (Ne2000Run.step s a))
      (fun s a => a = .getPacket ∨ s.nic.prx = false) s s') : s'.Fifo := by
  have hinv : s'.InStep ∨ ∃ f, s'.Pending f := by
    refine Transition.Reaches.invariant (I := fun s => s.InStep ∨ ∃ f, s.Pending f) hrun (.inl h) ?_
    rintro s a s' hs hok ⟨⟩
    cases a with
    | arrive f =>
      have hprx : s.nic.prx = false := hok.resolve_left nofun
      rcases hs with hs | ⟨g, hs⟩
      · exact (hs.arrive f).imp_right fun h => ⟨f, h⟩
      · rw [hs.prx] at hprx
        exact absurd hprx (by decide)
    | getPacket =>
      rcases hs with hs | ⟨g, hs⟩
      · exact .inl hs.getPacket
      · exact .inl hs.getPacket
  rcases hinv with h | ⟨f, h⟩
  · exact h.fifo
  · exact h.fifo

/-! ### After a first frame of one page

The page after it is the one the driver reads and the card stores next.  PRX stays set until the
next frame has been fetched.
-/

theorem afterFirst_step {f : GoodFrame} {fs : List GoodFrame} (h : s.arrived = f :: fs)
    (a : Ne2000Action) : (s.step a).afterFirst = s.afterFirst.step a := by
  cases a with
  | arrive g =>
    rcases harrive : s.nic.arrive g with - | nic
    · rw [step_drop harrive, step_drop (s := s.afterFirst) harrive]
      rfl
    · rw [step_arrive harrive, step_arrive (s := s.afterFirst) harrive]
      simp [Ne2000Run.afterFirst, h]
  | getPacket => rfl

/-- Only the first frame has arrived, and the driver is to read behind it. -/
structure Ne2000Run.Passed (s : Ne2000Run) : Prop where
  prx : s.nic.prx = true
  curr : RingPage s.nic.curr
  curRead : s.nic.curRead = s.nic.curr
  arrived : s.arrived.tail = []
  returned : s.returned = []

theorem Ne2000Run.Passed.getPacket (h : s.Passed) : s.getPacket.Passed := by
  obtain ⟨isr, hisr, hcall⟩ := getPacket_of_caught_up h.prx h.curRead
  unfold Ne2000Run.getPacket
  rw [hcall]
  exact ⟨hisr, h.curr, h.curRead, h.arrived, by simp [h.returned]⟩

theorem Ne2000Run.Passed.arrive {g : GoodFrame} {gs : List GoodFrame} (h : s.Passed)
    (harrived : s.arrived = g :: gs) (f : GoodFrame) :
    (s.step (.arrive f)).Passed ∨ (s.step (.arrive f)).afterFirst.Pending f := by
  by_cases hroom : f.pages < s.nic.room
  · right
    rw [afterFirst_step harrived]
    refine pending_arrive h.curr h.curRead ?_ hroom
    rw [Ne2000Run.afterFirst, h.returned, h.arrived]
    rfl
  · left
    rw [step_drop (by rw [Ne2000.arrive, if_neg hroom])]
    exact ⟨by simpa [Ne2000.prx] using h.prx, h.curr, h.curRead, h.arrived, h.returned⟩

/-- Every frame but the first has been or will be returned. -/
def Ne2000Run.Good (s : Ne2000Run) : Prop :=
  s.Passed ∨ s.afterFirst.InStep ∨ ∃ f, s.afterFirst.Pending f

theorem Ne2000Run.Good.step {g : GoodFrame} {gs : List GoodFrame} (h : s.Good)
    (harrived : s.arrived = g :: gs) {a : Ne2000Action} (hfetched : s.fetched a = true) :
    (s.step a).Good := by
  rcases h with h | h | ⟨f, h⟩
  · cases a with
    | arrive f => exact (h.arrive harrived f).imp_right fun h => .inr ⟨f, h⟩
    | getPacket => exact .inl h.getPacket
  · right
    rw [afterFirst_step harrived]
    cases a with
    | arrive f => exact (h.arrive f).imp_right fun h => ⟨f, h⟩
    | getPacket => exact .inl h.getPacket
  · cases a with
    | arrive f' =>
      -- the frame before has not been fetched
      have hne := h.curRead.pageAfter_ne f.pages_pos f.pages_lt
      rw [← h.curr] at hne
      rw [Ne2000Run.fetched, harrived, List.isEmpty_cons, Bool.false_or, beq_iff_eq] at hfetched
      exact absurd hfetched.symm hne
    | getPacket =>
      right
      rw [afterFirst_step harrived]
      exact .inl h.getPacket

theorem Ne2000Run.Good.fifo (h : s.Good) : s.afterFirst.Fifo := by
  rcases h with h | h | ⟨f, h⟩
  · refine ⟨?_, 0, ?_⟩
    · exact h.returned.symm ▸ List.nil_prefix
    · change s.returned = s.arrived.tail.map _
      rw [h.returned, h.arrived]
      rfl
  · exact h.fifo
  · exact h.fifo

/-- The first frame finds the driver reading behind it, if it takes one page. -/
theorem Ne2000Run.Idle.passed {ram : Mem 16} (h : s.Idle ram) {f : GoodFrame} (hpages : f.pages = 1) :
    (s.step (.arrive f)).Passed := by
  have hroom : s.nic.room = 42 := by
    rw [Ne2000.room, h.bnry, h.curr]
    rfl
  have hstart : RingPage rxPageStart := ⟨by decide, by decide⟩
  rw [step_arrive (by rw [Ne2000.arrive, if_pos (by omega)])]
  have hcurr : (s.nic.store f).curr = pageAfter rxPageStart 1 := by
    rw [Ne2000.store, h.curr, hpages]
  have hread : (s.nic.store f).curRead = pageAfter rxPageStart 1 := by
    change (if rxPageEnd ≤ s.nic.bnry + 1 then rxPageStart else s.nic.bnry + 1) = _
    rw [h.bnry]
    decide
  exact ⟨by simp [Ne2000.prx, Ne2000.store], hcurr.symm ▸ hstart.pageAfter (by decide),
    hread.trans hcurr.symm, by simp [h.arrived], h.returned⟩

/-- After `ne2000_init`, with a first frame of one page and every later one fetched before the next
arrives, the first is all that is lost. -/
theorem ne2000_loses_only_first {ram : Mem 16}
    (h : Transition.Reaches (fun s a => some (Ne2000Run.step s a))
      (Ne2000Run.fetched · · = true) (ne2000Start ram) s)
    (hpages : ∀ f, s.arrived.head? = some f → f.pages = 1) : s.afterFirst.Fifo := by
  have hinv : s.Idle ram ∨ ∃ f fs, s.arrived = f :: fs ∧ (f.pages = 1 → s.Good) := by
    refine Transition.Reaches.invariant
      (I := fun s : Ne2000Run => s.Idle ram ∨ ∃ f fs, s.arrived = f :: fs ∧ (f.pages = 1 → s.Good))
      h (.inl (ne2000Start_idle ram)) ?_
    rintro s a s' hs hok ⟨⟩
    rcases hs with hs | ⟨f, fs, harrived, hgood⟩
    · cases a with
      | arrive f =>
        exact .inr ⟨f, [], (hs.arrive f).arrived, fun hpages => .inl (hs.passed hpages)⟩
      | getPacket => exact .inl hs.getPacket
    · right
      have hgrown : ∃ fs', (s.step a).arrived = f :: fs' := by
        cases a with
        | arrive g =>
          rcases harrive : s.nic.arrive g with - | nic
          · exact ⟨fs, by rw [step_drop harrive]; exact harrived⟩
          · exact ⟨fs ++ [g], by rw [step_arrive harrive, harrived]; rfl⟩
        | getPacket => exact ⟨fs, harrived⟩
      obtain ⟨fs', hfs'⟩ := hgrown
      exact ⟨f, fs', hfs', fun hpages => (hgood hpages).step harrived hok⟩
  rcases hinv with h | ⟨f, fs, harrived, hgood⟩
  · refine ⟨h.returned.symm ▸ List.nil_prefix, 0, ?_⟩
    change s.returned = s.arrived.tail.map _
    rw [h.returned, h.arrived]
    rfl
  · exact (hgood (hpages f (by rw [harrived]; rfl))).fifo

/-- Two short frames arrive, and the second is returned. -/
theorem ne2000_loses_only_first_of_two : ∃ s : Ne2000Run, s.arrived.length = 2 ∧
    s.returned = [.ofFrame shortFrame.bytes] ∧ s.afterFirst.Fifo := by
  obtain ⟨s, hs, hp⟩ := Transition.exists_reaches_of_exec
    (fun s a => some (Ne2000Run.step s a)) (Ne2000Run.fetched · · = true)
    [.arrive shortFrame, .getPacket, .arrive shortFrame, .getPacket]
    (s := ne2000Start fun _ => 0)
    (p := fun s => s.arrived.length == 2 && s.returned == [.ofFrame shortFrame.bytes] &&
      s.arrived.all fun f => f.pages == 1) (by decide +kernel)
  rw [Bool.and_eq_true, Bool.and_eq_true, beq_iff_eq, beq_iff_eq, List.all_eq_true] at hp
  refine ⟨s, hp.1.1, hp.1.2, ne2000_loses_only_first hs fun f hf => ?_⟩
  exact eq_of_beq (hp.2 f (List.mem_of_mem_head? hf))

end InStep

end RemoteX86
