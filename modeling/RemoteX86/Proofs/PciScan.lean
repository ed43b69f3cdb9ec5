import RemoteX86.Lib.Search
import RemoteX86.PciTable
import RemoteX86.Proofs.Pci
import Mathlib.Data.List.Nodup

/-!
# What the PCI scan finds

The loops add, in order, the functions of each device up to its first gap, on the buses up to the one
whose device 0 has the id of the first bus's, until the table is full.  On a topology with at most 64
functions these are all there are exactly if it is regular.
-/

namespace RemoteX86

open Hex

/-! ## A growing table -/

def PciDeviceRecord.place (pdev : PciDeviceRecord) : ℕ × ℕ × ℕ :=
  (pdev.bus.toNat, pdev.device.toNat, pdev.function.toNat)

/-- The entry has what configuration space reads at its place. -/
structure PciDeviceRecord.ReadAt (pdev : PciDeviceRecord) (b : PciBus) : Prop where
  vendorId : pdev.vendorId = (b.read pdev.bus pdev.device pdev.function 0).setWidth 16
  deviceId : pdev.deviceId = (b.read pdev.bus pdev.device pdev.function 0 >>> 16).setWidth 16
  classCode : pdev.classCode = b.read pdev.bus pdev.device pdev.function 8 >>> 8

/-- A scan of `b` so far. -/
structure PciScan.Fits (b : PciBus) (s : PciScan) : Prop where
  bus : s.machine.bus = b
  read : ∀ pdev ∈ s.devices, pdev.ReadAt b
  length_le : s.devices.length ≤ maxPciDevice

/-- A scan has gone on over `xs`. -/
structure PciScan.Grown (b : PciBus) (s : PciScan) (xs : List (ℕ × ℕ × ℕ)) (s' : PciScan) : Prop where
  fits : s'.Fits b
  places : s'.devices.map PciDeviceRecord.place
    = (s.devices.map PciDeviceRecord.place ++ xs).take maxPciDevice

section Grown

variable {b : PciBus} {s s' s'' : PciScan} {xs ys : List (ℕ × ℕ × ℕ)}

theorem PciScan.Fits.grown_nil (h : s.Fits b) : PciScan.Grown b s [] s := by
  refine ⟨h, ?_⟩
  rw [List.append_nil, List.take_of_length_le (by rw [List.length_map]; exact h.length_le)]

/-- A full table stays as it is. -/
theorem PciScan.Fits.grown_full (h : s.Fits b) (hfull : ¬ s.devices.length < maxPciDevice)
    (xs : List (ℕ × ℕ × ℕ)) : PciScan.Grown b s xs s := by
  have hlen : (s.devices.map PciDeviceRecord.place).length = maxPciDevice := by
    have := h.length_le
    rw [List.length_map]
    omega
  refine ⟨h, ?_⟩
  rw [List.take_left' hlen]

theorem PciScan.Grown.trans (h : PciScan.Grown b s xs s') (h' : PciScan.Grown b s' ys s'') :
    PciScan.Grown b s (xs ++ ys) s'' := by
  refine ⟨h'.fits, ?_⟩
  rw [h'.places, h.places, Search.take_take_append, List.append_assoc]

end Grown

/-! ## The loops -/

/-- There is something at a place. -/
def PciBus.present (b : PciBus) (bus dev func : ℕ) : Bool :=
  b.read (BitVec.ofNat 8 bus) (BitVec.ofNat 8 dev) (BitVec.ofNat 8 func) 0 != 0xFFFFFFFF

section Loops

variable {b : PciBus} (hb : b.bridge = true)

include hb

/-- What the loops read. -/
theorem pciConfigReadImm_at {m : PciMachine} (hm : m.bus = b) {dev func : ℕ} (hdev : dev < 32)
    (hfunc : func < 8) (bus regDw : Byte) :
    (pciConfigReadImm m bus (BitVec.ofNat 8 dev) (BitVec.ofNat 8 func) regDw).1
      = b.read bus (BitVec.ofNat 8 dev) (BitVec.ofNat 8 func) (regDw &&& 0xFC) := by
  have hdev' : ∀ d < 32, BitVec.ofNat 8 d &&& 0x1F = BitVec.ofNat 8 d := by decide
  have hfunc' : ∀ f < 8, BitVec.ofNat 8 f &&& 7 = BitVec.ofNat 8 f := by decide
  rw [pciConfigReadImm_eq _ _ _ _ _ (by rw [hm, hb]), hm, hdev' dev hdev, hfunc' func hfunc]

theorem probeFunction_readAt {m : PciMachine} (hm : m.bus = b) {dev func : ℕ} (hdev : dev < 32)
    (hfunc : func < 8) (bus : Byte) :
    (probeFunction m bus (BitVec.ofNat 8 dev) (BitVec.ofNat 8 func)
      (b.read bus (BitVec.ofNat 8 dev) (BitVec.ofNat 8 func) 0)).1.ReadAt b := by
  refine ⟨rfl, rfl, ?_⟩
  have hread := pciConfigReadImm_at hb hm hdev hfunc bus 8
  exact congrArg (fun x : BitVec 32 => x >>> 8) hread

/-- One function more. -/
theorem probe_grown {s : PciScan} (hs : s.Fits b) (hroom : s.devices.length < maxPciDevice)
    {bus dev func : ℕ} (hbus : bus < 256) (hdev : dev < 32) (hfunc : func < 8) :
    let pdev := probeFunction (pciConfigReadImm s.machine (BitVec.ofNat 8 bus) (BitVec.ofNat 8 dev)
      (BitVec.ofNat 8 func) 0).2 (BitVec.ofNat 8 bus) (BitVec.ofNat 8 dev) (BitVec.ofNat 8 func)
      (b.read (BitVec.ofNat 8 bus) (BitVec.ofNat 8 dev) (BitVec.ofNat 8 func) 0)
    PciScan.Grown b s [(bus, dev, func)]
      { devices := s.devices ++ [pdev.1], machine := pdev.2 } := by
  intro pdev
  have hplace : pdev.1.place = (bus, dev, func) := by
    change ((BitVec.ofNat 8 bus).toNat, (BitVec.ofNat 8 dev).toNat, (BitVec.ofNat 8 func).toNat) = _
    simp only [BitVec.toNat_ofNat, Prod.mk.injEq]
    omega
  have hlen : s.devices.length + 1 ≤ maxPciDevice := hroom
  have hbus' : pdev.2.bus = b := probeFunction_bus hb hs.bus ..
  refine ⟨⟨hbus', fun e he => ?_, by simpa using hlen⟩, ?_⟩
  · rcases List.mem_append.1 he with he | he
    · exact hs.read e he
    · rw [List.mem_singleton.1 he]
      exact probeFunction_readAt hb hs.bus hdev hfunc _
  · rw [List.map_append, List.map_singleton, hplace, List.take_of_length_le (by simpa using hlen)]

/-- The functions of a device up to the first gap. -/
theorem funcLoop_grown {bus dev : ℕ} (hbus : bus < 256) (hdev : dev < 32) :
    ∀ (n : ℕ) (s : PciScan), n ≤ 8 → s.Fits b →
      PciScan.Grown b s (((List.range' (8 - n) n).takeWhile (b.present bus dev)).map (bus, dev, ·))
        (funcLoop bus dev n s)
  | 0, _, _, hs => hs.grown_nil
  | n + 1, s, hn, hs => by
    have hfunc : 7 - n < 8 := by omega
    have hid : (pciConfigReadImm s.machine (BitVec.ofNat 8 bus) (BitVec.ofNat 8 dev)
        (BitVec.ofNat 8 (7 - n)) 0).1 = b.read (BitVec.ofNat 8 bus) (BitVec.ofNat 8 dev)
          (BitVec.ofNat 8 (7 - n)) 0 := pciConfigReadImm_at hb hs.bus hdev hfunc _ 0
    rw [Search.range'_succ_left (by omega : n < 8), List.takeWhile_cons]
    unfold funcLoop
    simp only [hid]
    by_cases hroom : s.devices.length < maxPciDevice
    · rw [if_pos hroom]
      by_cases habsent : b.read (BitVec.ofNat 8 bus) (BitVec.ofNat 8 dev) (BitVec.ofNat 8 (7 - n)) 0
          = 0xFFFFFFFF
      · rw [if_pos habsent, if_neg (by simpa [PciBus.present] using habsent)]
        exact ⟨⟨hs.bus, hs.read, hs.length_le⟩, hs.grown_nil.places⟩
      · rw [if_neg habsent, if_pos (by simpa [PciBus.present] using habsent)]
        have hone := probe_grown hb hs hroom hbus hdev hfunc
        exact hone.trans (funcLoop_grown hbus hdev n _ (by omega) hone.fits)
    · rw [if_neg hroom]
      exact hs.grown_full hroom _

theorem devLoop_grown {bus : ℕ} (hbus : bus < 256) : ∀ (n : ℕ) (s : PciScan), n ≤ 32 → s.Fits b →
    PciScan.Grown b s ((List.range' (32 - n) n).flatMap fun dev =>
      ((List.range' 0 8).takeWhile (b.present bus dev)).map (bus, dev, ·)) (devLoop bus n s)
  | 0, _, _, hs => hs.grown_nil
  | n + 1, s, hn, hs => by
    rw [Search.range'_succ_left (by omega : n < 32), List.flatMap_cons]
    unfold devLoop
    split_ifs with hroom
    · have hdevice := funcLoop_grown hb hbus (by omega : 31 - n < 32) 8 s le_rfl hs
      exact hdevice.trans (devLoop_grown hbus n _ (by omega) hdevice.fits)
    · exact hs.grown_full hroom _

/-- What the scan finds on `busMax` buses, as long as there is room. -/
def PciBus.found (b : PciBus) (busMax : ℕ) : List (ℕ × ℕ × ℕ) :=
  (List.range' 0 busMax).flatMap fun bus => (List.range' 0 32).flatMap fun dev =>
    ((List.range' 0 8).takeWhile (b.present bus dev)).map (bus, dev, ·)

theorem busLoop_grown {busMax : ℕ} (hmax : busMax ≤ 256) : ∀ (n : ℕ) (s : PciScan), n ≤ busMax →
    s.Fits b → PciScan.Grown b s ((List.range' (busMax - n) n).flatMap fun bus =>
      (List.range' 0 32).flatMap fun dev =>
        ((List.range' 0 8).takeWhile (b.present bus dev)).map (bus, dev, ·)) (busLoop busMax n s)
  | 0, _, _, hs => hs.grown_nil
  | n + 1, s, hn, hs => by
    rw [Search.range'_succ_left (by omega : n < busMax), List.flatMap_cons]
    unfold busLoop
    split_ifs with hroom
    · have hbus := devLoop_grown hb (by omega : busMax - 1 - n < 256) 32 s le_rfl hs
      exact hbus.trans (busLoop_grown hmax n _ (by omega) hbus.fits)
    · exact hs.grown_full hroom _

/-- The number of buses ends at the first bus, if any, whose device 0 has the id looked for. -/
theorem pciMaxBusLoop_spec (matchId : BitVec 32) : ∀ (n : ℕ) (m : PciMachine), n ≤ 255 → m.bus = b →
    let r := (pciMaxBusLoop matchId n m (256 - n)).1
    256 - n ≤ r ∧ r ≤ 256
      ∧ (∀ bus, 256 - n ≤ bus → bus < r → b.read (BitVec.ofNat 8 bus) 0 0 0 ≠ matchId)
      ∧ (r < 256 → b.read (BitVec.ofNat 8 r) 0 0 0 = matchId)
  | 0, _, _, _ => ⟨le_rfl, le_rfl, fun _ h1 h2 => absurd h2 (Nat.not_lt.2 h1), fun h => absurd h (lt_irrefl _)⟩
  | n + 1, m, hn, hm => by
    have hid : (pciConfigReadImm m (BitVec.ofNat 8 (255 - n)) 0 0 0).1
        = b.read (BitVec.ofNat 8 (255 - n)) 0 0 0 :=
      pciConfigReadImm_at hb hm (by decide : 0 < 32) (by decide : 0 < 8) _ 0
    rw [show 256 - (n + 1) = 255 - n by omega]
    unfold pciMaxBusLoop
    simp only [hid]
    by_cases hmatch : b.read (BitVec.ofNat 8 (255 - n)) 0 0 0 = matchId
    · rw [if_pos hmatch]
      exact ⟨le_rfl, by omega, fun bus h1 h2 => by omega, fun _ => hmatch⟩
    · rw [if_neg hmatch, show 255 - n + 1 = 256 - n by omega]
      obtain ⟨hge, hle, hbefore, hat⟩ := pciMaxBusLoop_spec matchId n
        (pciConfigReadImm m (BitVec.ofNat 8 (255 - n)) 0 0 0).2 (by omega) hm
      refine ⟨by omega, hle, fun bus h1 h2 => ?_, hat⟩
      rcases Nat.eq_or_lt_of_le h1 with rfl | hlt
      · exact hmatch
      · exact hbefore bus (by omega) h2

end Loops

/-! ## What is found -/

section Found

variable {b : PciBus}

theorem mem_found {busMax : ℕ} {p : ℕ × ℕ × ℕ} : p ∈ b.found busMax ↔
    p.1 < busMax ∧ p.2.1 < 32 ∧ p.2.2 < 8 ∧ ∀ func ≤ p.2.2, b.present p.1 p.2.1 func = true := by
  obtain ⟨bus, dev, func⟩ := p
  simp only [PciBus.found, Search.takeWhile_range', List.mem_flatMap, List.mem_map,
    List.mem_filter, List.mem_range'_1, decide_eq_true_eq, Prod.mk.injEq, Nat.zero_le, true_and,
    Nat.zero_add, forall_const]
  constructor
  · rintro ⟨_, hbus, _, hdev, _, ⟨hfunc, hall⟩, rfl, rfl, rfl⟩
    exact ⟨hbus, hdev, hfunc, hall⟩
  · rintro ⟨hbus, hdev, hfunc, hall⟩
    exact ⟨bus, hbus, dev, hdev, func, ⟨hfunc, hall⟩, rfl, rfl, rfl⟩

theorem nodup_found (busMax : ℕ) : (b.found busMax).Nodup := by
  refine List.nodup_flatMap.2 ⟨fun bus _ => List.nodup_flatMap.2 ⟨fun dev _ => ?_, ?_⟩, ?_⟩
  · have hrange : ((List.range' 0 8).takeWhile (b.present bus dev)).Nodup :=
      (List.nodup_range' 1).sublist (List.takeWhile_sublist _)
    exact hrange.map fun f f' h => by simpa using h
  · refine (List.nodup_range' 1).imp fun hne p hp hp' => ?_
    simp only [List.mem_map] at hp hp'
    obtain ⟨_, _, rfl⟩ := hp
    obtain ⟨_, _, h⟩ := hp'
    exact hne (Prod.mk.inj (Prod.mk.inj h).2).1.symm
  · refine (List.nodup_range' 1).imp fun hne p hp hp' => ?_
    simp only [List.mem_flatMap, List.mem_map] at hp hp'
    obtain ⟨_, _, _, _, rfl⟩ := hp
    obtain ⟨_, _, _, _, h⟩ := hp'
    exact hne (Prod.mk.inj h).1.symm

end Found

/-! ## The scan of a topology -/

section Topology

variable (t : PciTopology)

theorem ofNat_toNat_byte (x : Byte) : BitVec.ofNat 8 x.toNat = x := by
  rw [BitVec.ofNat_toNat, BitVec.setWidth_eq]

/-- What does not read as ones at register 0 is there, and the other way round. -/
theorem present_iff (bus dev func : Byte) :
    t.present bus.toNat dev.toNat func.toNat = true ↔ (t.route bus dev func).isSome = true := by
  rw [PciBus.present, ofNat_toNat_byte, ofNat_toNat_byte, ofNat_toNat_byte, bne_iff_ne]
  rcases hroute : t.route bus dev func with _ | i
  · simp [PciBus.read, hroute]
  · rw [PciBus.read_some hroute]
    exact iff_of_true (t.answers bus dev func i hroute) rfl

/-- Where the scan stops looking for buses. -/
structure PciTopology.Ends (r : ℕ) : Prop where
  pos : 0 < r
  le : r ≤ 2 ^ t.busBits
  before : ∀ bus : Byte, 0 < bus → bus.toNat < r → t.read bus 0 0 0 ≠ t.read 0 0 0 0
  at_end : ∀ bus : Byte, bus.toNat = r → t.read bus 0 0 0 = t.read 0 0 0 0

variable {t}

theorem two_pow_busBits_le (t : PciTopology) : 2 ^ t.busBits ≤ 256 :=
  (Nat.pow_le_pow_right (by decide) t.busBits_le).trans (by decide)

/-- Bus `2 ^ busBits` is bus 0 again. -/
theorem read_busBits (h : 2 ^ t.busBits < 256) :
    t.read (BitVec.ofNat 8 (2 ^ t.busBits)) 0 0 0 = t.read 0 0 0 0 := by
  have halias := t.aliases (BitVec.ofNat 8 (2 ^ t.busBits)) 0 0
  have hzero : (BitVec.ofNat 8 (2 ^ t.busBits)).toNat % 2 ^ t.busBits = 0 := by
    rw [BitVec.toNat_ofNat, Nat.mod_eq_of_lt h, Nat.mod_self]
  rw [hzero] at halias
  unfold PciBus.read
  rw [halias]
  rfl

/-- `pciInit` on a topology. -/
theorem pciInit_grown (t : PciTopology) (address : BitVec 32) : ∃ r, t.Ends r ∧
    PciScan.Grown t.toPciBus ⟨[], ⟨address, t.toPciBus⟩⟩ (t.found r)
      (pciInit ⟨address, t.toPciBus⟩).2 := by
  have hb := t.bridge_eq
  set start : PciMachine := ⟨0x80FFFFFC, t.toPciBus⟩ with hstart
  have hid : (pciConfigReadImm start 0 0 0 0).1 = t.read 0 0 0 0 :=
    pciConfigReadImm_at hb rfl (by decide : 0 < 32) (by decide : 0 < 8) 0 0
  have hinit : pciInit ⟨address, t.toPciBus⟩
      = (true, busLoop (pciMaxBus start).1 (pciMaxBus start).1 ⟨[], (pciMaxBus start).2⟩) := by
    simp only [pciInit, PciMachine.outlAddress, PciMachine.inlAddress, hb, if_true]
    rw [if_neg (by decide), if_neg (by decide)]
  have hmax : (pciMaxBus start).1
      = (pciMaxBusLoop (t.read 0 0 0 0) 255 (pciConfigReadImm start 0 0 0 0).2 (256 - 255)).1 := by
    rw [pciMaxBus, hid]
  obtain ⟨hge, hle, hbefore, hat⟩ := pciMaxBusLoop_spec hb (t.read 0 0 0 0) 255
    (pciConfigReadImm start 0 0 0 0).2 le_rfl rfl
  rw [← hmax] at hge hle hbefore hat
  have hends : t.Ends (pciMaxBus start).1 := by
    refine ⟨by omega, ?_, fun bus h0 hlt => ?_, fun bus hbus => ?_⟩
    · by_contra hgt
      have hlt : 2 ^ t.busBits < 256 := by omega
      exact hbefore (2 ^ t.busBits) (Nat.one_le_two_pow) (by omega) (read_busBits hlt)
    · have hpos : 0 < bus.toNat := h0
      have hne := hbefore bus.toNat (by omega) hlt
      rwa [ofNat_toNat_byte] at hne
    · have hbyte := bus.isLt
      have heq := hat (by omega)
      rwa [← hbus, ofNat_toNat_byte] at heq
  refine ⟨_, hends, ?_⟩
  have hfits : PciScan.Fits t.toPciBus ⟨[], (pciMaxBus start).2⟩ :=
    ⟨pciMaxBusLoop_bus .., by simp, by simp [maxPciDevice]⟩
  have hgrown := busLoop_grown hb hle (pciMaxBus start).1 _ le_rfl hfits
  rw [Nat.sub_self] at hgrown
  rw [hinit]
  exact ⟨hgrown.fits, hgrown.places⟩

section Ends

variable {r : ℕ} (hends : t.Ends r)

include hends

/-- A place that is found is a function under its lowest bus number. -/
theorem route_of_mem_found {p : ℕ × ℕ × ℕ} (hp : p ∈ t.found r) : ∃ (bus dev func : Byte) (i : ℕ),
    p = (bus.toNat, dev.toNat, func.toNat) ∧ bus.toNat < 2 ^ t.busBits
      ∧ t.route bus dev func = some i := by
  obtain ⟨hbus, hdev, hfunc, hall⟩ := mem_found.1 hp
  have hle := hends.le
  have hpow := two_pow_busBits_le t
  have hplace : ((BitVec.ofNat 8 p.1).toNat, (BitVec.ofNat 8 p.2.1).toNat,
      (BitVec.ofNat 8 p.2.2).toNat) = p := by
    rw [BitVec.toNat_ofNat, BitVec.toNat_ofNat, BitVec.toNat_ofNat, Nat.mod_eq_of_lt (by omega),
      Nat.mod_eq_of_lt (by omega), Nat.mod_eq_of_lt (by omega)]
  have hpresent := hall p.2.2 le_rfl
  rw [← hplace] at hpresent
  obtain ⟨i, hi⟩ := Option.isSome_iff_exists.1 ((present_iff t _ _ _).1 hpresent)
  refine ⟨_, _, _, i, hplace.symm, ?_, hi⟩
  rw [BitVec.toNat_ofNat, Nat.mod_eq_of_lt (by omega)]
  omega

/-- What is found has room in the table. -/
theorem length_found_le : (t.found r).length ≤ maxPciDevice := by
  set index : ℕ × ℕ × ℕ → ℕ := fun p =>
    (t.route (BitVec.ofNat 8 p.1) (BitVec.ofNat 8 p.2.1) (BitVec.ofNat 8 p.2.2)).getD 0 with hindex
  have hget : ∀ p ∈ t.found r, ∃ (bus dev func : Byte), p = (bus.toNat, dev.toNat, func.toNat)
      ∧ bus.toNat < 2 ^ t.busBits ∧ t.route bus dev func = some (index p) := by
    intro p hp
    obtain ⟨bus, dev, func, i, rfl, hbus, hi⟩ := route_of_mem_found hends hp
    refine ⟨bus, dev, func, rfl, hbus, ?_⟩
    simp only [hindex, ofNat_toNat_byte, hi, Option.getD_some]
  have hnodup : ((t.found r).map index).Nodup := by
    refine List.Nodup.map_on (fun p hp q hq heq => ?_) (nodup_found r)
    obtain ⟨bus, dev, func, rfl, hbus, hi⟩ := hget p hp
    obtain ⟨bus', dev', func', rfl, hbus', hi'⟩ := hget q hq
    rw [← heq] at hi'
    obtain ⟨rfl, rfl, rfl⟩ := t.separate _ _ _ _ _ _ _ hbus hbus' hi hi'
    rfl
  have hfew := t.few _ hnodup fun i hi => by
    obtain ⟨p, hp, rfl⟩ := List.mem_map.1 hi
    obtain ⟨bus, dev, func, -, -, hroute⟩ := hget p hp
    exact ⟨bus, dev, func, hroute⟩
  rwa [List.length_map] at hfew

variable {s : PciScan} {address : BitVec 32}
  (hgrown : PciScan.Grown t.toPciBus ⟨[], ⟨address, t.toPciBus⟩⟩ (t.found r) s)

include hgrown

/-- So the table is what is found. -/
theorem places_eq_found : s.devices.map PciDeviceRecord.place = t.found r := by
  have hplaces := hgrown.places
  rwa [List.map_nil, List.nil_append, List.take_of_length_le (length_found_le hends)] at hplaces

theorem place_mem_found {pdev : PciDeviceRecord} (h : pdev ∈ s.devices) :
    pdev.place ∈ t.found r := by
  rw [← places_eq_found hends hgrown]
  exact List.mem_map_of_mem h

/-- Every entry is a function, and has what is read from it. -/
theorem route_of_mem_devices {pdev : PciDeviceRecord} (h : pdev ∈ s.devices) : ∃ i,
    pdev.bus.toNat < 2 ^ t.busBits ∧ t.route pdev.bus pdev.device pdev.function = some i
      ∧ pdev.ReadFrom (t.functions i) := by
  obtain ⟨bus, dev, func, i, hplace, hbus, hroute⟩ :=
    route_of_mem_found hends (place_mem_found hends hgrown h)
  obtain ⟨h1, h2⟩ := Prod.mk.inj hplace
  obtain ⟨h2, h3⟩ := Prod.mk.inj h2
  obtain rfl := BitVec.eq_of_toNat_eq h1
  obtain rfl := BitVec.eq_of_toNat_eq h2
  obtain rfl := BitVec.eq_of_toNat_eq h3
  have hread := hgrown.fits.read pdev h
  refine ⟨i, hbus, hroute, ?_, ?_, ?_⟩
  · rw [hread.vendorId, PciBus.read_some hroute]
  · rw [hread.deviceId, PciBus.read_some hroute]
  · rw [hread.classCode, PciBus.read_some hroute]

/-- No function is in the table twice. -/
theorem devices_once : s.devices.Pairwise fun p q =>
    t.route p.bus p.device p.function ≠ t.route q.bus q.device q.function := by
  have hnodup := nodup_found (b := t.toPciBus) r
  rw [← places_eq_found hends hgrown, List.Nodup, List.pairwise_map] at hnodup
  refine hnodup.imp_of_mem fun {p q} hp hq hne heq => ?_
  obtain ⟨i, hbus, hi, -⟩ := route_of_mem_devices hends hgrown hp
  obtain ⟨i', hbus', hi', -⟩ := route_of_mem_devices hends hgrown hq
  rw [← heq, hi] at hi'
  obtain rfl := Option.some.inj hi'
  rw [hi] at heq
  obtain ⟨h1, h2, h3⟩ := t.separate _ _ _ _ _ _ _ hbus hbus' hi heq.symm
  refine hne ?_
  rw [PciDeviceRecord.place, PciDeviceRecord.place, h1, h2, h3]

/-- What is found of a function and what is in the table are the same. -/
theorem mem_found_iff {bus dev func : Byte} {i : ℕ} (hbus : bus.toNat < 2 ^ t.busBits)
    (hroute : t.route bus dev func = some i) :
    (bus.toNat, dev.toNat, func.toNat) ∈ t.found r ↔
      ∃ pdev ∈ s.devices, t.route pdev.bus pdev.device pdev.function = some i := by
  constructor
  · intro h
    rw [← places_eq_found hends hgrown] at h
    obtain ⟨pdev, hpdev, hplace⟩ := List.mem_map.1 h
    obtain ⟨h1, h2⟩ := Prod.mk.inj hplace
    obtain ⟨h2, h3⟩ := Prod.mk.inj h2
    refine ⟨pdev, hpdev, ?_⟩
    rwa [BitVec.eq_of_toNat_eq h1, BitVec.eq_of_toNat_eq h2, BitVec.eq_of_toNat_eq h3]
  · rintro ⟨pdev, hpdev, hi⟩
    obtain ⟨i', hbus', hi', -⟩ := route_of_mem_devices hends hgrown hpdev
    obtain ⟨rfl, rfl, rfl⟩ := t.separate _ _ _ _ _ _ _ hbus hbus' hroute hi
    exact place_mem_found hends hgrown hpdev

omit hgrown in
/-- A function is found where no function in front of it and no bus up to its own stops the scan. -/
theorem mem_found_iff_regular {bus dev func : Byte} {i : ℕ}
    (hroute : t.route bus dev func = some i) :
    (bus.toNat, dev.toNat, func.toNat) ∈ t.found r ↔
      (∀ func', func' ≤ func → (t.route bus dev func').isSome = true)
        ∧ ∀ bus', 0 < bus' → bus' ≤ bus → t.read bus' 0 0 0 ≠ t.read 0 0 0 0 := by
  obtain ⟨hdev, hfunc⟩ := t.decoded bus dev func i hroute
  rw [mem_found]
  constructor
  · rintro ⟨hlt, -, -, hall⟩
    exact ⟨fun func' hle => (present_iff t bus dev func').1 (hall func'.toNat hle),
      fun bus' hpos hle => hends.before bus' hpos (lt_of_le_of_lt hle hlt)⟩
  · rintro ⟨hall, hids⟩
    refine ⟨?_, hdev, hfunc, fun f hf => ?_⟩
    · by_contra hge
      have hle : r ≤ bus.toNat := Nat.le_of_not_lt hge
      have hbyte := bus.isLt
      have hr : (BitVec.ofNat 8 r).toNat = r := by
        rw [BitVec.toNat_ofNat, Nat.mod_eq_of_lt (by omega)]
      have hpos : 0 < (BitVec.ofNat 8 r).toNat := by
        rw [hr]
        exact hends.pos
      exact hids (BitVec.ofNat 8 r) hpos (by rw [BitVec.le_def, hr]; exact hle)
        (hends.at_end _ hr)
    · have hbyte := func.isLt
      have hf : f ≤ func.toNat := hf
      have hf' : (BitVec.ofNat 8 f).toNat = f := by
        rw [BitVec.toNat_ofNat, Nat.mod_eq_of_lt (by omega)]
      have hsome := (present_iff t bus dev (BitVec.ofNat 8 f)).2
        (hall _ (by rw [BitVec.le_def, hf']; exact hf))
      rwa [hf'] at hsome

theorem enumerates_iff : s.Enumerates t.toPciBus ↔ t.Regular := by
  constructor
  · intro h bus dev func i hbus hroute
    exact (mem_found_iff_regular hends hroute).1
      ((mem_found_iff hends hgrown hbus hroute).2 (h.complete bus dev func i hroute))
  · intro h
    refine ⟨fun pdev hpdev => ?_, fun bus dev func i hroute => ?_, devices_once hends hgrown⟩
    · obtain ⟨i, -, hi, hread⟩ := route_of_mem_devices hends hgrown hpdev
      exact ⟨i, hi, hread⟩
    · -- the lowest number of the bus
      have hpow := two_pow_busBits_le t
      have hmod := Nat.mod_lt bus.toNat (Nat.two_pow_pos t.busBits)
      have hbus : (BitVec.ofNat 8 (bus.toNat % 2 ^ t.busBits)).toNat < 2 ^ t.busBits := by
        rw [BitVec.toNat_ofNat, Nat.mod_eq_of_lt (by omega)]
        exact hmod
      rw [t.aliases] at hroute
      exact (mem_found_iff hends hgrown hbus hroute).1
        ((mem_found_iff_regular hends hroute).2 (h _ dev func i hbus hroute))

end Ends

end Topology

/-- The scan puts every function into the table, once and with what it reads, exactly on a regular
topology. -/
theorem pciInit_enumerates_iff (t : PciTopology) (address : BitVec 32) :
    (pciInit ⟨address, t.toPciBus⟩).2.Enumerates t.toPciBus ↔ t.Regular := by
  obtain ⟨r, hends, hgrown⟩ := pciInit_grown t address
  exact enumerates_iff hends hgrown

/-! ## Two topologies that are not scanned -/

/-- Functions of one kind at the given places; the bus numbers do not wrap around. -/
def slotTopology (slots : List (Byte × Byte × Byte))
    (hslots : ∀ slot ∈ slots, slot.2.1.toNat < 32 ∧ slot.2.2.toNat < 8)
    (hlen : slots.length ≤ maxPciDevice) : PciTopology where
  bridge := true
  route bus dev func := slots.idxOf? (bus, dev, func)
  functions _ := ⟨fun regDw => if regDw = 0 then 0x813610EC else 0, fun _ => .zero⟩
  busBits := 8
  busBits_le := le_rfl
  bridge_eq := rfl
  decoded bus dev func i h := by
    obtain ⟨hi, heq, -⟩ := List.findIdx?_eq_some_iff_getElem.1 h
    have hmem := List.getElem_mem hi
    rw [eq_of_beq heq] at hmem
    exact hslots _ hmem
  aliases bus dev func := by
    rw [Nat.mod_eq_of_lt bus.isLt, ofNat_toNat_byte]
  separate bus dev func bus' dev' func' i _ _ h h' := by
    obtain ⟨_, heq, -⟩ := List.findIdx?_eq_some_iff_getElem.1 h
    obtain ⟨_, heq', -⟩ := List.findIdx?_eq_some_iff_getElem.1 h'
    have hslot := (eq_of_beq heq).symm.trans (eq_of_beq heq')
    exact ⟨congrArg Prod.fst hslot, congrArg (·.2.1) hslot, congrArg (·.2.2) hslot⟩
  answers _ _ _ _ _ := by decide
  few is hnodup hall := by
    have hsub : is ⊆ List.range slots.length := fun i hi => by
      obtain ⟨bus, dev, func, h⟩ := hall i hi
      obtain ⟨hlt, -⟩ := List.findIdx?_eq_some_iff_getElem.1 h
      exact List.mem_range.2 hlt
    have hle := (List.subperm_of_subset hnodup hsub).length_le
    rw [List.length_range] at hle
    exact hle.trans hlen

/-- Device 0 has no function 1. -/
def sparseTopology : PciTopology := slotTopology [(0, 0, 0), (0, 0, 2)] (by simp) (by decide)

/-- Two buses with the same device 0. -/
def twinTopology : PciTopology := slotTopology [(0, 0, 0), (1, 0, 0)] (by simp) (by decide)

/-- Function 2 behind a gap, and the second of two equal devices, are missing from the table. -/
theorem not_enumerates_sparse_twin :
    ¬ (pciInit ⟨0, sparseTopology.toPciBus⟩).2.Enumerates sparseTopology.toPciBus
      ∧ ¬ (pciInit ⟨0, twinTopology.toPciBus⟩).2.Enumerates twinTopology.toPciBus := by
  constructor
  · obtain ⟨_, hends, hgrown⟩ := pciInit_grown sparseTopology 0
    rw [enumerates_iff hends hgrown]
    intro h
    have hgap := (h 0 0 2 1 (by decide) (by decide)).1 1 (by decide)
    exact absurd hgap (by decide)
  · obtain ⟨_, hends, hgrown⟩ := pciInit_grown twinTopology 0
    rw [enumerates_iff hends hgrown]
    intro h
    exact (h 1 0 0 1 (by decide) (by decide)).2 1 (by decide) (by decide) (by decide)

end RemoteX86
