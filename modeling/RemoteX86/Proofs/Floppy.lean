import RemoteX86.Lib.Odometer
import RemoteX86.Floppy

/-!
# What the floppy boot sector loads

The sector variables are an odometer (`nextSector_tick`), so the `k`-th read is of sector `k + 1`
as long as the disk lasts.  `es:bx` goes on by 512 bytes until `bx` wraps, with the 128th read: the
sum for `es` is then left in `bx`, and the next sector goes 1800h too far.  `loads_iff`: stage 2 is
loaded contiguously exactly if it has at most 64 KB.
-/

namespace RemoteX86

open Hex

namespace Loader

/-! ## The rounds of the loop -/

/-- One round that does not leave the loop. -/
def round (l : Loader) : Loader :=
  ({ l.advance with stage2Size := l.stage2Size - 1 } : Loader).nextSector

section Fields

variable (l : Loader)

@[simp] theorem nextSector_es : l.nextSector.es = l.es := by unfold nextSector; split_ifs <;> rfl

@[simp] theorem nextSector_bx : l.nextSector.bx = l.bx := by unfold nextSector; split_ifs <;> rfl

@[simp] theorem nextSector_stage2Size : l.nextSector.stage2Size = l.stage2Size := by
  unfold nextSector; split_ifs <;> rfl

@[simp] theorem nextSector_bootS : l.nextSector.bootS = l.bootS := by
  unfold nextSector; split_ifs <;> rfl

@[simp] theorem nextSector_bootH : l.nextSector.bootH = l.bootH := by
  unfold nextSector; split_ifs <;> rfl

@[simp] theorem round_es : l.round.es = l.advance.es := by simp [round]

@[simp] theorem round_bx : l.round.bx = l.advance.bx := by simp [round]

@[simp] theorem round_stage2Size : l.round.stage2Size = l.stage2Size - 1 := by simp [round]

end Fields

end Loader

theorem loadLoop_succ (int13 : Int13) (fuel : ℕ) (l : Loader) :
    loadLoop int13 (fuel + 1) l
      = if int13.readCf l.read then some ([l.read], .readErrmsg)
        else if l.stage2Size - 1 = 0 then some ([l.read], .jumps 0 0x8000)
        else (loadLoop int13 fuel l.round).map fun rest => (l.read :: rest.1, rest.2) := rfl

/-- With enough fuel and no read that fails the loop makes as many reads as `stage2_size` says. -/
theorem loadLoop_reads (int13 : Int13) : ∀ (n fuel : ℕ) (l : Loader),
    l.stage2Size.toNat = n + 1 → n < fuel →
    (∀ i ≤ n, int13.readCf (Loader.round^[i] l).read = false) →
    loadLoop int13 fuel l
      = some ((List.range (n + 1)).map fun i => (Loader.round^[i] l).read, .jumps 0 0x8000)
  | _, 0, _, _, hfuel, _ => by omega
  | 0, fuel + 1, l, hsize, _, hok => by
    have hcf : int13.readCf l.read = false := hok 0 le_rfl
    have hlast : l.stage2Size - 1 = 0 := by
      apply BitVec.eq_of_toNat_eq
      simp [BitVec.toNat_sub, hsize]
    rw [loadLoop_succ, hcf, if_neg Bool.false_ne_true, if_pos hlast]
    rfl
  | n + 1, fuel + 1, l, hsize, hfuel, hok => by
    have hcf : int13.readCf l.read = false := hok 0 (Nat.zero_le _)
    have hbound := l.stage2Size.isLt
    have hnext : (l.stage2Size - 1).toNat = n + 1 := by
      rw [BitVec.toNat_sub_of_le (by rw [BitVec.le_def]; simp; omega)]
      simp [hsize]
    have hmore : l.stage2Size - 1 ≠ 0 := fun h => by
      rw [h] at hnext
      exact absurd hnext (by simp)
    have hrest := loadLoop_reads int13 n fuel l.round (by simpa using hnext) (by omega)
      fun i hi => hok (i + 1) (by omega)
    rw [loadLoop_succ, hcf, if_neg Bool.false_ne_true, if_neg hmore, hrest,
      List.range_succ_eq_map (n := n + 1), List.map_cons, List.map_map]
    rfl

/-! ## The pointer -/

namespace Loader

theorem advance_of_lt {l : Loader} (h : l.bx.toNat + 0x200 < 2 ^ 16) :
    l.advance.es = l.es ∧ l.advance.bx.toNat = l.bx.toNat + 0x200 := by
  unfold advance
  rw [if_pos h]
  refine ⟨rfl, ?_⟩
  rw [BitVec.toNat_add, show (0x200 : BitVec 16).toNat = 0x200 from rfl]
  omega

/-- Up to the wrap `bx` counts the bytes read. -/
theorem pointer_before {l : Loader} (hbx : l.bx = 0) : ∀ k ≤ 127,
    (round^[k] l).es = l.es ∧ (round^[k] l).bx.toNat = 512 * k
  | 0, _ => by simp [hbx]
  | k + 1, hk => by
    obtain ⟨hes, hcount⟩ := pointer_before hbx k (by omega)
    obtain ⟨hes', hcount'⟩ := advance_of_lt (l := round^[k] l) (by omega)
    rw [Function.iterate_succ_apply', round_es, round_bx, hes', hcount']
    exact ⟨hes, by omega⟩

/-- The wrap puts the new `es` into `bx` as well. -/
theorem pointer_wrap {l : Loader} (hbx : l.bx = 0) :
    (round^[128] l).es = l.es + 0x1000 ∧ (round^[128] l).bx = l.es + 0x1000 := by
  obtain ⟨hes, hcount⟩ := pointer_before hbx 127 le_rfl
  rw [Function.iterate_succ_apply', round_es, round_bx]
  unfold advance
  rw [if_neg (by omega), hes]
  exact ⟨rfl, rfl⟩

/-! ## The sector variables -/

variable {g : Geometry}

/-- Sector and head as wheels; the cylinder is the count above them. -/
def wheels (g : Geometry) (l : Loader) : List (ℕ × ℕ) :=
  [(l.readS.toNat - 1, g.sectors), (l.readH.toNat, g.heads)]

/-- The geometry is stored, and the sector variables are within it. -/
structure Within (g : Geometry) (l : Loader) : Prop where
  bootS : l.bootS.toNat = g.sectors
  bootH : l.bootH.toNat = g.heads
  readS_pos : 1 ≤ l.readS.toNat
  fits : Odometer.Fits (l.wheels g)

theorem Within.readS_le {l : Loader} (h : l.Within g) : l.readS.toNat ≤ g.sectors := by
  have := h.fits (l.readS.toNat - 1, g.sectors) (by simp [wheels])
  have := h.readS_pos
  simp only at *
  omega

theorem Within.readH_lt {l : Loader} (h : l.Within g) : l.readH.toNat < g.heads :=
  h.fits (l.readH.toNat, g.heads) (by simp [wheels])

theorem toNat_add_one {x : Byte} (h : x.toNat + 1 < 256) : (x + 1).toNat = x.toNat + 1 := by
  rw [BitVec.toNat_add, show (1 : Byte).toNat = 1 from rfl]
  omega

theorem sle_iff {x y : Byte} (hx : x.toNat < 128) (hy : y.toNat < 128) :
    x.sle y = true ↔ x.toNat ≤ y.toNat := by
  rw [BitVec.sle_eq_decide, BitVec.toInt_eq_toNat_of_lt (by omega),
    BitVec.toInt_eq_toNat_of_lt (by omega)]
  simp

theorem slt_iff {x y : Byte} (hx : x.toNat < 128) (hy : y.toNat < 128) :
    x.slt y = true ↔ x.toNat < y.toNat := by
  rw [BitVec.slt_eq_decide, BitVec.toInt_eq_toNat_of_lt (by omega),
    BitVec.toInt_eq_toNat_of_lt (by omega)]
  simp

/-- The sector variables step as the odometer ticks, unless the cylinder leaves its byte. -/
theorem nextSector_tick {l : Loader} (h : l.Within g)
    (htop : (Odometer.tick (l.wheels g) l.readC.toNat).2 < 256) :
    Odometer.tick (l.wheels g) l.readC.toNat
      = (l.nextSector.wheels g, l.nextSector.readC.toNat) := by
  have hS := h.readS_le
  have hS' := h.readS_pos
  have hH := h.readH_lt
  have hsectors := g.sectors_le
  have hheads := g.heads_le
  have hnextS : (l.readS + 1).toNat = l.readS.toNat + 1 := toNat_add_one (by omega)
  have hnextH : (l.readH + 1).toNat = l.readH.toNat + 1 := toNat_add_one (by omega)
  have hjle := sle_iff (x := l.readS + 1) (y := l.bootS) (by omega) (by have := h.bootS; omega)
  have hjl := slt_iff (x := l.readH + 1) (y := l.bootH) (by omega) (by have := h.bootH; omega)
  rw [hnextS, h.bootS] at hjle
  rw [hnextH, h.bootH] at hjl
  unfold wheels Odometer.tick at htop ⊢
  unfold nextSector
  by_cases htrack : l.readS.toNat + 1 ≤ g.sectors
  · -- another sector of the track
    rw [if_pos (show l.readS.toNat - 1 + 1 < g.sectors by omega), if_pos (hjle.2 htrack)]
    simp only [hnextS]
    rw [show l.readS.toNat - 1 + 1 = l.readS.toNat + 1 - 1 by omega]
  · rw [if_neg (show ¬ l.readS.toNat - 1 + 1 < g.sectors by omega)] at htop ⊢
    rw [if_neg (mt hjle.1 htrack)]
    unfold Odometer.tick at htop ⊢
    by_cases hhead : l.readH.toNat + 1 < g.heads
    · -- the same track under the next head
      rw [if_pos hhead, if_pos (hjl.2 hhead)]
      simp only [hnextH]
      rfl
    · rw [if_neg hhead] at htop ⊢
      rw [if_neg (mt hjl.1 hhead)]
      simp only [Odometer.tick] at htop ⊢
      rw [toNat_add_one htop]
      rfl

theorem Within.nextSector {l : Loader} (h : l.Within g)
    (htop : (Odometer.tick (l.wheels g) l.readC.toNat).2 < 256) : l.nextSector.Within g := by
  refine ⟨by simp [h.bootS], by simp [h.bootH], ?_, ?_⟩
  · have hS := h.readS_le
    have hsectors := g.sectors_le
    unfold Loader.nextSector
    split_ifs
    · simp only [toNat_add_one (show l.readS.toNat + 1 < 256 by omega)]
      omega
    · exact le_rfl
    · exact le_rfl
  · have hfits := h.fits.tick l.readC.toNat
    rwa [nextSector_tick h htop] at hfits

/-- The number of the sector that is read next. -/
def number (g : Geometry) (l : Loader) : ℕ := Odometer.value (l.wheels g) l.readC.toNat

theorem read_number {l : Loader} (h : l.Within g) : l.read.number g = l.number g := by
  have hS := h.readS_le
  have hsectors := g.sectors_le
  have hcyl : l.read.cylinder = l.readC.toNat := by
    unfold SectorRead.cylinder read
    simp only
    omega
  have hsec : l.read.sector = l.readS.toNat := by
    unfold SectorRead.sector read
    simp only
    omega
  unfold SectorRead.number number wheels
  simp only [hcyl, hsec, Odometer.value]
  simp only [read]
  ring

theorem capacity_eq (l : Loader) : g.capacity = Odometer.span (l.wheels g) * g.cylinders := by
  simp only [Geometry.capacity, Odometer.span, wheels, List.map_cons, List.map_nil,
    List.prod_cons, List.prod_nil]
  ring

theorem readC_lt {l : Loader} (hl : l.number g < g.capacity) : l.readC.toNat < g.cylinders :=
  Odometer.top_lt ((capacity_eq l) ▸ hl)

theorem read_onDisk {l : Loader} (h : l.Within g) (hl : l.number g < g.capacity) :
    l.read.OnDisk g := by
  have hS := h.readS_le
  have hsectors := g.sectors_le
  have hC := readC_lt hl
  refine ⟨?_, h.readH_lt, ?_, ?_⟩
  · unfold SectorRead.cylinder read
    simp only
    omega
  · have := h.readS_pos
    unfold SectorRead.sector read
    simp only
    omega
  · unfold SectorRead.sector read
    simp only
    omega

/-- A round goes on to the next sector of the disk. -/
theorem round_number {l : Loader} (h : l.Within g) (hl : l.number g + 1 < g.capacity) :
    l.round.Within g ∧ l.round.number g = l.number g + 1 := by
  obtain ⟨es, bx, hadvance⟩ : ∃ es bx, l.advance = { l with es := es, bx := bx } := by
    unfold advance
    split_ifs
    · exact ⟨l.es, _, rfl⟩
    · exact ⟨_, _, rfl⟩
  unfold round
  rw [hadvance]
  set l' : Loader := { l with es := es, bx := bx, stage2Size := l.stage2Size - 1 }
  have h' : l'.Within g := ⟨h.bootS, h.bootH, h.readS_pos, h.fits⟩
  have hvalue : Odometer.value (Odometer.tick (l'.wheels g) l'.readC.toNat).1
      (Odometer.tick (l'.wheels g) l'.readC.toNat).2 = l.number g + 1 :=
    Odometer.value_tick h'.fits _
  have htop : (Odometer.tick (l'.wheels g) l'.readC.toNat).2 < 256 := by
    have hbelow : Odometer.value (Odometer.tick (l'.wheels g) l'.readC.toNat).1
        (Odometer.tick (l'.wheels g) l'.readC.toNat).2
        < Odometer.span (Odometer.tick (l'.wheels g) l'.readC.toNat).1 * g.cylinders := by
      rw [hvalue, Odometer.span_tick, ← capacity_eq]
      exact hl
    exact (Odometer.top_lt hbelow).trans_le g.cylinders_le
  refine ⟨h'.nextSector htop, ?_⟩
  rw [nextSector_tick h' htop] at hvalue
  exact hvalue

/-- As long as the disk lasts, the rounds go through its sectors in order. -/
theorem iterate_number {l : Loader} (h : l.Within g) : ∀ k, l.number g + k < g.capacity →
    (round^[k] l).Within g ∧ (round^[k] l).number g = l.number g + k
  | 0, _ => ⟨h, rfl⟩
  | k + 1, hk => by
    obtain ⟨hwithin, hnumber⟩ := iterate_number h k (by omega)
    obtain ⟨hwithin', hnumber'⟩ := round_number hwithin (by omega)
    rw [Function.iterate_succ_apply']
    exact ⟨hwithin', by omega⟩

end Loader

/-! ## The load -/

section Load

variable {g : Geometry} {int13 : Int13}

/-- The loader with the geometry the BIOS reported. -/
def loaderFor (int13 : Int13) (stage2Size : BitVec 16) : Loader := geoOk (int13.parameters 0) stage2Size

theorem Int13.Serves.start (h : int13.Serves g) (stage2Size : BitVec 16) :
    (loaderFor int13 stage2Size).Within g ∧ (loaderFor int13 stage2Size).number g = 1 := by
  have hcyl := g.cylinders_le
  have hheads := g.heads_le
  have hheads' := g.heads_pos
  have hsectors := g.sectors_le
  have hsectors' := g.sectors_ge
  unfold loaderFor
  rw [h.parameters]
  refine ⟨⟨?_, ?_, Nat.le_add_left 1 1, ?_⟩, ?_⟩
  · simp only [geoOk, Geometry.parameters, BitVec.toNat_ofNat]
    omega
  · simp only [geoOk, Geometry.parameters]
    rw [Loader.toNat_add_one (by simp only [BitVec.toNat_ofNat]; omega), BitVec.toNat_ofNat]
    omega
  · change Odometer.Fits [(1, g.sectors), (0, g.heads)]
    simp only [Odometer.Fits, List.forall_mem_cons]
    exact ⟨by omega, by omega, by simp⟩
  · change Odometer.value [(1, g.sectors), (0, g.heads)] 0 = 1
    simp [Odometer.value]

theorem loadLoop_mono (int13 : Int13) : ∀ (fuel m : ℕ) (l : Loader)
    {x : List SectorRead × Stage1Exit},
    loadLoop int13 fuel l = some x → loadLoop int13 (fuel + m) l = some x
  | 0, _, _, _, h => by simp [loadLoop] at h
  | fuel + 1, m, l, x, h => by
    rw [Nat.add_right_comm, loadLoop_succ]
    rw [loadLoop_succ] at h
    split_ifs at h ⊢
    · exact h
    · exact h
    · obtain ⟨y, hy, rfl⟩ := Option.map_eq_some_iff.1 h
      rw [loadLoop_mono int13 fuel m _ hy]
      rfl

/-- The boot sector at its place, with a BIOS that serves it. -/
theorem Int13.Serves.stage1_eq (h : int13.Serves g) (fuel : ℕ) (stage2Size : BitVec 16) :
    stage1 int13 fuel 0 0x7C00 stage2Size = loadLoop int13 fuel (loaderFor int13 stage2Size) := by
  unfold stage1 loaderFor
  rw [h.parameters]
  rfl

/-- The reads of the boot sector, for a stage 2 of `n` sectors that the disk has room for. -/
theorem Int13.Serves.stage1_iff (h : int13.Serves g) {n : ℕ} (hn : 0 < n) (hlt : n < 2 ^ 16)
    (hdisk : n < g.capacity) (reads : List SectorRead) (exit : Stage1Exit) :
    (∃ fuel, stage1 int13 fuel 0 0x7C00 (BitVec.ofNat 16 n) = some (reads, exit)) ↔
      reads = (List.range n).map (fun i =>
        (Loader.round^[i] (loaderFor int13 (BitVec.ofNat 16 n))).read)
        ∧ exit = .jumps 0 0x8000 := by
  obtain ⟨m, rfl⟩ : ∃ m, n = m + 1 := Nat.exists_eq_add_of_lt hn |>.imp (by omega)
  obtain ⟨hwithin, hnumber⟩ := h.start (BitVec.ofNat 16 (m + 1))
  set l := loaderFor int13 (BitVec.ofNat 16 (m + 1)) with hl
  have hsize : l.stage2Size.toNat = m + 1 := by
    rw [hl, loaderFor, geoOk, BitVec.toNat_ofNat, Nat.mod_eq_of_lt hlt]
  have hok : ∀ i ≤ m, int13.readCf (Loader.round^[i] l).read = false := by
    intro i hi
    obtain ⟨hwithin', hnumber'⟩ := Loader.iterate_number hwithin i (by omega)
    exact h.reads _ (Loader.read_onDisk hwithin' (by omega))
  have hruns : ∀ fuel > m, loadLoop int13 fuel l = _ :=
    fun fuel hfuel => loadLoop_reads int13 m fuel l hsize hfuel hok
  simp only [h.stage1_eq]
  constructor
  · rintro ⟨fuel, hrun⟩
    have hlong := loadLoop_mono int13 fuel (m + 1) l hrun
    rw [hruns _ (by omega)] at hlong
    simpa [eq_comm] using hlong
  · rintro ⟨rfl, rfl⟩
    exact ⟨m + 1, hruns _ (by omega)⟩

/-- Up to 128 sectors the reads follow one another in memory; the 129th does not. -/
theorem address_iff (int13 : Int13) (stage2Size : BitVec 16) (n : ℕ) :
    (∀ k < n, (Loader.round^[k] (loaderFor int13 stage2Size)).read.address = 0x8000 + 512 * k) ↔
      n ≤ 128 := by
  set l := loaderFor int13 stage2Size with hl
  have hes : l.es = 0x800 := by rw [hl, loaderFor, geoOk]; rfl
  have hbx : l.bx = 0 := rfl
  constructor
  · intro hall
    by_contra hlt
    obtain ⟨hes', hbx'⟩ := Loader.pointer_wrap hbx
    have hwrapped := hall 128 (by omega)
    rw [hes] at hes' hbx'
    simp only [SectorRead.address, Loader.read, hes', hbx'] at hwrapped
    exact absurd hwrapped (by decide)
  · intro hn k hk
    obtain ⟨hes', hbx'⟩ := Loader.pointer_before hbx k (by omega)
    have hseg : (Loader.round^[k] l).es.toNat = 0x800 := by rw [hes', hes]; rfl
    unfold SectorRead.address Loader.read
    simp only
    omega

/-- What is loaded contiguously is 128 sectors at most. -/
theorem Int13.Serves.contiguous_iff (hserves : int13.Serves g) {size : ℕ} (hsize : 1 ≤ size)
    (hdisk : (size + 511) / 512 < g.capacity) (hmem : 0x8000 + size ≤ 0xA0000) :
    LoadsContiguously g int13 size ↔ (size + 511) / 512 ≤ 128 := by
  set n := (size + 511) / 512 with hn
  have hpatch : patchSectorcount size = some (BitVec.ofNat 16 n) := if_neg (by omega)
  have hiff := hserves.stage1_iff (n := n) (by omega) (by omega) hdisk
  set l := loaderFor int13 (BitVec.ofNat 16 n) with hl
  have hnumber : ∀ k < n, (Loader.round^[k] l).read.number g = k + 1 := by
    intro k hk
    obtain ⟨hwithin, hstart⟩ := hserves.start (BitVec.ofNat 16 n)
    obtain ⟨hwithin', hnumber'⟩ := Loader.iterate_number hwithin k (by omega)
    rw [Loader.read_number hwithin']
    omega
  have haddress := address_iff int13 (BitVec.ofNat 16 n) n
  constructor
  · rintro ⟨stage2Size, fuel, reads, hpatched, hrun, -, hreads⟩
    rw [hpatch, Option.some_inj] at hpatched
    subst hpatched
    obtain ⟨rfl, -⟩ := (hiff reads _).1 ⟨fuel, hrun⟩
    refine haddress.1 fun k hk => (hreads k _ ?_).2
    rw [List.getElem?_map, List.getElem?_range hk]
    rfl
  · intro hle
    obtain ⟨fuel, hrun⟩ := (hiff _ _).2 ⟨rfl, rfl⟩
    refine ⟨_, fuel, _, hpatch, hrun, by rw [List.length_map, List.length_range], ?_⟩
    intro k r hr
    rw [List.getElem?_map, Option.map_eq_some_iff] at hr
    obtain ⟨i, hi, rfl⟩ := hr
    obtain ⟨hk, rfl⟩ := List.getElem?_eq_some_iff.1 hi
    rw [List.length_range] at hk
    rw [List.getElem_range]
    exact ⟨hnumber k hk, haddress.2 hle k hk⟩

end Load

/-- Stage 2 is loaded contiguously exactly if it has at most 64 KB: from any disk with room for it,
into base memory with room for it. -/
theorem loads_iff (g : Geometry) (int13 : Int13) (size : ℕ) (hserves : int13.Serves g)
    (hsize : 1 ≤ size) (hdisk : (size + 511) / 512 < g.capacity) (hmem : 0x8000 + size ≤ 0xA0000) :
    LoadsContiguously g int13 size ↔ size ≤ 65536 := by
  rw [hserves.contiguous_iff hsize hdisk hmem]
  omega

/-- A floppy of 1.44 MB. -/
def floppy144 : Geometry where
  cylinders := 80
  heads := 2
  sectors := 18
  cylinders_le := by decide
  heads_pos := by decide
  heads_le := by decide
  sectors_ge := by decide
  sectors_le := by decide

/-- A BIOS that fails only on sectors which the disk does not have. -/
def Geometry.int13 (g : Geometry) : Int13 where
  parameters _ := g.parameters
  readCf r := !decide (r.OnDisk g)

theorem Geometry.int13_serves (g : Geometry) : g.int13.Serves g :=
  ⟨rfl, fun r hr => by simp [Geometry.int13, hr]⟩

theorem loads_iff_144 : LoadsContiguously floppy144 floppy144.int13 20480 ↔ 20480 ≤ 65536 :=
  loads_iff floppy144 floppy144.int13 20480 floppy144.int13_serves (by decide) (by decide)
    (by decide)

/-- One byte more than 64 KB on such a floppy, which has room for it, as has base memory. -/
theorem not_loads_64k : floppy144.int13.Serves floppy144
    ∧ (65537 + 511) / 512 < floppy144.capacity ∧ 0x8000 + 65537 ≤ 0xA0000
    ∧ ¬ LoadsContiguously floppy144 floppy144.int13 65537 := by
  refine ⟨floppy144.int13_serves, by decide, by decide, ?_⟩
  rw [floppy144.int13_serves.contiguous_iff (by decide) (by decide) (by decide)]
  decide

end RemoteX86
