import RemoteX86.Aliasing
import Mathlib.Tactic.Ring

/-!
# What the aliasing tests report

On memory that decodes `k` address bits a compared block is the same exactly from `k` on, so a scan is a
search for `k`.  Downward the search is given up before 21 has been looked at from below; the topmost BIOS
is compared upward with a block that is none of its aliases.
-/

namespace RemoteX86

open Hex Asking

/-! ## Searches -/

section Search

variable (read : BitVec 64 → Option (List Byte)) (bits : ℕ) (ref : List Byte)
  (addr : ℕ → BitVec 64)

/-- What is compared for `n` bits is there, and is the same exactly if `k ≤ n`. -/
def SameFrom (k n : ℕ) : Prop := ∃ b, read (addr n) = some b ∧ (b = ref ↔ k ≤ n)

variable {read ref addr}

theorem downwardLoop_result {k : ℕ} (hk : 21 ≤ k) : ∀ n, 21 ≤ n → k ≤ n + 1 →
    (∀ j, 21 ≤ j → j ≤ n → SameFrom read ref addr k j) →
    (downwardLoop read bits ref addr n).result = some (if k = 21 then bits else k)
  | 0, hn, _, _ => absurd hn (by decide)
  | n + 1, hn, hkn, h => by
    obtain ⟨b, hb, hiff⟩ := h (n + 1) hn le_rfl
    rw [downwardLoop, result_bind hb]
    by_cases hsame : b = ref
    · rw [if_neg (not_not.2 hsame)]
      have hle := hiff.1 hsame
      by_cases hlast : n ≤ 20
      · rw [if_pos hlast, if_pos (by omega), result_pure]
      · rw [if_neg hlast]
        exact downwardLoop_result hk n (by omega) hle fun j hj hjn => h j hj (by omega)
    · have hlt := mt hiff.2 hsame
      rw [if_pos hsame, if_neg (by omega), result_pure]
      congr 1
      omega

/-- A loop of the form of the upward scans, that makes `found n` of a match at `n`. -/
structure Upward (read : BitVec 64 → Option (List Byte)) (bits : ℕ) (ref : List Byte)
    (addr : ℕ → BitVec 64) (found : ℕ → ℕ) (loop : ℕ → ℕ → Asking (BitVec 64) ℕ) : Prop where
  stop : ∀ n, loop 0 n = pure bits
  turn : ∀ left n, left + n < 32 → loop (left + 1) n = do
    let compare ← ask read (addr n)
    if compare = ref then pure (found n)
    else if 32 ≤ n + 1 then pure bits
    else loop left (n + 1)

variable {bits} in
theorem Upward.result {found : ℕ → ℕ} {loop : ℕ → ℕ → Asking (BitVec 64) ℕ}
    (hloop : Upward read bits ref addr found loop) {k : ℕ} : ∀ left n, left + n = 32 → n ≤ k →
    (∀ j, n ≤ j → j < 32 → SameFrom read ref addr k j) →
    (loop left n).result = some (if k < 32 then found k else bits)
  | 0, n, hn, hk, _ => by
    rw [hloop.stop, if_neg (by omega), result_pure]
  | left + 1, n, hn, hk, h => by
    obtain ⟨b, hb, hiff⟩ := h n le_rfl (by omega)
    rw [hloop.turn left n (by omega), result_bind hb]
    by_cases hsame : b = ref
    · have hle := hiff.1 hsame
      obtain rfl : k = n := by omega
      rw [if_pos hsame, if_pos (by omega), result_pure]
    · have hlt := mt hiff.2 hsame
      rw [if_neg hsame]
      by_cases hlast : 32 ≤ n + 1
      · rw [if_pos hlast, if_neg (by omega), result_pure]
      · rw [if_neg hlast]
        exact Upward.result hloop left (n + 1) (by omega) (by omega)
          fun j hj hj32 => h j (by omega) hj32

variable (read ref addr)

theorem upward_upwardLoop : Upward read bits ref addr id (upwardLoop read bits ref addr) where
  stop _ := rfl
  turn _ _ _ := rfl

/-! ## The loops over the topmost BIOS -/

theorem pow_sub_shiftRight : ∀ n < 63, ((1#64 <<< (n + 1)) - 1) >>> 1 = (1#64 <<< n) - 1 := by
  decide

theorem pow_sub_shiftLeft : ∀ n < 63,
    ((1#64 <<< n : BitVec 64) - 1) <<< 1 ||| 1#64 = (1#64 <<< (n + 1) : BitVec 64) - 1 := by
  decide

theorem topBlock_eq (n : ℕ) : (1#64 <<< n) - 1 + 1 - 512 = topBlock n := by
  rw [BitVec.sub_add_cancel]
  rfl

theorem upperBiosDownwardLoop_eq : ∀ n ≤ 63,
    upperBiosDownwardLoop read bits ref ((1#64 <<< n) - 1) n = downwardLoop read bits ref topBlock n
  | 0, _ => rfl
  | n + 1, hn => by
    rw [upperBiosDownwardLoop, downwardLoop, topBlock_eq, pow_sub_shiftRight n (by omega),
      upperBiosDownwardLoop_eq n (by omega)]

/-- Downward the addresses of the topmost BIOS are those of the blocks below each power of two. -/
theorem upperBiosDownward_eq (h1 : 1 ≤ bits) (h63 : bits ≤ 63) :
    upperBiosDownward read bits = (do
      let hirom ← ask read (topBlock bits)
      downwardLoop read bits hirom topBlock (bits - 1)) := by
  have hmax : maxBasicMemAddress bits >>> 1 = (1#64 <<< (bits - 1)) - 1 := by
    rw [← pow_sub_shiftRight (bits - 1) (by omega), Nat.sub_add_cancel h1]
    rfl
  have htop : maxBasicMemAddress bits + 1 - 512 = topBlock bits := topBlock_eq bits
  have hloop : ∀ hirom, upperBiosDownwardLoop read bits hirom ((1#64 <<< (bits - 1)) - 1) (bits - 1)
      = downwardLoop read bits hirom topBlock (bits - 1) :=
    fun hirom => upperBiosDownwardLoop_eq read bits hirom (bits - 1) (by omega)
  simp only [upperBiosDownward, htop, hmax, hloop]

theorem upward_upperBiosUpwardLoop : Upward read bits ref topBlock Nat.pred
    (fun left n => upperBiosUpwardLoop read bits ref left ((1#64 <<< n) - 1) n) where
  stop _ := rfl
  turn left n hn := by
    rw [upperBiosUpwardLoop, topBlock_eq, pow_sub_shiftLeft n (by omega)]
    rfl

end Search

/-! ## Addresses -/

theorem sub_pow_mod {j k : ℕ} (hj : 9 ≤ j) (hk : 9 ≤ k) :
    (2 ^ j - 512) % 2 ^ k = 2 ^ min j k - 512 := by
  have hpow : ∀ n, 9 ≤ n → 512 ≤ 2 ^ n := fun n hn => Nat.pow_le_pow_right (n := 2) (by omega) hn
  rcases Nat.le_total j k with hle | hle
  · have hjk := Nat.pow_le_pow_right (n := 2) (by omega) hle
    rw [min_eq_left hle, Nat.mod_eq_of_lt]
    have := hpow j hj
    omega
  · obtain ⟨c, hc⟩ := Nat.pow_dvd_pow 2 hle
    have hkpos := hpow k hk
    have hcpos : 0 < c := by
      rcases c with - | c
      · rw [Nat.mul_zero] at hc
        exact absurd hc (Nat.two_pow_pos j).ne'
      · exact Nat.succ_pos c
    obtain ⟨c, rfl⟩ := Nat.exists_eq_succ_of_ne_zero hcpos.ne'
    rw [min_eq_right hle, hc, Nat.mul_succ, Nat.add_sub_assoc hkpos, Nat.mul_add_mod,
      Nat.mod_eq_of_lt (by omega)]

/-- An offset below a bit is the same with that bit set if the bit is not decoded. -/
theorem pow_add_mod_iff {j k off : ℕ} (hoff : off < 2 ^ j) :
    (2 ^ j + off) % 2 ^ k = off % 2 ^ k ↔ k ≤ j := by
  rcases Nat.lt_or_ge j k with hlt | hle
  · refine iff_of_false ?_ (by omega)
    have hjk : 2 ^ (j + 1) ≤ 2 ^ k := Nat.pow_le_pow_right (by omega) hlt
    rw [Nat.pow_succ] at hjk
    rw [Nat.mod_eq_of_lt (by omega), Nat.mod_eq_of_lt (by omega)]
    omega
  · refine iff_of_true ?_ hle
    obtain ⟨c, hc⟩ := Nat.pow_dvd_pow 2 hle
    rw [hc, Nat.mul_add_mod]

/-- The same with all bits from there on set. -/
theorem pow_sub_add_mod_iff {j k bits off : ℕ} (hoff : off < 2 ^ j) (hk : k ≤ bits) :
    (2 ^ bits - 2 ^ min j bits + off) % 2 ^ k = off % 2 ^ k ↔ k ≤ j := by
  rcases Nat.lt_or_ge j k with hlt | hle
  · refine iff_of_false ?_ (by omega)
    have hjk : 2 ^ j < 2 ^ k := Nat.pow_lt_pow_right (by omega) hlt
    obtain ⟨c, hc⟩ := Nat.pow_dvd_pow 2 hk
    have hcpos : c ≠ 0 := by
      rintro rfl
      exact absurd hc (Nat.two_pow_pos bits).ne'
    obtain ⟨c, rfl⟩ := Nat.exists_eq_succ_of_ne_zero hcpos
    rw [min_eq_left (by omega), hc, Nat.mul_succ, Nat.add_sub_assoc hjk.le, Nat.add_assoc,
      Nat.mul_add_mod, Nat.mod_eq_of_lt (by omega), Nat.mod_eq_of_lt (by omega)]
    omega
  · refine iff_of_true ?_ hle
    obtain ⟨c, hc⟩ := Nat.dvd_sub (Nat.pow_dvd_pow 2 hk) (Nat.pow_dvd_pow 2 (le_min hle hk))
    rw [hc, Nat.mul_add_mod]

theorem toNat_topBlock : ∀ n < 33, 9 ≤ n → (topBlock n).toNat = 2 ^ n - 512 := by
  decide

/-- The regions looked at by two aliases. -/
def regions : List (BitVec 64) := [legacyBios, vgaDisplay, dosMemory, extendedMemory]

theorem regions_facts {base : BitVec 64} (h : base ∈ regions) :
    base.toNat + 512 ≤ 2 ^ 21 ∧ 512 ∣ base.toNat := by
  have hcases : base.toNat = 0xFFE00 ∨ base.toNat = 0xB8000 ∨ base.toNat = 0
      ∨ base.toNat = 0x100000 := by
    simp only [regions, List.mem_cons, List.not_mem_nil, or_false] at h
    rcases h with rfl | rfl | rfl | rfl <;> decide
  omega

theorem toNat_pow : ∀ n < 32, (1#64 <<< n).toNat = 2 ^ n := by
  decide

theorem toNat_upper {bits : ℕ} (hbits : bits = 24 ∨ bits = 32) : ∀ n < 32,
    ((BitVec.allOnes 64 <<< n) &&& maxBasicMemAddress bits).toNat = 2 ^ bits - 2 ^ min n bits := by
  rcases hbits with rfl | rfl <;> decide

theorem toNat_lowerAlias {base : BitVec 64} (hbase : base ∈ regions) {n : ℕ} (hn : n < 32) :
    (lowerAlias base n).toNat = 2 ^ n + base.toNat := by
  have hsmall := (regions_facts hbase).1
  have hpow : 2 ^ n < 2 ^ 32 := Nat.pow_lt_pow_right (by omega) hn
  rw [lowerAlias, BitVec.toNat_add, toNat_pow n hn, Nat.mod_eq_of_lt (by omega)]

theorem toNat_upperAlias {bits : ℕ} (hbits : bits = 24 ∨ bits = 32) {base : BitVec 64}
    (hbase : base ∈ regions) {n : ℕ} (hn : n < 32) :
    (upperAlias bits base n).toNat = 2 ^ bits - 2 ^ min n bits + base.toNat := by
  have hsmall := (regions_facts hbase).1
  have hpow : 2 ^ bits - 2 ^ min n bits ≤ 2 ^ 32 :=
    (Nat.sub_le _ _).trans (Nat.pow_le_pow_right (by omega) (by omega))
  rw [upperAlias, BitVec.toNat_add, toNat_upper hbits n hn, Nat.mod_eq_of_lt (by omega)]

/-! ## Memory that decodes `k` bits -/

theorem block_decoded (f : ℕ → Byte) {k a : ℕ} (hk : 9 ≤ k) (ha : 512 ∣ a) :
    block (decoded f k) a = block f (a % 2 ^ k) := by
  have hpow : 512 ∣ 2 ^ k := Nat.pow_dvd_pow 2 hk
  have hmod : 512 ∣ a % 2 ^ k := (Nat.dvd_mod_iff hpow).2 ha
  have hlt := Nat.mod_lt a (Nat.two_pow_pos k)
  obtain ⟨c, hc⟩ := hpow
  obtain ⟨d, hd⟩ := hmod
  refine List.map_congr_left fun i hi => ?_
  have hi := List.mem_range.1 hi
  have hsum : (a + i) % 2 ^ k = a % 2 ^ k + i := by
    rw [← Nat.mod_add_mod, Nat.mod_eq_of_lt (by omega)]
  rw [decoded, hsum]

section Decoded

variable {f : ℕ → Byte} {k bits : ℕ}

/-- An address compared with another holds the same block if the two are the same with `k` bits. -/
theorem sameFrom_of_mem (hk : 9 ≤ k) (hf : Distinct f k bits) {ref : BitVec 64}
    {addr : ℕ → BitVec 64} {n m : ℕ} (hmem : (ref, addr n) ∈ compared bits)
    (href : 512 ∣ ref.toNat) (haddr : 512 ∣ (addr n).toNat)
    (hiff : (addr n).toNat % 2 ^ k = ref.toNat % 2 ^ k ↔ m ≤ n) :
    SameFrom (fun a => some (block (decoded f k) a.toNat)) (block (decoded f k) ref.toNat) addr m n := by
  refine ⟨_, rfl, ?_⟩
  rw [block_decoded f hk href, block_decoded f hk haddr, ← hiff]
  refine ⟨fun h => ?_, fun h => by rw [h]⟩
  by_contra hne
  exact hf _ hmem (Ne.symm hne) h.symm

theorem mem_compared {n : ℕ} (hn : 21 ≤ n) (hn32 : n < 32) :
    (topBlock bits, topBlock n) ∈ compared bits ∧ (topBlock 20, topBlock n) ∈ compared bits
      ∧ ∀ base ∈ regions, (base, upperAlias bits base n) ∈ compared bits
        ∧ (base, lowerAlias base n) ∈ compared bits := by
  have hrange : n ∈ List.range' 21 11 := List.mem_range'_1.2 ⟨hn, hn32⟩
  refine ⟨List.mem_flatMap.2 ⟨n, hrange, by simp⟩, List.mem_flatMap.2 ⟨n, hrange, by simp⟩,
    fun base hbase => ⟨?_, ?_⟩⟩
  · exact List.mem_flatMap.2 ⟨n, hrange, List.mem_append_right _
      (List.mem_flatMap.2 ⟨base, hbase, by simp⟩)⟩
  · exact List.mem_flatMap.2 ⟨n, hrange, List.mem_append_right _
      (List.mem_flatMap.2 ⟨base, hbase, by simp⟩)⟩

theorem dvd_topBlock {n : ℕ} (hn : 9 ≤ n) (hn33 : n < 33) : 512 ∣ (topBlock n).toNat := by
  rw [toNat_topBlock n hn33 hn]
  exact Nat.dvd_sub (Nat.pow_dvd_pow 2 hn) (dvd_refl _)

theorem sameFrom_top (hk : 21 ≤ k) (hkbits : k ≤ bits) (hbits : bits = 24 ∨ bits = 32)
    (hf : Distinct f k bits) {n : ℕ} (hn : 21 ≤ n) (hlt : n < bits) :
    SameFrom (fun a => some (block (decoded f k) a.toNat))
      (block (decoded f k) (topBlock bits).toNat) topBlock k n := by
  have hn32 : n < 32 := by omega
  refine sameFrom_of_mem (by omega) hf (mem_compared hn hn32).1 (dvd_topBlock (by omega) (by omega))
    (dvd_topBlock (by omega) (by omega)) ?_
  rw [toNat_topBlock n (by omega) (by omega), toNat_topBlock bits (by omega) (by omega),
    sub_pow_mod (by omega) (by omega), sub_pow_mod (by omega) (by omega), min_eq_right hkbits]
  constructor
  · intro h
    by_contra hnk
    have hpow : 2 ^ n < 2 ^ k := Nat.pow_lt_pow_right (by omega) (by omega)
    have hlow : 2 ^ 21 ≤ 2 ^ n := Nat.pow_le_pow_right (by omega) hn
    rw [min_eq_left (by omega)] at h
    omega
  · intro h
    rw [min_eq_right h]

theorem sameFrom_top_20 (hk : 21 ≤ k) (hf : Distinct f k bits) {n : ℕ} (hn : 21 ≤ n) (hn32 : n < 32) :
    SameFrom (fun a => some (block (decoded f k) a.toNat))
      (block (decoded f k) (topBlock 20).toNat) topBlock 32 n := by
  refine sameFrom_of_mem (by omega) hf (mem_compared hn hn32).2.1 (dvd_topBlock (by omega) (by omega))
    (dvd_topBlock (by omega) (by omega)) ?_
  rw [toNat_topBlock n (by omega) (by omega), toNat_topBlock 20 (by omega) (by omega),
    sub_pow_mod (by omega) (by omega), sub_pow_mod (by omega) (by omega),
    min_eq_left (by omega : 20 ≤ k)]
  have hpow : 2 ^ 21 ≤ 2 ^ min n k := Nat.pow_le_pow_right (by omega) (le_min hn hk)
  omega

theorem sameFrom_upper (hk : 21 ≤ k) (hkbits : k ≤ bits) (hbits : bits = 24 ∨ bits = 32)
    (hf : Distinct f k bits) {base : BitVec 64} (hbase : base ∈ regions) {n : ℕ} (hn : 21 ≤ n)
    (hn32 : n < 32) :
    SameFrom (fun a => some (block (decoded f k) a.toNat)) (block (decoded f k) base.toNat)
      (upperAlias bits base) k n := by
  obtain ⟨hsmall, hdvd⟩ := regions_facts hbase
  have hpow : 2 ^ 21 ≤ 2 ^ n := Nat.pow_le_pow_right (by omega) hn
  have haddr := toNat_upperAlias hbits hbase hn32
  refine sameFrom_of_mem (by omega) hf ((mem_compared hn hn32).2.2 base hbase).1 hdvd ?_ ?_
  · rw [haddr]
    exact (Nat.dvd_sub (Nat.pow_dvd_pow 2 (by omega : 9 ≤ bits))
      (Nat.pow_dvd_pow 2 (by omega : 9 ≤ min n bits))).add hdvd
  · rw [haddr]
    exact pow_sub_add_mod_iff (by omega) hkbits

theorem sameFrom_lower (hk : 21 ≤ k) (hf : Distinct f k bits) {base : BitVec 64}
    (hbase : base ∈ regions) {n : ℕ} (hn : 21 ≤ n) (hn32 : n < 32) :
    SameFrom (fun a => some (block (decoded f k) a.toNat)) (block (decoded f k) base.toNat)
      (lowerAlias base) k n := by
  obtain ⟨hsmall, hdvd⟩ := regions_facts hbase
  have hpow : 2 ^ 21 ≤ 2 ^ n := Nat.pow_le_pow_right (by omega) hn
  have haddr := toNat_lowerAlias hbase hn32
  refine sameFrom_of_mem (by omega) hf ((mem_compared hn hn32).2.2 base hbase).2 hdvd ?_ ?_
  · rw [haddr]
    exact (Nat.pow_dvd_pow 2 (by omega : 9 ≤ n)).add hdvd
  · rw [haddr]
    exact pow_add_mod_iff (by omega)

/-! ## The scans -/

section Results

variable (hk : 21 ≤ k) (hkbits : k ≤ bits) (hbits : bits = 24 ∨ bits = 32) (hf : Distinct f k bits)

include hk hkbits hbits hf

theorem upperBiosDownward_result :
    (upperBiosDownward (fun a => some (block (decoded f k) a.toNat)) bits).result
      = some (if k = 21 then bits else k) := by
  rw [upperBiosDownward_eq _ _ (by omega) (by omega), result_bind rfl]
  exact downwardLoop_result bits hk _ (by omega) (by omega) fun j hj hjn =>
    sameFrom_top hk hkbits hbits hf hj (by omega)

theorem downwardScan_result {base : BitVec 64} (hbase : base ∈ regions) :
    (downwardScan (fun a => some (block (decoded f k) a.toNat)) bits base).result
      = some (if k = 21 then bits else k, if k = 21 then bits else k) := by
  have hupper := downwardLoop_result bits hk (bits - 1) (by omega) (by omega) fun j hj hjn =>
    sameFrom_upper hk hkbits hbits hf hbase hj (by omega)
  have hlower := downwardLoop_result bits hk (bits - 1) (by omega) (by omega) fun j hj hjn =>
    sameFrom_lower hk hf hbase hj (by omega)
  rw [downwardScan, result_bind rfl, result_bind hupper, result_bind hlower]
  rfl

theorem upwardScan_result {base : BitVec 64} (hbase : base ∈ regions) :
    (upwardScan (fun a => some (block (decoded f k) a.toNat)) bits base).result = some (k, k) := by
  have hupper := (upward_upwardLoop _ bits _ _).result 11 21 rfl hk fun j hj hj32 =>
    sameFrom_upper hk hkbits hbits hf hbase hj hj32
  have hlower := (upward_upwardLoop _ bits _ _).result 11 21 rfl hk fun j hj hj32 =>
    sameFrom_lower hk hf hbase hj hj32
  have hvalue : (if k < 32 then id k else bits) = k := by
    split_ifs
    · rfl
    · omega
  rw [hvalue] at hupper hlower
  rw [upwardScan, result_bind rfl, result_bind hupper, result_bind hlower]
  rfl

omit hkbits hbits in
theorem upperBiosUpward_result :
    (upperBiosUpward (fun a => some (block (decoded f k) a.toNat)) bits).result = some bits := by
  have hloop := (upward_upperBiosUpwardLoop _ bits _).result 11 21 rfl (by omega)
    fun j hj hj32 => sameFrom_top_20 hk hf hj hj32
  rw [upperBiosUpward, result_bind rfl]
  exact hloop

theorem runMemoryAliasingTests_result {cpu : X86TestResults}
    (hcpu : cpu.maxBasicMemoryAddressBits = bits) (hrev : 2 ≤ cpu.std0to4EflagsRevision) :
    let d := if k = 21 then bits else k
    (runMemoryAliasingTests (fun a => some (block (decoded f k) a.toNat)) cpu).result
      = some { cpu with
        maxUpperBiosBits := d, maxUpperBiosBitsUw := bits
        maxLegacyBiosBits := d, maxLegacyBiosBitsUw := k
        maxLegacyVgaBits := d, maxLegacyVgaBitsUw := k
        maxLegacyDosmemBits := d, maxLegacyDosmemBitsUw := k
        maxExtmemBits := d, maxExtmemBitsUw := k } := by
  intro d
  have hdown : ∀ {base : BitVec 64}, base ∈ regions →
      (downwardScan (fun a => some (block (decoded f k) a.toNat)) bits base).result = some (d, d) :=
    fun hbase => downwardScan_result hk hkbits hbits hf hbase
  have hup := fun {base : BitVec 64} (hbase : base ∈ regions) =>
    upwardScan_result hk hkbits hbits hf hbase
  have hvalue : 20 < d := by
    simp only [d]
    split_ifs <;> omega
  have hext : (extmemDownward (fun a => some (block (decoded f k) a.toNat)) bits d
      cpu.maxExtmemBits).result = some d := by
    rw [extmemDownward, if_pos hvalue, result_bind (hdown (by simp [regions]))]
    rfl
  rw [runMemoryAliasingTests, hcpu, if_neg (BitVec.not_lt.2 hrev), if_neg (by omega),
    result_bind (upperBiosDownward_result hk hkbits hbits hf),
    result_bind (upperBiosUpward_result hk hf), result_bind (hdown (by simp [regions])),
    result_bind (hup (by simp [regions])), result_bind (hdown (by simp [regions])),
    result_bind (hup (by simp [regions])), result_bind (hdown (by simp [regions])),
    result_bind (hup (by simp [regions])), result_bind hext, result_bind (hup (by simp [regions]))]
  rfl

/-- Memory that decodes `k` of `bits` address bits is reported as such by the downward scans unless `k`
is 21, by the upward ones always except by that over the topmost BIOS, which reports `bits`; all agree
only where every bit is decoded. -/
theorem scansReport_iff {cpu : X86TestResults} (hcpu : cpu.maxBasicMemoryAddressBits = bits)
    (hrev : 2 ≤ cpu.std0to4EflagsRevision) :
    ∃ r, (runMemoryAliasingTests (fun a => some (block (decoded f k) a.toNat)) cpu).result = some r
      ∧ (r.Report k ↔ k = bits)
      ∧ (∀ n ∈ [r.maxUpperBiosBits, r.maxLegacyBiosBits, r.maxLegacyVgaBits, r.maxLegacyDosmemBits,
        r.maxExtmemBits], n = k ↔ k ≠ 21)
      ∧ (∀ n ∈ [r.maxLegacyBiosBitsUw, r.maxLegacyVgaBitsUw, r.maxLegacyDosmemBitsUw,
        r.maxExtmemBitsUw], n = k)
      ∧ (r.maxUpperBiosBitsUw = k ↔ k = bits) := by
  have hiff : (if k = 21 then bits else k) = k ↔ k ≠ 21 := by
    split_ifs <;> omega
  refine ⟨_, runMemoryAliasingTests_result hk hkbits hbits hf hcpu hrev,
    ⟨fun h => h.upperBiosUw.symm, fun h => ?_⟩, ?_, ?_, eq_comm⟩
  · have hdown := hiff.2 (by omega)
    exact ⟨hdown, hdown, hdown, hdown, hdown, h.symm, rfl, rfl, rfl, rfl⟩
  · simp only [List.forall_mem_cons, List.not_mem_nil, IsEmpty.forall_iff, implies_true, and_true]
    exact ⟨hiff, hiff, hiff, hiff, hiff⟩
  · simp

end Results

end Decoded

/-! ## Numbered memory -/

/-- Memory whose blocks hold their own numbers. -/
def numberedBlocks (x : ℕ) : Byte := BitVec.ofNat 8 ((x / 512) >>> (8 * (x % 512)))

theorem getElem?_block_numberedBlocks {a i : ℕ} (ha : 512 ∣ a) (hi : i < 512) :
    (block numberedBlocks a)[i]? = some (BitVec.ofNat 8 ((a / 512) >>> (8 * i))) := by
  have hdiv : (a + i) / 512 = a / 512 := by omega
  have hmod : (a + i) % 512 = i := by omega
  rw [block, List.getElem?_map, List.getElem?_range hi, Option.map_some, numberedBlocks, hdiv, hmod]

theorem block_numberedBlocks_injective {a b : ℕ} (ha : 512 ∣ a) (hb : 512 ∣ b) (ha32 : a < 2 ^ 32)
    (hb32 : b < 2 ^ 32) (h : block numberedBlocks a = block numberedBlocks b) : a = b := by
  have hbyte : ∀ i < 512, (a / 512) >>> (8 * i) % 256 = (b / 512) >>> (8 * i) % 256 := by
    intro i hi
    have hget := congrArg (·[i]?) h
    rw [getElem?_block_numberedBlocks ha hi, getElem?_block_numberedBlocks hb hi, Option.some_inj] at hget
    have hnat := congrArg BitVec.toNat hget
    rwa [BitVec.toNat_ofNat, BitVec.toNat_ofNat] at hnat
  have h0 := hbyte 0 (by omega)
  have h1 := hbyte 1 (by omega)
  have h2 := hbyte 2 (by omega)
  simp only [Nat.shiftRight_eq_div_pow] at h0 h1 h2
  omega

theorem dvd_compared {bits : ℕ} (hbits : bits = 24 ∨ bits = 32) :
    ∀ p ∈ compared bits, p.1.toNat % 512 = 0 ∧ p.2.toNat % 512 = 0 := by
  -- by the list: the pairs of addresses are a finite type too, of 2 ^ 128 elements
  have hall : ((compared bits).all fun p => p.1.toNat % 512 == 0 && p.2.toNat % 512 == 0) = true := by
    rcases hbits with rfl | rfl <;> decide +kernel
  intro p hp
  simpa using List.all_eq_true.1 hall p hp

theorem distinct_numberedBlocks {k bits : ℕ} (hk : 9 ≤ k) (hk32 : k ≤ 32)
    (hbits : bits = 24 ∨ bits = 32) : Distinct numberedBlocks k bits := by
  intro p hp hne h
  obtain ⟨h1, h2⟩ := dvd_compared hbits p hp
  have hpow : 512 ∣ 2 ^ k := Nat.pow_dvd_pow 2 hk
  have hle : 2 ^ k ≤ 2 ^ 32 := Nat.pow_le_pow_right (by omega) hk32
  have hlt : ∀ x, x % 2 ^ k < 2 ^ 32 := fun x => (Nat.mod_lt x (Nat.two_pow_pos k)).trans_le hle
  exact hne (block_numberedBlocks_injective ((Nat.dvd_mod_iff hpow).2 (Nat.dvd_of_mod_eq_zero h1))
    ((Nat.dvd_mod_iff hpow).2 (Nat.dvd_of_mod_eq_zero h2)) (hlt _) (hlt _) h)

/-- What a 386 has before the tests. -/
def untested : X86TestResults where
  std0to4EflagsRevision := 3
  maxBasicMemoryAddressBits := 32
  maxUpperBiosBits := 0
  maxUpperBiosBitsUw := 0
  maxLegacyBiosBits := 0
  maxLegacyBiosBitsUw := 0
  maxLegacyVgaBits := 0
  maxLegacyVgaBitsUw := 0
  maxLegacyDosmemBits := 0
  maxLegacyDosmemBitsUw := 0
  maxExtmemBits := 0
  maxExtmemBitsUw := 0

/-- All 32 bits decoded. -/
theorem scansReport_iff_32 :
    ∃ r, (runMemoryAliasingTests (fun a => some (block (decoded numberedBlocks 32) a.toNat)) untested).result
      = some r ∧ r.Report 32 := by
  have hf : Distinct numberedBlocks 32 32 := distinct_numberedBlocks (by decide) le_rfl (.inr rfl)
  have hcpu : untested.maxBasicMemoryAddressBits = 32 := rfl
  obtain ⟨r, hr, hiff, -⟩ := scansReport_iff (by decide) le_rfl (.inr rfl) hf hcpu (by decide)
  exact ⟨r, hr, hiff.2 rfl⟩

theorem not_report_numbered {k : ℕ} (hk : 20 < k) (hk32 : k < 32) :
    Distinct numberedBlocks k 32 ∧ ∃ r,
      (runMemoryAliasingTests (fun a => some (block (decoded numberedBlocks k) a.toNat)) untested).result
        = some r ∧ r.maxUpperBiosBitsUw = 32 ∧ (k = 21 → r.maxExtmemBits = 32) ∧ ¬ r.Report k := by
  have hf : Distinct numberedBlocks k 32 := distinct_numberedBlocks (by omega) hk32.le (.inr rfl)
  refine ⟨hf, _, runMemoryAliasingTests_result hk hk32.le (.inr rfl) hf rfl (by decide), rfl,
    fun h => if_pos h, fun h => ?_⟩
  have hbits : 32 = k := h.upperBiosUw
  omega

/-- With 24 bits decoded the upward scan of the topmost BIOS reports 32; with 21, as on a machine where
memory repeats every 2MB, so does every downward scan. -/
theorem not_report_24_21 :
    (Distinct numberedBlocks 24 32 ∧ ∃ r,
      (runMemoryAliasingTests (fun a => some (block (decoded numberedBlocks 24) a.toNat)) untested).result
        = some r ∧ r.maxUpperBiosBitsUw = 32 ∧ ¬ r.Report 24)
    ∧ Distinct numberedBlocks 21 32 ∧ ∃ r,
      (runMemoryAliasingTests (fun a => some (block (decoded numberedBlocks 21) a.toNat)) untested).result
        = some r ∧ r.maxExtmemBits = 32 ∧ ¬ r.Report 21 := by
  obtain ⟨hf24, r24, hr24, hup, -, hnot24⟩ := not_report_numbered (k := 24) (by decide) (by decide)
  obtain ⟨hf21, r21, hr21, -, hdown, hnot21⟩ := not_report_numbered (k := 21) (by decide) (by decide)
  exact ⟨⟨hf24, r24, hr24, hup, hnot24⟩, hf21, r21, hr21, hdown rfl, hnot21⟩

end RemoteX86
