import RemoteX86.Paging

/-!
# What the page tables map

The loops write one table of 33792 entries and nothing else.  The upper half of every PML2 entry is
zero and its lower half is the number of the page shifted by 21 in 32 bits, so that each 4 GB of the
64 GB is the first 4 GB again.
-/

namespace RemoteX86

open Hex Memory Fill

/-! ## Entries -/

def pml4Entry (i : ℕ) : BitVec 64 := if i = 0 then 0#32 ++ (pml3Location ||| 7) else 0

def pml3Entry (i : ℕ) : BitVec 64 :=
  if i < 64 then 0#32 ++ (((BitVec.ofNat 32 i <<< 12) + pml2Location) ||| 7) else 0

def pml2Entry (i : ℕ) : BitVec 64 := 0#32 ++ ((BitVec.ofNat 32 i <<< 21) ||| 0x87)

/-- The tables as the one array they make up. -/
def pageEntry (i : ℕ) : BitVec 64 :=
  if i < 512 then pml4Entry i else if i < 1024 then pml3Entry (i - 512) else pml2Entry (i - 1024)

/-! ## Loops -/

/-- One entry. -/
theorem stosd_fills {s : Stos} {a : ℕ} (hedi : s.edi = BitVec.ofNat 32 a) (ha : a + 8 ≤ 2 ^ 32)
    (low : BitVec 32) :
    ((s.stosd low).stosd 0).edi = BitVec.ofNat 32 (a + 8)
      ∧ Fills s.mem ((s.stosd low).stosd 0).mem a 1 fun _ => 0#32 ++ low := by
  have hstep : s.edi + 4 = BitVec.ofNat 32 (a + 4) := by
    rw [hedi, BitVec.ofNat_add]
    rfl
  have hwide : ∀ b < 2 ^ 32, (BitVec.ofNat 32 b).setWidth 52 = BitVec.ofNat 52 b := by
    intro b hb
    apply BitVec.eq_of_toNat_eq
    rw [BitVec.toNat_setWidth, BitVec.toNat_ofNat, BitVec.toNat_ofNat, Nat.mod_eq_of_lt hb]
  have hfill := fills_one (by omega : a + 8 ≤ 2 ^ 52) s.mem low 0
  unfold Stos.stosd
  simp only [hstep]
  refine ⟨?_, ?_⟩
  · exact (BitVec.ofNat_add (a + 4) 4).symm
  · rw [hedi, hwide a (by omega), hwide (a + 4) (by omega)]
    exact hfill

/-- A loop whose rounds write one entry each writes its table. -/
theorem doWhile_fills {body : Stos → Stos} {again : Stos → Bool} {base n fuel : ℕ}
    {entry : ℕ → BitVec 64} (count : ℕ → Stos → Prop) (hn : 0 < n) (hfuel : n ≤ fuel)
    (hw : base + 8 * n ≤ 2 ^ 32)
    (hbody : ∀ k s, k < n → count k s →
      (∃ low, 0#32 ++ low = entry k ∧ (body s).mem = ((s.stosd low).stosd 0).mem
        ∧ (body s).edi = ((s.stosd low).stosd 0).edi)
      ∧ count (k + 1) (body s) ∧ (again (body s) = true ↔ k + 1 < n))
    {s : Stos} (hedi : s.edi = BitVec.ofNat 32 base) (hcount : count 0 s) :
    ∃ s', doWhile body again fuel s = some s' ∧ s'.edi = BitVec.ofNat 32 (base + 8 * n)
      ∧ Fills s.mem s'.mem base n entry ∧ count n s' := by
  refine doWhile_invariant (fun k s' => s'.edi = BitVec.ofNat 32 (base + 8 * k)
    ∧ Fills s.mem s'.mem base k entry ∧ count k s') ?_ fuel 0 s hn (by omega)
    ⟨hedi, fills_zero _ _ _, hcount⟩
  rintro k s' hk ⟨hedi', hfills, hcount'⟩
  obtain ⟨⟨low, hlow, hmem, hedi''⟩, hnext, hagain⟩ := hbody k s' hk hcount'
  obtain ⟨hstep, hone⟩ := stosd_fills hedi' (by omega) low
  refine ⟨⟨?_, ?_, hnext⟩, hagain⟩
  · rw [hedi'', hstep, Nat.mul_add, Nat.add_assoc]
  · rw [hmem]
    refine hfills.trans hone rfl rfl (fun i hi => ?_) (by omega)
    obtain rfl : i = 0 := by omega
    exact hlow

/-- Rounds that are counted in EDX. -/
theorem edx_step {s : Stos} {d k n : ℕ} (h : s.edx = BitVec.ofNat 32 (d + k)) (hn : n < 2 ^ 32)
    (hk : d + k < n) :
    s.edx + 1 = BitVec.ofNat 32 (d + (k + 1))
      ∧ (decide (s.edx + 1 < BitVec.ofNat 32 n) = true ↔ d + (k + 1) < n) := by
  have hstep : s.edx + 1 = BitVec.ofNat 32 (d + (k + 1)) := by
    rw [h, ← Nat.add_assoc, BitVec.ofNat_add (d + k)]
    rfl
  refine ⟨hstep, ?_⟩
  rw [decide_eq_true_iff, hstep, BitVec.lt_def, BitVec.toNat_ofNat, BitVec.toNat_ofNat,
    Nat.mod_eq_of_lt (by omega), Nat.mod_eq_of_lt hn]

section Tables

variable {s : Stos}

theorem pml4zero_fills (hedi : s.edi = BitVec.ofNat 32 0x10008) (hecx : s.ecx = 511) :
    ∃ s', doWhile Stos.pml4zero (fun s => s.ecx != 0) 32768 s = some s'
      ∧ s'.edi = BitVec.ofNat 32 0x11000
      ∧ Fills s.mem s'.mem 0x10008 511 (fun i => pml4Entry (1 + i)) ∧ s'.ecx = 0 := by
  refine doWhile_fills (fun k s => s.ecx = BitVec.ofNat 32 (511 - k)) (by omega)
    (by omega : 511 ≤ 32768) (by omega) (fun k s hk hcount => ?_) hedi hecx
  have hstep : s.ecx - 1 = BitVec.ofNat 32 (511 - (k + 1)) := by
    apply BitVec.eq_of_toNat_eq
    rw [hcount, BitVec.toNat_sub, BitVec.toNat_ofNat, BitVec.toNat_ofNat]
    simp
    omega
  refine ⟨⟨0, ?_, rfl, rfl⟩, hstep, ?_⟩
  · simp only [pml4Entry, if_neg (by omega : ¬ 1 + k = 0)]
    rfl
  · have hzero : BitVec.ofNat 32 (511 - (k + 1)) ≠ 0 ↔ k + 1 < 511 := by
      rw [ne_eq, ← BitVec.toNat_inj, BitVec.toNat_ofNat]
      simp
      omega
    rw [← hzero, ← hstep]
    exact bne_iff_ne

theorem pml3loop_fills (hedi : s.edi = BitVec.ofNat 32 0x11000) (hedx : s.edx = 0) :
    ∃ s', doWhile Stos.pml3loop (fun s => s.edx < 64) 32768 s = some s'
      ∧ s'.edi = BitVec.ofNat 32 0x11200 ∧ Fills s.mem s'.mem 0x11000 64 pml3Entry
      ∧ s'.edx = 64 := by
  refine doWhile_fills (fun k s => s.edx = BitVec.ofNat 32 (0 + k)) (by omega)
    (by omega : 64 ≤ 32768) (by omega) (fun k s hk hcount => ?_) hedi hedx
  obtain ⟨hstep, hagain⟩ := edx_step hcount (by omega : 64 < 2 ^ 32) (by omega)
  rw [Nat.zero_add] at hagain
  refine ⟨⟨_, ?_, rfl, rfl⟩, hstep, hagain⟩
  rw [pml3Entry, if_pos hk, hcount, Nat.zero_add]

theorem pml3zero_fills (hedi : s.edi = BitVec.ofNat 32 0x11200) (hedx : s.edx = 64) :
    ∃ s', doWhile Stos.pml3zero (fun s => s.edx < 512) 32768 s = some s'
      ∧ s'.edi = BitVec.ofNat 32 0x12000
      ∧ Fills s.mem s'.mem 0x11200 448 (fun i => pml3Entry (64 + i)) ∧ s'.edx = 512 := by
  refine doWhile_fills (fun k s => s.edx = BitVec.ofNat 32 (64 + k)) (by omega)
    (by omega : 448 ≤ 32768) (by omega) (fun k s hk hcount => ?_) hedi hedx
  obtain ⟨hstep, hagain⟩ := edx_step hcount (by omega : 512 < 2 ^ 32) (by omega)
  refine ⟨⟨0, ?_, rfl, rfl⟩, hstep, hagain.trans (by omega)⟩
  simp only [pml3Entry, if_neg (by omega : ¬ 64 + k < 64)]
  rfl

theorem pml2loop_fills (hedi : s.edi = BitVec.ofNat 32 0x12000) (hedx : s.edx = 0) :
    ∃ s', doWhile Stos.pml2loop (fun s => s.edx < 512 * 64) 32768 s = some s'
      ∧ s'.edi = BitVec.ofNat 32 0x52000 ∧ Fills s.mem s'.mem 0x12000 32768 pml2Entry
      ∧ s'.edx = 0x8000 := by
  refine doWhile_fills (fun k s => s.edx = BitVec.ofNat 32 (0 + k)) (by omega)
    (le_refl 32768) (by omega) (fun k s hk hcount => ?_) hedi hedx
  obtain ⟨hstep, hagain⟩ := edx_step hcount (by omega : 32768 < 2 ^ 32) (by omega)
  rw [Nat.zero_add] at hagain
  refine ⟨⟨_, ?_, rfl, rfl⟩, hstep, hagain⟩
  rw [pml2Entry, hcount, Nat.zero_add]

end Tables

theorem pageEntry_pml4 {i : ℕ} (h : i < 512) : pageEntry i = pml4Entry i := if_pos h

theorem pageEntry_pml3 {i : ℕ} (h : i < 512) : pageEntry (512 + i) = pml3Entry i := by
  unfold pageEntry
  rw [if_neg (by omega), if_pos (by omega), Nat.add_sub_cancel_left]

theorem pageEntry_pml2 (i : ℕ) : pageEntry (1024 + i) = pml2Entry i := by
  unfold pageEntry
  rw [if_neg (by omega), if_neg (by omega), Nat.add_sub_cancel_left]

/-- The construction ends, with one array of entries written and nothing else. -/
theorem jmpX64Tables_fills (mem : Mem 52) :
    ∃ mem', jmpX64Tables mem = some mem' ∧ Fills mem mem' 0x10000 33792 pageEntry := by
  obtain ⟨hedi, hfills₀⟩ := stosd_fills
    (s := { mem := mem, edi := pml4Location, ecx := 511, edx := 0 }) (a := 0x10000) rfl (by omega)
    (pml3Location ||| 7)
  obtain ⟨s₁, h₁, -, hfills₁, -⟩ := pml4zero_fills hedi rfl
  obtain ⟨s₂, h₂, hedi₂, hfills₂, hedx₂⟩ := pml3loop_fills
    (s := { s₁ with edx := 0, edi := pml3Location }) rfl rfl
  obtain ⟨s₃, h₃, -, hfills₃, -⟩ := pml3zero_fills hedi₂ hedx₂
  obtain ⟨s₄, h₄, -, hfills₄, -⟩ := pml2loop_fills
    (s := { s₃ with edx := 0, edi := pml2Location }) rfl rfl
  refine ⟨s₄.mem, ?_, ?_⟩
  · unfold jmpX64Tables
    simp only [Option.bind_eq_bind]
    rw [h₁, Option.bind_some, h₂, Option.bind_some, h₃, Option.bind_some]
    exact (congrArg (Option.bind · _) h₄).trans rfl
  · have hpml4 : Fills mem s₁.mem 0x10000 512 pageEntry := by
      have hone : Fills mem _ 0x10000 1 pageEntry := ⟨fun i hi => ?_, hfills₀.frame⟩
      · refine hone.trans hfills₁ rfl rfl (fun i hi => ?_) (by omega)
        rw [pageEntry_pml4 (by omega)]
      · obtain rfl : i = 0 := by omega
        exact hfills₀.entries 0 hi
    have hpml3 : Fills mem s₂.mem 0x10000 576 pageEntry := by
      refine hpml4.trans hfills₂ rfl rfl (fun i hi => ?_) (by omega)
      rw [pageEntry_pml3 (by omega)]
    have hzero : Fills mem s₃.mem 0x10000 1024 pageEntry := by
      refine hpml3.trans hfills₃ rfl rfl (fun i hi => ?_) (by omega)
      rw [← pageEntry_pml3 (by omega), ← Nat.add_assoc]
    exact hzero.trans hfills₄ rfl rfl (fun i _ => (pageEntry_pml2 i).symm) (by omega)

/-! ## Entries by bits -/

/-- The number in an entry whose upper half is zero. -/
theorem toNat_zero_append (low : BitVec 32) : (0#32 ++ low).toNat = low.toNat := by
  rw [toNat_append_add, BitVec.toNat_ofNat, Nat.zero_mod, Nat.zero_mul, Nat.zero_add]

theorem toNat_pml4Entry : (pml4Entry 0).toNat = 0x11000 + 7 := by decide

theorem toNat_pml3Entry {i : ℕ} (h : i < 64) :
    (pml3Entry i).toNat = (0x12 + i) * 2 ^ 12 + 7 := by
  have hor : ((BitVec.ofNat 32 i <<< 12) + pml2Location).toNat = (0x12 + i) * 2 ^ 12 := by
    rw [BitVec.toNat_add, BitVec.toNat_shiftLeft, BitVec.toNat_ofNat, Nat.shiftLeft_eq,
      show pml2Location.toNat = 0x12000 from rfl]
    omega
  rw [pml3Entry, if_pos h, toNat_zero_append, BitVec.toNat_or, hor, ← Nat.shiftLeft_eq,
    show (7 : BitVec 32).toNat = 7 from rfl, ← Nat.shiftLeft_add_eq_or_of_lt (by omega)]

theorem toNat_pml2Entry (i : ℕ) : (pml2Entry i).toNat = i % 2 ^ 11 * 2 ^ 21 + 0x87 := by
  have hshift : (BitVec.ofNat 32 i <<< 21).toNat = i % 2 ^ 11 * 2 ^ 21 := by
    rw [BitVec.toNat_shiftLeft, BitVec.toNat_ofNat, Nat.shiftLeft_eq]
    omega
  rw [pml2Entry, toNat_zero_append, BitVec.toNat_or, hshift, ← Nat.shiftLeft_eq,
    show (0x87 : BitVec 32).toNat = 0x87 from rfl, ← Nat.shiftLeft_add_eq_or_of_lt (by omega)]

theorem entryPresent_eq (e : BitVec 64) : entryPresent e = decide (e.toNat % 2 = 1) := by
  unfold entryPresent
  rw [← BitVec.testBit_toNat, Nat.testBit_zero]

theorem entryWriteable_eq (e : BitVec 64) :
    entryWriteable e = decide (e.toNat / 2 ^ 1 % 2 = 1) := by
  unfold entryWriteable
  rw [← BitVec.testBit_toNat, Nat.testBit_eq_decide_div_mod_eq]

theorem entryLarge_eq (e : BitVec 64) : entryLarge e = decide (e.toNat / 2 ^ 7 % 2 = 1) := by
  unfold entryLarge
  rw [← BitVec.testBit_toNat, Nat.testBit_eq_decide_div_mod_eq]

theorem not_present_pml4Entry {i : ℕ} (h : i ≠ 0) : entryPresent (pml4Entry i) = false := by
  rw [pml4Entry, if_neg h]
  rfl

theorem not_present_pml3Entry {i : ℕ} (h : 64 ≤ i) : entryPresent (pml3Entry i) = false := by
  rw [pml3Entry, if_neg (by omega)]
  rfl

/-! ## The walk -/

section Walk

variable {mem mem' : Mem 52} (h : Fills mem mem' 0x10000 33792 pageEntry) (v : BitVec 64)

include h

/-- A lookup finds its entry of the array. -/
theorem tableEntry_eq {table : ℕ} (j bit : ℕ) (htable : table = 0x10000 + 8 * j)
    (hj : j + v.toNat / 2 ^ bit % 512 < 33792) :
    tableEntry mem' (BitVec.ofNat 52 table) v bit
      = if entryPresent (pageEntry (j + v.toNat / 2 ^ bit % 512))
        then some (pageEntry (j + v.toNat / 2 ^ bit % 512)) else none := by
  unfold tableEntry
  rw [htable, ← BitVec.ofNat_add, Nat.add_assoc, ← Nat.mul_add, h.entries _ hj]

theorem tableEntry_pml4 (hv : v.toNat / 2 ^ 39 % 512 = 0) :
    tableEntry mem' (pml4Location.setWidth 52) v 39 = some (pml4Entry 0) := by
  have hpresent : entryPresent (pml4Entry 0) = true := by
    rw [entryPresent_eq, toNat_pml4Entry]
    rfl
  have hentry := tableEntry_eq h v 0 39 rfl (by omega)
  rw [hv, Nat.add_zero, pageEntry_pml4 (by omega), if_pos hpresent] at hentry
  exact hentry

theorem tableEntry_pml3 (hv : v.toNat / 2 ^ 30 % 512 < 64) :
    tableEntry mem' (entryTable (pml4Entry 0)) v 30
      = some (pml3Entry (v.toNat / 2 ^ 30 % 512)) := by
  have hpresent : entryPresent (pml3Entry (v.toNat / 2 ^ 30 % 512)) = true := by
    rw [entryPresent_eq, toNat_pml3Entry hv, decide_eq_true_iff]
    omega
  have hentry := tableEntry_eq h v 512 30 rfl (by omega)
  rw [pageEntry_pml3 (by omega), if_pos hpresent] at hentry
  unfold entryTable
  rw [toNat_pml4Entry]
  exact hentry

theorem tableEntry_pml2 {i : ℕ} (hi : i < 64) :
    tableEntry mem' (entryTable (pml3Entry i)) v 21
      = some (pml2Entry (512 * i + v.toNat / 2 ^ 21 % 512)) := by
  have hpresent : entryPresent (pml2Entry (512 * i + v.toNat / 2 ^ 21 % 512)) = true := by
    rw [entryPresent_eq, toNat_pml2Entry, decide_eq_true_iff]
    omega
  have htable : (pml3Entry i).toNat / 2 ^ 12 * 2 ^ 12 = 0x10000 + 8 * (1024 + 512 * i) := by
    rw [toNat_pml3Entry hi]
    omega
  have hentry := tableEntry_eq h v _ 21 htable (by omega)
  rw [Nat.add_assoc, pageEntry_pml2, if_pos hpresent] at hentry
  exact hentry

/-- Below 64 GB the walk comes to the byte of the first 4 GB with the same low bits. -/
theorem walk_mapped (hv : v.toNat < 2 ^ 36) :
    walk mem' (pml4Location.setWidth 52) v
      = some { phys := BitVec.ofNat 52 (v.toNat % 2 ^ 32), writeable := true } := by
  have hcanonical : canonical v = true := by
    unfold canonical
    rw [decide_eq_true (by omega), Bool.true_or]
  have hthree : v.toNat / 2 ^ 30 % 512 < 64 := by omega
  have hindex : 512 * (v.toNat / 2 ^ 30 % 512) + v.toNat / 2 ^ 21 % 512 = v.toNat / 2 ^ 21 := by
    omega
  have hsmall : entryLarge (pml3Entry (v.toNat / 2 ^ 30 % 512)) = false := by
    rw [entryLarge_eq, toNat_pml3Entry hthree, decide_eq_false_iff_not]
    omega
  have hlarge : entryLarge (pml2Entry (v.toNat / 2 ^ 21)) = true := by
    rw [entryLarge_eq, toNat_pml2Entry, decide_eq_true_iff]
    omega
  have hw4 : entryWriteable (pml4Entry 0) = true := by
    rw [entryWriteable_eq, toNat_pml4Entry]
    rfl
  have hw3 : entryWriteable (pml3Entry (v.toNat / 2 ^ 30 % 512)) = true := by
    rw [entryWriteable_eq, toNat_pml3Entry hthree, decide_eq_true_iff]
    omega
  have hw2 : entryWriteable (pml2Entry (v.toNat / 2 ^ 21)) = true := by
    rw [entryWriteable_eq, toNat_pml2Entry, decide_eq_true_iff]
    omega
  have hbyte : entryByte (pml2Entry (v.toNat / 2 ^ 21)) v 21
      = BitVec.ofNat 52 (v.toNat % 2 ^ 32) := by
    unfold entryByte
    rw [toNat_pml2Entry]
    congr 1
    omega
  unfold walk
  rw [if_pos hcanonical, tableEntry_pml4 h v (by omega), Option.bind_some,
    tableEntry_pml3 h v hthree, Option.bind_some, if_neg (by rw [hsmall]; exact Bool.false_ne_true),
    tableEntry_pml2 h v hthree, Option.bind_some, hindex]
  simp only [hlarge, hw4, hw3, hw2, hbyte, Bool.and_self, if_true]

/-- From 64 GB on no page is present. -/
theorem walk_unmapped (hv : 2 ^ 36 ≤ v.toNat) : walk mem' (pml4Location.setWidth 52) v = none := by
  unfold walk
  split_ifs with hcanonical
  · by_cases hfour : v.toNat / 2 ^ 39 % 512 = 0
    · have hthree : 64 ≤ v.toNat / 2 ^ 30 % 512 := by
        unfold canonical at hcanonical
        rw [Bool.or_eq_true, decide_eq_true_iff, decide_eq_true_iff] at hcanonical
        omega
      have hentry := tableEntry_eq h v 512 30 rfl (by omega)
      rw [pageEntry_pml3 (by omega), not_present_pml3Entry hthree] at hentry
      have htable : entryTable (pml4Entry 0) = BitVec.ofNat 52 0x11000 := by
        unfold entryTable
        rw [toNat_pml4Entry]
        rfl
      rw [tableEntry_pml4 h v hfour, Option.bind_some, htable, hentry]
      rfl
    · have hentry := tableEntry_eq h v 0 39 rfl (by omega)
      rw [Nat.zero_add, pageEntry_pml4 (by omega), not_present_pml4Entry hfour] at hentry
      exact (congrArg (Option.bind · _) hentry).trans rfl
  · rfl

end Walk

/-- What a pointer of the x64 part reaches is what the tables map, read as 32 bits. -/
theorem phys_flat64 {mem mem' : Mem 52} (h : jmpX64Tables mem = some mem') (rbx : BitVec 64) :
    (Pointer.flat64 rbx).phys
      = (walk mem' (pml4Location.setWidth 52) rbx).map fun page => page.phys.setWidth 32 := by
  obtain ⟨mem'', hbuilt, hfills⟩ := jmpX64Tables_fills mem
  obtain rfl : mem' = mem'' := Option.some.inj (h.symm.trans hbuilt)
  unfold Pointer.phys
  simp only []
  split_ifs with hlow
  · rw [walk_mapped hfills rbx hlow, Option.map_some, BitVec.setWidth_ofNat_of_le (by omega)]
    congr 1
    apply BitVec.eq_of_toNat_eq
    rw [BitVec.toNat_setWidth, BitVec.toNat_ofNat, Nat.mod_mod]
  · rw [walk_unmapped hfills rbx (by omega), Option.map_none]

/-- The tables are built for every memory; they map an address below 64 GB to itself exactly when it
lies below 4 GB.  What they leave unmapped is not present, and no byte outside the area that LOW
reports is touched. -/
theorem jmpX64_maps_iff (mem : Mem 52) :
    ∃ mem', jmpX64Tables mem = some mem'
      ∧ (∀ v : BitVec 64, v.toNat < 2 ^ 36 →
        (walk mem' (pml4Location.setWidth 52) v
          = some { phys := v.setWidth 52, writeable := true } ↔ v.toNat < 2 ^ 32))
      ∧ (∀ i < 512, 1 ≤ i →
        entryPresent (qwordAt mem' (BitVec.ofNat 52 (pml4Location.toNat + 8 * i))) = false)
      ∧ (∀ i < 512, 64 ≤ i →
        entryPresent (qwordAt mem' (BitVec.ofNat 52 (pml3Location.toNat + 8 * i))) = false)
      ∧ ∀ a : BitVec 52, a.toNat < pml4Location.toNat ∨ finalLow.toNat ≤ a.toNat →
        mem' a = mem a := by
  obtain ⟨mem', hbuilt, hfills⟩ := jmpX64Tables_fills mem
  refine ⟨mem', hbuilt, ?_, ?_, ?_, ?_⟩
  · intro v hv
    rw [walk_mapped hfills v hv, Option.some.injEq, Page.mk.injEq, eq_self_iff_true, and_true,
      ← BitVec.toNat_inj, BitVec.toNat_ofNat, BitVec.toNat_setWidth]
    omega
  · intro i hi hpos
    have hentry := hfills.entries i (by omega)
    rw [pageEntry_pml4 hi] at hentry
    rw [← not_present_pml4Entry (by omega : i ≠ 0), ← hentry]
    rfl
  · intro i hi hhigh
    have hentry := hfills.entries (512 + i) (by omega)
    rw [pageEntry_pml3 hi, Nat.mul_add, ← Nat.add_assoc] at hentry
    rw [← not_present_pml3Entry hhigh, ← hentry]
    rfl
  · intro a ha
    refine hfills.frame a (ha.imp id fun hge => ?_)
    exact hge

/-- At 4 GB the first byte of memory is mapped. -/
theorem jmpX64_4G_maps_zero :
    ∃ mem', jmpX64Tables (fun _ => 0) = some mem'
      ∧ walk mem' (pml4Location.setWidth 52) (BitVec.ofNat 64 (2 ^ 32))
        = some { phys := 0, writeable := true } := by
  obtain ⟨mem', hbuilt, hfills⟩ := jmpX64Tables_fills fun _ => 0
  exact ⟨mem', hbuilt, walk_mapped hfills _ (by decide)⟩

end RemoteX86
