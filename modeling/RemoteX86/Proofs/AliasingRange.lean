import RemoteX86.Proofs.Aliasing

/-!
# Which addresses the aliasing tests read

Downward scans and those by the upper aliases stay within the address bits.  The others count up to 31
bits whatever the machine has, so on one with 24 bits they stay within them only if they find a match
in time.
-/

namespace RemoteX86

open Hex Asking

section Loops

variable {P : BitVec 64 → Prop} {read : BitVec 64 → Option (List Byte)} {bits : ℕ} {ref : List Byte}
  {addr : ℕ → BitVec 64}

theorem downwardLoop_inside : ∀ n, 21 ≤ n → (∀ j, 21 ≤ j → j ≤ n → P (addr j)) →
    (downwardLoop read bits ref addr n).Inside P
  | 0, hn, _ => absurd hn (by decide)
  | n + 1, hn, h => by
    rw [downwardLoop, inside_bind, inside_ask]
    refine ⟨h _ hn le_rfl, fun b _ => ?_⟩
    split_ifs with hsame hlast
    · exact inside_pure _
    · exact inside_pure _
    · exact downwardLoop_inside n (by omega) fun j hj hjn => h j hj (by omega)

theorem downwardLoop_answered (hread : ∀ a, P a → ∃ b, read a = some b) : ∀ n,
    (downwardLoop read bits ref addr n).Answered P
  | 0 => answered_pure _
  | n + 1 => by
    rw [downwardLoop]
    refine Answered.bind (answered_ask (hread _)) fun b => ?_
    split_ifs
    · exact answered_pure _
    · exact answered_pure _
    · exact downwardLoop_answered hread n

theorem Upward.answered {found : ℕ → ℕ} {loop : ℕ → ℕ → Asking (BitVec 64) ℕ}
    (hloop : Upward read bits ref addr found loop) (hread : ∀ a, P a → ∃ b, read a = some b) :
    ∀ left n, left + n ≤ 32 → (loop left n).Answered P
  | 0, n, _ => by
    rw [hloop.stop]
    exact answered_pure _
  | left + 1, n, hn => by
    rw [hloop.turn left n (by omega)]
    refine Answered.bind (answered_ask (hread _)) fun b => ?_
    split_ifs
    · exact answered_pure _
    · exact answered_pure _
    · exact Upward.answered hloop hread left (n + 1) (by omega)

/-- A search upward through addresses that have the property below `limit` stays there if it ends in
time or there is no limit for it. -/
theorem Upward.inside_iff {found : ℕ → ℕ} {loop : ℕ → ℕ → Asking (BitVec 64) ℕ}
    (hloop : Upward read bits ref addr found loop) (limit : ℕ) (blk : ℕ → List Byte) :
    ∀ left n, left + n = 32 → n < 32 → (∀ j, n ≤ j → j < 32 → (P (addr j) ↔ j < limit)) →
      (∀ j, n ≤ j → j < 32 → j < limit → read (addr j) = some (blk j)) →
      ((loop left n).Inside P ↔ 32 ≤ limit ∨ ∃ j, n ≤ j ∧ j < limit ∧ blk j = ref)
  | 0, n, hn, hlt, _, _ => by omega
  | left + 1, n, hn, hlt, hP, hread => by
    rw [hloop.turn left n (by omega), inside_bind, inside_ask, hP n le_rfl hlt]
    by_cases hlimit : n < limit
    · have hb := hread n le_rfl hlt hlimit
      have hone : (∀ b, (ask read (addr n)).result = some b →
          (if b = ref then pure (found n) else if 32 ≤ n + 1 then pure bits
            else loop left (n + 1)).Inside P)
          ↔ (if blk n = ref then pure (found n) else if 32 ≤ n + 1 then pure bits
            else loop left (n + 1) : Asking (BitVec 64) ℕ).Inside P := by
        refine ⟨fun h => h _ hb, fun h b hb' => ?_⟩
        rw [result_ask, hb] at hb'
        exact Option.some.inj hb' ▸ h
      rw [hone]
      by_cases hsame : blk n = ref
      · rw [if_pos hsame]
        exact iff_of_true ⟨hlimit, inside_pure _⟩ (.inr ⟨n, le_rfl, hlimit, hsame⟩)
      · rw [if_neg hsame]
        by_cases hlast : 32 ≤ n + 1
        · rw [if_pos hlast]
          exact iff_of_true ⟨hlimit, inside_pure _⟩ (.inl (by omega))
        · rw [if_neg hlast, Upward.inside_iff hloop limit blk left (n + 1) (by omega) (by omega)
            (fun j hj => hP j (by omega)) (fun j hj => hread j (by omega)), and_iff_right hlimit]
          refine or_congr_right ⟨?_, ?_⟩
          · rintro ⟨j, hj, hjl, hjb⟩
            exact ⟨j, by omega, hjl, hjb⟩
          · rintro ⟨j, hj, hjl, hjb⟩
            have hne : j ≠ n := by
              rintro rfl
              exact hsame hjb
            exact ⟨j, by omega, hjl, hjb⟩
    · refine iff_of_false (fun h => hlimit h.1) ?_
      rintro (h | ⟨j, hj, hjl, -⟩) <;> omega

end Loops

/-! ## Addresses -/

section Addresses

variable {bits : ℕ} (hbits : bits = 24 ∨ bits = 32)

include hbits

omit hbits in
theorem addressable_topBlock_iff {n : ℕ} (hn : 9 ≤ n) (hn33 : n < 33) :
    Addressable bits (topBlock n) ↔ n ≤ bits := by
  have hsmall : 512 ≤ 2 ^ n := Nat.pow_le_pow_right (n := 2) (by omega) hn
  rw [Addressable, toNat_topBlock n hn33 hn, Nat.sub_add_cancel hsmall]
  exact Nat.pow_le_pow_iff_right (by omega)

theorem addressable_region {base : BitVec 64} (hbase : base ∈ regions) : Addressable bits base := by
  have hsmall := (regions_facts hbase).1
  have hpow : 2 ^ 21 ≤ 2 ^ bits := Nat.pow_le_pow_right (by omega) (by omega)
  exact hsmall.trans hpow

theorem addressable_upperAlias {base : BitVec 64} (hbase : base ∈ regions) {n : ℕ} (hn : 21 ≤ n)
    (hn32 : n < 32) : Addressable bits (upperAlias bits base n) := by
  have hsmall := (regions_facts hbase).1
  have hlow : 2 ^ 21 ≤ 2 ^ min n bits := Nat.pow_le_pow_right (by omega) (by omega)
  have hhigh : 2 ^ min n bits ≤ 2 ^ bits := Nat.pow_le_pow_right (by omega) (min_le_right _ _)
  rw [Addressable, toNat_upperAlias hbits hbase hn32]
  omega

omit hbits in
theorem addressable_lowerAlias_iff {base : BitVec 64} (hbase : base ∈ regions) {n : ℕ}
    (hn : 21 ≤ n) (hn32 : n < 32) : Addressable bits (lowerAlias base n) ↔ n < bits := by
  have hsmall := (regions_facts hbase).1
  have hlow : 2 ^ 21 ≤ 2 ^ n := Nat.pow_le_pow_right (by omega) hn
  rw [Addressable, toNat_lowerAlias hbase hn32]
  constructor
  · intro h
    by_contra hle
    have hhigh : 2 ^ bits ≤ 2 ^ n := Nat.pow_le_pow_right (by omega) (by omega)
    omega
  · intro h
    have hhigh : 2 ^ (n + 1) ≤ 2 ^ bits := Nat.pow_le_pow_right (by omega) h
    rw [Nat.pow_succ] at hhigh
    omega

end Addresses

/-! ## The scans -/

section Scans

variable {bits : ℕ} {mem : ℕ → Byte} {beyond : BitVec 64 → Option (List Byte)}

theorem answers_of_addressable {a : BitVec 64} (h : Addressable bits a) :
    answers bits mem beyond a = some (block mem a.toNat) := if_pos h

theorem answers_some {a : BitVec 64} (h : Addressable bits a) :
    ∃ b, answers bits mem beyond a = some b := ⟨_, answers_of_addressable h⟩

variable (mem beyond) (hbits : bits = 24 ∨ bits = 32)

include hbits

theorem upperBiosDownward_inside :
    (upperBiosDownward (answers bits mem beyond) bits).Inside (Addressable bits)
      ∧ (upperBiosDownward (answers bits mem beyond) bits).Answered (Addressable bits) := by
  rw [upperBiosDownward_eq _ _ (by omega) (by omega)]
  constructor
  · rw [inside_bind, inside_ask, addressable_topBlock_iff (by omega) (by omega)]
    exact ⟨le_rfl, fun hirom _ => downwardLoop_inside _ (by omega) fun j hj hjn =>
      (addressable_topBlock_iff (by omega) (by omega)).2 (by omega)⟩
  · exact (answered_ask answers_some).bind fun _ => downwardLoop_answered (fun _ => answers_some) _

theorem downwardScan_inside {base : BitVec 64} (hbase : base ∈ regions) :
    (downwardScan (answers bits mem beyond) bits base).Inside (Addressable bits)
      ∧ (downwardScan (answers bits mem beyond) bits base).Answered (Addressable bits) := by
  constructor
  · rw [downwardScan, inside_bind, inside_ask]
    refine ⟨addressable_region hbits hbase, fun ref _ => ?_⟩
    rw [inside_bind]
    refine ⟨downwardLoop_inside _ (by omega) fun j hj hjn =>
      addressable_upperAlias hbits hbase hj (by omega), fun upper _ => ?_⟩
    rw [inside_bind]
    exact ⟨downwardLoop_inside _ (by omega) fun j hj hjn =>
      (addressable_lowerAlias_iff hbase hj (by omega)).2 (by omega), fun lower _ => inside_pure _⟩
  · exact (answered_ask answers_some).bind fun _ =>
      (downwardLoop_answered (fun _ => answers_some) _).bind fun _ =>
      (downwardLoop_answered (fun _ => answers_some) _).bind fun _ => answered_pure _

theorem upperBiosUpward_inside_iff :
    ((upperBiosUpward (answers bits mem beyond) bits).Inside (Addressable bits)
        ↔ bits = 32 ∨ UpperBiosRepeats mem)
      ∧ (upperBiosUpward (answers bits mem beyond) bits).Answered (Addressable bits) := by
  have hloop := fun hirom => upward_upperBiosUpwardLoop (answers bits mem beyond) bits hirom
  have haddr : ∀ j, 21 ≤ j → j < 32 → (Addressable bits (topBlock j) ↔ j < bits + 1) :=
    fun j hj hj32 => (addressable_topBlock_iff (by omega) (by omega)).trans Nat.lt_succ_iff.symm
  have hbase : Addressable bits (topBlock 20) :=
    (addressable_topBlock_iff (by omega) (by omega)).2 (by omega)
  constructor
  · have hiff := (hloop (block mem (topBlock 20).toNat)).inside_iff (bits + 1)
      (fun j => block mem (topBlock j).toNat) 11 21 rfl (by omega) haddr
      fun j hj hj32 hlt => answers_of_addressable ((haddr j hj hj32).2 hlt)
    have hall : (upperBiosUpward (answers bits mem beyond) bits).Inside (Addressable bits)
        ↔ 32 ≤ bits + 1 ∨ ∃ j, 21 ≤ j ∧ j < bits + 1
          ∧ block mem (topBlock j).toNat = block mem (topBlock 20).toNat := by
      rw [← hiff, upperBiosUpward, show (1#64 <<< 20) - 512 = topBlock 20 from rfl,
        inside_ask_bind (answers_of_addressable hbase)]
      exact and_iff_right hbase
    rw [hall, toNat_topBlock 20 (by omega) (by omega)]
    rcases hbits with rfl | rfl
    · refine ⟨?_, ?_⟩
      · rintro (h | ⟨j, hj, hj25, hsame⟩)
        · omega
        · rw [toNat_topBlock j (by omega) (by omega)] at hsame
          exact .inr ⟨j, hj, by omega, hsame⟩
      · rintro (h | ⟨j, hj, hj24, hsame⟩)
        · omega
        · refine .inr ⟨j, hj, by omega, ?_⟩
          rw [toNat_topBlock j (by omega) (by omega)]
          exact hsame
    · exact iff_of_true (.inl (by omega)) (.inl rfl)
  · exact (answered_ask answers_some).bind fun _ =>
      (hloop _).answered (fun _ => answers_some) 11 21 le_rfl

theorem upwardScan_inside_iff {base : BitVec 64} (hbase : base ∈ regions) :
    ((upwardScan (answers bits mem beyond) bits base).Inside (Addressable bits)
        ↔ bits = 32 ∨ RegionRepeats mem base.toNat)
      ∧ (upwardScan (answers bits mem beyond) bits base).Answered (Addressable bits) := by
  have hread : answers bits mem beyond base = some (block mem base.toNat) :=
    answers_of_addressable (addressable_region hbits hbase)
  have hupper := upward_upwardLoop (answers bits mem beyond) bits (block mem base.toNat)
    (upperAlias bits base)
  have hlower := upward_upwardLoop (answers bits mem beyond) bits (block mem base.toNat)
    (lowerAlias base)
  have haddr : ∀ j, 21 ≤ j → j < 32 → (Addressable bits (lowerAlias base j) ↔ j < bits) :=
    fun j hj hj32 => addressable_lowerAlias_iff hbase hj hj32
  constructor
  · have hin : (upwardLoop (answers bits mem beyond) bits (block mem base.toNat)
        (upperAlias bits base) 11 21).Inside (Addressable bits) := by
      refine (hupper.inside_iff 32 (fun j => block mem (upperAlias bits base j).toNat) 11 21 rfl
        (by omega) (fun j hj hj32 => ?_) fun j hj hj32 _ => ?_).2 (.inl le_rfl)
      · exact iff_of_true (addressable_upperAlias hbits hbase hj hj32) hj32
      · exact answers_of_addressable (addressable_upperAlias hbits hbase hj hj32)
    obtain ⟨upper, hresult⟩ := hupper.answered (fun _ => answers_some) 11 21 le_rfl hin
    have hiff := hlower.inside_iff bits (fun j => block mem (lowerAlias base j).toNat) 11 21 rfl
      (by omega) haddr fun j hj hj32 hlt => answers_of_addressable ((haddr j hj hj32).2 hlt)
    have hall : (upwardScan (answers bits mem beyond) bits base).Inside (Addressable bits)
        ↔ 32 ≤ bits ∨ ∃ j, 21 ≤ j ∧ j < bits
          ∧ block mem (lowerAlias base j).toNat = block mem base.toNat := by
      rw [← hiff, upwardScan, inside_ask_bind hread, and_iff_right (addressable_region hbits hbase),
        inside_bind, and_iff_right hin]
      refine ⟨fun h => ((inside_bind _ _).1 (h upper hresult)).1, fun h upper _ => ?_⟩
      exact (inside_bind _ _).2 ⟨h, fun lower _ => inside_pure _⟩
    rw [hall]
    rcases hbits with rfl | rfl
    · refine ⟨?_, ?_⟩
      · rintro (h | ⟨j, hj, hj24, hsame⟩)
        · omega
        · rw [toNat_lowerAlias hbase (by omega)] at hsame
          exact .inr ⟨j, hj, by omega, hsame⟩
      · rintro (h | ⟨j, hj, hj23, hsame⟩)
        · omega
        · refine .inr ⟨j, hj, by omega, ?_⟩
          rw [toNat_lowerAlias hbase (by omega)]
          exact hsame
    · exact iff_of_true (.inl le_rfl) (.inl rfl)
  · exact (answered_ask answers_some).bind fun _ =>
      ((upward_upwardLoop _ _ _ _).answered (fun _ => answers_some) 11 21 le_rfl).bind fun _ =>
      ((upward_upwardLoop _ _ _ _).answered (fun _ => answers_some) 11 21 le_rfl).bind fun _ =>
      answered_pure _

theorem extmemDownward_inside (dosmem extmem : ℕ) :
    (extmemDownward (answers bits mem beyond) bits dosmem extmem).Inside (Addressable bits)
      ∧ (extmemDownward (answers bits mem beyond) bits dosmem extmem).Answered (Addressable bits) := by
  obtain ⟨hin, hanswered⟩ := downwardScan_inside mem beyond hbits
    (show extendedMemory ∈ regions by simp [regions])
  rw [extmemDownward]
  split_ifs
  · exact ⟨(inside_bind _ _).2 ⟨hin, fun _ _ => inside_pure _⟩, hanswered.bind fun _ => answered_pure _⟩
  · exact ⟨inside_pure _, answered_pure _⟩

variable {mem beyond}

/-- The tests read below the limit, and then they are not aborted, on a machine with 32 address bits; on
one with 24 exactly if every upward scan that counts past them finds a match in time. -/
theorem readsAddressable_iff {cpu : X86TestResults} (hcpu : cpu.maxBasicMemoryAddressBits = bits) :
    ((runMemoryAliasingTests (answers bits mem beyond) cpu).Inside (Addressable bits)
        ↔ cpu.std0to4EflagsRevision < 2 ∨ bits = 32 ∨ UpperBiosRepeats mem
          ∧ ∀ base ∈ [legacyBios, vgaDisplay, dosMemory, extendedMemory],
            RegionRepeats mem base.toNat)
      ∧ ((runMemoryAliasingTests (answers bits mem beyond) cpu).Inside (Addressable bits) →
        ∃ r, (runMemoryAliasingTests (answers bits mem beyond) cpu).result = some r) := by
  rw [runMemoryAliasingTests, hcpu]
  by_cases hrev : cpu.std0to4EflagsRevision < 2
  · rw [if_pos hrev]
    exact ⟨iff_of_true (inside_pure _) (.inl hrev), fun _ => ⟨_, rfl⟩⟩
  · rw [if_neg hrev, if_neg (by omega), or_iff_right hrev]
    have hdown := fun {base : BitVec 64} (hbase : base ∈ regions) =>
      downwardScan_inside mem beyond hbits hbase
    have hup := fun {base : BitVec 64} (hbase : base ∈ regions) =>
      upwardScan_inside_iff mem beyond hbits hbase
    have hlegacy : legacyBios ∈ regions := by simp [regions]
    have hvga : vgaDisplay ∈ regions := by simp [regions]
    have hdos : dosMemory ∈ regions := by simp [regions]
    have hext : extendedMemory ∈ regions := by simp [regions]
    obtain ⟨hbios, hbios'⟩ := upperBiosDownward_inside mem beyond hbits
    obtain ⟨hbiosUw, hbiosUw'⟩ := upperBiosUpward_inside_iff mem beyond hbits
    have hextdown := extmemDownward_inside mem beyond hbits
    constructor
    · refine (hbios'.inside_bind_iff_of_inside hbios fun _ => hbiosUw'.inside_bind_iff fun _ =>
        (hdown hlegacy).2.inside_bind_iff_of_inside (hdown hlegacy).1 fun _ =>
        (hup hlegacy).2.inside_bind_iff fun _ =>
        (hdown hvga).2.inside_bind_iff_of_inside (hdown hvga).1 fun _ =>
        (hup hvga).2.inside_bind_iff fun _ =>
        (hdown hdos).2.inside_bind_iff_of_inside (hdown hdos).1 fun _ =>
        (hup hdos).2.inside_bind_iff fun _ =>
        (hextdown _ _).2.inside_bind_iff_of_inside (hextdown _ _).1 fun _ =>
        (hup hext).2.inside_bind_iff fun _ => iff_true_intro (inside_pure _)).trans ?_
      rw [hbiosUw, (hup hlegacy).1, (hup hvga).1, (hup hdos).1, (hup hext).1, and_true]
      simp only [← or_and_left, List.forall_mem_cons, List.not_mem_nil, IsEmpty.forall_iff,
        implies_true, and_true]
    · exact hbios'.bind fun _ => hbiosUw'.bind fun _ => (hdown hlegacy).2.bind fun _ =>
        (hup hlegacy).2.bind fun _ => (hdown hvga).2.bind fun _ => (hup hvga).2.bind fun _ =>
        (hdown hdos).2.bind fun _ => (hup hdos).2.bind fun _ => (hextdown _ _).2.bind fun _ =>
        (hup hext).2.bind fun _ => answered_pure _

end Scans

/-- What a 286 has before the tests. -/
def untested286 : X86TestResults :=
  { untested with std0to4EflagsRevision := 2, maxBasicMemoryAddressBits := 24 }

/-- On a 286 with the same byte everywhere. -/
theorem readsAddressable_iff_286 :
    (runMemoryAliasingTests (answers 24 (fun _ => 0) fun _ => none) untested286).Inside
      (Addressable 24) :=
  (readsAddressable_iff (.inl rfl) rfl).1.2 (.inr (.inr ⟨⟨21, by decide, by decide, rfl⟩,
    fun _ _ => ⟨21, by decide, by decide, rfl⟩⟩))

/-- Where every block of a 286 is another, the topmost BIOS is looked for at 32 MB, which is refused. -/
theorem not_readsAddressable_286 :
    let r := runMemoryAliasingTests (answers 24 numberedBlocks fun _ => none) untested286
    ¬ r.Inside (Addressable 24) ∧ r.result = none := by
  decide +kernel

end RemoteX86
