import RemoteX86.Alloc
import RemoteX86.Proofs.Replies

/-!
# LOW is above everything allocated

As long as the calls add up to less than 4 GB, `alloc` and the blocks are those of a region whose
addresses have no end, where blocks lie one behind another.
-/

namespace RemoteX86

open Hex

/-! ## Rounding up -/

/-- To clear the bits below `k` is to go down to a multiple of `2 ^ k`. -/
theorem and_not_mask (x : BitVec 32) (k : Fin 32) :
    (x &&& ~~~((1 : BitVec 32) <<< k.val - 1)).toNat = x.toNat / 2 ^ k.val * 2 ^ k.val := by
  have hpow : 2 ^ k.val < 2 ^ 32 := Nat.pow_lt_pow_right (by decide) k.isLt
  have hmask : ((1 : BitVec 32) <<< k.val - 1) = BitVec.ofNat 32 (2 ^ k.val - 1) := by
    apply BitVec.eq_of_toNat_eq
    have hpos := Nat.two_pow_pos k.val
    have hone : (1 : BitVec 32).toNat = 1 := rfl
    rw [BitVec.toNat_sub, BitVec.toNat_shiftLeft, hone, Nat.one_shiftLeft, BitVec.toNat_ofNat]
    omega
  have hshift : x &&& ~~~(BitVec.ofNat 32 (2 ^ k.val - 1)) = x >>> k.val <<< k.val := by
    refine BitVec.eq_of_getLsbD_eq fun i hi => ?_
    simp only [BitVec.getLsbD_and, BitVec.getLsbD_not, BitVec.getLsbD_ofNat, hi,
      Nat.testBit_two_pow_sub_one, BitVec.getLsbD_shiftLeft, BitVec.getLsbD_ushiftRight]
    rcases Nat.lt_or_ge i k.val with hik | hik
    · simp [hik]
    · have hnot : ¬ i < k.val := by omega
      simp [hnot, show k.val + (i - k.val) = i by omega]
  have hle : x.toNat / 2 ^ k.val * 2 ^ k.val ≤ x.toNat := Nat.div_mul_le_self _ _
  have hx := x.isLt
  rw [hmask, hshift, BitVec.toNat_shiftLeft, BitVec.toNat_ushiftRight, Nat.shiftRight_eq_div_pow,
    Nat.shiftLeft_eq, Nat.mod_eq_of_lt (by omega)]

/-- Where the result is an address, nothing overflows on the way. -/
theorem toNat_alignAlloc {alloc : BitVec 32} {k : Fin 32}
    (h : Bump.roundUp alloc.toNat (2 ^ k.val) < 2 ^ 32) :
    (alignAlloc alloc ((1 : BitVec 32) <<< k.val)).toNat = Bump.roundUp alloc.toNat (2 ^ k.val) := by
  have hpos := Nat.two_pow_pos k.val
  have hpow : 2 ^ k.val < 2 ^ 32 := Nat.pow_lt_pow_right (by decide) k.isLt
  have hle := Bump.le_roundUp alloc.toNat hpos
  have hfit : alloc.toNat + 2 ^ k.val ≤ 2 ^ 32 := by
    obtain ⟨q, hq⟩ := Bump.dvd_roundUp alloc.toNat (2 ^ k.val)
    obtain ⟨q', hq'⟩ : 2 ^ k.val ∣ 2 ^ 32 := Nat.pow_dvd_pow 2 k.isLt.le
    rw [hq, hq'] at h
    have hlt : q < q' := Nat.lt_of_mul_lt_mul_left h
    have hmul := Nat.mul_le_mul_left (2 ^ k.val) hlt
    rw [Nat.mul_succ, ← hq, ← hq'] at hmul
    omega
  have hone : (1 : BitVec 32).toNat = 1 := rfl
  have hsum : (alloc + (1 : BitVec 32) <<< k.val - 1).toNat = alloc.toNat + 2 ^ k.val - 1 := by
    rw [BitVec.toNat_sub, BitVec.toNat_add, BitVec.toNat_shiftLeft, hone, Nat.one_shiftLeft]
    omega
  rw [alignAlloc, and_not_mask, hsum, Bump.roundUp]

/-! ## The heap follows a region -/

/-- The same top and the same blocks. -/
structure Heap.Follows (h : Heap) (r : Bump.Region) : Prop where
  top : h.alloc.toNat = r.top
  blocks : h.blocks.map (fun b => ⟨b.1.toNat, b.2.toNat⟩) = r.blocks

variable {h : Heap} {r : Bump.Region}

theorem Heap.Follows.call (hf : h.Follows r) {c : AllocCall} (hlt : (r.step c.bump).top < 2 ^ 32) :
    (h.call c).Follows (r.step c.bump) := by
  cases c with
  | doAlloc n =>
    have htop : r.top + n.toNat < 2 ^ 32 := hlt
    refine ⟨?_, ?_⟩
    · change (h.alloc + n).toNat = r.top + n.toNat
      rw [BitVec.toNat_add, hf.top, Nat.mod_eq_of_lt htop]
    · change (h.blocks ++ [(h.alloc, n)]).map _ = r.blocks ++ [⟨r.top, n.toNat⟩]
      rw [List.map_append, hf.blocks, ← hf.top]
      rfl
  | alignAlloc k =>
    have htop : Bump.roundUp h.alloc.toNat (2 ^ k.val) < 2 ^ 32 := by
      rw [hf.top]
      exact hlt
    refine ⟨?_, hf.blocks⟩
    change (alignAlloc h.alloc ((1 : BitVec 32) <<< k.val)).toNat = Bump.roundUp r.top (2 ^ k.val)
    rw [toNat_alignAlloc htop, hf.top]

theorem Heap.Follows.calls (hf : h.Follows r) {cs : List AllocCall}
    (hlt : (r.run (cs.map AllocCall.bump)).top < 2 ^ 32) :
    (h.calls cs).Follows (r.run (cs.map AllocCall.bump)) := by
  induction cs generalizing h r with
  | nil => exact hf
  | cons c cs ih =>
    have hrest : ((r.step c.bump).run (cs.map AllocCall.bump)).top < 2 ^ 32 := hlt
    exact ih (hf.call (((r.step c.bump).top_le_run _).trans_lt hrest)) hrest

/-! ## From the start -/

theorem allocRegion_append (lastByte : BitVec 32) (cs more : List AllocCall) :
    allocRegion lastByte (cs ++ more)
      = (allocRegion lastByte cs).run (more.map AllocCall.bump) := by
  rw [allocRegion, List.map_append, Bump.Region.run_append]
  rfl

variable {lastByte : BitVec 32} {cs : List AllocCall}

theorem init_follows (hlt : (allocRegion lastByte cs).top < 2 ^ 32) :
    ((Heap.init lastByte).calls cs).Follows (allocRegion lastByte cs) := by
  have hbase : lastByte.toNat + 0x20000 < 2 ^ 32 :=
    (Bump.Region.top_le_run ⟨lastByte.toNat + 0x20000, []⟩ _).trans_lt hlt
  refine Heap.Follows.calls ⟨?_, rfl⟩ hlt
  change (lastByte + 0x20000).toNat = lastByte.toNat + 0x20000
  rw [BitVec.toNat_add]
  exact Nat.mod_eq_of_lt hbase

/-- What holds of all calls holds of the first ones. -/
theorem allocRegion_prefix_lt {more : List AllocCall}
    (hlt : (allocRegion lastByte (cs ++ more)).top < 2 ^ 32) :
    (allocRegion lastByte cs).top < 2 ^ 32 := by
  rw [allocRegion_append] at hlt
  exact (Bump.Region.top_le_run _ _).trans_lt hlt

theorem allocRegion_packed (lastByte : BitVec 32) (cs : List AllocCall) :
    Bump.Packed (lastByte.toNat + 0x20000) (allocRegion lastByte cs) :=
  (Bump.packed_empty _).run _

theorem isHex_hexToStr (v : BitVec 32) : IsHex v.toNat (hexToStr v 8) := by
  refine ⟨?_, digit_of_mem_hexToStr 8 v, ?_⟩
  · exact List.ne_nil_of_length_eq_add_one (length_hexToStr 8 v)
  · rw [value_hexToStr 8 v 0 le_rfl]
    simp

theorem calls_append (h : Heap) (cs more : List AllocCall) :
    h.calls (cs ++ more) = (h.calls cs).calls more := List.foldl_append

theorem calls_cons (h : Heap) (c : AllocCall) (cs : List AllocCall) :
    h.calls (c :: cs) = (h.call c).calls cs := rfl

theorem blocks_subset_calls (h : Heap) (cs : List AllocCall) : h.blocks ⊆ (h.calls cs).blocks := by
  induction cs generalizing h with
  | nil => exact List.Subset.refl _
  | cons c cs ih =>
    have hstep : h.blocks ⊆ (h.call c).blocks := by
      cases c with
      | doAlloc n => exact List.subset_append_left _ _
      | alignAlloc k => exact List.Subset.refl _
    exact List.Subset.trans hstep (ih (h.call c))

theorem aligned_after (hlt : (allocRegion lastByte cs).top < 2 ^ 32) {pre post : List AllocCall}
    {k : Fin 32} {n : BitVec 32} (hcs : cs = pre ++ .alignAlloc k :: .doAlloc n :: post) :
    ∃ p, (doAlloc ((Heap.init lastByte).calls (pre ++ [.alignAlloc k])).alloc n).1 = p
      ∧ (p, n) ∈ ((Heap.init lastByte).calls cs).blocks ∧ 2 ^ k.val ∣ p.toNat := by
  have hsplit : cs = (pre ++ [.alignAlloc k]) ++ .doAlloc n :: post := by simp [hcs]
  rw [hsplit] at hlt ⊢
  have hfollows := init_follows (allocRegion_prefix_lt hlt)
  refine ⟨_, rfl, ?_, ?_⟩
  · rw [calls_append]
    exact blocks_subset_calls _ post (List.mem_append_right _ (by simp [doAlloc]))
  · have htop : (allocRegion lastByte (pre ++ [.alignAlloc k])).top
        = Bump.roundUp (allocRegion lastByte pre).top (2 ^ k.val) := by
      rw [allocRegion_append]
      rfl
    rw [doAlloc, hfollows.top, htop]
    exact Bump.dvd_roundUp _ _

/-- Whatever has been allocated, below 4 GB it is apart, in place and below what LOW reports. -/
theorem alloc_sound (lastByte : BitVec 32) (cs : List AllocCall)
    (hlt : (allocRegion lastByte cs).top < 2 ^ 32) : AllocSound lastByte cs := by
  have hfollows := init_follows hlt
  have hpacked := allocRegion_packed lastByte cs
  have hinside : ∀ b ∈ ((Heap.init lastByte).calls cs).blocks,
      lastByte.toNat + 0x20000 ≤ b.1.toNat
        ∧ b.1.toNat + b.2.toNat ≤ ((Heap.init lastByte).calls cs).alloc.toNat := by
    intro b hb
    have hmem := List.mem_map_of_mem (f := fun b => (⟨b.1.toNat, b.2.toNat⟩ : Bump.Block)) hb
    rw [hfollows.blocks] at hmem
    rw [hfollows.top]
    exact hpacked.inside _ hmem
  refine ⟨?_, hinside, fun pre k n post hcs => aligned_after hlt hcs, fun pre post hcs => ?_,
    fun dev hdev => ⟨dev.alloc.toNat, hexToStr dev.alloc 8, rfl, isHex_hexToStr dev.alloc, ?_⟩⟩
  · have hordered := hpacked.ordered
    rw [← hfollows.blocks, List.pairwise_map] at hordered
    exact hordered
  · subst hcs
    rw [hfollows.top, (init_follows (allocRegion_prefix_lt hlt)).top, allocRegion_append]
    exact Bump.Region.top_le_run _ _
  · rw [hdev]
    exact fun b hb => (hinside b hb).2

/-- Six attempts with an image that ends at 30000 (hex). -/
theorem alloc_sound_attempts :
    AllocSound 0x30000 (attemptCalls [] [.pcnet32, .rtl8101, .rtl8139, .rtl8101, .ne2000, .pcnet32]) :=
  alloc_sound _ _ (by decide +kernel)

end RemoteX86
