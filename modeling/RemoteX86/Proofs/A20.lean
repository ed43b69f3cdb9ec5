import RemoteX86.A20

/-!
# What the A20 test tells and leaves behind

With every transfer done the test is right where A20 is disabled, and where it is enabled unless memory
looks the same by coincidence.  Memory is as it was unless the last write that took effect wrote
something else than what had been there.
-/

namespace RemoteX86

open Hex Memory

theorem memcmpFn_iff (p q : ℕ → Byte) (n : ℕ) : memcmpFn p q n = true ↔ ∀ i < n, p i = q i := by
  simp [memcmpFn]

namespace GatedMemory

variable (dev : GatedMemory)

/-! ## The gate -/

theorem gate_low : ∀ i < 64, dev.gate (0x300 + BitVec.ofNat 32 i) = 0x300 + BitVec.ofNat 32 i := by
  intro i hi
  rw [gate]
  split_ifs
  · rfl
  · revert i
    decide

theorem low_injective : ∀ i < 32, ∀ j < 32,
    (0x300 + BitVec.ofNat 32 i : BitVec 32) = 0x300 + BitVec.ofNat 32 j → i = j := by
  intro i hi j hj h
  have hnat := congrArg BitVec.toNat ((BitVec.add_right_inj _).1 h)
  rw [BitVec.toNat_ofNat, BitVec.toNat_ofNat] at hnat
  omega

/-- The 32 bytes the test writes to. -/
def Low (x : BitVec 32) : Prop := ∃ i < 32, x = 0x300 + BitVec.ofNat 32 i

theorem bytes_low {i : ℕ} (hi : i < 32) : dev.bytes 0x300 i = dev.mem (0x300 + BitVec.ofNat 32 i) := by
  rw [bytes, gate_low dev i (by omega)]

/-! ## Writing there -/

@[simp] theorem store_a20 (a : BitVec 32) (buf : ℕ → Byte) : ∀ n, (dev.store a buf n).a20 = dev.a20
  | 0 => rfl
  | n + 1 => store_a20 a buf n

theorem store_succ (buf : ℕ → Byte) {n : ℕ} (hn : n < 32) :
    (dev.store 0x300 buf (n + 1)).mem
      = Function.update (dev.store 0x300 buf n).mem (0x300 + BitVec.ofNat 32 n) (buf n) := by
  rw [store]
  dsimp only
  rw [gate_low _ n (by omega)]

theorem store_low (buf : ℕ → Byte) : ∀ n ≤ 32, ∀ i < n,
    (dev.store 0x300 buf n).mem (0x300 + BitVec.ofNat 32 i) = buf i
  | 0, _, i, hi => absurd hi (Nat.not_lt_zero i)
  | n + 1, hn, i, hi => by
    rw [store_succ dev buf (by omega)]
    by_cases h : i = n
    · rw [h, Function.update_self]
    · have hne : (0x300 + BitVec.ofNat 32 i : BitVec 32) ≠ 0x300 + BitVec.ofNat 32 n :=
        fun heq => h (low_injective i (by omega) n (by omega) heq)
      rw [Function.update_of_ne hne]
      exact store_low buf n (by omega) i (by omega)

theorem store_other (buf : ℕ → Byte) {x : BitVec 32} (hx : ¬ Low x) : ∀ n ≤ 32,
    (dev.store 0x300 buf n).mem x = dev.mem x
  | 0, _ => rfl
  | n + 1, hn => by
    have hne : x ≠ 0x300 + BitVec.ofNat 32 n := fun h => hx ⟨n, by omega, h⟩
    rw [store_succ dev buf (by omega), Function.update_of_ne hne]
    exact store_other buf hx n (by omega)

/-- Memory is as it was exactly if the bytes written were there. -/
theorem store_mem_eq_iff (buf : ℕ → Byte) :
    (dev.store 0x300 buf 32).mem = dev.mem ↔ ∀ i < 32, buf i = dev.bytes 0x300 i := by
  constructor
  · intro h i hi
    rw [bytes_low dev hi, ← h, store_low dev buf 32 le_rfl i hi]
  · intro h
    funext x
    by_cases hx : Low x
    · obtain ⟨i, hi, rfl⟩ := hx
      rw [store_low dev buf 32 le_rfl i hi, h i hi, bytes_low dev hi]
    · exact store_other dev buf hx 32 le_rfl

/-- A second write there leaves nothing of the first. -/
theorem store_store_mem (p q : ℕ → Byte) :
    ((dev.store 0x300 p 32).store 0x300 q 32).mem = (dev.store 0x300 q 32).mem := by
  funext x
  by_cases hx : Low x
  · obtain ⟨i, hi, rfl⟩ := hx
    rw [store_low _ q 32 le_rfl i hi, store_low _ q 32 le_rfl i hi]
  · rw [store_other _ q hx 32 le_rfl, store_other _ p hx 32 le_rfl, store_other _ q hx 32 le_rfl]

end GatedMemory

/-! ## What it tells -/

section Tells

variable {dev : GatedMemory}

theorem a20EnabledMemTest_allDone (dev : GatedMemory) : (a20EnabledMemTest allDone dev).1
    = if memcmpFn (dev.bytes 0) (fun i => dev.bytes (0x100000 - 32) (32 + i)) 32 then 0
      else if memcmpFn (dev.bytes 0x300) (dev.bytes 0x100300) 32
        ∧ memcmpFn nbuf0 ((dev.store 0x300 nbuf0 32).bytes 0x100300) 32 then 0
      else 1 := by
  have halias : 0x300#32 ||| 1#32 <<< 20 = 0x100300 := by decide
  unfold a20EnabledMemTest
  simp only [allDone, GatedMemory.remoteRs232Read, GatedMemory.remoteRs232Write, one_ne_zero,
    if_false, halias]
  by_cases hzero : memcmpFn (dev.bytes 0) (fun i => dev.bytes (0x100000 - 32) (32 + i)) 32 = true
  · rw [if_pos hzero, if_pos hzero]
  · rw [if_neg hzero, if_neg hzero]
    by_cases hsame : memcmpFn (dev.bytes 0x300) (dev.bytes 0x100300) 32 = true
    · rw [if_pos hsame]
      by_cases hpattern : memcmpFn nbuf0 ((dev.store 0x300 nbuf0 32).bytes 0x100300) 32 = true
      · rw [if_pos hpattern, if_pos ⟨hsame, hpattern⟩]
      · rw [if_neg hpattern, if_neg fun h => hpattern h.2]
    · rw [if_neg hsame, if_neg fun h => hsame h.1]

theorem a20EnabledMemTest_disabled (h : dev.a20 = false) : (a20EnabledMemTest allDone dev).1 = 0 := by
  have haddr : ∀ i < 32, ((0x100000 - 32 : BitVec 32) + BitVec.ofNat 32 (32 + i)) &&& ~~~(1#32 <<< 20)
      = (0 + BitVec.ofNat 32 i : BitVec 32) &&& ~~~(1#32 <<< 20) := by
    decide
  have hzero : memcmpFn (dev.bytes 0) (fun i => dev.bytes (0x100000 - 32) (32 + i)) 32 = true := by
    rw [memcmpFn_iff]
    intro i hi
    rw [GatedMemory.bytes, GatedMemory.bytes, GatedMemory.gate, GatedMemory.gate, h,
      if_neg Bool.false_ne_true, if_neg Bool.false_ne_true, haddr i hi]
  rw [a20EnabledMemTest_allDone, if_pos hzero]

theorem bytes_enabled (h : dev.a20 = true) (a : BitVec 32) (i : ℕ) :
    dev.bytes a i = dev.mem (a + BitVec.ofNat 32 i) := by
  rw [GatedMemory.bytes, GatedMemory.gate, if_pos h]

/-- The pattern does not show 1 MB higher. -/
theorem bytes_alias_store (h : dev.a20 = true) (buf : ℕ → Byte) {i : ℕ} (hi : i < 32) :
    (dev.store 0x300 buf 32).bytes 0x100300 i = dev.bytes 0x100300 i := by
  have hother : ¬ GatedMemory.Low (0x100300 + BitVec.ofNat 32 i) := by
    rintro ⟨j, hj, heq⟩
    have hnat := congrArg BitVec.toNat heq
    rw [BitVec.toNat_add, BitVec.toNat_add, BitVec.toNat_ofNat, BitVec.toNat_ofNat] at hnat
    have hhigh : (0x100300 : BitVec 32).toNat = 0x100300 := rfl
    have hlow : (0x300 : BitVec 32).toNat = 0x300 := rfl
    omega
  rw [bytes_enabled ((dev.store_a20 _ _ _).trans h), bytes_enabled h, dev.store_other buf hother 32 le_rfl]

theorem a20EnabledMemTest_enabled (h : dev.a20 = true) :
    (a20EnabledMemTest allDone dev).1 = 1
      ↔ ¬ (∀ i < 32, dev.bytes 0 i = dev.bytes 0x100000 i)
        ∧ ¬ ∀ i < 32, dev.bytes 0x300 i = 0x78#8 ∧ dev.bytes 0x100300 i = 0x78#8 := by
  have hcross : ∀ i, dev.bytes (0x100000 - 32) (32 + i) = dev.bytes 0x100000 i := by
    intro i
    rw [bytes_enabled h, bytes_enabled h, BitVec.ofNat_add, ← BitVec.add_assoc]
    rfl
  have hzero : memcmpFn (dev.bytes 0) (fun i => dev.bytes (0x100000 - 32) (32 + i)) 32 = true
      ↔ ∀ i < 32, dev.bytes 0 i = dev.bytes 0x100000 i := by
    simp only [memcmpFn_iff, hcross]
  have hpattern : (memcmpFn (dev.bytes 0x300) (dev.bytes 0x100300) 32
        ∧ memcmpFn nbuf0 ((dev.store 0x300 nbuf0 32).bytes 0x100300) 32)
      ↔ ∀ i < 32, dev.bytes 0x300 i = 0x78#8 ∧ dev.bytes 0x100300 i = 0x78#8 := by
    rw [memcmpFn_iff, memcmpFn_iff]
    constructor
    · rintro ⟨hsame, hshows⟩ i hi
      have hx := hshows i hi
      rw [bytes_alias_store h _ hi] at hx
      exact ⟨(hsame i hi).trans hx.symm, hx.symm⟩
    · intro hx
      refine ⟨fun i hi => (hx i hi).1.trans (hx i hi).2.symm, fun i hi => ?_⟩
      rw [bytes_alias_store h _ hi]
      exact (hx i hi).2.symm
  rw [a20EnabledMemTest_allDone, ← hzero, ← hpattern]
  split_ifs with hcond hboth
  · exact iff_of_false (by decide) fun hall => hall.1 hcond
  · exact iff_of_false (by decide) fun hall => hall.2 hboth
  · exact iff_of_true rfl ⟨hcond, hboth⟩

/-- The test tells whether A20 is enabled exactly if it is not, or memory does not look the same: the
first 32 bytes and those at 1 MB, or the pattern in both of the other places. -/
theorem tells_iff : Tells dev ↔ dev.a20 = false
    ∨ ¬ (∀ i < 32, dev.bytes 0 i = dev.bytes 0x100000 i)
      ∧ ¬ ∀ i < 32, dev.bytes 0x300 i = 0x78#8 ∧ dev.bytes 0x100300 i = 0x78#8 := by
  rcases h : dev.a20 with - | -
  · rw [Tells, a20EnabledMemTest_disabled h, h]
    simp
  · rw [Tells, a20EnabledMemTest_enabled h, h]
    simp

/-- A20 is enabled, and the first 32 bytes are those at 1 MB; or they are not, and the pattern is in both
of the other places. -/
theorem not_tells_same :
    ¬ Tells { a20 := true, mem := fun _ => 0 }
      ∧ ¬ Tells { a20 := true, mem := fun x => if x = 0 then 0 else 0x78 } := by
  unfold Tells
  decide

end Tells

/-! ## What it leaves behind -/

section Leaves

variable (t : A20Transfers) (dev : GatedMemory)

theorem read_ret (a : BitVec 32) (r : TransferResult) : (dev.remoteRs232Read a r).1 = r.ret := by
  cases r <;> rfl

theorem write_ret (a : BitVec 32) (n : ℕ) (buf : ℕ → Byte) (r : TransferResult) :
    (dev.remoteRs232Write a n buf r).1 = r.ret := by
  cases r <;> rfl

/-- The device behind the writes, if they are reached. -/
theorem a20EnabledMemTest_reached (h : t.ReachesWrites dev) :
    (a20EnabledMemTest t dev).2
      = if t.pattern.ret = 0 ∨ t.check.ret = 0 then (dev.remoteRs232Write 0x300 32 nbuf0 t.pattern).2
        else ((dev.remoteRs232Write 0x300 32 nbuf0 t.pattern).2.remoteRs232Write 0x300 32
          (dev.remoteRs232Read 0x300 t.buf0).2 t.restore).2 := by
  obtain ⟨⟨hbuf0, hbuf1, hcross, hzero⟩, hdiffer, hsame⟩ := h
  unfold a20EnabledMemTest
  simp only [read_ret, write_ret]
  rw [if_neg hbuf0, if_neg hbuf1, if_neg hcross, if_neg hzero, if_neg hdiffer, if_pos hsame]
  by_cases hpattern : t.pattern.ret = 0
  · rw [if_pos hpattern, if_pos (.inl hpattern)]
  · by_cases hcheck : t.check.ret = 0
    · rw [if_neg hpattern, if_pos hcheck, if_pos (.inr hcheck)]
    · rw [if_neg hpattern, if_neg hcheck, if_neg (not_or.2 ⟨hpattern, hcheck⟩)]
      split_ifs <;> rfl

theorem a20EnabledMemTest_not_reached (h : ¬ t.ReachesWrites dev) :
    (a20EnabledMemTest t dev).2 = dev := by
  unfold a20EnabledMemTest
  simp only [read_ret, write_ret]
  by_cases hbuf0 : t.buf0.ret = 0
  · rw [if_pos hbuf0]
  by_cases hbuf1 : t.buf1.ret = 0
  · rw [if_neg hbuf0, if_pos hbuf1]
  by_cases hcross : t.cross.ret = 0
  · rw [if_neg hbuf0, if_neg hbuf1, if_pos hcross]
  by_cases hzero : t.zero.ret = 0
  · rw [if_neg hbuf0, if_neg hbuf1, if_neg hcross, if_pos hzero]
  rw [if_neg hbuf0, if_neg hbuf1, if_neg hcross, if_neg hzero]
  by_cases hdiffer : memcmpFn (dev.remoteRs232Read 0 t.zero).2
      (fun i => (dev.remoteRs232Read (0x100000 - 32) t.cross).2 (32 + i)) 32 = true
  · rw [if_pos hdiffer]
  · rw [if_neg hdiffer]
    by_cases hsame : memcmpFn (dev.remoteRs232Read 0x300 t.buf0).2
        (dev.remoteRs232Read (0x300#32 ||| 1#32 <<< 20) t.buf1).2 32 = true
    · exact absurd ⟨⟨hbuf0, hbuf1, hcross, hzero⟩, hdiffer, hsame⟩ h
    · rw [if_neg hsame]

theorem write_done_mem (buf : ℕ → Byte) {r : TransferResult} (h : r = .done) :
    (dev.remoteRs232Write 0x300 32 buf r).2 = dev.store 0x300 buf 32 := by
  rw [h]
  rfl

theorem write_failed (a : BitVec 32) (n : ℕ) (buf : ℕ → Byte) {r : TransferResult} (h : r ≠ .done) :
    (dev.remoteRs232Write a n buf r).2 = dev := by
  rcases r with - | ⟨ret, buf'⟩
  · exact absurd rfl h
  · rfl

/-- Where the restoring write is done, only what it writes counts. -/
theorem a20EnabledMemTest_restored (h : t.ReachesWrites dev) (hrestores : t.Restores) :
    (a20EnabledMemTest t dev).2.mem
      = (dev.store 0x300 (dev.remoteRs232Read 0x300 t.buf0).2 32).mem := by
  obtain ⟨hpattern, hcheck, hdone⟩ := hrestores
  rw [a20EnabledMemTest_reached t dev h, if_neg (not_or.2 ⟨hpattern, hcheck⟩),
    write_done_mem _ _ hdone]
  by_cases hp : t.pattern = .done
  · rw [write_done_mem dev _ hp, dev.store_store_mem]
  · rw [write_failed dev _ _ _ hp]

/-- Where it is not, the pattern stays. -/
theorem a20EnabledMemTest_unrestored (h : t.ReachesWrites dev) (hrestores : ¬ t.Restores) :
    (a20EnabledMemTest t dev).2 = (dev.remoteRs232Write 0x300 32 nbuf0 t.pattern).2 := by
  rw [a20EnabledMemTest_reached t dev h]
  split_ifs with hfail
  · rfl
  · rw [not_or] at hfail
    exact write_failed _ _ _ _ fun hdone => hrestores ⟨hfail.1, hfail.2, hdone⟩

/-- Memory is as it was exactly if the test writes nothing, or the last write that took effect wrote what
had been there: the bytes first read if it is the restoring one, else the pattern. -/
theorem a20_leaves_iff :
    (a20EnabledMemTest t dev).2.mem = dev.mem
      ↔ (t.ReachesWrites dev →
        (t.Restores → ∀ i < 32, (dev.remoteRs232Read 0x300 t.buf0).2 i = dev.bytes 0x300 i)
          ∧ (¬ t.Restores → t.pattern = .done → ∀ i < 32, nbuf0 i = dev.bytes 0x300 i)) := by
  by_cases h : t.ReachesWrites dev
  · rw [forall_prop_of_true h]
    by_cases hrestores : t.Restores
    · rw [a20EnabledMemTest_restored t dev h hrestores, dev.store_mem_eq_iff]
      exact ⟨fun hbytes => ⟨fun _ => hbytes, fun hnot => absurd hrestores hnot⟩,
        fun hall => hall.1 hrestores⟩
    · rw [a20EnabledMemTest_unrestored t dev h hrestores]
      by_cases hp : t.pattern = .done
      · rw [write_done_mem dev _ hp, dev.store_mem_eq_iff]
        exact ⟨fun hbytes => ⟨fun hyes => absurd hyes hrestores, fun _ _ => hbytes⟩,
          fun hall => hall.2 hrestores hp⟩
      · rw [write_failed dev _ _ _ hp]
        exact iff_of_true rfl ⟨fun hyes => absurd hyes hrestores, fun _ hdone => absurd hdone hp⟩
  · rw [a20EnabledMemTest_not_reached t dev h]
    exact iff_of_true rfl fun hreaches => absurd hreaches h

/-- The pattern stays in the interrupt table where the read behind it fails, or the restoring write. -/
theorem a20_leaves_pattern :
    let t : A20Transfers := { allDone with check := .fails 0 (fun _ => 0) }
    let u : A20Transfers := { allDone with restore := .fails 0 (fun _ => 0) }
    let dev : GatedMemory := { a20 := true, mem := fun x => if x = 0 then 1 else 0 }
    (a20EnabledMemTest t dev).2.mem ≠ dev.mem ∧ (a20EnabledMemTest u dev).2.mem ≠ dev.mem := by
  intro t u dev
  constructor
  · intro h
    exact absurd (congrFun h 0x300) (by decide)
  · intro h
    exact absurd (congrFun h 0x300) (by decide)

end Leaves

end RemoteX86
