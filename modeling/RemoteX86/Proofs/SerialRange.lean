import RemoteX86.SerialRange
import RemoteX86.Proofs.SerialFraming

/-!
# The range of a memory command

No step of the loops sees a carry flag, so the segment of a pointer never moves: in the 16-bit parts
a command walks through memory for as long as its offset does not wrap.  The protected-mode parts
start at offset zero and get through any count; the 8086 part starts at the last digit of the
address.
-/

namespace RemoteX86

open Hex Memory

/-! ## Pointers -/

/-- The next `n` bytes are those from `a` upwards. -/
def Pointer.Walks : ℕ → Pointer → BitVec 32 → Prop
  | 0, _, _ => True
  | n + 1, ptr, a => ptr.phys = some a ∧ Walks n (ptr.next false) (a + 1)

/-- An offset moves through its segment until it wraps. -/
theorem walks_offset (ptr : BitVec 16 → Pointer) (base : BitVec 32)
    (hphys : ∀ bx, (ptr bx).phys = some (base + bx.setWidth 32))
    (hnext : ∀ bx, (ptr bx).next false = ptr (bx + 1)) :
    ∀ (n : ℕ) (bx : BitVec 16), bx.toNat + n ≤ 2 ^ 16 →
      (ptr bx).Walks n (base + bx.setWidth 32)
  | 0, _, _ => trivial
  | 1, bx, _ => ⟨hphys bx, trivial⟩
  | n + 2, bx, h => by
    have hlt : (bx + 1).toNat = bx.toNat + 1 := by
      rw [BitVec.toNat_add]
      exact Nat.mod_eq_of_lt (by simp; omega)
    have hstep : (bx + 1).setWidth 32 = bx.setWidth 32 + 1 := by
      apply BitVec.eq_of_toNat_eq
      rw [BitVec.toNat_setWidth, hlt, BitVec.toNat_add, BitVec.toNat_setWidth]
      simp
    have ih := walks_offset ptr base hphys hnext (n + 1) (bx + 1) (by omega)
    rw [hstep, ← BitVec.add_assoc, ← hnext] at ih
    exact ⟨hphys bx, ih⟩

theorem walks_segment (ptr : BitVec 16 → Pointer) {base : BitVec 32}
    (hphys : ∀ bx, (ptr bx).phys = some (base + bx.setWidth 32))
    (hnext : ∀ bx, (ptr bx).next false = ptr (bx + 1)) {n : ℕ} (h : n ≤ 2 ^ 16) :
    (ptr 0).Walks n base := by
  have hwalk := walks_offset ptr base hphys hnext n 0 (by simpa using h)
  rwa [show (0 : BitVec 16).setWidth 32 = 0#32 from rfl, BitVec.add_zero] at hwalk

theorem walks_flat32 : ∀ (n : ℕ) (ebx : BitVec 32), (Pointer.flat32 ebx).Walks n ebx
  | 0, _ => trivial
  | n + 1, ebx => ⟨rfl, walks_flat32 n (ebx + 1)⟩

theorem walks_flat64 : ∀ (n : ℕ) (rbx : BitVec 64), rbx.toNat + n ≤ 2 ^ 36 →
    (Pointer.flat64 rbx).Walks n (rbx.setWidth 32)
  | 0, _, _ => trivial
  | n + 1, rbx, h => by
    have hlt : (rbx + 1).toNat = rbx.toNat + 1 := by
      rw [BitVec.toNat_add]
      exact Nat.mod_eq_of_lt (by simp; omega)
    have hstep : (rbx + 1).setWidth 32 = rbx.setWidth 32 + 1 :=
      BitVec.setWidth_add rbx 1 (by decide)
    refine ⟨if_pos (by omega), ?_⟩
    rw [← hstep]
    exact walks_flat64 n (rbx + 1) (by omega)

/-! ## Addresses -/

/-- A real-mode pointer to an address below 1 MB points there, with an offset below 16. -/
theorem dxAxPhysToReal_eq {a : ℕ} (h : a < 2 ^ 20) :
    ∃ es bx, dxAxPhysToReal (BitVec.ofNat 16 (a / 2 ^ 16)) (BitVec.ofNat 16 a) = .real es bx
      ∧ bx.toNat = a % 16 ∧ (es.setWidth 32 <<< 4) + bx.setWidth 32 = BitVec.ofNat 32 a := by
  have hbx : (BitVec.ofNat 16 a &&& 0xF).toNat = a % 16 := by
    have hmask : (0xF : BitVec 16).toNat = 2 ^ 4 - 1 := rfl
    rw [BitVec.toNat_and, BitVec.toNat_ofNat, hmask, Nat.and_two_pow_sub_one_eq_mod]
    omega
  have hes : ((BitVec.ofNat 16 (a / 2 ^ 16) <<< 12) ||| (BitVec.ofNat 16 a >>> 4)).toNat
      = a / 16 := by
    have hlow : (a % 2 ^ 16) >>> 4 < 2 ^ 12 := by
      rw [Nat.shiftRight_eq_div_pow]
      omega
    have hhigh : (a / 2 ^ 16 % 2 ^ 16) <<< 12 < 2 ^ 16 := by
      rw [Nat.shiftLeft_eq]
      omega
    rw [BitVec.toNat_or, BitVec.toNat_shiftLeft, BitVec.toNat_ushiftRight, BitVec.toNat_ofNat,
      BitVec.toNat_ofNat, Nat.mod_eq_of_lt hhigh, ← Nat.shiftLeft_add_eq_or_of_lt hlow,
      Nat.shiftLeft_eq, Nat.shiftRight_eq_div_pow]
    omega
  refine ⟨_, _, rfl, hbx, ?_⟩
  apply BitVec.eq_of_toNat_eq
  rw [BitVec.toNat_add, BitVec.toNat_shiftLeft, BitVec.toNat_setWidth, BitVec.toNat_setWidth, hbx,
    hes, Nat.shiftLeft_eq, BitVec.toNat_ofNat]
  omega

theorem base_dxAxPhysTo286seg {a : ℕ} (h : a < 2 ^ 24) :
    (dxAxPhysTo286seg accessSelector286 (BitVec.ofNat 16 (a / 2 ^ 16)) (BitVec.ofNat 16 a)).base
      = BitVec.ofNat 32 a := by
  have hhigh : (0 : Byte).toNat = 0 := rfl
  apply BitVec.eq_of_toNat_eq
  simp only [Descriptor.base, dxAxPhysTo286seg, accessSelector286, toNat_append_add,
    BitVec.toNat_setWidth, BitVec.toNat_ofNat, hhigh]
  omega

theorem base_dxAxPhysTo386seg (a : ℕ) :
    (dxAxPhysTo386seg accessSelector386 (BitVec.ofNat 16 (a / 2 ^ 16)) (BitVec.ofNat 16 a)).base
      = BitVec.ofNat 32 a := by
  apply BitVec.eq_of_toNat_eq
  simp only [Descriptor.base, dxAxPhysTo386seg, accessSelector386, toNat_append_add,
    BitVec.toNat_setWidth, BitVec.toNat_ofNat, BitVec.toNat_ushiftRight, Nat.shiftRight_eq_div_pow]
  omega

/-- The part gets through the `n` bytes from `a` upwards. -/
def Mode.Covers (a n : ℕ) : Mode → Prop
  | .i8086 => a < 2 ^ 20 ∧ a % 16 + n ≤ 2 ^ 16
  | .i286 => a < 2 ^ 24 ∧ n ≤ 2 ^ 16
  | .i386x16 => n ≤ 2 ^ 16
  | .i386x32 => True
  | .x64 => a + n ≤ 2 ^ 36

theorem address_walks {mode : Mode} {a n : ℕ} (h : mode.Covers a n) {addr : List Byte}
    (haddr : IsHex a addr) {c : Byte} (hc : digitVal c = none) (p : List Byte) :
    ∃ ptr, mode.address (addr ++ c :: p) = (some ptr, p) ∧ ptr.Walks n (BitVec.ofNat 32 a) := by
  cases mode with
  | i8086 =>
    obtain ⟨ha, hn⟩ := h
    obtain ⟨es, bx, hptr, hbx, hphys⟩ := dxAxPhysToReal_eq ha
    have hlow : BitVec.ofNat 16 (a / 2 ^ 16) < 0x10 := by
      rw [BitVec.lt_def, BitVec.toNat_ofNat]
      exact (Nat.mod_le _ _).trans_lt (by simp; omega)
    refine ⟨_, ?_, hphys ▸ walks_offset (.real es) _ (fun _ => rfl) (fun _ => rfl) n bx ?_⟩
    · rw [Mode.address, strtohex32_digits haddr.digits hc, haddr.value_eq]
      simp only [if_pos hlow, hptr]
    · rw [hbx]
      exact hn
  | i286 =>
    obtain ⟨ha, hn⟩ := h
    have hlow : BitVec.ofNat 16 (a / 2 ^ 16) < 0x100 := by
      rw [BitVec.lt_def, BitVec.toNat_ofNat]
      exact (Nat.mod_le _ _).trans_lt (by simp; omega)
    have hwalk := walks_segment (.acc286 (dxAxPhysTo286seg accessSelector286
      (BitVec.ofNat 16 (a / 2 ^ 16)) (BitVec.ofNat 16 a))) (fun _ => rfl) (fun _ => rfl) hn
    rw [base_dxAxPhysTo286seg ha] at hwalk
    refine ⟨_, ?_, hwalk⟩
    rw [Mode.address, strtohex32_digits haddr.digits hc, haddr.value_eq]
    simp only [if_pos hlow]
  | i386x16 =>
    have hwalk := walks_segment (.acc386 (dxAxPhysTo386seg accessSelector386
      (BitVec.ofNat 16 (a / 2 ^ 16)) (BitVec.ofNat 16 a))) (fun _ => rfl) (fun _ => rfl) h
    rw [base_dxAxPhysTo386seg] at hwalk
    refine ⟨_, ?_, hwalk⟩
    rw [Mode.address, strtohex32_digits haddr.digits hc, haddr.value_eq]
  | i386x32 =>
    refine ⟨_, ?_, walks_flat32 n _⟩
    rw [Mode.address, strtohex_digits haddr.digits hc, haddr.value_eq]
  | x64 =>
    have hlt : (BitVec.ofNat 64 a).toNat + n ≤ 2 ^ 36 :=
      (Nat.add_le_add_right (Nat.mod_le _ _) n).trans h
    have hwalk := walks_flat64 n (BitVec.ofNat 64 a) hlt
    rw [BitVec.setWidth_ofNat_of_le (by decide)] at hwalk
    refine ⟨_, ?_, hwalk⟩
    rw [Mode.address, strtohex_digits haddr.digits hc, haddr.value_eq]

/-- The part answers the address `v` with an error. -/
def Mode.Refuses (v : ℕ) : Mode → Prop
  | .i8086 => 2 ^ 20 ≤ v % 2 ^ 32
  | .i286 => 2 ^ 24 ≤ v % 2 ^ 32
  | _ => False

/-- DX is compared, and the digits in front of the last eight have left it. -/
theorem address_eq_none_iff (mode : Mode) {ds : List Byte}
    (hds : ∀ e ∈ ds, ∃ d, digitVal e = some d) {c : Byte} (hc : digitVal c = none)
    (p : List Byte) : (mode.address (ds ++ c :: p)).1 = none ↔ mode.Refuses (value 0 ds) := by
  have hdx : ∀ k, (BitVec.ofNat 16 (value 0 ds / 2 ^ 16)).toNat < k
      ↔ value 0 ds % 2 ^ 32 < k * 2 ^ 16 := by
    intro k
    rw [BitVec.toNat_ofNat]
    omega
  unfold Mode.address Mode.Refuses
  cases mode with
  | i8086 | i286 =>
    simp only [strtohex32_digits hds hc, ite_eq_right_iff, reduceCtorEq, imp_false,
      BitVec.lt_def, hdx, not_lt]
    exact Iff.rfl
  | i386x16 | i386x32 | x64 => simp

/-! ## Loops -/

theorem readLoop_walks (send : Byte → List Byte) (mem : Mem 32) :
    ∀ (n : ℕ) (ptr : Pointer) (a : BitVec 32), ptr.Walks n a →
      readLoop send mem n ptr = ((read mem a n).flatMap send, true)
  | 0, _, _, _ => rfl
  | n + 1, ptr, a, ⟨hphys, hrest⟩ => by
    rw [readLoop, hphys]
    simp only [comCharOutCarry]
    rw [readLoop_walks send mem n _ _ hrest]
    rfl

/-- Data of WRITEB goes to the bytes the pointer walks through. -/
theorem Stage2.feedAll_writebLoop_walks (m : Stage2) : ∀ (data : List Byte) (s : Serial)
    (ptr : Pointer) (a : BitVec 32) {n : ℕ}, data.length ≤ n → ptr.Walks n a →
      ∃ ptr', m.feedAll (s.writebLoop ptr n) data
        = { s with mem := write s.mem a data }.writebLoop ptr' (n - data.length)
  | [], s, ptr, a, n, _, _ => ⟨ptr, rfl⟩
  | b :: data, s, ptr, a, n + 1, hlen, ⟨hphys, hrest⟩ => by
    rw [List.length_cons] at hlen
    obtain ⟨ptr', ih⟩ := m.feedAll_writebLoop_walks data
      { s with mem := Function.update s.mem a b } (ptr.next false) (a + 1)
      (by omega : data.length ≤ n) hrest
    refine ⟨ptr', ?_⟩
    rw [feedAll, List.foldl_cons, m.feed_writebLoop s hphys (by omega), Nat.add_sub_cancel,
      List.length_cons, Nat.add_sub_add_right]
    exact ih

theorem comHex8Out_eq (al : Byte) :
    comHex8Out al = [digit (al.toNat / 16), digit (al.toNat % 16)] := by
  revert al
  decide

theorem hexDump_eq (bytes : List Byte) :
    hexDump bytes = bytes.flatMap fun al => comHex8Out al ++ [0x20#8] := by
  unfold hexDump
  simp only [comHex8Out_eq, List.cons_append, List.nil_append]

theorem writeLoop_end (mode : Mode) {di : ℕ} {si : List Byte} (h : si.length ≤ di) (fuel : ℕ)
    (ptr : Pointer) (mem : Mem 32) : writeLoop mode di fuel ptr si mem = (mem, true) := by
  cases fuel with
  | zero => rfl
  | succ fuel =>
    rw [writeLoop]
    exact if_pos ((List.length_dropWhile_le _ _).trans h)

/-- One byte of WRITE: what stands behind it is looked at with the character after it gone. -/
theorem writeLoop_digits (mode : Mode) {digits q : List Byte} {c : Byte}
    (hdigits : IsHex (value 0 digits) digits) (hc : digitVal c = none) {di : ℕ}
    (hdi : di ≤ q.length + 1) (fuel : ℕ) {ptr : Pointer} {a : BitVec 32}
    (ha : ptr.phys = some a) (mem : Mem 32) :
    writeLoop mode di (fuel + 1) ptr (digits ++ c :: q) mem
      = writeLoop mode di fuel
          (ptr.next (decide ((strSkipWhitespace q).getD 0 0 < 0x20#8))) (strSkipWhitespace q)
          (Function.update mem a (BitVec.ofNat 8 (value 0 digits))) := by
  have hbits : 8 ≤ mode.bits := by cases mode <;> decide
  have hlen : ¬ (digits ++ c :: q).length ≤ di := by
    have := List.length_pos_of_ne_nil hdigits.ne_nil
    rw [List.length_append, List.length_cons]
    omega
  rw [writeLoop, strSkipWhitespace_digits hdigits.digits hdigits.ne_nil]
  simp only [if_neg hlen, strtohex_digits hdigits.digits hc, ha,
    BitVec.setWidth_ofNat_of_le hbits]

/-- No digit is below the space. -/
theorem not_lt_space_of_digit {c : Byte} {d : ℕ} (h : digitVal c = some d) : ¬ c < 0x20#8 := by
  revert c d
  decide

/-- The loop of WRITE stores its bytes one behind the other.  At the end of the line it takes the
step to the next 64 KB, but no byte follows. -/
theorem writeLoop_data (mode : Mode) (q : List Byte) : ∀ (data : List (List Byte))
    (digits : List Byte) (fuel : ℕ) (ptr : Pointer) (a : BitVec 32) (mem : Mem 32),
    (∀ ds ∈ digits :: data, IsHex (value 0 ds) ds) → data.length < fuel →
    ptr.Walks (data.length + 1) a →
      writeLoop mode (q.length + 1) fuel ptr
          (digits ++ ((data.flatMap fun ds => 0x20#8 :: ds) ++ 0#8 :: q)) mem
        = (write mem a ((digits :: data).map fun ds => BitVec.ofNat 8 (value 0 ds)), true)
  | _, _, 0, _, _, _, _, h, _ => absurd h (Nat.not_lt_zero _)
  | [], digits, fuel + 1, ptr, a, mem, hhex, _, ⟨hphys, _⟩ => by
    have hend : (strSkipWhitespace q).length ≤ q.length + 1 :=
      (List.length_dropWhile_le _ _).trans (Nat.le_succ _)
    rw [List.flatMap_nil, List.nil_append,
      writeLoop_digits mode (hhex _ List.mem_cons_self) digitVal_nul le_rfl fuel hphys,
      writeLoop_end mode hend]
    rfl
  | next :: data, digits, fuel + 1, ptr, a, mem, hhex, hfuel, ⟨hphys, hrest⟩ => by
    have hnext := hhex next (by simp)
    obtain ⟨c, ds, rfl⟩ := List.exists_cons_of_ne_nil hnext.ne_nil
    obtain ⟨d, hd⟩ := hnext.digits c List.mem_cons_self
    have ih := writeLoop_data mode q data (c :: ds) fuel (ptr.next false) (a + 1)
      (Function.update mem a (BitVec.ofNat 8 (value 0 digits)))
      (fun es hes => hhex es (List.mem_cons_of_mem _ hes)) (Nat.lt_of_succ_lt_succ hfuel) hrest
    have htext : ((c :: ds) :: data).flatMap (fun ds => 0x20#8 :: ds) ++ 0#8 :: q
        = 0x20#8 :: (c :: ds ++ (data.flatMap (fun ds => 0x20#8 :: ds) ++ 0#8 :: q)) := by
      simp
    have hcf : decide ((c :: ds ++ (data.flatMap (fun ds => 0x20#8 :: ds) ++ 0#8 :: q)).getD 0 0
        < 0x20#8) = false := decide_eq_false (not_lt_space_of_digit hd)
    rw [htext,
      writeLoop_digits mode (hhex _ List.mem_cons_self) digitVal_space (by simp; omega) fuel hphys,
      strSkipWhitespace_digits hnext.digits hnext.ne_nil, hcf, ih]
    rfl

/-! ## Commands -/

theorem responseOutput_inj {s : Serial} {p q : List Byte}
    (h : s.responseOutput p = s.responseOutput q) : p = q := by
  have hout := congrArg Serial.out h
  simpa [Serial.responseOutput] using hout

theorem responseOutput_ne_err (s : Serial) (p q : List Byte) :
    s.responseOutput p ≠ s.responseOutputErr q := by
  intro h
  have hout := congrArg Serial.out h
  simp [Serial.responseOutput, Serial.responseOutputErr, ascii] at hout

theorem readCommand_refused {s : Serial} {si : List Byte} (h : (s.mode.address si).1 = none)
    (send : Byte → List Byte) :
    s.readCommand send si = s.responseOutputErr (ascii "Invalid address") := by
  rw [Serial.readCommand, address_eq_of_fst h]

section Commands

variable {s : Serial} {a n : ℕ} {addr count : List Byte}

theorem readCommand_walks (hcov : s.mode.Covers a n) (hn : n < 2 ^ s.mode.bits)
    (haddr : IsHex a addr) (hcount : IsHex n count) (send : Byte → List Byte) (q : List Byte) :
    s.readCommand send (addr ++ 0x20#8 :: (count ++ 0#8 :: q))
      = s.responseOutput ((read s.mem (BitVec.ofNat 32 a) n).flatMap send) := by
  obtain ⟨ptr, hptr, hwalk⟩ := address_walks hcov haddr digitVal_space (count ++ 0#8 :: q)
  rw [Serial.readCommand, hptr]
  simp only [count_isHex _ hcount digitVal_nul, Nat.mod_eq_of_lt hn, readLoop_walks _ _ _ _ _ hwalk,
    if_true]

theorem commandWriteb_walks (hcov : s.mode.Covers a n) (hn : n < 2 ^ s.mode.bits)
    (haddr : IsHex a addr) (hcount : IsHex n count) (q : List Byte) :
    ∃ ptr : Pointer, s.commandWriteb (addr ++ 0x20#8 :: (count ++ 0#8 :: q)) = s.writebLoop ptr n
      ∧ ptr.Walks n (BitVec.ofNat 32 a) := by
  obtain ⟨ptr, hptr, hwalk⟩ := address_walks hcov haddr digitVal_space (count ++ 0#8 :: q)
  refine ⟨ptr, ?_, hwalk⟩
  rw [Serial.commandWriteb, hptr]
  simp only [count_isHex _ hcount digitVal_nul, Nat.mod_eq_of_lt hn]

/-- A range the part gets through is transferred. -/
theorem transfers_of_covers (m : Stage2) (hs : s.ctl = .line []) (hcov : s.mode.Covers a n)
    (hn : n < 2 ^ s.mode.bits) : m.Transfers s a n where
  readb {addr count e} haddr hcount he hlen := by
    have hword : ∀ c ∈ ascii "READB ", Plain c := plain_of_all rfl
    obtain ⟨q, hq, hfeed⟩ := m.feedAll_operandLine s hword haddr hcount he hlen hs
    have hread := readCommand_walks hcov hn haddr hcount (fun al => [al]) q
    rw [List.flatMap_singleton'] at hread
    rw [hfeed, m.mainLoopCommand_readb _ hq]
    exact hread
  read {addr count e} haddr hcount he hlen := by
    have hword : ∀ c ∈ ascii "READ ", Plain c := plain_of_all rfl
    obtain ⟨q, hq, hfeed⟩ := m.feedAll_operandLine s hword haddr hcount he hlen hs
    have hread := readCommand_walks hcov hn haddr hcount (fun al => comHex8Out al ++ [0x20#8]) q
    rw [← hexDump_eq] at hread
    rw [hfeed, m.mainLoopCommand_read _ hq]
    exact hread
  writeb {addr count e} haddr hcount he hlen data hdata := by
    have hword : ∀ c ∈ ascii "WRITEB ", Plain c := plain_of_all rfl
    obtain ⟨q, hq, hfeed⟩ := m.feedAll_operandLine s hword haddr hcount he hlen hs
    obtain ⟨ptr, hptr, hwalk⟩ := commandWriteb_walks hcov hn haddr hcount q
    have hstart : m.feedAll s (operandLine (ascii "WRITEB ") addr count ++ [e])
        = s.writebLoop ptr n := by
      rw [hfeed, m.mainLoopCommand_writeb _ hq]
      exact hptr
    refine ⟨fun k hk => ?_, ?_⟩
    · have hlen : (data.take k).length = k := by
        rw [List.length_take]
        omega
      obtain ⟨ptr', hdata⟩ := m.feedAll_writebLoop_walks (data.take k) s ptr _
        (by omega) hwalk
      rw [m.feedAll_append, hstart, hdata, hlen]
      exact Serial.data_writebLoop _ _ (by omega)
    · obtain ⟨ptr', hall⟩ := m.feedAll_writebLoop_walks data s ptr _ hdata.le hwalk
      rw [m.feedAll_append, hstart, hall, hdata, Nat.sub_self]
      rfl

theorem length_le_flatMap_cons (c : Byte) : ∀ data : List (List Byte),
    data.length ≤ (data.flatMap fun ds => c :: ds).length
  | [] => Nat.zero_le _
  | ds :: data => by
    have ih := length_le_flatMap_cons c data
    rw [List.flatMap_cons, List.length_append, List.length_cons, List.length_cons]
    omega

/-- So are the bytes of a WRITE. -/
theorem stores_of_covers (m : Stage2) (hs : s.ctl = .line []) (hcov : s.mode.Covers a n) :
    m.Stores s a n := by
  intro addr data e haddr hlength hdata he hlen
  have hplain : ∀ c ∈ writeLine addr data, Plain c := by
    have hword : ∀ c ∈ ascii "WRITE ", Plain c := plain_of_all rfl
    intro c hc
    simp only [writeLine, List.mem_append, List.mem_flatMap, List.mem_cons] at hc
    rcases hc with hc | hc | ⟨digits, hmem, rfl | hc⟩
    · exact hword c hc
    · exact plain_of_isHex haddr hc
    · exact plain_space
    · exact plain_of_isHex (hdata digits hmem) hc
  obtain ⟨q, hq⟩ := m.inBuf_eq (Nat.lt_succ_of_le hlen)
  have hdi : (m.inBuf (writeLine addr data)).length - (writeLine addr data).length
      = q.length + 1 := by
    rw [hq, List.length_append, List.length_cons, Nat.add_sub_cancel_left]
  have hsi : m.inBuf (writeLine addr data)
      = ascii "WRITE " ++ (addr ++ ((data.flatMap fun ds => 0x20#8 :: ds) ++ 0#8 :: q)) := by
    rw [hq, writeLine, List.append_assoc, List.append_assoc]
  rw [m.feedAll_command s hplain (by simp [writeLine, ascii]) he hs, List.take_of_length_le hlen,
    m.mainLoopCommand_write _ hsi, hdi, Serial.commandWrite]
  rcases data with - | ⟨digits, data⟩
  · obtain ⟨ptr, hptr, -⟩ := address_walks hcov haddr digitVal_nul q
    simp only [List.flatMap_nil, List.nil_append, hptr, writeLoop_end _ (Nat.le_succ _), if_true]
    rfl
  · obtain ⟨ptr, hptr, hwalk⟩ := address_walks hcov haddr digitVal_space
      (digits ++ ((data.flatMap fun ds => 0x20#8 :: ds) ++ 0#8 :: q))
    have hfuel : data.length
        < (digits ++ ((data.flatMap fun ds => 0x20#8 :: ds) ++ 0#8 :: q)).length := by
      refine (length_le_flatMap_cons 0x20#8 data).trans_lt ?_
      rw [List.length_append, List.length_append, List.length_cons]
      exact Nat.lt_add_left _ (Nat.lt_add_of_pos_right (Nat.succ_pos _))
    rw [← hlength] at hwalk
    simp only [List.flatMap_cons, List.cons_append, List.append_assoc, hptr,
      writeLoop_data _ q data digits _ ptr _ _ hdata hfuel hwalk, if_true]
    rfl

end Commands

/-! ## The 8086 part -/

theorem getElem?_readLoop_real (mem : Mem 32) (es : BitVec 16) : ∀ (n k : ℕ) (bx : BitVec 16),
    k < n → (readLoop (fun al => [al]) mem n (.real es bx)).1[k]?
      = some (mem ((es.setWidth 32 <<< 4) + (bx + BitVec.ofNat 16 k).setWidth 32))
  | 0, k, _, h => absurd h (Nat.not_lt_zero k)
  | n + 1, 0, bx, _ => by
    rw [BitVec.add_zero]
    rfl
  | n + 1, k + 1, bx, h => by
    have hstep : bx + 1 + BitVec.ofNat 16 k = bx + BitVec.ofNat 16 (k + 1) := by
      rw [BitVec.ofNat_add, BitVec.add_assoc, BitVec.add_comm 1]
      rfl
    have ih := getElem?_readLoop_real mem es n k (bx + 1) (Nat.lt_of_succ_lt_succ h)
    rw [hstep] at ih
    exact ih

section Readb

variable (m : Stage2) {s : Serial} {a n : ℕ}

theorem length_readb (ha : a ≤ 2 ^ 20) (hn : n ≤ 0xFFFF) :
    (operandLine (ascii "READB ") (numeral a) (numeral n)).length ≤ 255 := by
  have hword : (ascii "READB ").length = 6 := rfl
  have haddr := numeral_length_le (n := a) (k := 6) (by omega) (by omega)
  have hcount := numeral_length_le (n := n) (k := 4) (by omega) (by omega)
  rw [operandLine, List.length_append, List.length_append, List.length_cons, hword]
  omega

theorem feedAll_readb (hs : s.ctl = .line []) (ha : a ≤ 2 ^ 20) (hn : n ≤ 0xFFFF) :
    ∃ q, m.feedAll s (operandLine (ascii "READB ") (numeral a) (numeral n) ++ [0x0A#8])
      = s.commandReadb (numeral a ++ 0x20#8 :: (numeral n ++ 0#8 :: q)) := by
  have hword : ∀ c ∈ ascii "READB ", Plain c := plain_of_all rfl
  obtain ⟨q, hq, hfeed⟩ := m.feedAll_operandLine s hword (isHex_numeral a) (isHex_numeral n)
    (.inl rfl) (length_readb ha hn) hs
  refine ⟨q, ?_⟩
  rw [hfeed, m.mainLoopCommand_readb _ hq]
  rfl

/-- What READB answers when the address is not refused, whether or not the offset wraps. -/
theorem feedAll_readb_8086 (hmode : s.mode = .i8086) (hs : s.ctl = .line []) (ha : a < 2 ^ 20)
    (hn : n ≤ 0xFFFF) :
    ∃ es bx : BitVec 16, bx.toNat = a % 16
      ∧ (es.setWidth 32 <<< 4) + bx.setWidth 32 = BitVec.ofNat 32 a
      ∧ m.feedAll s (operandLine (ascii "READB ") (numeral a) (numeral n) ++ [0x0A#8])
        = s.responseOutput (readLoop (fun al => [al]) s.mem n (.real es bx)).1 := by
  obtain ⟨es, bx, hptr, hbx, hphys⟩ := dxAxPhysToReal_eq ha
  obtain ⟨q, hfeed⟩ := feedAll_readb m hs ha.le hn
  have hlow : BitVec.ofNat 16 (a / 2 ^ 16) < 0x10 := by
    rw [BitVec.lt_def, BitVec.toNat_ofNat]
    exact (Nat.mod_le _ _).trans_lt (by simp; omega)
  have haddress : s.mode.address (numeral a ++ 0x20#8 :: (numeral n ++ 0#8 :: q))
      = (some (.real es bx), numeral n ++ 0#8 :: q) := by
    rw [hmode, Mode.address, strtohex32_digits (isHex_numeral a).digits digitVal_space,
      value_numeral]
    simp only [if_pos hlow, hptr]
  have hcount : s.mode.count (numeral n ++ 0#8 :: q) = n := by
    rw [count_numeral _ _ digitVal_nul, hmode]
    exact Nat.mod_eq_of_lt (Nat.lt_succ_of_le hn)
  have hdone := (readLoop_done_iff (fun al => [al]) s.mem n (.real es bx)).2
    (present_of_ne_flat64 n (by simp))
  refine ⟨es, bx, hbx, hphys, ?_⟩
  rw [hfeed, Serial.commandReadb, Serial.readCommand, haddress]
  simp only [hcount, hdone, if_true]

/-- The property at READB alone. -/
def ReadbExact (m : Stage2) (a n : ℕ) : Prop :=
  ∀ s : Serial, s.mode = .i8086 → s.ctl = .line [] →
    m.feedAll s (operandLine (ascii "READB ") (numeral a) (numeral n) ++ [0x0A#8])
      = s.responseOutput (read s.mem (BitVec.ofNat 32 a) n)

theorem ReadbExact.lt (h : ReadbExact m a n) (ha : a ≤ 2 ^ 20) (hn : n ≤ 0xFFFF) :
    a < 2 ^ 20 := by
  by_contra hge
  obtain ⟨q, hfeed⟩ := feedAll_readb m (s := .start) rfl ha hn
  have hnone := (address_eq_none_iff .i8086 (isHex_numeral a).digits digitVal_space
    (numeral n ++ 0#8 :: q)).2 (by rw [value_numeral, Mode.Refuses]; omega)
  have hread := h .start rfl rfl
  rw [hfeed, Serial.commandReadb, readCommand_refused hnone] at hread
  exact responseOutput_ne_err _ _ _ hread.symm

theorem ReadbExact.not_wrap (h : ReadbExact m a n) (ha : a < 2 ^ 20) (hn : n ≤ 0xFFFF) :
    a % 16 + n ≤ 2 ^ 16 := by
  by_contra hwrap
  -- the offset comes to zero at byte `k`, which is read 64 KB too low
  obtain ⟨k, hk⟩ : ∃ k, a % 16 + k = 2 ^ 16 := ⟨2 ^ 16 - a % 16, by omega⟩
  let mem : Mem 32 := fun x => if x = BitVec.ofNat 32 (a + k) then 1 else 0
  let s : Serial := { Serial.start with mem := mem }
  obtain ⟨es, bx, hbx, hphys, hfeed⟩ := feedAll_readb_8086 m (s := s) rfl rfl ha hn
  have hbytes := responseOutput_inj (hfeed.symm.trans (h s rfl rfl))
  have hbyte := congrArg (·[k]?) hbytes
  have hzero : bx + BitVec.ofNat 16 k = 0#16 := by
    apply BitVec.eq_of_toNat_eq
    rw [BitVec.toNat_add, hbx, BitVec.toNat_ofNat, BitVec.toNat_ofNat]
    omega
  have hlow : es.setWidth 32 <<< 4 ≠ BitVec.ofNat 32 (a + k) := by
    intro heq
    have hoff : bx.setWidth 32 = BitVec.ofNat 32 (a % 16) := by
      apply BitVec.eq_of_toNat_eq
      rw [BitVec.toNat_setWidth, hbx, BitVec.toNat_ofNat]
    rw [heq, hoff, ← BitVec.ofNat_add] at hphys
    have hnat := congrArg BitVec.toNat hphys
    rw [BitVec.toNat_ofNat, BitVec.toNat_ofNat] at hnat
    omega
  simp only [getElem?_readLoop_real _ es n k bx (by omega),
    getElem?_read _ n k _ (by omega : k < n), hzero, ← BitVec.ofNat_add] at hbyte
  simp [s, mem] at hbyte
  exact hlow hbyte

end Readb

/-- A command of the 8086 part touches its range exactly when the offset does not wrap in it; the
address 100000 (hex) is refused even for no bytes. -/
theorem transfers_8086_iff (m : Stage2) {a n : ℕ} (hn : n ≤ 0xFFFF) (han : a + n ≤ 2 ^ 20) :
    (∀ s : Serial, s.mode = .i8086 → s.ctl = .line [] → m.Transfers s a n)
      ↔ a < 2 ^ 20 ∧ a % 16 + n ≤ 2 ^ 16 := by
  constructor
  · intro h
    have hreadb : ReadbExact m a n := fun s hmode hs =>
      (h s hmode hs).readb (isHex_numeral a) (isHex_numeral n) (.inl rfl)
        (length_readb (by omega) hn)
    have ha := hreadb.lt m (by omega) hn
    exact ⟨ha, hreadb.not_wrap m ha hn⟩
  · intro hcov s hmode hs
    exact transfers_of_covers m hs (hmode ▸ hcov) (by rw [hmode]; exact Nat.lt_succ_of_le hn)

theorem transfers_8086_next_segment : stage2.Transfers .start 0x2FFFF 0xFFF1 :=
  (transfers_8086_iff stage2 (by decide) (by decide)).2 (by decide) .start rfl rfl

/-- From 2000F (hex) on, the byte at 30000 is not reached: the one at 20000 is read in its place. -/
theorem not_transfers_8086_wrap :
    ¬ ∀ s : Serial, s.mode = .i8086 → s.ctl = .line [] → stage2.Transfers s 0x2000F 0xFFFF := by
  intro h
  have hreadb : ReadbExact stage2 0x2000F 0xFFFF := fun s hmode hs =>
    (h s hmode hs).readb (isHex_numeral _) (isHex_numeral _) (.inl rfl)
      (length_readb (by decide) le_rfl)
  have hwrap := hreadb.not_wrap stage2 (by decide) le_rfl
  revert hwrap
  decide

/-! ## The protected-mode parts -/

/-- The 286, 386 and x64 parts do the same for every range below 16 MB. -/
theorem protected_transfers (m : Stage2) {s : Serial} (hmode : s.mode ≠ .i8086)
    (hs : s.ctl = .line []) {a n : ℕ} (ha : a < 2 ^ 24) (hn : n ≤ 0xFFFF)
    (han : a + n ≤ 2 ^ 24) : m.Transfers s a n ∧ m.Stores s a n := by
  have hcov : s.mode.Covers a n := by
    rcases hm : s.mode with - | - | - | - | -
    · exact absurd hm hmode
    · exact ⟨ha, by omega⟩
    · exact (by omega : n ≤ 2 ^ 16)
    · trivial
    · exact (by omega : a + n ≤ 2 ^ 36)
  have hbits : n < 2 ^ s.mode.bits := by
    have hpow : 2 ^ 16 ≤ 2 ^ s.mode.bits := Nat.pow_le_pow_right (by omega) (by
      rcases s.mode with - | - | - | - | - <;> decide)
    omega
  exact ⟨transfers_of_covers m hs hcov hbits, stores_of_covers m hs hcov⟩

theorem protected_transfers_286_top :
    stage2.Transfers { Serial.start with mode := .i286 } 0xFFFFFF 1
      ∧ stage2.Stores { Serial.start with mode := .i286 } 0xFFFFFF 1 :=
  protected_transfers stage2 (by decide) rfl (by decide) (by decide) (by decide)

/-- At 16 MB the 286 part has its limit: it refuses to read no bytes there, and the others do not. -/
theorem readb_16M_differs :
    let line := operandLine (ascii "READB ") (numeral (2 ^ 24)) (numeral 0) ++ [0x0A#8]
    (stage2.feedAll { Serial.start with mode := .i286 } line).out
        = ascii "ERR Invalid address" ++ crlf
      ∧ (stage2.feedAll { Serial.start with mode := .i386x16 } line).out = ascii "OK " ++ crlf := by
  decide

end RemoteX86
