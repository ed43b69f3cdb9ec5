import RemoteX86.Lib.Search
import RemoteX86.PciTable

/-!
# What `pci_find` looks for

The arguments are 16 bits wide and compared as ints, so `PCI_ANY` is the number FFFF, which never
equals ~0, and a class code has lost its upper byte.  The first entry found is the right one where
nothing that only one of the two searches wants stands in front of what both want.
-/

namespace RemoteX86

/-! ## The comparisons -/

/-- Widened to an int, no argument is `PCI_ANY`. -/
theorem setWidth_ne_pciAny (x : BitVec 16) : x.setWidth 32 ≠ pciAny := by
  intro h
  have hx := x.isLt
  have hnat := congrArg BitVec.toNat h
  have hany : pciAny.toNat = 2 ^ 32 - 1 := rfl
  rw [BitVec.toNat_setWidth, hany] at hnat
  omega

theorem and_eq_and_iff {w : ℕ} (x y mask : BitVec w) :
    x &&& mask = y &&& mask ↔ ∀ i < w, mask.getLsbD i = true → x.getLsbD i = y.getLsbD i := by
  constructor
  · intro h i _ hmask
    have hi := congrArg (BitVec.getLsbD · i) h
    simpa [hmask] using hi
  · intro h
    refine BitVec.eq_of_getLsbD_eq fun i hi => ?_
    rw [BitVec.getLsbD_and, BitVec.getLsbD_and]
    rcases hmask : mask.getLsbD i with _ | _
    · simp
    · rw [h i hi hmask]

theorem setWidth_eq_setWidth_iff (x y : BitVec 32) :
    x.setWidth 24 = y.setWidth 24 ↔ ∀ i < 24, x.getLsbD i = y.getLsbD i := by
  constructor
  · intro h i hi
    have hbit := congrArg (BitVec.getLsbD · i) h
    simpa [hi] using hbit
  · intro h
    refine BitVec.eq_of_getLsbD_eq fun i hi => ?_
    simp [hi, h i hi]

/-- The three masks together are 24 bits. -/
theorem masks_eq_iff (x y : BitVec 32) :
    (x &&& 0xFF0000#32 = y &&& 0xFF0000#32 ∧ x &&& 0x00FF00#32 = y &&& 0x00FF00#32
      ∧ x &&& 0x0000FF#32 = y &&& 0x0000FF#32) ↔ x.setWidth 24 = y.setWidth 24 := by
  have hmasks : ∀ i < 32, ((0xFF0000#32).getLsbD i || (0x00FF00#32).getLsbD i
      || (0x0000FF#32).getLsbD i) = decide (i < 24) := by decide
  rw [and_eq_and_iff, and_eq_and_iff, and_eq_and_iff, setWidth_eq_setWidth_iff]
  constructor
  · rintro ⟨hupper, hmid, hlow⟩ i hi
    have hbits := hmasks i (by omega)
    rw [decide_eq_true hi, Bool.or_eq_true, Bool.or_eq_true] at hbits
    rcases hbits with (h | h) | h
    · exact hupper i (by omega) h
    · exact hmid i (by omega) h
    · exact hlow i (by omega) h
  · intro h
    refine ⟨fun i hi hm => ?_, fun i hi hm => ?_, fun i hi hm => ?_⟩ <;>
    · have hbits := hmasks i hi
      rw [hm] at hbits
      exact h i (by simpa using hbits.symm)

variable (q : PciQuery)

theorem pciFindMatches_eq (dev : PciDeviceRecord) :
    pciFindMatches (PciQuery.arg q.deviceId) (PciQuery.arg q.vendorId) (PciQuery.arg q.classCode) dev
      = decide (q.SelectsShort dev) := by
  have hclass := masks_eq_iff ((PciQuery.arg q.classCode).setWidth 32) dev.classCode
  rw [BitVec.setWidth_setWidth_of_le _ (by decide)] at hclass
  have hshort : q.SelectsShort dev ↔ ¬ dev.deviceId = 0 ∧ PciQuery.arg q.deviceId = dev.deviceId
      ∧ PciQuery.arg q.vendorId = dev.vendorId
      ∧ (PciQuery.arg q.classCode).setWidth 24 = dev.classCode.setWidth 24 := by
    unfold PciQuery.SelectsShort
    tauto
  rw [← hclass] at hshort
  rw [Bool.eq_iff_iff, decide_eq_true_iff, hshort]
  unfold pciFindMatches
  simp only [setWidth_ne_pciAny, ne_eq, not_false_eq_true, true_and, if_true]
  split_ifs <;> simp_all

/-! ## The loop -/

theorem pciFindLoop_eq (deviceId vendorId classCode : BitVec 16) :
    ∀ (devs : List PciDeviceRecord) (idx : ℕ), pciFindLoop deviceId vendorId classCode idx devs =
      (devs.findIdx? (pciFindMatches deviceId vendorId classCode)).map (· + idx)
  | [], _ => rfl
  | dev :: devs, idx => by
    rw [pciFindLoop, List.findIdx?_cons, pciFindLoop_eq deviceId vendorId classCode devs (idx + 1)]
    rcases pciFindMatches deviceId vendorId classCode dev with _ | _
    · simp only [Bool.false_eq_true, if_false, Option.map_map]
      refine congrArg (fun f => Option.map f _) (funext fun i => ?_)
      simp only [Function.comp_apply]
      omega
    · simp

/-- `pci_find` is a search with the arguments cut to 16 bits. -/
theorem find_eq (t : PciTable) :
    q.find t = t.devices.findIdx? fun dev => decide (q.SelectsShort dev) := by
  unfold PciQuery.find pciFind
  rcases hp : t.present with _ | _
  · rw [eq_comm]
    simp only [Bool.not_false, if_true, List.findIdx?_eq_none_iff, decide_eq_false_iff_not]
    exact fun dev hdev hsel => hsel.1 (t.absent hp dev hdev)
  · simp only [Bool.not_true, Bool.false_eq_true, if_false, pciFindLoop_eq, Nat.add_zero,
      Option.map_id']
    exact congrArg (fun p => List.findIdx? p t.devices) (funext (pciFindMatches_eq q))

theorem finds_iff (t : PciTable) (r : Option ℕ) :
    q.Finds t r ↔ (t.devices.findIdx? fun dev => decide (q.Selects dev)) = r := by
  rcases r with _ | i
  · simp [PciQuery.Finds, List.findIdx?_eq_none_iff]
  · rw [List.findIdx?_eq_some_iff_getElem]
    constructor
    · rintro ⟨dev, hget, hsel, hbefore⟩
      obtain ⟨hi, rfl⟩ := List.getElem?_eq_some_iff.1 hget
      exact ⟨hi, decide_eq_true hsel, fun j hj => by
        simpa using hbefore j hj _ (List.getElem?_eq_getElem (hj.trans hi))⟩
    · rintro ⟨hi, hsel, hbefore⟩
      refine ⟨_, List.getElem?_eq_getElem hi, of_decide_eq_true hsel, fun j hj dev hget => ?_⟩
      obtain ⟨hj', rfl⟩ := List.getElem?_eq_some_iff.1 hget
      simpa using hbefore j hj

/-! ## Where both searches agree -/

variable {q}

theorem finds_iff_agree (t : PciTable) : q.Finds t (q.find t) ↔
    ∀ before dev after, t.devices = before ++ dev :: after →
      ¬(q.Selects dev ↔ q.SelectsShort dev) → ∃ e ∈ before, q.Selects e ∧ q.SelectsShort e := by
  rw [finds_iff, find_eq, Search.findIdx?_eq_findIdx?_iff]
  simp only [ne_eq, decide_eq_decide, decide_eq_true_eq]

theorem asks_some {w : ℕ} (d x : BitVec w) : PciQuery.Asks (some d) x ↔ x = d := by
  simp [PciQuery.Asks, eq_comm]

/-- A query that leaves nothing open loses nothing. -/
theorem selects_iff_of_plain (h : q.Plain) (dev : PciDeviceRecord) :
    q.Selects dev ↔ q.SelectsShort dev := by
  obtain ⟨hd, hv, c, hc, hlt⟩ := h
  obtain ⟨d, hd⟩ := Option.isSome_iff_exists.1 hd
  obtain ⟨v, hv⟩ := Option.isSome_iff_exists.1 hv
  have hclass : (c.setWidth 16).setWidth 24 = c := by
    apply BitVec.eq_of_toNat_eq
    rw [BitVec.toNat_setWidth, BitVec.toNat_setWidth]
    omega
  simp [PciQuery.Selects, PciQuery.SelectsShort, asks_some, PciQuery.arg, hd, hv,
    Option.mem_def.1 hc, hclass]

/-- What a query asks for, with a device id that an occupied entry can have. -/
def PciQuery.wanted (q : PciQuery) : PciDeviceRecord where
  deviceId := q.deviceId.getD 1
  classCode := (q.classCode.getD 0).setWidth 32
  bus := 0
  device := 0
  function := 0
  vendorId := q.vendorId.getD 0
  revisionId := 0
  subsystemId := 0
  subsystemVendorId := 0
  expansionRom := 0
  bar _ := {}

theorem selects_wanted (h : q.deviceId ≠ some 0) : q.Selects q.wanted := by
  have hne : q.deviceId.getD 1 ≠ 0 := by
    rcases hd : q.deviceId with _ | d
    · decide
    · rintro rfl
      exact h hd
  refine ⟨hne, ?_, ?_, ?_⟩ <;> unfold PciQuery.Asks PciQuery.wanted
  · rcases q.deviceId with _ | d <;> simp
  · rcases q.vendorId with _ | v <;> simp
  · rcases q.classCode with _ | c <;> simp

theorem plain_of_selectsShort_wanted (h : q.SelectsShort q.wanted) : q.Plain := by
  obtain ⟨-, hd, hv, hc⟩ := h
  refine ⟨?_, ?_, ?_⟩
  · rcases hq : q.deviceId with _ | d
    · simp [PciQuery.wanted, PciQuery.arg, pciAny, hq] at hd
    · rfl
  · rcases hq : q.vendorId with _ | v
    · simp [PciQuery.wanted, PciQuery.arg, pciAny, hq] at hv
    · rfl
  · rcases hq : q.classCode with _ | c
    · simp [PciQuery.wanted, PciQuery.arg, pciAny, hq] at hc
    · refine ⟨c, rfl, ?_⟩
      have hnat := congrArg BitVec.toNat hc
      simp [PciQuery.wanted, PciQuery.arg, hq] at hnat
      omega

/-- The result is right exactly where, before every entry that the query or its 16 bits select but
not both, there is one that both select; in every table just for queries that leave nothing open and
have no upper byte in the class code, and for the device id no occupied entry has. -/
theorem pciFind_finds_iff (q : PciQuery) :
    (∀ t : PciTable, q.Finds t (q.find t) ↔
      ∀ before dev after, t.devices = before ++ dev :: after →
        ¬(q.Selects dev ↔ q.SelectsShort dev) → ∃ e ∈ before, q.Selects e ∧ q.SelectsShort e) ∧
    ((∀ t : PciTable, q.Finds t (q.find t)) ↔ q.deviceId = some 0 ∨ q.Plain) := by
  refine ⟨finds_iff_agree, fun h => ?_, fun h t => ?_⟩
  · by_cases hzero : q.deviceId = some 0
    · exact .inl hzero
    · have hfinds := h ⟨true, [q.wanted], by simp [maxPciDevice], by simp⟩
      have hagree := (finds_iff_agree _).1 hfinds [] q.wanted [] rfl
      by_contra hnot
      refine absurd (hagree fun hiff => ?_) (by simp)
      exact hnot (.inr (plain_of_selectsShort_wanted (hiff.1 (selects_wanted hzero))))
  · rw [finds_iff_agree]
    intro before dev after _ hne
    refine absurd ?_ hne
    rcases h with h | h
    · have hnot : ¬ q.Selects dev := by
        rintro ⟨hne, hasks, -⟩
        rw [h] at hasks
        rcases hasks with hasks | hasks
        · cases hasks
        · exact hne (Option.some.inj hasks).symm
      have hnot' : ¬ q.SelectsShort dev := fun hsel => hsel.1 (by simpa [PciQuery.arg, h] using hsel.2.1)
      exact iff_of_false hnot hnot'
    · exact selects_iff_of_plain h dev

/-- A table with one RealTek card, an Ethernet controller. -/
def networkTable : PciTable where
  present := true
  devices := [PciQuery.wanted ⟨some 0x8136, some 0x10EC, some 0x020000⟩]
  length_le := by simp [maxPciDevice]
  absent := by simp

/-- Neither by its vendor alone nor by all it has is the card found. -/
theorem not_finds_any :
    ((⟨none, some 0x10EC, none⟩ : PciQuery).find networkTable = none
      ∧ ¬ (⟨none, some 0x10EC, none⟩ : PciQuery).Finds networkTable none)
    ∧ (⟨some 0x8136, some 0x10EC, some 0x020000⟩ : PciQuery).find networkTable = none
      ∧ ¬ (⟨some 0x8136, some 0x10EC, some 0x020000⟩ : PciQuery).Finds networkTable none := by
  refine ⟨⟨rfl, fun h => ?_⟩, rfl, fun h => ?_⟩
  · exact h _ (List.mem_singleton_self _) (by decide)
  · exact h _ (List.mem_singleton_self _) (by decide)

end RemoteX86
