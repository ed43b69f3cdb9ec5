import RemoteX86.Console

/-!
# Which addresses are taken

`change_ip_addr_ui` takes every text with three dots or more: an empty part is zero, a part counts
modulo 256, and what follows the fourth part is not looked at.
-/

namespace RemoteX86

open Hex Emitting

/-! ## Numbers -/

/-- A decimal digit. -/
def IsDecimal (c : Byte) : Prop := 0x30 ≤ c ∧ c ≤ 0x39

theorem chartohex_decimal {c : Byte} (h : IsDecimal c) : chartohex c = some (c.toNat - 0x30) := by
  unfold chartohex
  exact if_pos h

theorem chartohex_dot : chartohex 0x2E = none := rfl

/-- Digits are read one after another, modulo `2 ^ 32`. -/
theorem strtoulDecLoop_append : ∀ (d : List Byte) (n : ℕ) (p : List Byte), (∀ c ∈ d, IsDecimal c) →
    strtoulDecLoop (BitVec.ofNat 32 n) (d ++ p)
      = strtoulDecLoop (BitVec.ofNat 32 (d.foldl (fun v c => v * 10 + (c.toNat - 0x30)) n)) p
  | [], _, _, _ => rfl
  | c :: d, n, p, h => by
    have hc := h c List.mem_cons_self
    have hlt : ¬ 10 ≤ c.toNat - 0x30 := by
      have hle : c.toNat ≤ 0x39 := hc.2
      omega
    have hval : BitVec.ofNat 32 n * 10 + BitVec.ofNat 32 (c.toNat - 0x30)
        = BitVec.ofNat 32 (n * 10 + (c.toNat - 0x30)) := by
      rw [BitVec.ofNat_add, BitVec.ofNat_mul]
      rfl
    rw [List.cons_append, strtoulDecLoop, chartohex_decimal hc]
    simp only [if_neg hlt, hval]
    exact strtoulDecLoop_append d _ p fun c' hc' => h c' (List.mem_cons_of_mem _ hc')

theorem sStrtoulDec_last {d : List Byte} (h : ∀ c ∈ d, IsDecimal c) :
    sStrtoulDec d = (BitVec.ofNat 32 (partValue d), []) := by
  have hread := strtoulDecLoop_append d 0 [] h
  rw [List.append_nil] at hread
  exact hread

theorem sStrtoulDec_dot {d : List Byte} (h : ∀ c ∈ d, IsDecimal c) (p : List Byte) :
    sStrtoulDec (d ++ 0x2E :: p) = (BitVec.ofNat 32 (partValue d), 0x2E :: p) := by
  have hread := strtoulDecLoop_append d 0 (0x2E :: p) h
  rw [strtoulDecLoop, chartohex_dot] at hread
  exact hread

/-- A byte of an address is what was read modulo 256. -/
theorem setWidth_ofNat_byte (n : ℕ) : (BitVec.ofNat 32 n).setWidth 8 = BitVec.ofNat 8 n :=
  BitVec.setWidth_ofNat_of_le (by decide) n

/-! ## Parts -/

/-- A text of digits and dots is one part, or starts with a part and a dot. -/
theorem parts_cases {s : List Byte} (hs : ∀ c ∈ s, IsAddressChar c) :
    ((∀ c ∈ s, IsDecimal c) ∧ addressParts s = [s])
      ∨ ∃ d p, s = d ++ 0x2E :: p ∧ (∀ c ∈ d, IsDecimal c) ∧ (∀ c ∈ p, IsAddressChar c)
        ∧ addressParts s = d :: addressParts p := by
  have hdigits : ∀ d : List Byte, (∀ c ∈ d, c ∈ s) → 0x2E ∉ d → ∀ c ∈ d, IsDecimal c := by
    intro d hsub hdot c hc
    exact (hs c (hsub c hc)).resolve_right fun h => hdot (h ▸ hc)
  by_cases hdot : 0x2E ∈ s
  · obtain ⟨d, p, rfl, hd⟩ := List.eq_append_cons_of_mem hdot
    exact Or.inr ⟨d, p, rfl, hdigits d (fun _ h => List.mem_append_left _ h) hd,
      fun c hc => hs c (List.mem_append_right _ (List.mem_cons_of_mem _ hc)),
      List.splitOn_append_cons_self_of_not_mem hd p⟩
  · exact Or.inl ⟨hdigits s (fun _ h => h) hdot, List.splitOn_eq_singleton hdot⟩

/-- The value of the first part, whatever stands behind it. -/
theorem sStrtoulDec_fst {s : List Byte} (hs : ∀ c ∈ s, IsAddressChar c) :
    ∃ d ds, addressParts s = d :: ds ∧ (sStrtoulDec s).1 = BitVec.ofNat 32 (partValue d) := by
  rcases parts_cases hs with ⟨hd, hparts⟩ | ⟨d, p, rfl, hd, -, hparts⟩
  · exact ⟨s, [], hparts, by rw [sStrtoulDec_last hd]⟩
  · exact ⟨d, addressParts p, hparts, by rw [sStrtoulDec_dot hd]⟩

/-- What a text does to the address is up to its first four parts. -/
theorem changeIpAddr_eq {s : List Byte} (hs : ∀ c ∈ s, IsAddressChar c) (my : Ipv4Address) :
    ((addressParts s).length < 4 → changeIpAddr s my = my)
      ∧ (4 ≤ (addressParts s).length → (changeIpAddr s my).toList = addressBytes s) := by
  have hnul : (0 : Byte) ≠ 0x2E := by decide
  rcases parts_cases hs with ⟨ha, hparts⟩ | ⟨a, s₁, rfl, ha, hs₁, hparts⟩
  · rw [hparts]
    refine ⟨fun _ => ?_, fun h => absurd h (by simp)⟩
    simp only [changeIpAddr, sStrtoulDec_last ha, List.headD_nil, if_neg hnul]
  rcases parts_cases hs₁ with ⟨hb, hparts₁⟩ | ⟨b, s₂, rfl, hb, hs₂, hparts₁⟩
  · rw [hparts, hparts₁]
    refine ⟨fun _ => ?_, fun h => absurd h (by simp)⟩
    simp only [changeIpAddr, sStrtoulDec_dot ha, List.headD_cons, List.tail_cons, if_true,
      sStrtoulDec_last hb, List.headD_nil, if_neg hnul]
  rcases parts_cases hs₂ with ⟨hc, hparts₂⟩ | ⟨c, s₃, rfl, hc, hs₃, hparts₂⟩
  · rw [hparts, hparts₁, hparts₂]
    refine ⟨fun _ => ?_, fun h => absurd h (by simp)⟩
    simp only [changeIpAddr, sStrtoulDec_dot ha, sStrtoulDec_dot hb, List.headD_cons,
      List.tail_cons, if_true, sStrtoulDec_last hc, List.headD_nil]
    exact if_neg hnul
  obtain ⟨d, ds, hparts₃, hd⟩ := sStrtoulDec_fst hs₃
  rw [addressBytes, hparts, hparts₁, hparts₂, hparts₃]
  refine ⟨fun h => absurd h ?_, fun _ => ?_⟩
  · simp only [List.length_cons]
    omega
  · simp only [changeIpAddr, sStrtoulDec_dot ha, sStrtoulDec_dot hb, sStrtoulDec_dot hc,
      List.headD_cons, List.tail_cons, if_true, hd, setWidth_ofNat_byte]
    rfl

/-! ## Typing -/

theorem typeKey_addressChar {input : List Byte} (h : ∀ c ∈ input, IsAddressChar c) (r : Byte) :
    ∀ c ∈ typeKey input r, IsAddressChar c := by
  intro c hc
  unfold typeKey at hc
  split at hc
  · exact h c hc
  · split_ifs at hc with ha
    · rcases List.mem_append.1 hc with hc | hc
      · exact h c hc
      · exact List.mem_singleton.1 hc ▸ ha
    · exact h c hc
    · exact h c (List.mem_of_mem_dropLast hc)
    · exact h c hc

theorem typed_addressChar (keys : List Byte) : ∀ c ∈ typed keys, IsAddressChar c := by
  have hall : ∀ (keys input : List Byte), (∀ c ∈ input, IsAddressChar c) →
      ∀ c ∈ keys.foldl typeKey input, IsAddressChar c := by
    intro keys
    induction keys with
    | nil => exact fun _ h => h
    | cons r keys ih => exact fun input h => ih _ (typeKey_addressChar h r)
  exact hall keys [] fun _ h => nomatch h

section Typing

variable (g : TextMode) (t : PciTable)

/-- A key other than ENTER changes the text, and nothing else. -/
theorem changeIpKey_types (c : Console) (input : List Byte) {r : Byte}
    (hr : keyb8042ToAscii r ≠ some 13) :
    (changeIpKey g input r c).1.loop = .changeIp (typeKey input r)
      ∧ (changeIpKey g input r c).1.myIpv4Address = c.myIpv4Address := by
  unfold changeIpKey typeKey
  rcases hmap : keyb8042ToAscii r with _ | a
  · exact ⟨rfl, rfl⟩
  · have h13 : a ≠ 13 := fun h => hr (hmap.trans (congrArg some h))
    simp only [if_neg h13]
    split_ifs with haddr hlen h8 hpos
    · exact ⟨rfl, rfl⟩
    · exact ⟨rfl, rfl⟩
    · exact ⟨rfl, rfl⟩
    · rw [List.eq_nil_of_length_eq_zero (Nat.eq_zero_of_not_pos hpos)]
      exact ⟨rfl, rfl⟩
    · exact ⟨rfl, rfl⟩

/-- ENTER ends the text. -/
theorem changeIpKey_enter {c : Console} {input : List Byte} :
    (changeIpKey g input 0x1C c).1.myIpv4Address = changeIpAddr input c.myIpv4Address := by
  have henter : keyb8042ToAscii 0x1C = some 13 := by decide
  have haddr : ¬ IsAddressChar 13 := by decide
  have h8 : (13 : Byte) ≠ 8 := by decide
  simp only [changeIpKey, henter, if_neg haddr, if_neg h8, if_true]
  rfl

/-- Keys up to ENTER. -/
theorem run_changeIp : ∀ (keys : List Byte) (c : Console) (input : List Byte),
    (∀ r ∈ keys, keyb8042ToAscii r ≠ some 13) → c.loop = .changeIp input →
    (Console.run g t ((keys ++ [0x1C]).map .key) c).1.myIpv4Address
      = changeIpAddr (keys.foldl typeKey input) c.myIpv4Address
  | [], c, input, _, hloop => by
    have hstep : c.step g t (.key 0x1C) = changeIpKey g input 0x1C c := by
      simp only [Console.step, hloop]
    change (c.step g t (.key 0x1C)).1.myIpv4Address = _
    rw [hstep]
    exact changeIpKey_enter g
  | r :: keys, c, input, hkeys, hloop => by
    have hstep : c.step g t (.key r) = changeIpKey g input r c := by
      simp only [Console.step, hloop]
    obtain ⟨htext, hmy⟩ := changeIpKey_types g c input (hkeys r List.mem_cons_self)
    change (Console.run g t ((keys ++ [0x1C]).map .key) (c.step g t (.key r)).1).1.myIpv4Address = _
    rw [hstep, run_changeIp keys _ _ (fun r' hr' => hkeys r' (List.mem_cons_of_mem _ hr')) htext,
      hmy, List.foldl_cons]

end Typing

/-- Exactly a dotted quad, a text with fewer than three dots, and one whose first four parts are the
address there is are taken as they should be. -/
theorem takesQuad_iff (g : TextMode) (t : PciTable) (cursor : Cursor) (my : Ipv4Address)
    (keys : List Byte) (hkeys : ∀ r ∈ keys, keyb8042ToAscii r ≠ some 13) :
    TakesQuad (typed keys) my (changeIpAddrUi g t cursor my keys) ↔
      DottedQuad (typed keys) ∨ (addressParts (typed keys)).length < 4
        ∨ my.toList = addressBytes (typed keys) := by
  have hrun : changeIpAddrUi g t cursor my keys = changeIpAddr (typed keys) my :=
    run_changeIp g t keys _ [] hkeys rfl
  obtain ⟨hfew, htaken⟩ := changeIpAddr_eq (typed_addressChar keys) my
  rw [hrun]
  by_cases hquad : DottedQuad (typed keys)
  · exact iff_of_true ⟨fun _ => htaken hquad.1.ge, fun h => absurd hquad h⟩ (Or.inl hquad)
  · rcases Nat.lt_or_ge (addressParts (typed keys)).length 4 with hlen | hlen
    · exact iff_of_true ⟨fun h => absurd h hquad, fun _ => hfew hlen⟩ (Or.inr (Or.inl hlen))
    · have htaken := htaken hlen
      constructor
      · intro h
        refine Or.inr (Or.inr ?_)
        rw [← htaken, h.2 hquad]
      · rintro (h | h | h)
        · exact absurd h hquad
        · omega
        · exact ⟨fun h' => absurd h' hquad, fun _ => List.Vector.eq _ _ (htaken.trans h.symm)⟩

/-- The keys of a text of digits and dots. -/
def addressKeys (text : String) : List Byte :=
  (ascii text).map fun c => BitVec.ofNat 8 (keyb8042Map.idxOf (some c))

theorem takesQuad_iff_edited :
    let keys := addressKeys "10.0.0.1" ++ [0x0E, 0x1E] ++ addressKeys "7"
    TakesQuad (typed keys) (List.Vector.replicate 4 0)
        (changeIpAddrUi ⟨25, 80⟩ .empty ⟨0, 0⟩ (List.Vector.replicate 4 0) keys) ↔
      DottedQuad (typed keys) ∨ (addressParts (typed keys)).length < 4
        ∨ (List.Vector.replicate 4 (0 : Byte)).toList = addressBytes (typed keys) :=
  takesQuad_iff ⟨25, 80⟩ .empty ⟨0, 0⟩ (List.Vector.replicate 4 0)
    (addressKeys "10.0.0.1" ++ [0x0E, 0x1E] ++ addressKeys "7") (by decide)

/-- A text typed while the address is 0.0.0.0. -/
def TakesText (text : String) : Prop :=
  TakesQuad (typed (addressKeys text)) (List.Vector.replicate 4 0)
    (changeIpAddrUi ⟨25, 80⟩ .empty ⟨0, 0⟩ (List.Vector.replicate 4 0) (addressKeys text))

instance : DecidablePred TakesText := fun _ => inferInstanceAs (Decidable (TakesQuad _ _ _))

/-- A fifth part, an empty part and a number above 255 are taken. -/
theorem not_takesText :
    ¬ TakesText "1.2.3.4.5" ∧ ¬ TakesText "1..2.3" ∧ ¬ TakesText "256.0.0.1" := by
  decide +kernel

end RemoteX86
