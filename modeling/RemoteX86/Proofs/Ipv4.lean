import RemoteX86.Ipv4
import RemoteX86.Proofs.Checksum

/-!
# Which packets `net_on_ipv4` hands on

The ten checks, with the checksum loop between them that runs over a header of the packet's own
length, let through exactly the packets of `Acceptable`.  The loop reads beyond `sz` when the header
is said to be longer than that, but then a later check refuses the packet whatever the loop said.
-/

namespace RemoteX86

open Hex Memory

/-! ## The fields -/

theorem sum_otherHeaderWords (p : List Byte) : ∀ n,
    (((List.range n).filter (· ≠ 5)).map fun i => (net16 p (2 * i)).toNat).sum
      = wordTotal (some 5) p n
  | 0 => rfl
  | n + 1 => by
    rw [List.range_succ, List.filter_append, List.map_append, List.sum_append,
      sum_otherHeaderWords p n, wordTotal]
    by_cases hn : n = 5
    · subst hn
      rfl
    · simp [hn, Ne.symm hn]

theorem chksum_iff (pkt : List Byte) :
    (~~~ chksumWords (some 5) (ipv4HdrLen pkt >>> 1) pkt 0) &&& 0xFFFF
        = (net16 pkt 10).setWidth 32
      ↔ (net16 pkt 10).toNat = 65535 - Checksum.sum (otherHeaderWords pkt) := by
  have hlt : ∀ w ∈ otherHeaderWords pkt, w < 65536 := by
    intro w hw
    obtain ⟨i, -, rfl⟩ := List.mem_map.1 hw
    exact (net16 pkt (2 * i)).isLt
  have hsum : (chksumWords (some 5) (ipv4HdrLen pkt >>> 1) pkt 0).toNat
      = Checksum.sum (otherHeaderWords pkt) := by
    rw [toNat_chksumWords (some 5) pkt (t := 0) rfl, Checksum.sum_eq_repr hlt, otherHeaderWords,
      sum_otherHeaderWords, Nat.shiftRight_one, Nat.zero_add]
  have hle : (chksumWords (some 5) (ipv4HdrLen pkt >>> 1) pkt 0).toNat ≤ 65535 := by
    rw [hsum, Checksum.sum_eq_repr hlt]
    exact Checksum.repr_le _
  rw [complement_eq_iff hle, hsum]

theorem version_iff (b : Byte) : b >>> 4 = 4 ↔ b.toNat / 16 = 4 := by
  rw [← BitVec.toNat_inj, BitVec.toNat_ushiftRight, Nat.shiftRight_eq_div_pow]
  rfl

theorem moreFragments_iff (pkt : List Byte) :
    (pkt.getD 6 0 >>> 5) &&& 1 = 0 ↔ (net16 pkt 6).toNat / 2 ^ 13 % 2 = 0 := by
  have hlow := (pkt.getD 7 0).isLt
  have hbit : ((pkt.getD 6 0 >>> 5) &&& 1#8).toNat = (pkt.getD 6 0).toNat / 2 ^ 5 % 2 := by
    rw [BitVec.toNat_and, BitVec.toNat_ushiftRight, show (1#8).toNat = 2 ^ 1 - 1 from rfl,
      Nat.and_two_pow_sub_one_eq_mod, Nat.shiftRight_eq_div_pow]
  rw [toNat_net16, ← BitVec.toNat_inj]
  show ((pkt.getD 6 0 >>> 5) &&& 1#8).toNat = 0 ↔ _
  rw [hbit]
  omega

/-- The expression puts the two halves of the offset together the wrong way round, which changes
nothing about whether they are zero. -/
theorem fragOffset_iff (pkt : List Byte) :
    ipv4FragOffset pkt = 0 ↔ (net16 pkt 6).toNat % 2 ^ 13 = 0 := by
  have hhigh := (pkt.getD 6 0).isLt
  have hlow := (pkt.getD 7 0).isLt
  have hleft : ((pkt.getD 6 0).setWidth 16 &&& 0x1F#16).toNat = (pkt.getD 6 0).toNat % 32 := by
    rw [BitVec.toNat_and, BitVec.toNat_setWidth, show (0x1F#16).toNat = 2 ^ 5 - 1 from rfl,
      Nat.and_two_pow_sub_one_eq_mod]
    omega
  have hright : ((pkt.getD 7 0).setWidth 16 <<< 5).toNat = (pkt.getD 7 0).toNat * 32 := by
    rw [BitVec.toNat_shiftLeft, BitVec.toNat_setWidth, Nat.shiftLeft_eq]
    omega
  have hor : ipv4FragOffset pkt = 0 ↔
      ((pkt.getD 6 0).setWidth 16 &&& 0x1F#16) = 0 ∧ (pkt.getD 7 0).setWidth 16 <<< 5 = 0 :=
    BitVec.or_eq_zero_iff
  have hnet : (net16 pkt 6).toNat = (pkt.getD 6 0).toNat * 256 + (pkt.getD 7 0).toNat :=
    toNat_net16 pkt 6
  rw [hor, ← BitVec.toNat_inj, ← BitVec.toNat_inj, hleft, hright, hnet]
  show _ = 0 ∧ _ = 0 ↔ _
  omega

theorem ipv4TotalLen_lt (pkt : List Byte) : ipv4TotalLen pkt < 2 ^ 16 := (net16 pkt 2).isLt

/-! ## The checks -/

/-- One check, and what comes after it. -/
theorem unless_iff {c : Prop} [Decidable c] {b : Bool} :
    (if c then false else b) = true ↔ ¬ c ∧ b = true := by
  by_cases h : c <;> simp [h]

/-- What the checks let through; the protocol is not one of them. -/
theorem ipv4Accepts_iff (my : Ipv4Address) (pkt : List Byte) (sz : ℕ) :
    ipv4Accepts my pkt sz = true ↔
      20 ≤ sz ∧ (pkt.getD 0 0).toNat / 16 = 4 ∧ 20 ≤ ipv4HdrLen pkt
        ∧ ipv4HdrLen pkt ≤ ipv4TotalLen pkt ∧ ipv4TotalLen pkt ≤ sz
        ∧ (net16 pkt 10).toNat = 65535 - Checksum.sum (otherHeaderWords pkt)
        ∧ peek pkt 16 4 = my.toList ∧ (net16 pkt 6).toNat / 2 ^ 13 % 2 = 0
        ∧ (net16 pkt 6).toNat % 2 ^ 13 = 0 := by
  rw [← version_iff, ← chksum_iff, ← moreFragments_iff, ← fragOffset_iff, ipv4Accepts]
  simp only [unless_iff, not_not, not_lt]
  constructor
  · rintro ⟨hsz, hversion, hhdr, hsum, hdst, hmf, hoffset, hhsz, hle, htotal, -⟩
    exact ⟨hsz, hversion, hhdr, hle, htotal, hsum, hdst, hmf, hoffset⟩
  · rintro ⟨hsz, hversion, hhdr, hle, htotal, hsum, hdst, hmf, hoffset⟩
    exact ⟨hsz, hversion, hhdr, hsum, hdst, hmf, hoffset, hle.trans htotal, hle, htotal, trivial⟩

theorem drop_peek (p : List Byte) (k n : ℕ) :
    (peek p 0 n).drop k = peek (p.drop k) 0 (n - k) := by
  refine List.ext_getElem (by simp [peek]) fun i hi hi' => ?_
  simp [peek, List.getD_eq_getElem?_getD, List.getElem?_drop]

theorem proto_icmp_iff (pkt : List Byte) :
    pkt.getD 9 0 = 0x01 ↔ (pkt.getD 9 0).toNat = 1 :=
  BitVec.toNat_inj.symm

theorem proto_udp_iff (pkt : List Byte) :
    pkt.getD 9 0 = 0x11 ↔ (pkt.getD 9 0).toNat = 17 :=
  BitVec.toNat_inj.symm

/-- The call, for a protocol that has one. -/
theorem ipv4Handover_eq_some_iff (pkt : List Byte) (h : Handover) :
    ipv4Handover pkt = some h ↔
      ((pkt.getD 9 0).toNat = 1 ∨ (pkt.getD 9 0).toNat = 17) ∧ HandedOver pkt h := by
  have h1 := proto_icmp_iff pkt
  have h17 := proto_udp_iff pkt
  have hbytes := drop_peek pkt (ipv4HdrLen pkt) (ipv4TotalLen pkt)
  constructor
  · intro hh
    unfold ipv4Handover at hh
    simp only [] at hh
    split_ifs at hh with hicmp hudp
    · obtain rfl := Option.some.inj hh
      exact ⟨Or.inl (h1.1 hicmp), (if_pos (h1.1 hicmp)).symm, rfl, rfl, rfl, hbytes.symm⟩
    · obtain rfl := Option.some.inj hh
      exact ⟨Or.inr (h17.1 hudp), (if_neg fun hc => hicmp (h1.2 hc)).symm, rfl, rfl, rfl,
        hbytes.symm⟩
  · rintro ⟨hp, hhandler, hsrc, hdata, hlen, -⟩
    obtain ⟨handler, srcIp, data, dataLen⟩ := h
    subst hsrc hdata hlen
    unfold ipv4Handover
    rcases hp with hp | hp
    · rw [if_pos hp] at hhandler
      subst hhandler
      exact if_pos (h1.2 hp)
    · have hne : ¬ (pkt.getD 9 0).toNat = 1 := by omega
      rw [if_neg hne] at hhandler
      subst hhandler
      show (if pkt.getD 9 0 = 0x01 then _ else _) = _
      rw [if_neg fun hc => hne (h1.1 hc), if_pos (h17.2 hp)]

/-! ## The packets handed on -/

theorem toInt_eq_toNat {sz : BitVec 32} (h : 0 ≤ sz.toInt) : sz.toInt = sz.toNat := by
  have hlt := sz.isLt
  rw [BitVec.toInt] at h ⊢
  split_ifs at h ⊢ <;> omega

/-- The checks, and the protocol behind them. -/
theorem acceptable_iff (my : Ipv4Address) (pkt : List Byte) (sz : ℕ) :
    Acceptable my pkt sz ↔ ipv4Accepts my pkt sz = true
      ∧ ((pkt.getD 9 0).toNat = 1 ∨ (pkt.getD 9 0).toNat = 17) := by
  rw [ipv4Accepts_iff]
  constructor
  · intro h
    have hsz := h.sz_ge
    have htotal := h.totalLen_le
    exact ⟨⟨by omega, h.version, h.hdrLen_ge, h.hdrLen_le, by omega, h.chksum, h.destination,
      h.moreFragments, h.fragOffset⟩, h.proto⟩
  · rintro ⟨⟨hsz, hversion, hhdr, hle, htotal, hsum, hdst, hmf, hoffset⟩, hproto⟩
    exact ⟨by omega, hversion, hhdr, hle, by omega, hsum, hdst, hmf, hoffset, hproto⟩

section

variable (code : BitVec 32 → Mem 32 → Mem 32) (dev : Device) (eth : EthernetFrameHeader)
  {pkt : List Byte}

/-- An acceptable packet is left to the code for its protocol, with the data from the end of the
header on and as much of it as the total length says. -/
theorem netOnIpv4_of_acceptable {sz : ℕ} (h : Acceptable dev.myIpv4Address pkt sz) :
    netOnIpv4 code dev eth pkt sz =
      if (pkt.getD 9 0).toNat = 1 then
        (dev, netOnIpv4Icmp dev eth (peek pkt 12 4) (pkt.drop (ipv4HdrLen pkt))
          (ipv4TotalLen pkt - ipv4HdrLen pkt))
      else netOnIpv4Udp code dev eth (peek pkt 12 4) (pkt.drop (ipv4HdrLen pkt))
        (ipv4TotalLen pkt - ipv4HdrLen pkt) := by
  obtain ⟨hacc, hproto⟩ := (acceptable_iff _ _ _).1 h
  simp only [netOnIpv4, if_pos hacc, proto_icmp_iff, proto_udp_iff]
  rcases hproto with hone | hseventeen
  · rw [if_pos hone, if_pos hone]
  · have hne : ¬ (pkt.getD 9 0).toNat = 1 := by omega
    rw [if_neg hne, if_neg hne, if_pos hseventeen]

/-- Any other packet is dropped. -/
theorem netOnIpv4_of_not_acceptable {sz : ℕ} (h : ¬ Acceptable dev.myIpv4Address pkt sz) :
    netOnIpv4 code dev eth pkt sz = (dev, .none) := by
  rw [acceptable_iff, not_and_or, not_or] at h
  simp only [netOnIpv4, proto_icmp_iff, proto_udp_iff]
  rcases h with hacc | ⟨hone, hseventeen⟩
  · rw [if_neg hacc]
  · rw [if_neg hone, if_neg hseventeen, ite_self]

/-- For a size that is no negative `int` this is `net_on_ipv4` as the debugger's round calls it. -/
theorem netOnIpv4Int_eq {sz : BitVec 32} (hsz : 0 ≤ sz.toInt) :
    netOnIpv4Int code dev eth pkt sz = netOnIpv4 code dev eth pkt sz.toNat := by
  have hnat := toInt_eq_toNat hsz
  unfold netOnIpv4Int
  split_ifs with hsmall
  · refine (netOnIpv4_of_not_acceptable code dev eth fun hacc => ?_).symm
    have hsz := hacc.sz_ge
    omega
  · rfl

end

section

variable (my : Ipv4Address) {pkt q : List Byte} (sz : BitVec 32)

theorem netOnIpv4Handover_eq_some_iff (h : Handover) :
    netOnIpv4Handover my pkt sz = some h ↔ Acceptable my pkt sz.toInt ∧ HandedOver pkt h := by
  unfold netOnIpv4Handover
  by_cases h20 : sz.toInt < 20
  · rw [if_pos h20]
    constructor
    · exact nofun
    · rintro ⟨hacc, -⟩
      exact absurd hacc.sz_ge (by omega)
  · have hnat : sz.toInt = sz.toNat := toInt_eq_toNat (by omega)
    rw [if_neg h20, hnat, acceptable_iff, and_assoc, ← ipv4Handover_eq_some_iff]
    split_ifs with hacc
    · exact (and_iff_right hacc).symm
    · exact iff_of_false nofun fun h => hacc h.1

/-- Everything an acceptable packet is judged by is inside its `sz` bytes. -/
theorem Acceptable.agree {n : ℕ} (hacc : Acceptable my pkt n) (h : Agree n pkt q) :
    Acceptable my q n := by
  have hsz := hacc.sz_ge
  have htotal := hacc.totalLen_le
  have hle := hacc.hdrLen_le
  have hh : ipv4HdrLen q = ipv4HdrLen pkt := by rw [ipv4HdrLen, ipv4HdrLen, h 0 (by omega)]
  have ht : ipv4TotalLen q = ipv4TotalLen pkt := by
    rw [ipv4TotalLen, ipv4TotalLen, h.net16 (by omega)]
  have hwords : otherHeaderWords q = otherHeaderWords pkt := by
    rw [otherHeaderWords, otherHeaderWords, hh]
    refine List.map_congr_left fun i hi => ?_
    have hlt := List.mem_range.1 (List.mem_filter.1 hi).1
    rw [h.net16 (by omega)]
  refine ⟨hsz, ?_, ?_, ?_, ?_, ?_, ?_, ?_, ?_, ?_⟩
  · rw [← h 0 (by omega)]
    exact hacc.version
  · rw [hh]
    exact hacc.hdrLen_ge
  · rw [hh, ht]
    exact hle
  · rw [ht]
    exact htotal
  · rw [hwords, ← h.net16 (by omega)]
    exact hacc.chksum
  · rw [← h.peek (by omega)]
    exact hacc.destination
  · rw [← h.net16 (by omega)]
    exact hacc.moreFragments
  · rw [← h.net16 (by omega)]
    exact hacc.fragOffset
  · rw [← h 9 (by omega)]
    exact hacc.proto

/-- The same with an `int`. -/
theorem Acceptable.agree_int (h : Agree sz.toInt.toNat pkt q) (hacc : Acceptable my pkt sz.toInt) :
    Acceptable my q sz.toInt := by
  have hsz := hacc.sz_ge
  have hnat : ((sz.toInt.toNat : ℕ) : ℤ) = sz.toInt := Int.toNat_of_nonneg (by omega)
  rw [← hnat] at hacc ⊢
  exact hacc.agree my h

/-- What a packet hands on, and whether it does, is settled by its `sz` bytes. -/
theorem netOnIpv4Handover_agree (h : Agree sz.toInt.toNat pkt q) :
    (netOnIpv4Handover my q sz).map Handover.seen
      = (netOnIpv4Handover my pkt sz).map Handover.seen := by
  have key : ∀ {p q : List Byte}, Agree sz.toInt.toNat p q → ∀ x,
      netOnIpv4Handover my p sz = some x →
        ∃ y, netOnIpv4Handover my q sz = some y ∧ y.seen = x.seen := by
    intro p q h x hx
    obtain ⟨hacc, hover⟩ := (netOnIpv4Handover_eq_some_iff my sz x).1 hx
    have hsz := hacc.sz_ge
    have htotal := hacc.totalLen_le
    have hacc' := Acceptable.agree_int my sz h hacc
    have hh : ipv4HdrLen q = ipv4HdrLen p := by rw [ipv4HdrLen, ipv4HdrLen, h 0 (by omega)]
    have ht : ipv4TotalLen q = ipv4TotalLen p := by
      rw [ipv4TotalLen, ipv4TotalLen, h.net16 (by omega)]
    let y : Handover := ⟨x.handler, x.srcIp, q.drop (ipv4HdrLen q),
      ipv4TotalLen q - ipv4HdrLen q⟩
    have hy : HandedOver q y := by
      refine ⟨?_, ?_, rfl, rfl, (drop_peek q _ _).symm⟩
      · rw [← h 9 (by omega)]
        exact hover.handler
      · rw [← h.peek (by omega)]
        exact hover.srcIp
    refine ⟨y, (netOnIpv4Handover_eq_some_iff my sz y).2 ⟨hacc', hy⟩, ?_⟩
    rw [Handover.seen, Handover.seen, hy.bytes, hover.bytes, hh, ht, h.peek (by omega)]
  rcases hp : netOnIpv4Handover my pkt sz with _ | x
  · rcases hq : netOnIpv4Handover my q sz with _ | y
    · rfl
    · obtain ⟨x, hx, -⟩ := key h.symm y hq
      exact absurd (hp.symm.trans hx) nofun
  · obtain ⟨y, hy, hseen⟩ := key h x hp
    rw [hy, Option.map_some, Option.map_some, hseen]

end

/-- `net_on_ipv4` calls the code for a protocol on the acceptable packets and on no others, with the
bytes between the header and the total length, and nothing behind the `sz` bytes has a say in it. -/
theorem ipv4_acceptance (code : BitVec 32 → Mem 32 → Mem 32) (dev : Device)
    (eth : EthernetFrameHeader) (pkt : List Byte) (sz : BitVec 32) :
    let my := dev.myIpv4Address
    let srcIp := peek pkt 12 4
    let data := pkt.drop (ipv4HdrLen pkt)
    let dataLen := ipv4TotalLen pkt - ipv4HdrLen pkt
    (Acceptable my pkt sz.toInt → netOnIpv4Int code dev eth pkt sz =
        if (pkt.getD 9 0).toNat = 1 then (dev, netOnIpv4Icmp dev eth srcIp data dataLen)
        else netOnIpv4Udp code dev eth srcIp data dataLen)
      ∧ (¬ Acceptable my pkt sz.toInt → netOnIpv4Int code dev eth pkt sz = (dev, .none))
      ∧ (0 ≤ sz.toInt → netOnIpv4Int code dev eth pkt sz = netOnIpv4 code dev eth pkt sz.toNat)
      ∧ peek data 0 dataLen = (peek pkt 0 (ipv4TotalLen pkt)).drop (ipv4HdrLen pkt)
      ∧ (∀ x, netOnIpv4Handover my pkt sz = some x ↔
        Acceptable my pkt sz.toInt ∧ HandedOver pkt x)
      ∧ ((∃ x, netOnIpv4Handover my pkt sz = some x) ↔ Acceptable my pkt sz.toInt)
      ∧ (∀ q, Agree sz.toInt.toNat pkt q →
        (Acceptable my q sz.toInt ↔ Acceptable my pkt sz.toInt)
          ∧ (netOnIpv4Handover my q sz).map Handover.seen
            = (netOnIpv4Handover my pkt sz).map Handover.seen) := by
  intro my srcIp data dataLen
  have hbytes : peek data 0 dataLen = (peek pkt 0 (ipv4TotalLen pkt)).drop (ipv4HdrLen pkt) :=
    (drop_peek pkt _ _).symm
  have hnat : ∀ {q}, Acceptable my q sz.toInt → sz.toInt = sz.toNat := fun hacc =>
    toInt_eq_toNat (le_trans (by norm_num) hacc.sz_ge)
  refine ⟨fun hacc => ?_, fun hnot => ?_, netOnIpv4Int_eq code dev eth, hbytes,
    netOnIpv4Handover_eq_some_iff my sz, ⟨?_, fun hacc => ?_⟩, fun q hagree => ⟨⟨?_, ?_⟩,
    netOnIpv4Handover_agree my sz hagree⟩⟩
  · have h20 := hacc.sz_ge
    rw [netOnIpv4Int_eq code dev eth (by omega)]
    rw [hnat hacc] at hacc
    exact netOnIpv4_of_acceptable code dev eth hacc
  · unfold netOnIpv4Int
    split_ifs with hsmall
    · rfl
    · rw [toInt_eq_toNat (by omega)] at hnot
      exact netOnIpv4_of_not_acceptable code dev eth hnot
  · rintro ⟨x, hx⟩
    exact ((netOnIpv4Handover_eq_some_iff my sz x).1 hx).1
  · exact ⟨⟨_, srcIp, data, dataLen⟩, (netOnIpv4Handover_eq_some_iff my sz _).2
      ⟨hacc, rfl, rfl, rfl, rfl, hbytes⟩⟩
  · exact Acceptable.agree_int my sz hagree.symm
  · exact Acceptable.agree_int my sz hagree

/-- An echo request with nothing in it, from 192.168.0.1. -/
def echoPacket : List Byte :=
  [0x45, 0, 0, 28, 0, 0, 0x40, 0, 0x40, 1, 0xB9, 0x8D, 192, 168, 0, 1, 192, 168, 0, 2,
    8, 0, 0xF7, 0xFF, 0, 0, 0, 0]

/-- It is handed on as the eight bytes behind its header. -/
theorem ipv4_acceptance_echo :
    let eth : EthernetFrameHeader :=
      { dstMac := mac 2 0 0 0 0 2, srcMac := mac 2 0 0 0 0 1, type := ntoh16 0x0800 }
    Acceptable debugger.myIpv4Address echoPacket 28
      ∧ netOnIpv4 (fun _ mem => mem) debugger eth echoPacket 28 = (debugger,
        netOnIpv4Icmp debugger eth [192, 168, 0, 1] [8, 0, 0xF7, 0xFF, 0, 0, 0, 0] 8) := by
  intro eth
  obtain ⟨hcalls, -, hint, -, -, hacc, -⟩ :=
    ipv4_acceptance (fun _ mem => mem) debugger eth echoPacket 28
  have haccepted := hacc.1 ⟨⟨.icmp, [192, 168, 0, 1], [8, 0, 0xF7, 0xFF, 0, 0, 0, 0], 8⟩, by decide⟩
  exact ⟨haccepted, (hint (by decide)).symm.trans (hcalls haccepted)⟩

end RemoteX86
