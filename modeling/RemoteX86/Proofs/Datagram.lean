import RemoteX86.Datagram
import RemoteX86.Proofs.Checksum
import RemoteX86.Proofs.RoundTrip

/-!
# The UDP checksum

The device sums up what it received without the checksum and compares, where the standard sums up
everything and looks for all ones.  The two differ in one field only: a sender whose checksum came
out as zero sends all ones, and the device has computed zero (`udpChksumOk_iff`).
-/

namespace RemoteX86

open Hex Memory

/-! ## The device's sum -/

section

variable (src dst : Ipv4Address) (pkt : List Byte) (len : ℕ)

/-- The total of everything but the checksum. -/
def bareTotal : ℕ :=
  (Checksum.words (pseudoHeader src dst len)).sum + wordTotal (some 3) pkt (len / 2) +
    if len % 2 = 1 then (pkt.getD (len - 1) 0).toNat * 256 else 0

theorem length_pseudoHeader : (pseudoHeader src dst len).length = 12 := by
  simp [pseudoHeader, hton16Bytes]

/-- The protocol's number alone keeps the total from being zero. -/
theorem sum_words_pseudoHeader_pos : 0 < (Checksum.words (pseudoHeader src dst len)).sum := by
  obtain ⟨s, hs⟩ := src
  obtain ⟨d, hd⟩ := dst
  obtain ⟨s0, s1, s2, s3, rfl⟩ := List.length_eq_four.1 hs
  obtain ⟨d0, d1, d2, d3, rfl⟩ := List.length_eq_four.1 hd
  simp [pseudoHeader, hton16Bytes, Checksum.words]

theorem bareTotal_pos : 0 < bareTotal src dst pkt len := by
  have := sum_words_pseudoHeader_pos src dst len
  unfold bareTotal
  omega

theorem payloadSum_eq (h8 : 8 ≤ len) :
    payloadSum src dst pkt len = Checksum.repr (bareTotal src dst pkt len + (net16 pkt 6).toNat) := by
  have heven : (pseudoHeader src dst len).length % 2 = 0 := by rw [length_pseudoHeader]
  have hfield : wordTotal (some 3) pkt (len / 2) + (net16 pkt 6).toNat
      = wordTotal none pkt (len / 2) := wordTotal_some pkt 3 (len / 2) (by omega)
  rw [payloadSum, rfc768Sum, Checksum.sumBytes_eq_repr, Checksum.words_append _ _ heven,
    List.sum_append, sum_words_peek, bareTotal]
  congr 1
  omega

theorem hton16Bytes_ofNat (n : ℕ) :
    hton16Bytes (BitVec.ofNat 16 n) = [BitVec.ofNat 8 (n >>> 8), BitVec.ofNat 8 n] := by
  have hhigh : (BitVec.ofNat 16 n >>> 8).setWidth 8 = BitVec.ofNat 8 (n >>> 8) := by
    refine BitVec.eq_of_toNat_eq ?_
    rw [BitVec.toNat_setWidth, BitVec.toNat_ushiftRight, BitVec.toNat_ofNat, BitVec.toNat_ofNat,
      Nat.shiftRight_eq_div_pow, Nat.shiftRight_eq_div_pow]
    omega
  have hlow : (BitVec.ofNat 16 n).setWidth 8 = BitVec.ofNat 8 n := by
    refine BitVec.eq_of_toNat_eq ?_
    rw [BitVec.toNat_setWidth, BitVec.toNat_ofNat, BitVec.toNat_ofNat]
    omega
  rw [hton16Bytes, hhigh, hlow]

/-- The three loops, and the odd byte behind the last. -/
theorem udpChksum_eq : ∃ c : BitVec 32, udpChksum dst src.toList pkt len = (~~~ c) &&& 0xFFFF
    ∧ c.toNat = Checksum.repr (bareTotal src dst pkt len) := by
  have hpseudo : src.toList ++ dst.toList ++
      [0x00, 0x11, BitVec.ofNat 8 (len >>> 8), BitVec.ofNat 8 len] = pseudoHeader src dst len := by
    rw [pseudoHeader, hton16Bytes_ofNat, List.append_assoc _ [_, _]]
    rfl
  have h12 : wordTotal none (pseudoHeader src dst len) 6
      = (Checksum.words (pseudoHeader src dst len)).sum := by
    have hlen := length_pseudoHeader src dst len
    have h := sum_words_take 12 (pseudoHeader src dst len) hlen.ge
    rw [List.take_of_length_le hlen.le] at h
    exact h.symm
  have hheader := toNat_chksumWords none (pseudoHeader src dst len) (c := 0) (t := 0) rfl 6
  rw [Nat.zero_add, h12] at hheader
  have hbody := toNat_chksumWords (some 3) pkt hheader (len >>> 1)
  refine ⟨_, by rw [udpChksum, hpseudo], ?_⟩
  rw [Nat.shiftRight_one] at hbody ⊢
  rw [bareTotal]
  by_cases hodd : len % 2 = 1
  · have hbit : len &&& 1 ≠ 0 := by
      rw [Nat.and_one_is_mod]
      omega
    rw [if_pos hbit, if_pos hodd, toNat_chksumAdd_repr hbody, toNat_append_add,
      BitVec.toNat_ofNat, Nat.zero_mod, Nat.add_zero, show 2 ^ 8 = 256 from rfl]
  · have hbit : ¬ len &&& 1 ≠ 0 := by
      rw [Nat.and_one_is_mod]
      omega
    rw [if_neg hbit, if_neg hodd, hbody, Nat.add_zero]

/-- The device takes a field that makes the payload verify, unless it is all ones. -/
theorem udpChksumOk_iff (h8 : 8 ≤ len) :
    udpChksumOk dst src.toList pkt len = true ↔
      net16 pkt 6 = 0 ∨ net16 pkt 6 ≠ 0xFFFF ∧ payloadSum src dst pkt len = 0xFFFF := by
  obtain ⟨c, hc, htotal⟩ := udpChksum_eq src dst pkt len
  have hpos := bareTotal_pos src dst pkt len
  have hle := Checksum.repr_le (bareTotal src dst pkt len)
  have hrepr := Checksum.repr_pos hpos
  have hfield := (net16 pkt 6).isLt
  have hones : net16 pkt 6 = 0xFFFF ↔ (net16 pkt 6).toNat = 65535 := BitVec.toNat_inj.symm
  rw [udpChksumOk, Bool.or_eq_true, beq_iff_eq, beq_iff_eq, hc, complement_eq_iff (by omega),
    payloadSum_eq src dst pkt len h8, Checksum.repr_add_eq_max_iff hpos (by omega), Ne, hones,
    htotal]
  refine or_congr Iff.rfl ?_
  omega

end

/-! ## The sender's sum -/

theorem words_hton16Bytes (x : BitVec 16) (p : List Byte) :
    Checksum.words (hton16Bytes x ++ p) = x.toNat :: Checksum.words p := by
  show (((x >>> 8).setWidth 8).toNat * 256 + (x.setWidth 8).toNat) :: Checksum.words p = _
  have h := toNat_append_add ((x >>> 8).setWidth 8) (x.setWidth 8)
  rw [hton16_append] at h
  rw [h, show 2 ^ 8 = 256 from rfl]

namespace Datagram

variable (d : Datagram) (src dst : Ipv4Address) (f : BitVec 16)

/-- The total of everything but the checksum. -/
def total : ℕ :=
  (Checksum.words (pseudoHeader src dst d.length)).sum + d.srcPort.toNat + d.dstPort.toNat +
    (BitVec.ofNat 16 d.length).toNat + (Checksum.words d.data).sum

theorem total_pos : 0 < d.total src dst := by
  have := sum_words_pseudoHeader_pos src dst d.length
  unfold total
  omega

theorem rfc768Sum_bytes :
    rfc768Sum src dst d.length (d.bytes f) = Checksum.repr (d.total src dst + f.toNat) := by
  have heven : (pseudoHeader src dst d.length).length % 2 = 0 := by rw [length_pseudoHeader]
  rw [rfc768Sum, Checksum.sumBytes_eq_repr, Checksum.words_append _ _ heven, List.sum_append, bytes]
  simp only [List.append_assoc, words_hton16Bytes, List.sum_cons]
  rw [total]
  congr 1
  omega

theorem computed_eq : d.computed src dst = 65535 - Checksum.repr (d.total src dst) := by
  rw [computed, rfc768Sum_bytes]
  rfl

/-- What the sender fills in verifies. -/
theorem rfc768Sum_field : rfc768Sum src dst d.length (d.bytes (d.field src dst)) = 0xFFFF := by
  have hpos := d.total_pos src dst
  have hle := Checksum.repr_le (d.total src dst)
  rw [rfc768Sum_bytes, field, computed_eq]
  split_ifs with hzero
  · exact (Checksum.repr_add_eq_max_iff hpos le_rfl).2 (Or.inr ⟨rfl, by omega⟩)
  · have hf : (BitVec.ofNat 16 (65535 - Checksum.repr (d.total src dst))).toNat
        = 65535 - Checksum.repr (d.total src dst) := by
      rw [BitVec.toNat_ofNat]
      omega
    rw [hf]
    exact (Checksum.repr_add_eq_max_iff hpos (by omega)).2 (Or.inl rfl)

/-- All ones only verify when they stand for zero. -/
theorem field_eq_of_ones (h : rfc768Sum src dst d.length (d.bytes 0xFFFF) = 0xFFFF) :
    d.field src dst = 0xFFFF := by
  have hpos := d.total_pos src dst
  have hrepr := Checksum.repr_pos hpos
  rw [rfc768Sum_bytes] at h
  have hzero : d.computed src dst = 0 := by
    rw [computed_eq]
    rcases (Checksum.repr_add_eq_max_iff hpos le_rfl).1 h with h | h
    · omega
    · omega
  rw [field, if_pos hzero]

theorem net16_bytes_field : net16 (d.bytes f) 6 = f := by
  have h : (hton16Bytes d.srcPort ++ hton16Bytes d.dstPort ++
      hton16Bytes (BitVec.ofNat 16 d.length)).length = 6 := rfl
  rw [bytes, List.append_assoc _ (hton16Bytes f)]
  exact net16_hton16Bytes f h

theorem udpLength_bytes : udpLength (d.bytes f) = d.length := by
  have h : (hton16Bytes d.srcPort ++ hton16Bytes d.dstPort).length = 4 := rfl
  have hlt := d.length_lt
  rw [udpLength, bytes, List.append_assoc _ (hton16Bytes f), List.append_assoc _ (hton16Bytes _),
    net16_hton16Bytes _ h, BitVec.toNat_ofNat, Nat.mod_eq_of_lt]
  exact hlt

end Datagram

section

variable {pkt : List Byte} {len : ℕ}

/-- The fields of a payload that is a datagram. -/
theorem fields_of_peek_eq {d : Datagram} {f : BitVec 16} (hlen : d.length = len)
    (h : peek pkt 0 len = d.bytes f) : net16 pkt 6 = f ∧ udpLength pkt = len := by
  have h8 : 8 ≤ len := by
    rw [← hlen, Datagram.length]
    omega
  have hagree := agree_peek pkt len
  rw [h] at hagree
  rw [udpLength, ← hagree.net16 (by omega), ← hagree.net16 (by omega), d.net16_bytes_field]
  exact ⟨rfl, (d.udpLength_bytes f).trans hlen⟩

theorem hton16Bytes_net16 (p : List Byte) (i : ℕ) :
    hton16Bytes (net16 p i) = [p.getD i 0, p.getD (i + 1) 0] := by
  have h := hton16_append (net16 p i)
  conv_rhs at h => rw [net16_eq]
  obtain ⟨hhigh, hlow⟩ := append_eq_append_iff.1 h
  rw [hton16Bytes, hhigh, hlow]

theorem peek_header (p : List Byte) (k : ℕ) :
    peek p 0 (8 + k) = hton16Bytes (net16 p 0) ++ hton16Bytes (net16 p 2) ++
      hton16Bytes (net16 p 4) ++ hton16Bytes (net16 p 6) ++ peek p 8 k := by
  rw [hton16Bytes_net16, hton16Bytes_net16, hton16Bytes_net16, hton16Bytes_net16, peek,
    List.range_add, List.map_append, List.map_map]
  simp [peek, Function.comp_def, List.range_succ_eq_map]

/-- A payload as long as its datagram is that datagram. -/
theorem exists_datagram (h8 : 8 ≤ len) (hlen : udpLength pkt = len) :
    ∃ d : Datagram, d.length = len ∧ peek pkt 0 len = d.bytes (net16 pkt 6) := by
  have hlt : len < 2 ^ 16 := hlen ▸ (net16 pkt 4).isLt
  obtain ⟨k, rfl⟩ : ∃ k, len = 8 + k := ⟨len - 8, by omega⟩
  have hdata : (peek pkt 8 k).length = k := by simp [peek]
  have hheader := peek_header pkt k
  revert hdata hheader
  generalize peek pkt 8 k = data
  rintro rfl hheader
  have hfield : BitVec.ofNat 16 (8 + data.length) = net16 pkt 4 := by
    rw [← hlen, udpLength, BitVec.ofNat_toNat, BitVec.setWidth_eq]
  refine ⟨⟨net16 pkt 0, net16 pkt 2, data, hlt⟩, rfl, ?_⟩
  rw [hheader, Datagram.bytes, Datagram.length, hfield]

end

/-! ## What is done about it -/

section

variable (code : BitVec 32 → Mem 32 → Mem 32) (dev : Device) (eth : EthernetFrameHeader)
  (srcIp : Ipv4Address) (pkt : List Byte) (len : ℕ)

/-- A datagram that passes is answered or shown. -/
theorem netOnIpv4Udp_ne_none (h8 : 8 ≤ len)
    (hok : udpChksumOk dev.myIpv4Address srcIp.toList pkt len = true) :
    (netOnIpv4Udp code dev eth srcIp.toList pkt len).2 ≠ .none := by
  intro hnone
  unfold netOnIpv4Udp at hnone
  rw [if_neg (by omega), hok] at hnone
  by_cases hport : net16 pkt 2 = 777
  · simp only [hport, Bool.not_true, Bool.false_eq_true, if_false, if_true] at hnone
    have hsent := congrArg Effect.sent hnone
    rw [makeUdpResponse_eq_some dev eth srcIp.toList _ _ (udpCommand_reply_length code dev _ _)]
      at hsent
    exact List.cons_ne_nil _ _ hsent
  · simp only [hport, Bool.not_true, Bool.false_eq_true, if_false] at hnone
    have hvga := congrArg (fun e : Effect => e.vga.length) hnone
    simp only [List.length_append, Effect.none, List.length_nil] at hvga
    have h10 : (ascii "UDP sport=").length = 10 := rfl
    omega

/-- The device does with a datagram what the standard says, unless the sender's checksum came out as
zero, or the payload has more than the datagram in it and verifies where the datagram does not. -/
theorem followsRfc768_iff (h8 : 8 ≤ len) :
    FollowsRfc768 code dev eth srcIp pkt len ↔ UsualChecksum dev srcIp pkt len := by
  have hdevice := udpChksumOk_iff srcIp dev.myIpv4Address pkt len h8
  have hsame : udpLength pkt = len → verificationSum srcIp dev.myIpv4Address pkt
      = payloadSum srcIp dev.myIpv4Address pkt len := by
    intro hlen
    rw [verificationSum, payloadSum, hlen]
  constructor
  · rintro ⟨hpasses, hdropped⟩
    constructor
    · intro hlen hones hsum
      obtain ⟨d, hd, hbytes⟩ := exists_datagram h8 hlen
      rw [hones] at hbytes
      have hfield : d.field srcIp dev.myIpv4Address = 0xFFFF := by
        refine d.field_eq_of_ones srcIp dev.myIpv4Address ?_
        rw [← hbytes, hd]
        exact (hsame hlen).symm.trans hsum
      rcases hdevice.1 (hpasses ⟨d, hd, Or.inr (hfield ▸ hbytes)⟩) with h | ⟨h, -⟩
      · rw [hones] at h
        exact absurd h (by decide)
      · exact h hones
    · intro hzero hones hpayload
      by_contra hsum
      refine netOnIpv4Udp_ne_none code dev eth srcIp pkt len h8 ?_
        (congrArg Prod.snd (hdropped hzero hsum))
      exact hdevice.2 (Or.inr ⟨hones, hpayload⟩)
  · rintro ⟨hfield, hbehind⟩
    constructor
    · rintro ⟨d, hd, hbytes⟩
      refine hdevice.2 ?_
      rcases hbytes with hbytes | hbytes
      · exact Or.inl (fields_of_peek_eq hd hbytes).1
      · obtain ⟨-, hlen⟩ := fields_of_peek_eq hd hbytes
        have hpayload : payloadSum srcIp dev.myIpv4Address pkt len = 0xFFFF := by
          rw [payloadSum, hbytes, ← hd]
          exact d.rfc768Sum_field srcIp dev.myIpv4Address
        exact Or.inr ⟨fun hones => hfield hlen hones ((hsame hlen).trans hpayload), hpayload⟩
    · intro hzero hsum
      have hbad : udpChksumOk dev.myIpv4Address srcIp.toList pkt len = false := by
        rw [← Bool.not_eq_true, hdevice]
        rintro (h | ⟨hones, hpayload⟩)
        · exact hzero h
        · exact hsum (hbehind hzero hones hpayload)
      unfold netOnIpv4Udp
      rw [if_neg (by omega), hbad]
      rfl

end

/-- TEST from 192.168.0.1, with two more bytes of data. -/
def testMore (a b : Byte) : Datagram where
  srcPort := 5000
  dstPort := 777
  data := ascii "TEST" ++ [a, b]
  length_lt := by simp [ascii]

def fromRequester : EthernetFrameHeader where
  dstMac := mac 2 0 0 0 0 2
  srcMac := mac 2 0 0 0 0 1
  type := ntoh16 0x0800

theorem followsRfc768_iff_test :
    FollowsRfc768 (fun _ mem => mem) debugger fromRequester (ipv4 192 168 0 1)
      ((testMore 0 0).bytes 0xC053) 14 :=
  (followsRfc768_iff (fun _ mem => mem) debugger fromRequester (ipv4 192 168 0 1)
    ((testMore 0 0).bytes 0xC053) 14 (by decide)).2
    ⟨fun _ h => absurd h (by decide), fun _ _ _ => by decide⟩

/-- The checksum of this one comes out as zero, and it is dropped. -/
theorem not_followsRfc768_zero :
    ¬ FollowsRfc768 (fun _ mem => mem) debugger fromRequester (ipv4 192 168 0 1)
      ((testMore 0xC0 0x53).bytes 0xFFFF) 14 := by
  rintro ⟨hpasses, -⟩
  exact absurd (hpasses ⟨testMore 0xC0 0x53, by decide, Or.inr (by decide)⟩) (by decide)

/-! ## The data -/

section

variable (code : BitVec 32 → Mem 32 → Mem 32) (dev : Device) (eth : EthernetFrameHeader)
  (srcIp : Ipv4Address) {pkt : List Byte} {len : ℕ}

/-- The clamp forgets that the length in the header counts the header. -/
theorem udpDataLength_eq_iff (h8 : 8 ≤ udpLength pkt) (hle : udpLength pkt ≤ len) :
    udpDataLength pkt len = udpLength pkt - 8 ↔ udpLength pkt = len := by
  have hclamp : udpDataLength pkt len
      = if len - 8 < udpLength pkt then len - 8 else udpLength pkt := rfl
  rw [hclamp]
  split_ifs <;> omega

theorem netOnIpv4Udp_eq_udpRun (h8 : 8 ≤ len)
    (hok : udpChksumOk dev.myIpv4Address srcIp.toList pkt len = true) (hport : net16 pkt 2 = 777) :
    netOnIpv4Udp code dev eth srcIp.toList pkt len
      = udpRun code dev eth srcIp pkt (udpDataLength pkt len) := by
  unfold netOnIpv4Udp
  rw [if_neg (by omega), hok]
  exact if_pos hport

/-- The command gets the data of the datagram exactly when the payload holds nothing else. -/
theorem seesDatagram_iff (hok : udpChksumOk dev.myIpv4Address srcIp.toList pkt len = true)
    (hport : net16 pkt 2 = 777) (h8 : 8 ≤ udpLength pkt) (hle : udpLength pkt ≤ len) :
    SeesDatagram code dev eth srcIp pkt len ↔ udpLength pkt = len := by
  have hlength := udpDataLength_eq_iff h8 hle
  constructor
  · intro h
    exact hlength.1 h.dataLength
  · intro hlen
    refine ⟨hlength.2 hlen, ?_, ?_⟩
    · rw [netOnIpv4Udp_eq_udpRun code dev eth srcIp (by omega) hok hport, hlength.2 hlen]
    · intro q hq hsame _
      -- nothing is left to differ in
      have hpkt : q = pkt := by
        refine List.ext_getElem hq fun i hi hi' => ?_
        have h := hsame i (by omega)
        simpa [List.getD_eq_getElem?_getD, hi, hi'] using h
      rw [hpkt]

theorem seesDatagram_iff_test :
    SeesDatagram (fun _ mem => mem) debugger fromRequester (ipv4 192 168 0 1)
      ((testMore 0 0).bytes 0) 14 :=
  (seesDatagram_iff (fun _ mem => mem) debugger fromRequester (ipv4 192 168 0 1)
    (by decide) (by decide) (by decide) (by decide)).2 (by decide)

/-- A WRITE of no bytes at all, with eight bytes behind the datagram. -/
def paddedWrite : List Byte :=
  hton16Bytes 5000 ++ hton16Bytes 777 ++ hton16Bytes 21 ++ hton16Bytes 0 ++
    ascii "WRITE 1000 5" ++ [0x0A] ++ ascii "Padding!"

/-- The eight bytes are written. -/
theorem not_seesDatagram_padded :
    ¬ SeesDatagram (fun _ mem => mem) debugger fromRequester (ipv4 192 168 0 1) paddedWrite 29
      ∧ (netOnIpv4Udp (fun _ mem => mem) debugger fromRequester (ipv4 192 168 0 1).toList
          paddedWrite 29).2.writes = [(0x1000, ascii "Padding!")] := by
  constructor
  · intro h
    exact absurd h.dataLength (by decide)
  · decide

end

end RemoteX86
