import RemoteX86.Network
import RemoteX86.Proofs.RoundTrip

/-!
# The frame that answers a datagram

The header that `make_udp_response` builds passes the checks that `net_on_ipv4` makes, whatever the
two addresses and the length are: the builder's checksum and the checker's run over the same nine
words.  No reply is too long for a driver, so every datagram to port 777 is answered, and what the
answer says can be read back from it.
-/

namespace RemoteX86

open Hex Memory

/-! ## The header -/

theorem peek_append (p q : List Byte) {i n : ℕ} (hi : p.length = i) (hn : q.length = n) :
    peek (p ++ q) i n = q := by
  subst hi hn
  refine List.ext_getElem (by simp [peek]) fun k hk hk' => ?_
  simp [peek, List.getD_eq_getElem?_getD, hk']

section Header

variable (my srcIp : Ipv4Address) (proto : Byte) (total : ℕ) (rest : List Byte)

/-- The header before its checksum is filled in. -/
def headerBare : List Byte :=
  [0x45#8, 0, BitVec.ofNat 8 (total >>> 8), BitVec.ofNat 8 total, 0, 0, 0x40#8, 0,
    0x40#8, proto, 0, 0] ++ my.toList ++ srcIp.toList

/-- The checksum that is filled in. -/
def headerChksum : BitVec 16 :=
  (~~~ chksumWords (some 5) 10 (headerBare my srcIp proto total) 0).setWidth 16

theorem ipv4Header_eq :
    ipv4Header my srcIp.toList proto total
      = ((headerBare my srcIp proto total).set 10
          ((headerChksum my srcIp proto total >>> 8).setWidth 8)).set 11
        ((headerChksum my srcIp proto total).setWidth 8) := rfl

theorem length_headerBare : (headerBare my srcIp proto total).length = 20 := by
  simp [headerBare]

theorem getElem?_ipv4Header {i : ℕ} (hi : i < 20) :
    (ipv4Header my srcIp.toList proto total ++ rest)[i]?
      = (ipv4Header my srcIp.toList proto total)[i]? :=
  List.getElem?_append_left (by rw [length_ipv4Header _ srcIp.toList_length]; exact hi)

/-- Outside the checksum the header is as it was before. -/
theorem getD_ipv4Header {i : ℕ} (hi : i < 20) (h10 : i ≠ 10) (h11 : i ≠ 11) :
    (ipv4Header my srcIp.toList proto total ++ rest).getD i 0
      = (headerBare my srcIp proto total).getD i 0 := by
  rw [List.getD_eq_getElem?_getD, getElem?_ipv4Header _ _ _ _ _ hi, ipv4Header_eq,
    List.getElem?_set_ne h11.symm, List.getElem?_set_ne h10.symm, List.getD_eq_getElem?_getD]

theorem net16_ipv4Header {i : ℕ} (hi : i + 1 < 20) (hlow : i + 1 ≠ 10 ∧ i ≠ 10 ∧ i ≠ 11) :
    net16 (ipv4Header my srcIp.toList proto total ++ rest) i
      = net16 (headerBare my srcIp proto total) i := by
  rw [net16_eq, net16_eq, getD_ipv4Header _ _ _ _ _ (by omega) hlow.2.1 hlow.2.2,
    getD_ipv4Header _ _ _ _ _ hi hlow.1 (by omega)]

theorem net16_chksum : net16 (ipv4Header my srcIp.toList proto total ++ rest) 10
    = headerChksum my srcIp proto total := by
  have hlen := length_headerBare my srcIp proto total
  rw [net16_eq, List.getD_eq_getElem?_getD, List.getD_eq_getElem?_getD,
    getElem?_ipv4Header _ _ _ _ _ (by omega), getElem?_ipv4Header _ _ _ _ _ (by omega),
    ipv4Header_eq, List.getElem?_set_ne (by omega),
    List.getElem?_set_self (by omega),
    List.getElem?_set_self (by rw [List.length_set]; omega)]
  exact hton16_append _

/-- The checker's sum is the builder's: the words they see differ in the sixth only. -/
theorem chksumWords_ipv4Header :
    chksumWords (some 5) 10 (ipv4Header my srcIp.toList proto total ++ rest) 0
      = chksumWords (some 5) 10 (headerBare my srcIp proto total) 0 := by
  refine foldl_congr_range 10 0 fun i hi chksum => ?_
  split_ifs with hskip
  · rfl
  · have hne : i ≠ 5 := fun he => hskip (he ▸ rfl)
    rw [net16_ipv4Header _ _ _ _ _ (by omega) (by omega)]

theorem peek_ipv4Header_dst :
    peek (ipv4Header my srcIp.toList proto total ++ rest) 16 4 = srcIp.toList := by
  have hpeek : peek (ipv4Header my srcIp.toList proto total ++ rest) 16 4
      = peek (headerBare my srcIp proto total) 16 4 := by
    refine List.map_congr_left fun k hk => ?_
    rw [List.mem_range] at hk
    exact getD_ipv4Header _ _ _ _ _ (by omega) (by omega) (by omega)
  rw [hpeek]
  exact peek_append ([0x45#8, 0, BitVec.ofNat 8 (total >>> 8), BitVec.ofNat 8 total, 0, 0, 0x40#8,
    0, 0x40#8, proto, 0, 0] ++ my.toList) srcIp.toList (by simp) srcIp.toList_length

theorem setWidth_mask (x : BitVec 32) : (x.setWidth 16).setWidth 32 = x &&& 0xFFFF := by
  apply BitVec.eq_of_toNat_eq
  rw [BitVec.toNat_setWidth, BitVec.toNat_setWidth, BitVec.toNat_and,
    show (0xFFFF : BitVec 32).toNat = 2 ^ 16 - 1 from rfl, Nat.and_two_pow_sub_one_eq_mod]
  omega

theorem ipv4HdrLen_ipv4Header :
    ipv4HdrLen (ipv4Header my srcIp.toList proto total ++ rest) = 20 := by
  have hversion : (ipv4Header my srcIp.toList proto total ++ rest).getD 0 0 = 0x45#8 :=
    getD_ipv4Header _ _ _ _ _ (by omega) (by omega) (by omega)
  unfold ipv4HdrLen
  rw [hversion]
  rfl

theorem ipv4TotalLen_ipv4Header (h : total < 2 ^ 16) :
    ipv4TotalLen (ipv4Header my srcIp.toList proto total ++ rest) = total := by
  unfold ipv4TotalLen
  rw [net16_ipv4Header _ _ _ _ _ (by omega) (by omega), net16_eq]
  show (BitVec.ofNat 8 (total >>> 8) ++ BitVec.ofNat 8 total).toNat = total
  rw [toNat_append_add, BitVec.toNat_ofNat, BitVec.toNat_ofNat, Nat.shiftRight_eq_div_pow]
  omega

theorem ipv4FragOffset_ipv4Header :
    ipv4FragOffset (ipv4Header my srcIp.toList proto total ++ rest) = 0 := by
  have hflags : (ipv4Header my srcIp.toList proto total ++ rest).getD 6 0 = 0x40#8 :=
    getD_ipv4Header _ _ _ _ _ (by omega) (by omega) (by omega)
  have hoffset : (ipv4Header my srcIp.toList proto total ++ rest).getD 7 0 = 0#8 :=
    getD_ipv4Header _ _ _ _ _ (by omega) (by omega) (by omega)
  unfold ipv4FragOffset
  rw [hflags, hoffset]
  rfl

/-- A packet behind such a header is accepted by the machine it is addressed to. -/
theorem ipv4Accepts_ipv4Header (h : total < 2 ^ 16) (hlen : rest.length + 20 = total) :
    ipv4Accepts srcIp (ipv4Header my srcIp.toList proto total ++ rest)
      (ipv4Header my srcIp.toList proto total ++ rest).length = true := by
  have hsz : (ipv4Header my srcIp.toList proto total ++ rest).length = total := by
    rw [List.length_append, length_ipv4Header _ srcIp.toList_length]
    omega
  have hversion : (ipv4Header my srcIp.toList proto total ++ rest).getD 0 0 = 0x45#8 :=
    getD_ipv4Header _ _ _ _ _ (by omega) (by omega) (by omega)
  have hflags : (ipv4Header my srcIp.toList proto total ++ rest).getD 6 0 = 0x40#8 :=
    getD_ipv4Header _ _ _ _ _ (by omega) (by omega) (by omega)
  have hchksum : (~~~ chksumWords (some 5) 10
      (ipv4Header my srcIp.toList proto total ++ rest) 0) &&& 0xFFFF
        = (net16 (ipv4Header my srcIp.toList proto total ++ rest) 10).setWidth 32 := by
    rw [net16_chksum, headerChksum, setWidth_mask, chksumWords_ipv4Header]
  unfold ipv4Accepts
  rw [hsz, hversion, hflags, ipv4HdrLen_ipv4Header, ipv4TotalLen_ipv4Header _ _ _ _ _ h,
    ipv4FragOffset_ipv4Header, peek_ipv4Header_dst, show 20 >>> 1 = 10 from rfl, hchksum]
  rw [if_neg (by omega), if_neg (by decide), if_neg (by omega), if_neg (not_not.2 rfl),
    if_neg (not_not.2 rfl), if_neg (by decide), if_neg (not_not.2 rfl), if_neg (by omega),
    if_neg (by omega), if_neg (by omega)]

end Header

/-! ## The answer -/

/-- The frame carries `reply` back to where a datagram came from: it passes the checks of the machine
with the requester's address and can be read there as a datagram with the ports swapped. -/
structure Answers (dev : Device) (eth : EthernetFrameHeader) (srcIp : Ipv4Address)
    (srcPort dstPort : BitVec 16) (reply : List Byte) (f : Frame) : Prop where
  hdr : f.hdr = { dstMac := eth.srcMac, srcMac := dev.myEthMac, type := ntoh16 0x0800 }
  accepted : ipv4Accepts srcIp f.payload f.payload.length = true
  totalLen : ipv4TotalLen f.payload = 28 + reply.length
  fragOffset : ipv4FragOffset f.payload = 0
  hdrLen : ipv4HdrLen f.payload = 20
  proto : f.payload.getD 9 0 = 0x11#8
  source : peek f.payload 12 4 = dev.myIpv4Address.toList
  destination : peek f.payload 16 4 = srcIp.toList
  sourcePort : net16 (f.payload.drop 20) 0 = dstPort
  destinationPort : net16 (f.payload.drop 20) 2 = srcPort
  udpLength : (net16 (f.payload.drop 20) 4).toNat = 8 + reply.length
  data : (f.payload.drop 20).drop 8 = reply

theorem makeUdpResponse_answers (dev : Device) (eth : EthernetFrameHeader) (srcIp : Ipv4Address)
    (srcPort dstPort : BitVec 16) {reply : List Byte} (h : reply.length ≤ 1412) :
    ∃ f, makeUdpResponse dev eth srcIp.toList srcPort dstPort reply = (some f, [])
      ∧ Answers dev eth srcIp srcPort dstPort reply f := by
  refine ⟨_, makeUdpResponse_eq_some dev eth srcIp.toList srcPort dstPort h, ?_⟩
  simp only [List.append_assoc]
  have hdrop : ∀ p, (ipv4Header dev.myIpv4Address srcIp.toList 0x11#8 (0x14 + 8 + reply.length)
      ++ p).drop 20 = p := by
    intro p
    exact List.drop_left' (length_ipv4Header _ srcIp.toList_length _ _)
  have htotal : 0x14 + 8 + reply.length < 2 ^ 16 := by omega
  constructor
  · rfl
  · refine ipv4Accepts_ipv4Header _ _ _ _ _ htotal ?_
    simp [hton16Bytes]
    omega
  · rw [ipv4TotalLen_ipv4Header _ _ _ _ _ htotal]
  · exact ipv4FragOffset_ipv4Header _ _ _ _ _
  · exact ipv4HdrLen_ipv4Header _ _ _ _ _
  · exact getD_ipv4Header _ _ _ _ _ (by omega) (by omega) (by omega)
  · exact peek_ipv4Header _ _ _ _ _
  · exact peek_ipv4Header_dst _ _ _ _ _
  · rw [hdrop]
    exact net16_hton16Bytes dstPort (p := []) rfl
  · rw [hdrop]
    exact net16_hton16Bytes srcPort (p := hton16Bytes dstPort) rfl
  · have hports : (hton16Bytes dstPort ++ hton16Bytes srcPort).length = 4 := rfl
    rw [hdrop, ← List.append_assoc, net16_hton16Bytes _ hports, BitVec.toNat_ofNat,
      Nat.mod_eq_of_lt (by omega), Nat.add_comm]
  · rw [hdrop]
    rfl

/-- Every datagram that is accepted on port 777 is answered with one frame, with the reply of its
command in it; the branch without a frame is not taken. -/
theorem udp_answered (code : BitVec 32 → Mem 32 → Mem 32) (dev : Device)
    (eth : EthernetFrameHeader) (srcIp : Ipv4Address) (pkt : List Byte) (len : ℕ) (h8 : 8 ≤ len)
    (hsum : udpChksumOk dev.myIpv4Address srcIp.toList pkt len = true)
    (hport : net16 pkt 2 = 777) :
    let reply := (udpCommand code dev (pkt.drop 8) (udpDataLength pkt len)).reply
    ∃ f, makeUdpResponse dev eth srcIp.toList (net16 pkt 0) (net16 pkt 2) reply = (some f, [])
      ∧ (netOnIpv4Udp code dev eth srcIp.toList pkt len).2.sent = [f]
      ∧ Answers dev eth srcIp (net16 pkt 0) (net16 pkt 2) reply f := by
  obtain ⟨f, hf, hanswers⟩ := makeUdpResponse_answers dev eth srcIp (net16 pkt 0) (net16 pkt 2)
    (udpCommand_reply_length code dev (pkt.drop 8) (udpDataLength pkt len))
  refine ⟨f, hf, ?_, hanswers⟩
  unfold netOnIpv4Udp
  simp only [hsum, Bool.not_true, Bool.false_eq_true, if_false, hf]
  rw [if_neg (by omega), if_pos hport]
  rfl

/-- TEST, with no checksum. -/
def testDatagram : List Byte :=
  hton16Bytes 5000 ++ hton16Bytes 777 ++ hton16Bytes 12 ++ hton16Bytes 0 ++ ascii "TEST"

theorem udp_answered_test :
    ∃ f, (netOnIpv4Udp (fun _ mem => mem) debugger
        { dstMac := mac 2 0 0 0 0 2, srcMac := mac 2 0 0 0 0 1, type := ntoh16 0x0800 }
        (ipv4 192 168 0 1).toList testDatagram 12).2.sent = [f]
      ∧ Answers debugger
        { dstMac := mac 2 0 0 0 0 2, srcMac := mac 2 0 0 0 0 1, type := ntoh16 0x0800 }
        (ipv4 192 168 0 1) 5000 777 (ascii "OK x86-32") f := by
  obtain ⟨f, -, hsent, hanswers⟩ := udp_answered (fun _ mem => mem) debugger
    { dstMac := mac 2 0 0 0 0 2, srcMac := mac 2 0 0 0 0 1, type := ntoh16 0x0800 }
    (ipv4 192 168 0 1) testDatagram 12 (by decide) (by decide) (by decide)
  exact ⟨f, hsent, hanswers⟩

end RemoteX86
