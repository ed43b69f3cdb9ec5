import RemoteX86.Ping
import RemoteX86.Proofs.Ipv4
import RemoteX86.Proofs.Reply

/-!
# Which pings are answered

All three loops of `net_on_ipv4_icmp` run over `len >> 1` words, so the last byte of an odd length
is in none of the sums.  A request whose checksum counts it in does not pass, unless it is zero.  One
that passes is answered with a checksum that holds for all `len` bytes.
-/

namespace RemoteX86

open Hex Memory

/-! ## The request -/

section Request

variable {icmp : List Byte} {len : ℕ}

/-- The byte that no loop sees, as it counts in a sum. -/
def oddByte (icmp : List Byte) (len : ℕ) : ℕ :=
  if len % 2 = 1 then (icmp.getD (len - 1) 0).toNat * 256 else 0

theorem sumBytes_icmp (h8 : 8 ≤ len) :
    Checksum.sumBytes (peek icmp 0 len)
      = Checksum.repr (wordTotal (some 1) icmp (len / 2) + oddByte icmp len
          + (net16 icmp 2).toNat) := by
  have hfield : wordTotal (some 1) icmp (len / 2) + (net16 icmp 2).toNat
      = wordTotal none icmp (len / 2) := wordTotal_some icmp 1 (len / 2) (by omega)
  rw [Checksum.sumBytes_eq_repr, sum_words_peek, ← hfield, oddByte]
  congr 1
  omega

/-- The type alone keeps the sum from being zero. -/
theorem wordTotal_type {n : ℕ} (hn : 0 < n) (p : List Byte) :
    (net16 p 0).toNat ≤ wordTotal (some 1) p n := by
  induction n with
  | zero => omega
  | succ n ih =>
    rw [wordTotal]
    rcases Nat.eq_zero_or_pos n with rfl | hpos
    · rw [if_neg (by decide), wordTotal, Nat.zero_add]
    · exact (ih hpos).trans (Nat.le_add_right _ _)

theorem EchoRequest.wordTotal_pos (h : EchoRequest icmp len) :
    0 < wordTotal (some 1) icmp (len / 2) := by
  have h8 := h.len_ge
  have htype : (net16 icmp 0).toNat = 8 * 256 := by
    rw [toNat_net16, h.type, h.code]
    rfl
  have hle := wordTotal_type (by omega : 0 < len / 2) icmp
  omega

theorem oddByte_eq_zero_iff :
    oddByte icmp len = 0 ↔ len % 2 = 0 ∨ icmp.getD (len - 1) 0 = 0 := by
  have hzero : icmp.getD (len - 1) 0 = 0 ↔ (icmp.getD (len - 1) 0).toNat = 0 :=
    BitVec.toNat_inj.symm
  rw [oddByte, hzero]
  split_ifs <;> omega

/-- A valid request passes the device's check if the odd byte makes no difference and the checksum
is not all ones. -/
theorem chksum_passes_iff (h : EchoRequest icmp len) :
    (~~~ chksumWords (some 1) (len >>> 1) icmp 0) &&& 0xFFFF = (net16 icmp 2).setWidth 32 ↔
      (len % 2 = 0 ∨ icmp.getD (len - 1) 0 = 0) ∧ net16 icmp 2 ≠ 0xFFFF := by
  have hwords := toNat_chksumWords (some 1) icmp (c := 0) (t := 0) rfl (len >>> 1)
  rw [Nat.shiftRight_one, Nat.zero_add] at hwords
  have hpos := h.wordTotal_pos
  have hsum := h.chksum
  have hfield := (net16 icmp 2).isLt
  have hodd : oddByte icmp len ≤ 255 * 256 := by
    have := (icmp.getD (len - 1) 0).isLt
    unfold oddByte
    split_ifs <;> omega
  have h256 : oddByte icmp len % 256 = 0 := by
    unfold oddByte
    split_ifs
    · exact Nat.mul_mod_left _ _
    · rfl
  have hones : net16 icmp 2 = 0xFFFF ↔ (net16 icmp 2).toNat = 65535 := BitVec.toNat_inj.symm
  rw [sumBytes_icmp h.len_ge, Checksum.repr_add_eq_max_iff (by omega) (by omega)] at hsum
  rw [Nat.shiftRight_one, complement_eq_iff (hwords ▸ Checksum.repr_le _), hwords,
    ← oddByte_eq_zero_iff, Ne, hones]
  revert hsum
  generalize wordTotal (some 1) icmp (len / 2) = t at hpos ⊢
  generalize oddByte icmp len = b at hodd h256 ⊢
  unfold Checksum.repr
  rw [if_neg (by omega), if_neg (by omega)]
  omega

end Request

/-! ## The answer -/

section Reply

variable (icmp : List Byte) {len : ℕ}

/-- The request with its type changed, before the checksum is. -/
def replyBare (len : ℕ) : List Byte := (peek icmp 0 len).set 0 0x00

def replyChksum (len : ℕ) : BitVec 16 :=
  (~~~ chksumWords (some 1) (len >>> 1) (replyBare icmp len) 0).setWidth 16

theorem icmpEchoReply_eq (len : ℕ) :
    icmpEchoReply icmp len
      = ((replyBare icmp len).set 2 ((replyChksum icmp len >>> 8).setWidth 8)).set 3
        ((replyChksum icmp len).setWidth 8) := rfl

theorem length_replyBare (len : ℕ) : (replyBare icmp len).length = len := by
  simp [replyBare, peek]

theorem length_icmpEchoReply (len : ℕ) : (icmpEchoReply icmp len).length = len := by
  rw [icmpEchoReply_eq, List.length_set, List.length_set, length_replyBare]

theorem getD_icmpEchoReply {i : ℕ} (h2 : i ≠ 2) (h3 : i ≠ 3) :
    (icmpEchoReply icmp len).getD i 0 = (replyBare icmp len).getD i 0 := by
  rw [icmpEchoReply_eq, List.getD_eq_getElem?_getD, List.getElem?_set_ne h3.symm,
    List.getElem?_set_ne h2.symm, List.getD_eq_getElem?_getD]

theorem getD_replyBare {i : ℕ} (hi : i < len) (h0 : i ≠ 0) :
    (replyBare icmp len).getD i 0 = icmp.getD i 0 := by
  rw [replyBare, List.getD_eq_getElem?_getD, List.getElem?_set_ne h0.symm,
    ← List.getD_eq_getElem?_getD]
  exact agree_peek icmp len i hi

theorem net16_icmpEchoReply (h8 : 8 ≤ len) :
    net16 (icmpEchoReply icmp len) 2 = replyChksum icmp len := by
  have hlen := length_replyBare icmp len
  rw [net16_eq, icmpEchoReply_eq, List.getD_eq_getElem?_getD, List.getD_eq_getElem?_getD,
    List.getElem?_set_ne (by omega), List.getElem?_set_self (by omega),
    List.getElem?_set_self (by rw [List.length_set]; omega)]
  exact hton16_append _

/-- The checksum is about words that do not change any more. -/
theorem wordTotal_icmpEchoReply : ∀ n,
    wordTotal (some 1) (icmpEchoReply icmp len) n = wordTotal (some 1) (replyBare icmp len) n
  | 0 => rfl
  | n + 1 => by
    rw [wordTotal, wordTotal, wordTotal_icmpEchoReply n]
    split_ifs with hskip
    · rfl
    · have hne : n ≠ 1 := fun he => hskip (he ▸ rfl)
      rw [net16_eq, net16_eq, getD_icmpEchoReply icmp (by omega) (by omega),
        getD_icmpEchoReply icmp (by omega) (by omega)]

theorem toNat_replyChksum (len : ℕ) :
    (replyChksum icmp len).toNat
      = 65535 - Checksum.repr (wordTotal (some 1) (replyBare icmp len) (len / 2)) := by
  have hwords := toNat_chksumWords (some 1) (replyBare icmp len) (c := 0) (t := 0) rfl (len >>> 1)
  rw [Nat.shiftRight_one, Nat.zero_add] at hwords
  have hle := Checksum.repr_le (wordTotal (some 1) (replyBare icmp len) (len / 2))
  rw [replyChksum, Nat.shiftRight_one, BitVec.toNat_setWidth, BitVec.toNat_not, hwords]
  omega

/-- With an odd byte of zero, or none, the sum over all bytes is that of the loop. -/
theorem sumBytes_icmpEchoReply (h8 : 8 ≤ len) (hodd : oddByte icmp len = 0) :
    Checksum.sumBytes (icmpEchoReply icmp len) = 0xFFFF := by
  have hlen := length_icmpEchoReply icmp len
  have hfield : wordTotal (some 1) (icmpEchoReply icmp len) (len / 2)
      + (net16 (icmpEchoReply icmp len) 2).toNat
        = wordTotal none (icmpEchoReply icmp len) (len / 2) :=
    wordTotal_some _ 1 (len / 2) (by omega)
  have hlast : oddByte (icmpEchoReply icmp len) len = 0 := by
    rw [← hodd, oddByte, oddByte, getD_icmpEchoReply icmp (by omega) (by omega),
      getD_replyBare icmp (by omega) (by omega)]
  have hwords := sum_words_take len (icmpEchoReply icmp len) hlen.ge
  rw [List.take_of_length_le hlen.le, ← hfield, wordTotal_icmpEchoReply, net16_icmpEchoReply icmp h8,
    toNat_replyChksum] at hwords
  rw [Checksum.sumBytes_eq_repr, hwords]
  rw [oddByte] at hlast
  rw [hlast, Nat.add_zero]
  exact Checksum.repr_add_complement _

end Reply

/-! ## Pings -/

section Ping

variable (code : BitVec 32 → Mem 32 → Mem 32) (dev : Device) (eth : EthernetFrameHeader)

/-- The frame that is sent. -/
def pingAnswer (src : Ipv4Address) (icmp : List Byte) (len : ℕ) : Frame where
  hdr := { dstMac := eth.srcMac, srcMac := dev.myEthMac, type := ntoh16 0x0800 }
  payload := ipv4Header dev.myIpv4Address src.toList 0x01 (0x14 + len) ++ icmpEchoReply icmp len

theorem pingAnswer_reply {src : Ipv4Address} {icmp : List Byte} {len : ℕ} (h8 : 8 ≤ len)
    (hlt : 0x14 + len < 2 ^ 16) (hodd : oddByte icmp len = 0) :
    EchoReply dev eth src icmp len (pingAnswer dev eth src icmp len) := by
  have hdrop : (pingAnswer dev eth src icmp len).payload.drop 20 = icmpEchoReply icmp len :=
    List.drop_left' (length_ipv4Header _ src.toList_length _ _)
  have hlen := length_icmpEchoReply icmp len
  have htype : (icmpEchoReply icmp len).getD 0 0 = 0 := by
    rw [getD_icmpEchoReply icmp (by omega) (by omega), replyBare, List.getD_eq_getElem?_getD,
      List.getElem?_set_self (by simp [peek]; omega)]
    rfl
  constructor
  · rfl
  · exact ipv4Accepts_ipv4Header _ _ _ _ _ hlt (by omega)
  · exact ipv4HdrLen_ipv4Header _ _ _ _ _
  · exact ipv4TotalLen_ipv4Header _ _ _ _ _ hlt
  · exact getD_ipv4Header _ _ _ _ _ (by omega) (by omega) (by omega)
  · exact peek_ipv4Header _ _ _ _ _
  · exact peek_ipv4Header_dst _ _ _ _ _
  · rw [hdrop, hlen]
  · rw [hdrop, htype]
  · intro i hi h0 h2 h3
    rw [hdrop, getD_icmpEchoReply icmp h2 h3, getD_replyBare icmp hi h0]
  · rw [hdrop]
    exact sumBytes_icmpEchoReply icmp h8 hodd

/-- The frame for a request is sent exactly when the check passes. -/
theorem netOnIpv4Icmp_sent (src : Ipv4Address) {icmp : List Byte} {len : ℕ}
    (h : EchoRequest icmp len) (hfits : dev.chosenNetDrv.prepareSendPacket (0x14 + len) = true) :
    (netOnIpv4Icmp dev eth src.toList icmp len).sent
      = if (len % 2 = 0 ∨ icmp.getD (len - 1) 0 = 0) ∧ net16 icmp 2 ≠ 0xFFFF
        then [pingAnswer dev eth src icmp len] else [] := by
  have h8 := h.len_ge
  have hpasses := chksum_passes_iff h
  unfold netOnIpv4Icmp
  rw [if_neg (by omega)]
  by_cases hpass : (len % 2 = 0 ∨ icmp.getD (len - 1) 0 = 0) ∧ net16 icmp 2 ≠ 0xFFFF
  · rw [if_neg (not_not.2 (hpasses.2 hpass)), if_pos ⟨h.type, h.code⟩, if_pos hpass]
    simp only []
    rw [if_pos hfits]
    rfl
  · rw [if_pos fun hc => hpass (hpasses.1 hc), if_neg hpass]
    rfl

theorem prepareSendPacket_mono (drv : NetDriver) {m n : ℕ} (h : m ≤ n)
    (hn : drv.prepareSendPacket n = true) : drv.prepareSendPacket m = true := by
  cases drv <;> simp only [NetDriver.prepareSendPacket, Bool.not_eq_true',
    decide_eq_false_iff_not] at hn ⊢ <;> omega

/-- A ping is answered, with everything that makes the answer one, exactly when no odd byte is in
its checksum and the checksum is not all ones. -/
theorem pingWorks_iff {pkt : List Byte} {sz : ℕ} (h : PingRequest dev pkt sz) :
    PingWorks code dev eth pkt sz ↔
      (ipv4DataLen pkt % 2 = 0 ∨ (ipv4Data pkt).getD (ipv4DataLen pkt - 1) 0 = 0)
        ∧ net16 (ipv4Data pkt) 2 ≠ 0xFFFF := by
  obtain ⟨-, -, hhdr, hle, -⟩ := (ipv4Accepts_iff _ _ _).1 h.accepted
  have htotal := ipv4TotalLen_lt pkt
  have h8 := h.request.len_ge
  have hlen : 0x14 + ipv4DataLen pkt ≤ ipv4TotalLen pkt := by
    rw [ipv4DataLen]
    omega
  have hrun : netOnIpv4 code dev eth pkt sz
      = (dev, netOnIpv4Icmp dev eth (ipv4Source pkt).toList (ipv4Data pkt) (ipv4DataLen pkt)) :=
    (if_pos h.accepted).trans (if_pos h.proto)
  have hsent := netOnIpv4Icmp_sent dev eth (ipv4Source pkt) h.request
    (prepareSendPacket_mono _ hlen h.fits)
  rw [PingWorks, hrun]
  simp only []
  rw [hsent]
  constructor
  · rintro ⟨f, hf, -⟩
    by_contra hpass
    rw [if_neg hpass] at hf
    exact List.cons_ne_nil _ _ hf.symm
  · intro hpass
    exact ⟨_, if_pos hpass,
      pingAnswer_reply dev eth h8 (by omega) (oddByte_eq_zero_iff.2 hpass.1)⟩

end Ping

theorem pingWorks_iff_echo :
    PingWorks (fun _ mem => mem) debugger
      { dstMac := mac 2 0 0 0 0 2, srcMac := mac 2 0 0 0 0 1, type := ntoh16 0x0800 }
      echoPacket 28 :=
  (pingWorks_iff (fun _ mem => mem) debugger
    { dstMac := mac 2 0 0 0 0 2, srcMac := mac 2 0 0 0 0 1, type := ntoh16 0x0800 }
    ⟨by decide, by decide, by decide, by decide, by decide, by decide, by decide⟩).2 (by decide)

/-- The same with one byte of data. -/
def oddPing : List Byte :=
  [0x45, 0, 0, 29, 0, 0, 0x40, 0, 0x40, 1, 0xB9, 0x8C, 192, 168, 0, 1, 192, 168, 0, 2,
    8, 0, 0xF6, 0xFF, 0, 0, 0, 0, 1]

theorem pingWorks_false_odd :
    PingRequest debugger oddPing 29
      ∧ ¬ PingWorks (fun _ mem => mem) debugger
        { dstMac := mac 2 0 0 0 0 2, srcMac := mac 2 0 0 0 0 1, type := ntoh16 0x0800 }
        oddPing 29 := by
  refine ⟨⟨by decide, by decide, by decide, by decide, by decide, by decide, by decide⟩, ?_⟩
  rintro ⟨f, hf, -⟩
  have hsilent : (netOnIpv4 (fun _ mem => mem) debugger
      { dstMac := mac 2 0 0 0 0 2, srcMac := mac 2 0 0 0 0 1, type := ntoh16 0x0800 }
      oddPing 29).2.sent = [] := by decide
  exact List.cons_ne_nil _ _ (hf.symm.trans hsilent)

end RemoteX86
