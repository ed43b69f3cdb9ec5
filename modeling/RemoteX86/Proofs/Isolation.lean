import RemoteX86.Isolation
import RemoteX86.Proofs.Packet
import RemoteX86.Proofs.WriteFence

/-!
# When a frame is isolated

The checks of every layer read the bytes they check from inside the frame, so whether a frame is
accepted never depends on what follows it; only the operand parsers, which know no fence, and the
ARP fields of a short frame go further.  Where they do, the bytes behind the frame can be chosen to
give two different answers.
-/

namespace RemoteX86

open Hex Memory

/-! ## Commands -/

section Command

variable (code : BitVec 32 → Mem 32 → Mem 32) (dev : Device)

theorem memcmpEq_append {text : List Byte} {n : ℕ} (hn : n ≤ text.length) (after : List Byte)
    {s : List Byte} (h0 : (0 : Byte) ∉ s) (hs : s.length ≤ n) :
    memcmpEq (text ++ after) s = true ↔ s <+: text := by
  rw [memcmpEq_iff _ _ h0]
  constructor
  · intro h
    exact List.prefix_of_prefix_length_le h (List.prefix_append text after) (by omega)
  · exact fun h => h.trans (List.prefix_append text after)

theorem operands_append {text : List Byte} (h5 : 5 ≤ text.length)
    (h : OperandsEnd (text.drop 5)) (after : List Byte) :
    operands ((text ++ after).drop 5)
      = Scan.result ((Scan.start.run (text.drop 5)).1,
          (Scan.start.run (text.drop 5)).2 ++ after) := by
  rw [List.drop_append_of_le_length h5, operands_eq_run, Scan.run_append_of_ne_nil _ _ _ h]

theorem seekNewline_append : ∀ (left : ℕ) (p q : List Byte), left ≤ p.length →
    seekNewline left (p ++ q) = seekNewline left p ++ q
  | 0, p, q, _ => rfl
  | left + 1, [], q, h => by simp at h
  | left + 1, c :: p, q, h => by
    simp only [List.cons_append, seekNewline]
    split_ifs
    · exact seekNewline_append left p q (by simpa using h)
    · rfl

theorem writeRest_append {text : List Byte} (h5 : 5 ≤ text.length)
    (h : OperandsEnd (text.drop 5)) (after : List Byte) :
    writeRest (text ++ after) = writeRest text ++ after := by
  have h0 := operands_append h5 h []
  rw [List.append_nil] at h0
  rw [writeRest, writeRest, operands_append h5 h, h0]
  simp [Scan.result]

/-- The pointer of a WRITE whose operands end in the command is where it is without what
follows. -/
theorem writeData_append {text : List Byte} {n : ℕ} (h5 : 5 ≤ text.length) (hn : n ≤ text.length)
    (hend : OperandsEnd (text.drop 5)) (after : List Byte) :
    writeData (text ++ after) n = writeData text n ++ after := by
  have hle := (writeRest_suffix text).length_le
  have hrest := writeRest_append h5 hend after
  have hidx : ∀ q : List Byte, (text ++ after).length - (q ++ after).length
      = text.length - q.length := by
    intro q
    simp only [List.length_append]
    omega
  unfold writeData
  simp only []
  rw [← writeRest, ← writeRest, hrest, hidx, seekNewline_append _ _ _ (by omega), hidx]
  obtain ⟨k, -, hk, hseek⟩ :=
    seekNewline_drop (n - (text.length - (writeRest text).length)) (writeRest text)
  rw [hseek]
  by_cases hlt : text.length - ((writeRest text).drop k).length < n
  · have hne : (writeRest text).drop k ≠ [] := by
      intro e
      rw [e, List.length_nil] at hlt
      omega
    rw [List.head?_append_of_ne_nil _ hne]
    split_ifs
    · rw [List.drop_append_of_le_length (List.length_pos_iff.2 hne)]
    · rfl
  · rw [if_neg (fun h => hlt h.1), if_neg (fun h => hlt h.1)]

theorem writeOffset_append {text : List Byte} {n : ℕ} (h5 : 5 ≤ text.length)
    (hn : n ≤ text.length) (hend : OperandsEnd (text.drop 5)) (after : List Byte) :
    writeOffset (text ++ after) n = writeOffset text n := by
  rw [writeOffset, writeOffset, writeData_append h5 hn hend]
  simp only [List.length_append]
  omega

theorem writeOffset_le_of_stop {text : List Byte} {n : ℕ} (h5 : 5 ≤ n) (hn : n ≤ text.length)
    (hstop : OperandsStop ((text.take n).drop 5) (text.drop n)) : writeOffset text n ≤ n := by
  have htake : (text.take n).length = n := by simpa using hn
  have := (writeRest_le_iff (text.drop n) (by omega : 5 ≤ (text.take n).length)).2 hstop
  rw [List.take_append_drop, htake] at this
  exact (writeOffset_le_iff text n).2 this

/-- A WRITE whose operands end inside the command copies the same bytes whatever follows it. -/
theorem commandWrite_append {text : List Byte} {n : ℕ} (h6 : 6 ≤ n) (hn : n ≤ text.length)
    (hlt : n < 2 ^ 32) (hend : OperandsEnd (text.drop 5))
    (hstop : OperandsStop ((text.take n).drop 5) (text.drop n)) (after : List Byte) :
    commandWrite dev (text ++ after) n = commandWrite dev text n := by
  have hoff := writeOffset_append (by omega) hn hend after
  have hle := writeOffset_le_of_stop (by omega) hn hstop
  have hlen : writeDataLen (text ++ after) n = n - writeOffset text n := by
    rw [writeDataLen_eq hlt (by omega), hoff]
  have hlen' : writeDataLen text n = n - writeOffset text n := writeDataLen_eq hlt hle
  have hdata : n - writeOffset text n ≤ (writeData text n).length := by
    rw [writeData_drop, List.length_drop]
    omega
  have hsrc : peek (writeData (text ++ after) n) 0 (n - writeOffset text n)
      = peek (writeData text n) 0 (n - writeOffset text n) := by
    rw [writeData_append (by omega) hn hend, peek_eq_take _ _ (by rw [List.length_append]; omega),
      peek_eq_take _ _ hdata, List.take_append_of_le_length hdata]
  have hops := operands_append (by omega : 5 ≤ text.length) hend
  have hops' := hops []
  rw [List.append_nil] at hops'
  unfold commandWrite
  simp only [hlen, hlen', hsrc, hops, hops', Scan.result]

/-- What a contained command does is a matter of the command alone. -/
theorem udpCommand_append {text : List Byte} {n : ℕ} (hn : n ≤ text.length) (hlt : n < 2 ^ 32)
    (h : CommandContained text n) (after : List Byte) :
    udpCommand code dev (text ++ after) n = udpCommand code dev text n := by
  obtain ⟨hread, hexec, hwrite⟩ := h
  have hcmp : ∀ (k : ℕ) (s : List Byte), (0 : Byte) ∉ s → s.length ≤ k →
      ((k ≤ n ∧ memcmpEq (text ++ after) s = true) ↔ (k ≤ n ∧ memcmpEq text s = true)) := by
    intro k s h0 hs
    refine and_congr_right fun hk => ?_
    rw [memcmpEq_append hn after h0 (by omega), memcmpEq_iff _ _ h0]
  unfold udpCommand
  simp only [hcmp 4 (ascii "TEST") (by decide) (by decide),
    hcmp 5 (ascii "READ ") (by decide) (by decide), hcmp 6 (ascii "WRITE ") (by decide) (by decide),
    hcmp 3 (ascii "LOW") (by decide) (by decide), hcmp 5 (ascii "EXEC ") (by decide) (by decide)]
  split_ifs with _ h2 h3 _ h5
  · rfl
  · have hend := hread h2.1 ((memcmpEq_iff _ _ (by decide)).1 h2.2)
    have hops := operands_append (by omega : 5 ≤ text.length) hend
    have hops' := hops []
    rw [List.append_nil] at hops'
    simp only [commandRead, hops, hops', Scan.result]
  · obtain ⟨hend, hstop⟩ := hwrite h3.1 ((memcmpEq_iff _ _ (by decide)).1 h3.2)
    exact commandWrite_append dev h3.1 hn hlt hend hstop after
  · rfl
  · have hend := hexec h5.1 ((memcmpEq_iff _ _ (by decide)).1 h5.2)
    have hops := operands_append (by omega : 5 ≤ text.length) hend
    have hops' := hops []
    rw [List.append_nil] at hops'
    simp only [commandExec, hops, hops', Scan.result]
  · rfl

end Command

/-! ## The layers -/

section Layers

variable (code : BitVec 32 → Mem 32 → Mem 32) (dev : Device) (eth : EthernetFrameHeader)
  {p q : List Byte}

theorem netOnArp_congr (h : Agree 28 p q) : netOnArp dev eth p = netOnArp dev eth q := by
  unfold netOnArp netOnArpIPv4
  rw [h.net16 (by omega : 0 + 1 < 28), h 4 (by omega), h.net16 (by omega : 2 + 1 < 28),
    h 5 (by omega), h.net16 (by omega : 6 + 1 < 28), h.peek (by omega : 8 + 6 ≤ 28),
    h.peek (by omega : 14 + 4 ≤ 28), h.peek (by omega : 24 + 4 ≤ 28)]

theorem netOnIpv4Icmp_congr (srcIp : List Byte) {len : ℕ} (h : Agree len p q) :
    netOnIpv4Icmp dev eth srcIp p len = netOnIpv4Icmp dev eth srcIp q len := by
  unfold netOnIpv4Icmp icmpEchoReply
  by_cases h8 : len < 8
  · rw [if_pos h8, if_pos h8]
  · have hk : 2 * (len >>> 1) ≤ len := by
      rw [Nat.shiftRight_eq_div_pow]
      omega
    rw [if_neg h8, if_neg h8, h.chksumWords _ hk, h.net16 (by omega : 2 + 1 < len),
      h 0 (by omega), h 1 (by omega), h.peek (by omega : 0 + len ≤ len)]

theorem udpDataLength_le (pkt : List Byte) (len : ℕ) : udpDataLength pkt len ≤ len - 8 := by
  unfold udpDataLength
  split_ifs <;> omega

theorem udpDataLength_lt (pkt : List Byte) (len : ℕ) : udpDataLength pkt len < 2 ^ 32 := by
  have := (net16 pkt 4).isLt
  unfold udpDataLength
  split_ifs <;> omega

theorem udpChksumOk_congr (my : Ipv4Address) (srcIp : List Byte) {len : ℕ} (h8 : 8 ≤ len)
    (h : Agree len p q) : udpChksumOk my srcIp p len = udpChksumOk my srcIp q len := by
  have hk : 2 * (len >>> 1) ≤ len := by
    rw [Nat.shiftRight_eq_div_pow]
    omega
  unfold udpChksumOk udpChksum
  simp only []
  rw [h.net16 (by omega : 6 + 1 < len), h.chksumWords _ hk, h (len - 1) (by omega)]

theorem drop_eq_append_of_take {len : ℕ} (h : p.take len = q.take len) (k : ℕ) :
    p.drop k = (q.drop k).take (len - k) ++ p.drop (k + (len - k)) := by
  have ht : (p.drop k).take (len - k) = (q.drop k).take (len - k) := by
    rw [← List.drop_take, h, List.drop_take]
  rw [← ht, ← List.drop_drop, List.take_append_drop]

/-- What the UDP handler does to a contained datagram is a matter of its `len` bytes. -/
theorem netOnIpv4Udp_congr (srcIp : List Byte) {len : ℕ} (h : p.take len = q.take len)
    (hq : len ≤ q.length)
    (hc : 8 ≤ len → udpChksumOk dev.myIpv4Address srcIp q len = true → net16 q 2 = 777 →
      CommandContained ((q.drop 8).take (len - 8)) (udpDataLength q len)) :
    netOnIpv4Udp code dev eth srcIp p len = netOnIpv4Udp code dev eth srcIp q len := by
  have hag := agree_of_take h
  unfold netOnIpv4Udp
  by_cases h8 : len < 8
  · rw [if_pos h8, if_pos h8]
  rw [if_neg h8, if_neg h8, udpChksumOk_congr _ _ (by omega) hag]
  by_cases hsum : udpChksumOk dev.myIpv4Address srcIp q len = true
  swap
  · simp [hsum]
  have hlen : udpDataLength p len = udpDataLength q len := by
    unfold udpDataLength
    rw [hag.net16 (by omega : 4 + 1 < len)]
  simp only [hsum, Bool.not_true, Bool.false_eq_true, if_false, hlen,
    hag.net16 (by omega : 0 + 1 < len), hag.net16 (by omega : 2 + 1 < len)]
  by_cases hport : net16 q 2 = 777
  · have htext : ((q.drop 8).take (len - 8)).length = len - 8 := by simp; omega
    have hn : udpDataLength q len ≤ ((q.drop 8).take (len - 8)).length := by
      rw [htext]
      exact udpDataLength_le q len
    have hcmd := udpCommand_append code dev hn (udpDataLength_lt q len)
      (hc (by omega) hsum hport)
    have hp := hcmd (p.drop (8 + (len - 8)))
    have hq := hcmd (q.drop (8 + (len - 8)))
    rw [← drop_eq_append_of_take h 8] at hp
    rw [← drop_eq_append_of_take rfl 8] at hq
    rw [if_pos hport, if_pos hport, hp, hq]
  · have hpeek : peek (p.drop 8) 0 (udpDataLength q len)
        = peek (q.drop 8) 0 (udpDataLength q len) := by
      have := udpDataLength_le q len
      exact (hag.drop 8).peek (by omega)
    rw [if_neg hport, if_neg hport, hpeek]

theorem ipv4Accepts_bounds {my : Ipv4Address} {sz : ℕ} (h : ipv4Accepts my p sz = true) :
    20 ≤ ipv4HdrLen p ∧ ipv4HdrLen p ≤ ipv4TotalLen p ∧ ipv4TotalLen p ≤ sz := by
  unfold ipv4Accepts at h
  simp only [Bool.if_false_left, Bool.and_eq_true, Bool.not_eq_true', decide_eq_false_iff_not] at h
  obtain ⟨-, -, h20, -, -, -, -, -, hhdr, htot, -⟩ := h
  omega

theorem ipv4Accepts_congr (my : Ipv4Address) (sz : ℕ) {n : ℕ} (h : Agree n p q) (h20 : 20 ≤ n)
    (hn : ipv4HdrLen q ≤ n) : ipv4Accepts my p sz = ipv4Accepts my q sz := by
  have hhdr : ipv4HdrLen p = ipv4HdrLen q := by rw [ipv4HdrLen, ipv4HdrLen, h 0 (by omega)]
  have hk : 2 * (ipv4HdrLen q >>> 1) ≤ n := by
    rw [Nat.shiftRight_eq_div_pow]
    omega
  unfold ipv4Accepts ipv4TotalLen ipv4FragOffset
  rw [hhdr, h.chksumWords _ hk, h 0 (by omega), h.net16 (by omega : 10 + 1 < n),
    h.peek (by omega : 16 + 4 ≤ n), h 6 (by omega), h 7 (by omega), h.net16 (by omega : 2 + 1 < n)]

/-- The fields `net_on_arp` and `net_on_arp_IPv4` check are those of a request for this machine. -/
theorem arpRequestUpTo_iff (my : Ipv4Address) (p : List Byte) :
    ArpRequestUpTo my p 28 ↔ net16 p 0 = 1 ∧ p.getD 4 0 = 6 ∧ net16 p 2 = 0x0800 ∧ p.getD 5 0 = 4
      ∧ net16 p 6 = 1 ∧ peek p 24 4 = my.toList := by
  match my with
  | ⟨[a, b, c, d], _⟩ => ?_
  have h1 : ∀ i, net16 p i = 1 ↔ p.getD i 0 = 0 ∧ p.getD (i + 1) 0 = 1 := fun i =>
    net16_eq_iff (a := 0#8) (b := 1#8)
  have h8 : net16 p 2 = 0x0800 ↔ p.getD 2 0 = 8 ∧ p.getD 3 0 = 0 :=
    net16_eq_iff (a := 8#8) (b := 0#8)
  rw [h1, h1, h8]
  constructor
  · intro h
    refine ⟨⟨h 0 (by omega) _ rfl, h 1 (by omega) _ rfl⟩, h 4 (by omega) _ rfl,
      ⟨h 2 (by omega) _ rfl, h 3 (by omega) _ rfl⟩, h 5 (by omega) _ rfl,
      ⟨h 6 (by omega) _ rfl, h 7 (by omega) _ rfl⟩, ?_⟩
    have h24 : p.getD 24 0 = a := h 24 (by omega) _ rfl
    have h25 : p.getD 25 0 = b := h 25 (by omega) _ rfl
    have h26 : p.getD 26 0 = c := h 26 (by omega) _ rfl
    have h27 : p.getD 27 0 = d := h 27 (by omega) _ rfl
    show [p.getD 24 0, p.getD 25 0, p.getD 26 0, p.getD 27 0] = [a, b, c, d]
    rw [h24, h25, h26, h27]
  · rintro ⟨⟨h0, h1⟩, h4, ⟨h2, h3⟩, h5, ⟨h6, h7⟩, hip⟩ i hi e he
    have hip : [p.getD 24 0, p.getD 25 0, p.getD 26 0, p.getD 27 0] = [a, b, c, d] := hip
    simp only [List.cons.injEq, and_true] at hip
    obtain ⟨h24, h25, h26, h27⟩ := hip
    interval_cases i <;> cases he <;> assumption

theorem netOnArp_of_not_request (h : ¬ ArpRequestUpTo dev.myIpv4Address p 28) :
    netOnArp dev eth p = .none := by
  unfold netOnArp
  split_ifs with h0 h2
  · rfl
  · simp only [not_or, not_not] at h0
    unfold netOnArpIPv4
    by_cases h5 : p.getD 5 0 = 4
    swap
    · rw [if_pos h5]
    by_cases h6 : net16 p 6 = 1
    swap
    · rw [if_neg (not_not.2 h5), if_pos h6]
    have h24 : peek p 24 4 ≠ dev.myIpv4Address.toList := fun h24 =>
      h ((arpRequestUpTo_iff _ _).2 ⟨h0.1, h0.2, h2, h5, h6, h24⟩)
    simp only []
    rw [if_neg (not_not.2 h5), if_neg (not_not.2 h6), if_pos h24]
  · rfl

end Layers

/-! ## Contained frames are isolated -/

section Contained

variable (code : BitVec 32 → Mem 32 → Mem 32) (dev : Device) {r r' : Received}

theorem netIdle_some (hopen : dev.chosenNetDrvOpen = true) (hme : forMe dev r.hdr = true) :
    netIdle code dev (some r) = netOnFrame code dev r := by
  simp [netIdle, hopen, hme]

theorem Received.isArp.not_isIpv4 (h : r.isArp) : ¬ r.isIpv4 := by
  intro hip
  rw [Received.isIpv4, h] at hip
  exact absurd hip (by decide)

theorem netOnFrame_arp (h : r.isArp) : netOnFrame code dev r = (dev, netOnArp dev r.hdr r.p) :=
  if_pos h

theorem netOnFrame_ipv4 (h : r.isIpv4) :
    netOnFrame code dev r = netOnIpv4 code dev r.hdr r.p r.sz := by
  have harp : ¬ ntoh16 r.hdr.type = 0x0806 := fun harp => Received.isArp.not_isIpv4 harp h
  rw [netOnFrame, if_neg harp]
  exact if_pos h

theorem netOnFrame_other (harp : ¬ r.isArp) (hip : ¬ r.isIpv4) :
    netOnFrame code dev r = (dev, if memcmpEq r.p (List.replicate 6 0xFF) then .none
      else { Effect.none with vga := dumpFrame r.hdr r.p r.sz }) := by
  rw [Received.isArp] at harp
  rw [Received.isIpv4] at hip
  rw [netOnFrame, if_neg harp, if_neg hip]
  split_ifs <;> rfl

theorem SameFrame.agree (h : SameFrame r r') : Agree (frameLen r) r'.p r.p :=
  agree_of_take h.bytes

theorem ArpRequestUpTo.congr {my : Ipv4Address} {n : ℕ} {p q : List Byte} (h : Agree n p q)
    (hq : ArpRequestUpTo my q n) : ArpRequestUpTo my p n := by
  intro i hi b hb
  rw [h i hi]
  exact hq i hi b hb

theorem ArpRequestUpTo.of_request {my : Ipv4Address} {p : List Byte}
    (h : ArpRequestUpTo my p 28) (n : ℕ) : ArpRequestUpTo my p n := by
  intro i _ b hb
  have hlen : i < (arpRequest my).length := (List.getElem?_eq_some_iff.1 hb).1
  exact h i (by simpa [arpRequest] using hlen) b hb

theorem netOnArp_sameFrame (hs : SameFrame r r') (hsz : frameLen r = r.sz)
    (hc : 28 ≤ r.sz ∨ ¬ ArpRequestUpTo dev.myIpv4Address r.p r.sz) :
    netOnArp dev r.hdr r'.p = netOnArp dev r.hdr r.p := by
  have hag := hs.agree
  rw [hsz] at hag
  rcases hc with h28 | hno
  · exact netOnArp_congr dev r.hdr (hag.mono h28)
  · have hr : ¬ ArpRequestUpTo dev.myIpv4Address r.p 28 := fun h => hno (h.of_request _)
    have hr' : ¬ ArpRequestUpTo dev.myIpv4Address r'.p 28 := fun h =>
      hno (ArpRequestUpTo.congr hag.symm (h.of_request _))
    rw [netOnArp_of_not_request dev _ hr, netOnArp_of_not_request dev _ hr']

/-- An accepted packet lies in its frame, so both buffers hold it or neither does. -/
theorem ipv4Accepts_sameFrame (my : Ipv4Address) (hs : SameFrame r r') (hip : r.isIpv4) :
    ipv4Accepts my r'.p r.sz = ipv4Accepts my r.p r.sz := by
  have hip' : r'.isIpv4 := by rw [Received.isIpv4, hs.hdr]; exact hip
  have hag := hs.agree
  have hlen := hs.len
  simp only [frameLen, if_pos hip, if_pos hip', hs.sz] at hag hlen
  refine Bool.eq_iff_iff.2 ⟨fun h => ?_, fun h => ?_⟩
  · obtain ⟨h1, h2, h3⟩ := ipv4Accepts_bounds h
    rw [ipv4Accepts_congr my r.sz hag.symm (by omega) (by omega)]
    exact h
  · obtain ⟨h1, h2, h3⟩ := ipv4Accepts_bounds h
    rw [ipv4Accepts_congr my r.sz hag (by omega) (by omega)]
    exact h

theorem netOnIpv4_sameFrame (hs : SameFrame r r') (hip : r.isIpv4)
    (hc : ipv4Accepts dev.myIpv4Address r.p r.sz = true → r.p.getD 9 0 = 0x11 →
      UdpContained dev.myIpv4Address r.p) :
    netOnIpv4 code dev r.hdr r'.p r.sz = netOnIpv4 code dev r.hdr r.p r.sz := by
  unfold netOnIpv4
  rw [ipv4Accepts_sameFrame _ hs hip]
  by_cases hacc : ipv4Accepts dev.myIpv4Address r.p r.sz = true
  swap
  · simp [hacc]
  obtain ⟨h20, hhdr, htot⟩ := ipv4Accepts_bounds hacc
  have hL : frameLen r = ipv4TotalLen r.p := by rw [frameLen, if_pos hip, Nat.min_eq_right htot]
  have hbytes := hs.bytes
  rw [hL] at hbytes
  have hag := agree_of_take hbytes
  have hh : ipv4HdrLen r'.p = ipv4HdrLen r.p := by
    rw [ipv4HdrLen, ipv4HdrLen, hag 0 (by omega)]
  have ht : ipv4TotalLen r'.p = ipv4TotalLen r.p := by
    rw [ipv4TotalLen, hag.net16 (by omega : 2 + 1 < ipv4TotalLen r.p)]
    rfl
  simp only [hacc, if_true, hh, ht, hag 9 (by omega),
    hag.peek (by omega : 12 + 4 ≤ ipv4TotalLen r.p)]
  have hle := r.sz_le
  split_ifs with hicmp hudp
  · rw [netOnIpv4Icmp_congr dev r.hdr _ (hag.drop _)]
  · refine netOnIpv4Udp_congr code dev r.hdr _ ?_ (by rw [List.length_drop]; omega)
      (hc hacc hudp)
    rw [← List.drop_take, hbytes, List.drop_take]
  · rfl

theorem memcmpEq_ones_iff (p : List Byte) :
    memcmpEq p (List.replicate 6 0xFF) = true ↔ ∀ i < 6, p.getD i 0 = 0xFF := by
  rw [memcmpEq, beq_iff_eq, List.length_replicate, List.eq_replicate_iff]
  simp [peek]

theorem SameFrame.isArp (h : SameFrame r r') (hr : r.isArp) : r'.isArp := by
  rw [Received.isArp, h.hdr]
  exact hr

theorem SameFrame.isIpv4 (h : SameFrame r r') (hr : r.isIpv4) : r'.isIpv4 := by
  rw [Received.isIpv4, h.hdr]
  exact hr

/-- Whatever follows a contained frame, the round does the same. -/
theorem isolated_of_contained (hc : Contained dev r) : Isolated code dev r := by
  intro r' hs
  by_cases hopen : dev.chosenNetDrvOpen = true
  swap
  · simp [netIdle, hopen]
  by_cases hme : forMe dev r.hdr = true
  swap
  · simp [netIdle, hs.hdr, hme]
  have hc := hc hopen hme
  rw [netIdle_some code dev hopen hme, netIdle_some code dev hopen (by rw [hs.hdr]; exact hme)]
  by_cases harp : r.isArp
  · rw [if_pos harp] at hc
    have hsz : frameLen r = r.sz := if_neg harp.not_isIpv4
    rw [netOnFrame_arp code dev harp, netOnFrame_arp code dev (hs.isArp harp), hs.hdr,
      netOnArp_sameFrame dev hs hsz hc]
  rw [if_neg harp] at hc
  by_cases hip : r.isIpv4
  · rw [if_pos hip] at hc
    rw [netOnFrame_ipv4 code dev hip, netOnFrame_ipv4 code dev (hs.isIpv4 hip), hs.hdr, hs.sz,
      netOnIpv4_sameFrame code dev hs hip hc]
  rw [if_neg hip] at hc
  have hag := hs.agree
  rw [frameLen, if_neg hip] at hag
  have hcmp : memcmpEq r'.p (List.replicate 6 0xFF) = memcmpEq r.p (List.replicate 6 0xFF) := by
    rcases hc with h6 | ⟨i, hi, hne⟩
    · exact hag.memcmpEq h6
    · by_cases h6 : 6 ≤ r.sz
      · exact hag.memcmpEq h6
      refine Bool.eq_iff_iff.2 (iff_of_false (fun h => hne ?_) fun h => hne ?_)
      · rw [← hag i hi]
        exact (memcmpEq_ones_iff _).1 h i (by omega)
      · exact (memcmpEq_ones_iff _).1 h i (by omega)
  have hdump : dumpFrame r.hdr r'.p r.sz = dumpFrame r.hdr r.p r.sz := by
    rw [dumpFrame, hag.peek (by omega : 0 + min 24 r.sz ≤ r.sz)]
    rfl
  have harp' : ¬ r'.isArp := by rwa [Received.isArp, hs.hdr]
  have hip' : ¬ r'.isIpv4 := by rwa [Received.isIpv4, hs.hdr]
  rw [netOnFrame_other code dev harp hip, netOnFrame_other code dev harp' hip', hs.hdr, hs.sz, hcmp,
    hdump]

end Contained

end RemoteX86
