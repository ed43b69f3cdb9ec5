import RemoteX86.Segment
import RemoteX86.Proofs.Isolation
import RemoteX86.Proofs.Ping
import RemoteX86.Proofs.Reply

/-!
# Debuggers do not answer each other

What a debugger sends is an ARP reply, an echo reply or a datagram to the port a request came from,
and none of these is anything a debugger answers, unless that port is the debuggers' own.  So as
long as nobody else sends from port 777, the frames of the debuggers can be taken out of a run and
it stays as it is, and they never send more frames than have come in from elsewhere.  One datagram
from port 777 is enough for two debuggers to go on answering each other for ever.
-/

namespace RemoteX86

open Hex Memory Transition

/-! ## Frames that draw no answer -/

/-- A round that leaves the debugger as it was, and is not seen on the segment or in memory. -/
def Quiet (dev : Device) (out : Device × Effect) : Prop :=
  out.1 = dev ∧ out.2.sent = [] ∧ out.2.writes = [] ∧ out.2.calls = []

theorem quiet_none (dev : Device) : Quiet dev (dev, .none) := ⟨rfl, rfl, rfl, rfl⟩

theorem quiet_vga (dev : Device) (vga : List Byte) :
    Quiet dev (dev, { Effect.none with vga := vga }) := ⟨rfl, rfl, rfl, rfl⟩

/-- Wherever it arrives, the frame puts something on the screen at most. -/
def Frame.Spent (f : Frame) : Prop :=
  ∀ (code : BitVec 32 → Mem 32 → Mem 32) (dev : Device) (r : Received), r.Carries f →
    Quiet dev (netIdle code dev (some r))

/-- It is enough to look behind the check of the destination. -/
theorem Frame.spent_of_netOnFrame {f : Frame}
    (h : ∀ code dev (r : Received), r.Carries f → Quiet dev (netOnFrame code dev r)) :
    f.Spent := by
  intro code dev r hr
  have hframe := h code dev r hr
  unfold netIdle
  split
  · exact quiet_none dev
  · simp only []
    split
    · exact hframe
    · exact quiet_none dev

/-- An ARP reply is no request. -/
theorem Frame.spent_arp {f : Frame} (rest : List Byte) (htype : f.hdr.type = ntoh16 0x0806)
    (hpayload : f.payload = hton16Bytes 1 ++ hton16Bytes 0x0800 ++ [6, 4] ++ hton16Bytes 2 ++ rest) :
    f.Spent := by
  refine Frame.spent_of_netOnFrame fun code dev r hr => ?_
  obtain ⟨hhdr, after, hp⟩ := hr
  have harp : r.isArp := by
    rw [Received.isArp, hhdr, htype]
    decide
  have hop : net16 r.p 6 ≠ 1 := by
    have hfields : (hton16Bytes 1 ++ hton16Bytes 0x0800 ++ [6, 4]).length = 6 := rfl
    rw [← hp, hpayload, List.append_assoc, List.append_assoc, net16_hton16Bytes 2 hfields]
    decide
  rw [netOnFrame_arp code dev harp]
  have hnone : netOnArp dev r.hdr r.p = .none := by
    unfold netOnArp netOnArpIPv4
    rw [if_pos hop]
    split_ifs <;> rfl
  rw [hnone]
  exact quiet_none dev

section Packet

variable {my srcIp : Ipv4Address} {proto : Byte} {total : ℕ}

/-- A packet of a debugger is what its data is to the code for its protocol. -/
theorem Frame.spent_ipv4 {f : Frame} {data : List Byte} (htype : f.hdr.type = ntoh16 0x0800)
    (hpayload : f.payload = ipv4Header my srcIp.toList proto total ++ data)
    (h : ∀ (code : BitVec 32 → Mem 32 → Mem 32) (dev : Device) (eth : EthernetFrameHeader)
      (src after : List Byte) (len : ℕ),
      (proto = 0x01 → Quiet dev (dev, netOnIpv4Icmp dev eth src (data ++ after) len))
        ∧ (proto = 0x11 → Quiet dev (netOnIpv4Udp code dev eth src (data ++ after) len))) :
    f.Spent := by
  refine Frame.spent_of_netOnFrame fun code dev r hr => ?_
  obtain ⟨hhdr, after, hp⟩ := hr
  have hip : r.isIpv4 := by
    rw [Received.isIpv4, hhdr, htype]
    decide
  rw [hpayload, List.append_assoc] at hp
  have hproto : r.p.getD 9 0 = proto := by
    rw [← hp]
    exact getD_ipv4Header _ _ _ _ _ (by omega) (by omega) (by omega)
  have hdrop : r.p.drop (ipv4HdrLen r.p) = data ++ after := by
    rw [← hp, ipv4HdrLen_ipv4Header]
    exact List.drop_left' (length_ipv4Header _ srcIp.toList_length _ _)
  obtain ⟨hicmp, hudp⟩ := h code dev r.hdr (peek r.p 12 4) after
    (ipv4TotalLen r.p - ipv4HdrLen r.p)
  rw [netOnFrame_ipv4 code dev hip, netOnIpv4, hproto, hdrop]
  split_ifs with hacc hone hudp'
  · exact hicmp hone
  · exact hudp hudp'
  · exact quiet_none dev
  · exact quiet_none dev

/-- An echo reply is no echo request. -/
theorem Frame.spent_echoReply {f : Frame} {icmp : List Byte} {len : ℕ} (h8 : 8 ≤ len)
    (htype : f.hdr.type = ntoh16 0x0800)
    (hpayload : f.payload = ipv4Header my srcIp.toList 0x01 total ++ icmpEchoReply icmp len) :
    f.Spent := by
  refine Frame.spent_ipv4 htype hpayload fun code dev eth src after n => ⟨fun _ => ?_, ?_⟩
  · have hreply : (icmpEchoReply icmp len ++ after).getD 0 0 ≠ 8 := by
      have hhead :
          (icmpEchoReply icmp len ++ after).getD 0 0 = (icmpEchoReply icmp len).getD 0 0 := by
        rw [List.getD_eq_getElem?_getD, List.getD_eq_getElem?_getD,
          List.getElem?_append_left (by rw [length_icmpEchoReply]; omega)]
      rw [hhead, getD_icmpEchoReply icmp (by omega) (by omega), replyBare,
        List.getD_eq_getElem?_getD, List.getElem?_set_self (by simp [peek]; omega)]
      decide
    have hnone : netOnIpv4Icmp dev eth src (icmpEchoReply icmp len ++ after) n = .none := by
      unfold netOnIpv4Icmp
      rw [if_neg (fun hrequest : _ ∧ _ => hreply hrequest.1)]
      split_ifs <;> rfl
    rw [hnone]
    exact quiet_none dev
  · exact fun hproto => absurd hproto (by decide)

/-- A datagram to another port is printed. -/
theorem Frame.spent_datagram {f : Frame} {port srcPort : BitVec 16} {length zero data : List Byte}
    (hport : srcPort ≠ 777) (htype : f.hdr.type = ntoh16 0x0800)
    (hpayload : f.payload = ipv4Header my srcIp.toList 0x11 total ++ hton16Bytes port
      ++ hton16Bytes srcPort ++ length ++ zero ++ data) : f.Spent := by
  simp only [List.append_assoc] at hpayload
  refine Frame.spent_ipv4 htype hpayload fun code dev eth src after n => ⟨?_, fun _ => ?_⟩
  · exact fun hproto => absurd hproto (by decide)
  · have hdst : net16 (hton16Bytes port ++ (hton16Bytes srcPort ++ (length ++ (zero ++ data)))
        ++ after) 2 = srcPort := by
      have hfirst : (hton16Bytes port).length = 2 := rfl
      rw [List.append_assoc, List.append_assoc, net16_hton16Bytes srcPort hfirst]
    unfold netOnIpv4Udp
    simp only [hdst]
    rw [if_neg hport]
    split_ifs
    · exact quiet_none dev
    · exact quiet_none dev
    · exact quiet_vga dev _

end Packet

/-! ## What a round sends -/

section Sent

variable {code : BitVec 32 → Mem 32 → Mem 32} {dev : Device} {eth : EthernetFrameHeader}
  {pkt : List Byte}

/-- One frame at most, and none that draws an answer. -/
def SendsSpent (sent : List Frame) : Prop := sent.length ≤ 1 ∧ ∀ f ∈ sent, f.Spent

theorem sendsSpent_nil : SendsSpent [] := ⟨by decide, nofun⟩

theorem sendsSpent_singleton {f : Frame} (h : f.Spent) : SendsSpent [f] :=
  ⟨le_rfl, fun _ hf => List.mem_singleton.1 hf ▸ h⟩

theorem netOnArp_sendsSpent : SendsSpent (netOnArp dev eth pkt).sent := by
  unfold netOnArp netOnArpIPv4
  simp only []
  split_ifs <;> first | exact sendsSpent_nil | skip
  refine sendsSpent_singleton (Frame.spent_arp (dev.myEthMac.toList ++ dev.myIpv4Address.toList
    ++ peek pkt 8 6 ++ peek pkt 14 4) rfl ?_)
  simp only [List.append_assoc]

theorem netOnIpv4Icmp_sendsSpent (src : Ipv4Address) (len : ℕ) :
    SendsSpent (netOnIpv4Icmp dev eth src.toList pkt len).sent := by
  unfold netOnIpv4Icmp
  simp only []
  split_ifs with h8 <;> first | exact sendsSpent_nil | skip
  exact sendsSpent_singleton (Frame.spent_echoReply (Nat.le_of_not_lt h8) rfl rfl)

theorem netOnIpv4Udp_sendsSpent (src : Ipv4Address) (len : ℕ)
    (hport : ¬ (net16 pkt 0 = 777 ∧ net16 pkt 2 = 777)) :
    SendsSpent (netOnIpv4Udp code dev eth src.toList pkt len).2.sent := by
  unfold netOnIpv4Udp
  simp only []
  split_ifs with h8 hsum hdst
  · exact sendsSpent_nil
  · exact sendsSpent_nil
  · have hlen := udpCommand_reply_length code dev (pkt.drop 8) (udpDataLength pkt len)
    generalize (udpCommand code dev (pkt.drop 8) (udpDataLength pkt len)).reply = reply at hlen ⊢
    rw [makeUdpResponse_eq_some dev eth src.toList (net16 pkt 0) (net16 pkt 2) hlen]
    exact sendsSpent_singleton (Frame.spent_datagram (fun hsrc => hport ⟨hsrc, hdst⟩) rfl rfl)
  · exact sendsSpent_nil

theorem netIdle_sendsSpent {r : Received} (h : ¬ r.FromDebuggerPort) :
    SendsSpent (netIdle code dev (some r)).2.sent := by
  unfold netIdle
  split
  · exact sendsSpent_nil
  simp only []
  split
  swap
  · exact sendsSpent_nil
  unfold netOnFrame netOnIpv4
  split_ifs with harp hip hacc hicmp hudp
  · exact netOnArp_sendsSpent
  · exact netOnIpv4Icmp_sendsSpent (ipv4Source r.p) _
  · exact netOnIpv4Udp_sendsSpent (ipv4Source r.p) _ fun hports => h ⟨hip, hudp, hports⟩
  · exact sendsSpent_nil
  · exact sendsSpent_nil
  · exact sendsSpent_nil
  · exact sendsSpent_nil

end Sent

/-! ## Runs without port 777 -/

section Runs

variable {ι : Type} [DecidableEq ι] {code : BitVec 32 → Mem 32 → Mem 32} {s s' : Segment ι}
  {i : ι} {r : Received} {e : SegmentEvent ι}

/-- A quiet round leaves the whole segment as it was. -/
theorem Segment.round_quiet (h : Quiet (s.debuggers i) (netIdle code (s.debuggers i) (some r))) :
    s.round code i r = s := by
  obtain ⟨hdev, hsent, hwrites, hcalls⟩ := h
  unfold Segment.round
  simp only [hdev, hsent, hwrites, hcalls, Function.update_eq_self, List.nil_append, List.map_nil]

def Segment.AllSpent (s : Segment ι) : Prop := ∀ f ∈ s.sent, f.Spent

theorem Segment.step_reply (hs : s.AllSpent) {f : Frame}
    (h : s.step code (.reply i f r) = some s') :
    s' = s := by
  rw [Segment.step] at h
  split_ifs at h with hf
  rw [← Option.some.inj h]
  exact Segment.round_quiet (hs f hf.1 code (s.debuggers i) r hf.2)

/-- Only an outside frame adds to what has been sent, one frame at most. -/
theorem Segment.step_spent (hs : s.AllSpent) (hok : s.PortKept e) (h : s.step code e = some s') :
    s'.AllSpent ∧ s'.sent.length ≤ s.sent.length + ([e].filter SegmentEvent.isOutside).length := by
  cases e with
  | outside i r =>
    obtain ⟨hlen, hspent⟩ : SendsSpent (netIdle code (s.debuggers i) (some r)).2.sent :=
      netIdle_sendsSpent hok
    rw [← Option.some.inj h]
    refine ⟨fun f hf => ?_, ?_⟩
    · rcases List.mem_append.1 hf with hnew | hold
      · exact hspent f hnew
      · exact hs f hold
    · show (_ ++ s.sent).length ≤ s.sent.length + 1
      rw [List.length_append, Nat.add_comm]
      exact Nat.add_le_add_left hlen _
  | reply i f r =>
    rw [Segment.step_reply hs h]
    exact ⟨hs, Nat.le_add_right _ _⟩
  | renumber i my =>
    rw [← Option.some.inj h]
    exact ⟨hs, Nat.le_add_right _ _⟩

theorem Segment.exec_length : ∀ (es : List (SegmentEvent ι)) {s s' : Segment ι}, s.AllSpent →
    exec (Segment.step code) Segment.PortKept s es = some s' →
      s'.sent.length ≤ s.sent.length + (es.filter SegmentEvent.isOutside).length
  | [], s, s', _, h => by
    rw [Option.some.inj h]
    exact Nat.le_add_right _ _
  | e :: es, s, s', hs, h => by
    rw [exec] at h
    split_ifs at h with hok
    obtain ⟨t, ht, hrest⟩ := Option.bind_eq_some_iff.1 h
    obtain ⟨hspent, hlen⟩ := Segment.step_spent hs hok ht
    have hes := Segment.exec_length es hspent hrest
    have hcons : ((e :: es).filter SegmentEvent.isOutside).length
        = ([e].filter SegmentEvent.isOutside).length
          + (es.filter SegmentEvent.isOutside).length := by
      rw [← List.length_append, ← List.filter_append, List.singleton_append]
    omega

end Runs

/-- As long as nobody else sends from port 777, commands keep to memory outside the debugger and what
EXEC calls returns, the debuggers come out of a run as if nothing they have sent had ever arrived
anywhere, and have sent no more frames than have come in from elsewhere: what one of them has sent
changes nothing, sends nothing, copies nothing and calls nothing. -/
theorem replies_are_inert {ι : Type} [DecidableEq ι] (code : BitVec 32 → Mem 32 → Mem 32)
    (es : List (SegmentEvent ι)) {s s' : Segment ι} (hsent : s.sent = [])
    (hrun : exec (Segment.step code) Segment.PortKept s es = some s') :
    exec (Segment.step code) Segment.PortKept s (es.filter fun e => !e.isReply) = some s'
      ∧ s'.sent.length ≤ (es.filter SegmentEvent.isOutside).length := by
  have hs : s.AllSpent := by
    rw [Segment.AllSpent, hsent]
    exact nofun
  refine ⟨exec_filter (I := Segment.AllSpent)
    (fun s e s' hs hok h => (Segment.step_spent hs hok h).1)
    (fun s e s' hs _ h hreply => ?_) es hs hrun, ?_⟩
  · cases e with
    | reply i f r => exact Segment.step_reply hs h
    | outside i r => exact nomatch hreply
    | renumber i my => exact nomatch hreply
  · have hlen := Segment.exec_length es hs hrun
    rw [hsent] at hlen
    simpa using hlen

/-- A machine with the next address. -/
def neighbour : Device :=
  { debugger with myIpv4Address := ipv4 192 168 0 3, myEthMac := mac 2 0 0 0 0 3 }

def twoDebuggers : Segment Bool where
  debuggers i := if i then neighbour else debugger
  sent := []
  writes := []
  calls := []

/-- A frame of `a` to `b` with a datagram in it. -/
def datagramFrame (a b : Device) (srcPort dstPort : BitVec 16) (data : List Byte) : Frame where
  hdr := { dstMac := b.myEthMac, srcMac := a.myEthMac, type := ntoh16 0x0800 }
  payload := ipv4Header a.myIpv4Address b.myIpv4Address.toList 0x11 (28 + data.length)
    ++ hton16Bytes srcPort ++ hton16Bytes dstPort
    ++ hton16Bytes (BitVec.ofNat 16 (data.length + 8)) ++ [0, 0] ++ data

/-- TEST under the neighbour's addresses. -/
def testFrom (port : BitVec 16) : Received where
  hdr := (datagramFrame neighbour debugger port 777 (ascii "TEST")).hdr
  sz := 32
  p := (datagramFrame neighbour debugger port 777 (ascii "TEST")).payload
  sz_le := le_of_eq rfl
  p_lt := (by decide : 32 < 2 ^ 32)

/-- The reply to it. -/
def testReply (port : BitVec 16) : Frame :=
  datagramFrame debugger neighbour 777 port (ascii "OK x86-32")

def testReplyReceived (port : BitVec 16) : Received where
  hdr := (testReply port).hdr
  sz := 37
  p := (testReply port).payload
  sz_le := le_of_eq rfl
  p_lt := (by decide : 37 < 2 ^ 32)

theorem replies_are_inert_test :
    let events :=
      [.outside false (testFrom 5000), .reply true (testReply 5000) (testReplyReceived 5000)]
    ∃ s', exec (Segment.step fun _ mem => mem) Segment.PortKept twoDebuggers events = some s'
      ∧ exec (Segment.step fun _ mem => mem) Segment.PortKept twoDebuggers
        [.outside false (testFrom 5000)] = some s'
      ∧ s'.sent.length ≤ 1 := by
  intro events
  have hsome : (exec (Segment.step fun _ mem => mem) Segment.PortKept twoDebuggers
      events).isSome = true := by decide +kernel
  obtain ⟨s', hs'⟩ := Option.isSome_iff_exists.1 hsome
  exact ⟨s', hs', replies_are_inert (fun _ mem => mem) events rfl hs'⟩

/-! ## Port 777 -/

section Volley

/-- How every reply of port 777 begins. -/
def IsReplyText (text : List Byte) : Prop := ascii "OK " <+: text ∨ ascii "ERR " <+: text

theorem udpCommand_isReplyText (code : BitVec 32 → Mem 32 → Mem 32) (dev : Device)
    (data : List Byte) (n : ℕ) : IsReplyText (udpCommand code dev data n).reply := by
  unfold udpCommand
  split_ifs
  · exact .inl (by decide : ascii "OK " <+: ascii "OK x86-32")
  · exact .inl (by simp only [commandRead, List.append_assoc]; exact List.prefix_append _ _)
  · exact .inl (by simp only [commandWrite, List.append_assoc]; exact List.prefix_append _ _)
  · exact .inl (List.prefix_append _ _)
  · have hok : ascii "OK " <+: ascii "OK Complete " := by decide
    unfold commandExec
    simp only []
    split_ifs
    · exact .inl (hok.trans (List.prefix_append _ _))
    · exact .inl (hok.trans (List.prefix_append _ _))
  · exact .inr (by decide : ascii "ERR " <+: ascii "ERR Unknown command")

def commandNames : List (List Byte) :=
  [ascii "TEST", ascii "READ ", ascii "WRITE ", ascii "LOW", ascii "EXEC "]

theorem commandNames_clash : ∀ cmd ∈ commandNames, (0 : Byte) ∉ cmd
    ∧ ¬ (ascii "OK " <+: cmd ∨ cmd <+: ascii "OK ")
    ∧ ¬ (ascii "ERR " <+: cmd ∨ cmd <+: ascii "ERR ") := by decide

/-- No reply is a command. -/
theorem udpCommand_replyText (code : BitVec 32 → Mem 32 → Mem 32) (dev : Device)
    {data : List Byte} (h : IsReplyText data) (n : ℕ) :
    udpCommand code dev data n = commandUnknown dev := by
  have hno : ∀ cmd ∈ commandNames, ¬ memcmpEq data cmd = true := by
    intro cmd hcmd hmem
    obtain ⟨hzero, hok, herr⟩ := commandNames_clash cmd hcmd
    have hcommand := (memcmpEq_iff cmd data hzero).1 hmem
    rcases h with h | h
    · exact hok (List.prefix_or_prefix_of_prefix h hcommand)
    · exact herr (List.prefix_or_prefix_of_prefix h hcommand)
  unfold udpCommand
  rw [if_neg fun hc : _ ∧ _ => hno _ (by decide) hc.2,
    if_neg fun hc : _ ∧ _ => hno _ (by decide) hc.2,
    if_neg fun hc : _ ∧ _ => hno _ (by decide) hc.2,
    if_neg fun hc : _ ∧ _ => hno _ (by decide) hc.2,
    if_neg fun hc : _ ∧ _ => hno _ (by decide) hc.2]

variable {a b : Device} (code : BitVec 32 → Mem 32 → Mem 32) {f : Frame} {r : Received}

/-- A reply of `a` to `b`, from port 777 to port 777. -/
structure Frame.Volley (f : Frame) (a b : Device) : Prop where
  hdr : f.hdr = { dstMac := b.myEthMac, srcMac := a.myEthMac, type := ntoh16 0x0800 }
  accepted : ipv4Accepts b.myIpv4Address f.payload f.payload.length = true
  hdrLen : ipv4HdrLen f.payload = 20
  totalLen : 28 ≤ ipv4TotalLen f.payload
  proto : f.payload.getD 9 0 = 0x11
  source : peek f.payload 12 4 = a.myIpv4Address.toList
  srcPort : net16 (f.payload.drop 20) 0 = 777
  dstPort : net16 (f.payload.drop 20) 2 = 777
  chksum : net16 (f.payload.drop 20) 6 = 0
  text : IsReplyText ((f.payload.drop 20).drop 8)
  length : f.payload.length < 2 ^ 32

/-- What is sent to a datagram from port 777 goes back to port 777. -/
theorem makeUdpResponse_volley (eth : EthernetFrameHeader) (hmac : eth.srcMac = b.myEthMac)
    {reply : List Byte} (hlen : reply.length ≤ 1412) (htext : IsReplyText reply) :
    ∃ f, makeUdpResponse a eth b.myIpv4Address.toList 777 777 reply = (some f, [])
      ∧ f.Volley a b := by
  obtain ⟨f, hf, hanswers⟩ := makeUdpResponse_answers a eth b.myIpv4Address 777 777 hlen
  have hpayload := hf
  rw [makeUdpResponse_eq_some a eth b.myIpv4Address.toList 777 777 hlen, Prod.mk.injEq,
    Option.some.injEq] at hpayload
  refine ⟨f, hf, ?_, hanswers.accepted, hanswers.hdrLen, ?_, hanswers.proto, hanswers.source,
    hanswers.sourcePort, hanswers.destinationPort, ?_, ?_, ?_⟩
  · rw [hanswers.hdr, hmac]
  · rw [hanswers.totalLen]
    exact Nat.le_add_right _ _
  · have hfields : (hton16Bytes 777 ++ hton16Bytes 777
        ++ hton16Bytes (BitVec.ofNat 16 (reply.length + 8))).length = 6 := rfl
    rw [← hpayload.1]
    simp only [List.append_assoc]
    rw [List.drop_left' (length_ipv4Header _ b.myIpv4Address.toList_length _ _)]
    simp only [← List.append_assoc]
    rw [List.append_assoc, show ([0, 0] : List Byte) = hton16Bytes 0 from rfl,
      net16_hton16Bytes 0 hfields]
  · rw [hanswers.data]
    exact htext
  · rw [← hpayload.1]
    simp [length_ipv4Header _ b.myIpv4Address.toList_length, hton16Bytes]
    omega

/-- A datagram from port 777 is run as a command, and the reply goes back to port 777. -/
theorem Received.Opens.answered (h : r.Opens b a) (hopen : a.chosenNetDrvOpen = true) :
    let data := (r.p.drop (ipv4HdrLen r.p)).drop 8
    let n := udpDataLength (r.p.drop (ipv4HdrLen r.p)) (ipv4TotalLen r.p - ipv4HdrLen r.p)
    let c := udpCommand code a data n
    ∃ f, f.Volley a b ∧ netIdle code a (some r)
      = (c.dev, { sent := [f], writes := c.writes, calls := c.calls, vga := [] }) := by
  intro data n c
  obtain ⟨f, hf, hvolley⟩ := makeUdpResponse_volley (a := a) r.hdr h.srcMac
    (udpCommand_reply_length code a data n) (udpCommand_isReplyText code a data n)
  refine ⟨f, hvolley, ?_⟩
  have hme : forMe a r.hdr = true := by
    rw [forMe, h.dstMac]
    simp
  have hudp : netOnIpv4 code a r.hdr r.p r.sz
      = netOnIpv4Udp code a r.hdr (peek r.p 12 4) (r.p.drop (ipv4HdrLen r.p))
        (ipv4TotalLen r.p - ipv4HdrLen r.p) := by
    have hicmp : ¬ r.p.getD 9 0 = 0x01 := by
      rw [h.proto]
      decide
    rw [netOnIpv4, if_pos h.accepted, if_neg hicmp, if_pos h.proto]
  have h8 := h.len
  rw [netIdle_some code a hopen hme, netOnFrame_ipv4 code a h.ipv4, hudp, netOnIpv4Udp,
    if_neg (by omega)]
  simp only [h.chksum, Bool.not_true, Bool.false_eq_true, if_false]
  simp only [h.srcPort, h.dstPort, h.source, if_true]
  show (c.dev, _) = _
  rw [hf]
  rfl

/-- A reply that arrives whole is a datagram from port 777, and no command. -/
theorem Frame.Volley.opens (h : f.Volley a b) (hr : r.Carries f) (hsz : f.payload.length ≤ r.sz) :
    r.Opens a b ∧ IsReplyText ((r.p.drop (ipv4HdrLen r.p)).drop 8) := by
  obtain ⟨hhdr, hprefix⟩ := hr
  obtain ⟨after, hp⟩ := hprefix
  have hagree : Agree f.payload.length r.p f.payload := by
    refine agree_of_take ?_
    rw [← hp, List.take_left, List.take_length]
  obtain ⟨h20, hversion, -, hle, htotal, hchksum, hdst, hmf, hoffset⟩ :=
    (ipv4Accepts_iff _ _ _).1 h.accepted
  have h28 := h.totalLen
  have hhdrLen : ipv4HdrLen r.p = 20 := by
    rw [← h.hdrLen, ipv4HdrLen, ipv4HdrLen, hagree 0 (by omega)]
  have htotalLen : ipv4TotalLen r.p = ipv4TotalLen f.payload := by
    rw [ipv4TotalLen, ipv4TotalLen, hagree.net16 (by omega)]
  have hdata := hagree.drop 20
  have hsum : net16 (r.p.drop 20) 6 = 0 := by
    rw [hdata.net16 (by omega)]
    exact h.chksum
  have haccepted : ipv4Accepts b.myIpv4Address r.p r.sz = true := by
    rw [ipv4Accepts_congr _ _ hagree (by omega) (by rw [h.hdrLen]; omega)]
    exact (ipv4Accepts_iff _ _ _).2 ⟨by omega, hversion, by rw [h.hdrLen], hle, by omega, hchksum,
      hdst, hmf, hoffset⟩
  constructor
  · constructor
    · rw [hhdr, h.hdr]
    · rw [hhdr, h.hdr]
    · rw [Received.isIpv4, hhdr, h.hdr]
      exact (by decide : ntoh16 (ntoh16 0x0800) = 0x0800)
    · exact haccepted
    · rw [hagree 9 (by omega)]
      exact h.proto
    · rw [hagree.peek (by omega)]
      exact h.source
    · rw [hhdrLen, htotalLen]
      omega
    · rw [udpChksumOk, hhdrLen, hsum]
      rfl
    · rw [hhdrLen, hdata.net16 (by omega)]
      exact h.srcPort
    · rw [hhdrLen, hdata.net16 (by omega)]
      exact h.dstPort
  · have hdrop : (r.p.drop (ipv4HdrLen r.p)).drop 8 = (f.payload.drop 20).drop 8 ++ after := by
      rw [hhdrLen, List.drop_drop, List.drop_drop, ← hp, List.drop_append_of_le_length (by omega)]
    rw [hdrop]
    exact h.text.imp (·.trans (List.prefix_append _ _)) (·.trans (List.prefix_append _ _))

/-- A reply that arrives whole is answered, and does nothing else. -/
theorem Frame.Volley.returned (h : f.Volley a b) (hopen : b.chosenNetDrvOpen = true)
    (hr : r.Carries f) (hsz : f.payload.length ≤ r.sz) :
    ∃ f', f'.Volley b a ∧ netIdle code b (some r)
      = (b, { sent := [f'], writes := [], calls := [], vga := [] }) := by
  obtain ⟨hopens, htext⟩ := h.opens hr hsz
  obtain ⟨f', hvolley, hround⟩ := hopens.answered code hopen
  refine ⟨f', hvolley, ?_⟩
  rw [hround, udpCommand_replyText code b htext]
  rfl

/-- A command changes memory and the last sequence number at most. -/
theorem udpCommand_dev (dev : Device) (data : List Byte) (n : ℕ) :
    ∃ mem seq, (udpCommand code dev data n).dev
      = { dev with mem := mem, execLastSeq := seq } := by
  unfold udpCommand commandExec
  simp only []
  split_ifs <;> exact ⟨_, _, rfl⟩

theorem Frame.Volley.from_state (h : f.Volley a b) (mem : Mem 32) (seq : BitVec 32) :
    f.Volley { a with mem := mem, execLastSeq := seq } b :=
  ⟨h.hdr, h.accepted, h.hdrLen, h.totalLen, h.proto, h.source, h.srcPort, h.dstPort, h.chksum,
    h.text, h.length⟩

end Volley

section Exchange

variable {ι : Type} [DecidableEq ι] {code : BitVec 32 → Mem 32 → Mem 32} {s s' : Segment ι}
  {i j : ι} {e : SegmentEvent ι}

/-- Both debuggers are up, and what was sent last is a reply of one of them to the other. -/
structure Segment.InVolley (i j : ι) (s : Segment ι) : Prop where
  apart : (s.debuggers i).myEthMac ≠ (s.debuggers j).myEthMac
  up : (s.debuggers i).chosenNetDrvOpen = true ∧ (s.debuggers j).chosenNetDrvOpen = true
  newest : ∃ f, s.sent.head? = some f ∧ (f.Volley (s.debuggers i) (s.debuggers j)
    ∨ f.Volley (s.debuggers j) (s.debuggers i))

/-- A reply of `i` that arrives at `j` draws a reply of `j`, which is all that becomes of it. -/
theorem Segment.round_volley {f : Frame} {r : Received}
    (h : f.Volley (s.debuggers i) (s.debuggers j))
    (hopen : (s.debuggers j).chosenNetDrvOpen = true) (hr : r.Carries f)
    (hsz : f.payload.length ≤ r.sz) :
    ∃ f', f'.Volley (s.debuggers j) (s.debuggers i)
      ∧ s.round code j r = { s with sent := f' :: s.sent } := by
  obtain ⟨f', hvolley, hround⟩ := h.returned code hopen hr hsz
  refine ⟨f', hvolley, ?_⟩
  unfold Segment.round
  simp only [hround, Function.update_eq_self, List.singleton_append, List.map_nil, List.nil_append]

theorem Segment.InVolley.step (h : s.InVolley i j) (hok : s.Newest i j e)
    (hstep : s.step code e = some s') :
    s'.InVolley i j ∧ ∃ f, s' = { s with sent := f :: s.sent } := by
  cases e with
  | outside i r => exact hok.elim
  | renumber i my => exact hok.elim
  | reply k f r =>
    obtain ⟨hnewest, hdst, hsz, hk⟩ := hok
    rw [Segment.step] at hstep
    split_ifs at hstep with hf
    obtain ⟨g, hg, hvolley⟩ := h.newest
    cases hg.symm.trans hnewest
    have hapart := h.apart
    rcases hvolley with hvolley | hvolley
    · have hkj : k = j := by
        rcases hk with rfl | rfl
        · rw [hvolley.hdr] at hdst
          exact absurd hdst.symm hapart
        · rfl
      subst hkj
      obtain ⟨f', hf', hround⟩ := Segment.round_volley hvolley h.up.2 hf.2 hsz
      rw [← Option.some.inj hstep, hround]
      exact ⟨⟨h.apart, h.up, f', rfl, .inr hf'⟩, f', rfl⟩
    · have hki : k = i := by
        rcases hk with rfl | rfl
        · rfl
        · rw [hvolley.hdr] at hdst
          exact absurd hdst hapart
      subst hki
      obtain ⟨f', hf', hround⟩ := Segment.round_volley hvolley h.up.1 hf.2 hsz
      rw [← Option.some.inj hstep, hround]
      exact ⟨⟨h.apart, h.up, f', rfl, .inl hf'⟩, f', rfl⟩

/-- The reply can arrive, so there is always a next one. -/
theorem Segment.InVolley.next (h : s.InVolley i j) :
    ∃ e s', s.Newest i j e ∧ s.step code e = some s' := by
  obtain ⟨f, hnewest, hvolley⟩ := h.newest
  have hlen : f.payload.length < 2 ^ 32 := hvolley.elim (·.length) (·.length)
  obtain ⟨k, hk, hdst⟩ : ∃ k, (k = i ∨ k = j) ∧ f.hdr.dstMac = (s.debuggers k).myEthMac := by
    rcases hvolley with hvolley | hvolley
    · exact ⟨j, .inr rfl, by rw [hvolley.hdr]⟩
    · exact ⟨i, .inl rfl, by rw [hvolley.hdr]⟩
  refine ⟨.reply k f ⟨f.hdr, f.payload.length, f.payload, le_rfl, hlen⟩, _,
    ⟨hnewest, hdst, le_rfl, hk⟩, if_pos ⟨List.mem_of_mem_head? hnewest, rfl, List.prefix_rfl⟩⟩

theorem Segment.InVolley.exec : ∀ (es : List (SegmentEvent ι)) {s s' : Segment ι},
    s.InVolley i j → exec (Segment.step code) (Segment.Newest i j) s es = some s' →
      s'.InVolley i j ∧ s'.sent.length = s.sent.length + es.length
        ∧ s'.debuggers = s.debuggers ∧ s'.writes = s.writes ∧ s'.calls = s.calls
  | [], s, s', hs, h => by
    rw [← Option.some.inj h]
    exact ⟨hs, rfl, rfl, rfl, rfl⟩
  | e :: es, s, s', hs, h => by
    rw [Transition.exec] at h
    split_ifs at h with hok
    obtain ⟨t, ht, hrest⟩ := Option.bind_eq_some_iff.1 h
    obtain ⟨hvolley, f, rfl⟩ := hs.step hok ht
    obtain ⟨hvolley', hlen, hdebuggers, hwrites, hcalls⟩ := Segment.InVolley.exec es hvolley hrest
    refine ⟨hvolley', ?_, hdebuggers, hwrites, hcalls⟩
    rw [hlen, List.length_cons, List.length_cons]
    omega

end Exchange

/-- One datagram from port 777 to port 777, under the addresses of another debugger, and the two
answer each other for ever: however many replies have arrived since, each of them has drawn one
more, the last of them can arrive, and nothing else has come of them. -/
theorem port777_never_ends {ι : Type} [DecidableEq ι] (code : BitVec 32 → Mem 32 → Mem 32)
    {s s' : Segment ι} {i j : ι} {r : Received}
    (hapart : (s.debuggers i).myEthMac ≠ (s.debuggers j).myEthMac)
    (hup : (s.debuggers i).chosenNetDrvOpen = true ∧ (s.debuggers j).chosenNetDrvOpen = true)
    (hopens : r.Opens (s.debuggers j) (s.debuggers i)) (es : List (SegmentEvent ι))
    (hrun : exec (Segment.step code) (Segment.Newest i j) (s.round code i r) es = some s') :
    s'.sent.length = s.sent.length + 1 + es.length
      ∧ s'.debuggers = (s.round code i r).debuggers
      ∧ s'.writes = (s.round code i r).writes ∧ s'.calls = (s.round code i r).calls
      ∧ ∃ e s'', s'.Newest i j e ∧ s'.step code e = some s'' := by
  have hij : j ≠ i := fun h => hapart (by rw [h])
  obtain ⟨f, hvolley, hround⟩ := hopens.answered code hup.1
  obtain ⟨mem, seq, hdev⟩ := udpCommand_dev code (s.debuggers i)
    ((r.p.drop (ipv4HdrLen r.p)).drop 8)
    (udpDataLength (r.p.drop (ipv4HdrLen r.p)) (ipv4TotalLen r.p - ipv4HdrLen r.p))
  have hi : (s.round code i r).debuggers i
      = { s.debuggers i with mem := mem, execLastSeq := seq } := by
    simp only [Segment.round, Function.update_self, hround, hdev]
  have hj : (s.round code i r).debuggers j = s.debuggers j := by
    simp only [Segment.round, Function.update_of_ne hij]
  have hsent : (s.round code i r).sent = f :: s.sent := by
    simp only [Segment.round, hround, List.singleton_append]
  have hs : (s.round code i r).InVolley i j := by
    constructor
    · rw [hi, hj]
      exact hapart
    · rw [hi, hj]
      exact hup
    · rw [hi, hj, hsent]
      exact ⟨f, rfl, .inl (hvolley.from_state mem seq)⟩
  obtain ⟨hvolley', hlen, hdebuggers, hwrites, hcalls⟩ := Segment.InVolley.exec es hs hrun
  refine ⟨?_, hdebuggers, hwrites, hcalls, hvolley'.next⟩
  rw [hlen, hsent, List.length_cons]

theorem port777_never_ends_test :
    ∃ s', exec (Segment.step fun _ mem => mem) (Segment.Newest false true)
        (twoDebuggers.round (fun _ mem => mem) false (testFrom 777))
        [.reply true (testReply 777) (testReplyReceived 777)] = some s'
      ∧ s'.sent.length = 2
      ∧ ∃ e s'', s'.Newest false true e ∧ s'.step (fun _ mem => mem) e = some s'' := by
  have hsome : (exec (Segment.step fun _ mem => mem) (Segment.Newest false true)
      (twoDebuggers.round (fun _ mem => mem) false (testFrom 777))
      [.reply true (testReply 777) (testReplyReceived 777)]).isSome = true := by decide +kernel
  have hopens :
      (testFrom 777).Opens (twoDebuggers.debuggers true) (twoDebuggers.debuggers false) := by
    constructor <;> decide +kernel
  obtain ⟨s', hs'⟩ := Option.isSome_iff_exists.1 hsome
  obtain ⟨hlen, -, -, -, hnext⟩ :=
    port777_never_ends (fun _ mem => mem) (by decide) ⟨rfl, rfl⟩ hopens
    [.reply true (testReply 777) (testReplyReceived 777)] hs'
  exact ⟨s', hs', hlen, hnext⟩

end RemoteX86
