import RemoteX86.Proofs.Isolation

/-!
# Isolated frames are contained

For a frame that is not contained there are two ways to fill the buffer behind it that show in what
the debugger sends or copies.  Operands that reach the end of the command are carried on to a
second operand of eight digits, which pushes out whatever was read of it before, so the reply shows
the digit that was put there.  A WRITE whose pointer has passed the fence copies past the end of
the command.  The fields of a short ARP frame are completed to those of a request, or not.
-/

namespace RemoteX86

open Hex Memory

/-! ## Carrying operands on -/

namespace Scan

/-- What takes a scan from its stage into the digits of the second operand. -/
def fill : Stage → List Byte
  | .pre1 => ascii "0 00"
  | .zero1 | .hex1 => ascii " 00"
  | .pre2 | .zero2 | .hex2 => ascii "00"

theorem run_fill (s : Scan) (p : List Byte) :
    ∃ a b, s.run (fill s.stage ++ p) = run ⟨.hex2, a, b⟩ p := by
  obtain ⟨stage, a, b⟩ := s
  cases stage <;> exact ⟨_, _, rfl⟩

end Scan

/-- Eight digits of value `k`, and a character that is none. -/
def eightDigits (k : ℕ) : List Byte := ascii "0000000" ++ [digit k] ++ ascii "."

/-- The bytes that carry the operands of `text` on, to `k` as the second of them. -/
def carryOn (text : List Byte) (k : ℕ) : List Byte :=
  Scan.fill (Scan.start.run text).1.stage ++ eightDigits k

theorem scan_eightDigits (b : BitVec 32) {k : ℕ} (hk : k < 16) (z : List Byte) :
    scan b (eightDigits k ++ z) = (BitVec.ofNat 32 k, ascii "." ++ z) := by
  have hd : ∀ c ∈ ascii "0000000" ++ [digit k], ∃ d, digitVal c = some d := by
    intro c hc
    rw [List.mem_append, List.mem_singleton] at hc
    rcases hc with hc | rfl
    · exact ⟨0, by rw [List.eq_of_mem_replicate (n := 7) hc]; rfl⟩
    · exact ⟨k, digitVal_digit hk⟩
  have hv : value b.toNat (ascii "0000000" ++ [digit k]) = b.toNat * 2 ^ 32 + k := by
    have h7 : value b.toNat (ascii "0000000") = b.toNat * 2 ^ 28 := by
      show (((((((b.toNat * 16 + 0) * 16 + 0) * 16 + 0) * 16 + 0) * 16 + 0) * 16 + 0) * 16 + 0) = _
      omega
    rw [value_append, h7]
    simp only [value, List.foldl_cons, List.foldl_nil, digitVal_digit hk, Option.getD_some]
    omega
  have hscan := scan_append (w := 32) _ b.toNat (ascii "." ++ z) hd
  rw [BitVec.ofNat_toNat, BitVec.setWidth_eq, hv] at hscan
  rw [eightDigits, List.append_assoc, hscan]
  have hmod : BitVec.ofNat 32 (b.toNat * 2 ^ 32 + k) = BitVec.ofNat 32 k :=
    BitVec.eq_of_toNat_eq (by simp only [BitVec.toNat_ofNat]; omega)
  rw [hmod]
  rfl

/-- Operands that reach the end of `text` can be carried on to any second operand. -/
theorem operands_carryOn {text : List Byte} (h : ¬ OperandsEnd text) {k : ℕ} (hk : k < 16)
    (z : List Byte) :
    ∃ a, operands (text ++ (carryOn text k ++ z)) = (a, BitVec.ofNat 32 k, ascii "." ++ z) := by
  have hnil : (Scan.start.run text).2 = [] := not_not.1 h
  obtain ⟨a, b, hrun⟩ := Scan.run_fill (Scan.start.run text).1 (eightDigits k ++ z)
  refine ⟨a, ?_⟩
  rw [operands_eq_run, Scan.run_append_of_nil _ _ _ hnil, carryOn, List.append_assoc, hrun,
    Scan.result_hex2, scan_eightDigits b hk]

theorem length_carryOn (text : List Byte) (k : ℕ) : (carryOn text k).length ≤ 13 := by
  unfold carryOn
  cases (Scan.start.run text).1.stage <;> simp [Scan.fill, eightDigits, ascii]

/-! ## Commands that show what follows them -/

section Command

variable (code : BitVec 32 → Mem 32 → Mem 32) (dev : Device) {text : List Byte} {n : ℕ}

/-- The command replies and copies the same with any few bytes behind it, and `pad` behind
those. -/
def Unmoved (text : List Byte) (n : ℕ) (pad : List Byte → List Byte) : Prop :=
  ∀ t t', t.length ≤ 13 → t'.length ≤ 13 →
    (udpCommand code dev (text ++ (t ++ pad t)) n).reply
        = (udpCommand code dev (text ++ (t' ++ pad t')) n).reply
      ∧ (udpCommand code dev (text ++ (t ++ pad t)) n).writes
        = (udpCommand code dev (text ++ (t' ++ pad t')) n).writes

variable {code dev} {pad : List Byte → List Byte}

theorem getD_peek (p : List Byte) (i : ℕ) {m k : ℕ} (h : k < m) :
    (peek p i m).getD k 0 = p.getD (i + k) 0 := by
  simp [peek, List.getD_eq_getElem?_getD, h]

theorem drop_operands_carryOn (h5 : 5 ≤ text.length) (h : ¬ OperandsEnd (text.drop 5)) {k : ℕ}
    (hk : k < 16) (z : List Byte) :
    ∃ a, operands ((text ++ (carryOn (text.drop 5) k ++ z)).drop 5)
      = (a, BitVec.ofNat 32 k, ascii "." ++ z) := by
  rw [List.drop_append_of_le_length h5]
  exact operands_carryOn h hk z

theorem Unmoved.read (h : Unmoved code dev text n pad) (hn : 5 ≤ n)
    (hp : ascii "READ " <+: text) : OperandsEnd (text.drop 5) := by
  by_contra hend
  have h5 : 5 ≤ text.length := hp.length_le
  have hlen : ∀ k < 16, (udpCommand code dev (text ++ (carryOn (text.drop 5) k
      ++ pad (carryOn (text.drop 5) k))) n).reply.length = 12 + k := by
    intro k hk
    obtain ⟨a, ha⟩ := drop_operands_carryOn h5 hend hk (pad (carryOn (text.drop 5) k))
    have h3 : (ascii "OK ").length = 3 := rfl
    have hk' : (BitVec.ofNat 32 k).toNat = k := by
      rw [BitVec.toNat_ofNat]
      omega
    rw [udpCommand_read code dev (hp.trans (List.prefix_append _ _)) hn, commandRead, ha]
    simp only [List.length_append, length_hexToStr, length_read, List.length_singleton, h3, hk']
    split_ifs <;> omega
  have hrep := (h _ _ (length_carryOn (text.drop 5) 1) (length_carryOn (text.drop 5) 2)).1
  have hlens := congrArg List.length hrep
  rw [hlen 1 (by omega), hlen 2 (by omega)] at hlens
  omega

theorem Unmoved.exec (h : Unmoved code dev text n pad) (hn : 5 ≤ n)
    (hp : ascii "EXEC " <+: text) : OperandsEnd (text.drop 5) := by
  by_contra hend
  have h5 : 5 ≤ text.length := hp.length_le
  have hrep : ∀ k < 16, (udpCommand code dev (text ++ (carryOn (text.drop 5) k
      ++ pad (carryOn (text.drop 5) k))) n).reply
        = ascii "OK Complete " ++ hexToStr (BitVec.ofNat 32 k) 8 := by
    intro k hk
    obtain ⟨a, ha⟩ := drop_operands_carryOn h5 hend hk (pad (carryOn (text.drop 5) k))
    rw [udpCommand_exec code dev (hp.trans (List.prefix_append _ _)) hn, commandExec, ha]
    simp only []
    split_ifs <;> rfl
  have heq := (h _ _ (length_carryOn (text.drop 5) 1) (length_carryOn (text.drop 5) 2)).1
  rw [hrep 1 (by omega), hrep 2 (by omega)] at heq
  exact absurd heq (by decide)

theorem Unmoved.write_end (h : Unmoved code dev text n pad) (hn : 6 ≤ n)
    (hp : ascii "WRITE " <+: text) : OperandsEnd (text.drop 5) := by
  by_contra hend
  have h6 : 6 ≤ text.length := hp.length_le
  have hrep : ∀ k < 16, (udpCommand code dev (text ++ (carryOn (text.drop 5) k
      ++ pad (carryOn (text.drop 5) k))) n).reply.drop 12 = hexToStr (BitVec.ofNat 32 k) 8 := by
    intro k hk
    obtain ⟨a, ha⟩ := drop_operands_carryOn (by omega) hend hk (pad (carryOn (text.drop 5) k))
    rw [udpCommand_write code dev (hp.trans (List.prefix_append _ _)) hn, commandWrite, ha]
    simp only []
    rw [List.drop_append_of_le_length, List.drop_eq_nil_of_le, List.nil_append] <;>
      simp [length_hexToStr, ascii]
  have heq := congrArg (List.drop 12)
    (h _ _ (length_carryOn (text.drop 5) 1) (length_carryOn (text.drop 5) 2)).1
  rw [hrep 1 (by omega), hrep 2 (by omega)] at heq
  exact absurd heq (by decide)

/-- Past the fence the copy is so long that it reaches what follows the command. -/
theorem Unmoved.write_stop (h : Unmoved code dev text n pad) (hn : 6 ≤ n) (hle : n ≤ text.length)
    (hlt : text.length < 2 ^ 16) (hp : ascii "WRITE " <+: text) (hend : OperandsEnd (text.drop 5)) :
    OperandsStop ((text.take n).drop 5) (text.drop n) := by
  by_contra hstop
  have htake : (text.take n).length = n := by simpa using hle
  have hoff : ¬ writeOffset text n ≤ n := by
    rw [writeOffset_le_iff]
    rw [← writeRest_le_iff (text.drop n) (by omega : 5 ≤ (text.take n).length),
      List.take_append_drop, htake] at hstop
    exact hstop
  have hofft : writeOffset text n ≤ text.length := Nat.sub_le _ _
  have hcopy : ∀ b : Byte, ((udpCommand code dev (text ++ ([b] ++ pad [b])) n).writes.map
      fun w => w.2.getD (text.length - writeOffset text n) 0) = [b] := by
    intro b
    have hwo := writeOffset_append (by omega) hle hend ([b] ++ pad [b])
    have hdl : text.length - writeOffset text n < writeDataLen (text ++ ([b] ++ pad [b])) n := by
      rw [writeDataLen, ← writeOffset, hwo, BitVec.toNat_sub, BitVec.toNat_ofNat,
        BitVec.toNat_ofNat]
      omega
    rw [udpCommand_write code dev (hp.trans (List.prefix_append _ _)) hn, commandWrite]
    simp only []
    have hget : (peek (writeData (text ++ ([b] ++ pad [b])) n) 0
        (writeDataLen (text ++ ([b] ++ pad [b])) n)).getD (text.length - writeOffset text n) 0
          = b := by
      rw [getD_peek _ _ hdl, writeData_drop, hwo, List.getD_eq_getElem?_getD, List.getElem?_drop,
        show writeOffset text n + (0 + (text.length - writeOffset text n)) = text.length by omega,
        List.getElem?_append_right le_rfl, Nat.sub_self]
      rfl
    rw [if_pos (by omega), List.map_singleton, hget]
  have heq := congrArg (List.map fun w => w.2.getD (text.length - writeOffset text n) 0)
    (h [0] [1] (by simp) (by simp)).2
  rw [hcopy, hcopy] at heq
  exact absurd heq (by decide)

theorem Unmoved.contained (h : Unmoved code dev text n pad) (hle : n ≤ text.length)
    (hlt : text.length < 2 ^ 16) : CommandContained text n :=
  ⟨fun hn hp => h.read hn hp, fun hn hp => h.exec hn hp, fun hn hp =>
    ⟨h.write_end hn hp, h.write_stop hn hle hlt hp (h.write_end hn hp)⟩⟩

end Command

/-! ## Buffers with other bytes behind the frame -/

theorem frameLen_le (r : Received) : frameLen r ≤ r.sz := by
  unfold frameLen
  split_ifs <;> omega

/-- The zeros that fill the buffer up to the size the driver gave. -/
def padding (r : Received) (t : List Byte) : List Byte :=
  List.replicate (r.sz - frameLen r - t.length) 0

/-- The frame with `t` behind it. -/
def Received.behind (r : Received) (t : List Byte) (h : frameLen r + t.length < 2 ^ 32) :
    Received where
  hdr := r.hdr
  sz := r.sz
  p := r.p.take (frameLen r) ++ (t ++ padding r t)
  sz_le := by
    have h1 := frameLen_le r
    have h2 := r.sz_le
    simp only [List.length_append, List.length_take, padding, List.length_replicate]
    omega
  p_lt := by
    have h1 := r.sz_le
    have h2 := r.p_lt
    simp only [List.length_append, List.length_take, padding, List.length_replicate]
    omega

section Behind

variable {code : BitVec 32 → Mem 32 → Mem 32} {dev : Device} {r : Received}

theorem length_take_frame (r : Received) : (r.p.take (frameLen r)).length = frameLen r := by
  have h1 := frameLen_le r
  have h2 := r.sz_le
  rw [List.length_take]
  omega

theorem take_behind (t : List Byte) (h : frameLen r + t.length < 2 ^ 32) :
    (r.behind t h).p.take (frameLen r) = r.p.take (frameLen r) := by
  show (r.p.take (frameLen r) ++ (t ++ padding r t)).take (frameLen r) = _
  rw [List.take_append_of_le_length (length_take_frame r).ge, List.take_take, Nat.min_self]

theorem getD_behind (t : List Byte) (h : frameLen r + t.length < 2 ^ 32) {i : ℕ}
    (hi : frameLen r ≤ i) (hlt : i < frameLen r + t.length) :
    (r.behind t h).p.getD i 0 = t.getD (i - frameLen r) 0 := by
  show (r.p.take (frameLen r) ++ (t ++ padding r t)).getD i 0 = _
  rw [List.getD_eq_getElem?_getD, List.getElem?_append_right (by rw [length_take_frame]; exact hi),
    length_take_frame, List.getElem?_append_left (by omega), List.getD_eq_getElem?_getD]

theorem agree_behind (t : List Byte) (h : frameLen r + t.length < 2 ^ 32) :
    Agree (frameLen r) (r.behind t h).p r.p :=
  agree_of_take (take_behind t h)

/-- It is the same frame, provided an IPv4 frame reaches its length field. -/
theorem sameFrame_behind (t : List Byte) (h : frameLen r + t.length < 2 ^ 32)
    (h4 : r.isIpv4 → 4 ≤ frameLen r) : SameFrame r (r.behind t h) where
  hdr := rfl
  sz := rfl
  len := by
    by_cases hip : r.isIpv4
    · have htot : ipv4TotalLen (r.behind t h).p = ipv4TotalLen r.p := by
        rw [ipv4TotalLen, (agree_behind t h).net16 (by have := h4 hip; omega : 2 + 1 < frameLen r)]
        rfl
      rw [frameLen, frameLen, htot]
      rfl
    · have hip' : ¬ (r.behind t h).isIpv4 := hip
      rw [frameLen, frameLen, if_neg hip, if_neg hip']
      rfl
  bytes := take_behind t h

/-- An isolated frame is treated alike with any two tails. -/
theorem Isolated.behind (hiso : Isolated code dev r) (hopen : dev.chosenNetDrvOpen = true)
    (hme : forMe dev r.hdr = true) (h4 : r.isIpv4 → 4 ≤ frameLen r) {t t' : List Byte}
    (h : frameLen r + t.length < 2 ^ 32) (h' : frameLen r + t'.length < 2 ^ 32) :
    netOnFrame code dev (r.behind t h) = netOnFrame code dev (r.behind t' h') := by
  have h1 := hiso _ (sameFrame_behind t h h4)
  have h2 := hiso _ (sameFrame_behind t' h' h4)
  rw [← netIdle_some code dev (r := r.behind t h) hopen hme,
    ← netIdle_some code dev (r := r.behind t' h') hopen hme, h1, h2]

/-! ## Short frames -/

theorem netOnArp_of_request {p : List Byte} (eth : EthernetFrameHeader)
    (h : ArpRequestUpTo dev.myIpv4Address p 28) : (netOnArp dev eth p).sent ≠ [] := by
  obtain ⟨h0, h4, h2, h5, h6, h24⟩ := (arpRequestUpTo_iff _ _).1 h
  have hdrv : dev.chosenNetDrv.prepareSendPacket 28 = true := by
    cases dev.chosenNetDrv <;> rfl
  rw [netOnArp, if_neg (by simp only [h0, h4]; decide), if_pos h2, netOnArpIPv4]
  simp only []
  rw [if_neg (not_not.2 h5), if_neg (not_not.2 h6), if_neg (not_not.2 h24), if_pos hdrv]
  simp

/-- The bytes of a request for `my` from the `n`-th on. -/
def arpTail (my : Ipv4Address) (n : ℕ) : List Byte := ((arpRequest my).map (·.getD 0)).drop n

theorem length_arpTail (my : Ipv4Address) (n : ℕ) : (arpTail my n).length = 28 - n := by
  simp [arpTail, arpRequest]

theorem getD_arpTail {my : Ipv4Address} {n i : ℕ} {b : Byte} (hi : n ≤ i)
    (h : (arpRequest my)[i]? = some (some b)) : (arpTail my n)[i - n]? = some b := by
  rw [arpTail, List.getElem?_drop, List.getElem?_map, show n + (i - n) = i by omega, h]
  rfl

theorem Isolated.arp (hiso : Isolated code dev r) (hopen : dev.chosenNetDrvOpen = true)
    (hme : forMe dev r.hdr = true) (harp : r.isArp) :
    28 ≤ r.sz ∨ ¬ ArpRequestUpTo dev.myIpv4Address r.p r.sz := by
  by_contra hc
  simp only [not_or, not_le, not_not] at hc
  obtain ⟨h28, hreq⟩ := hc
  have hsz : frameLen r = r.sz := if_neg harp.not_isIpv4
  set good := arpTail dev.myIpv4Address r.sz with hgood
  have hglen : good.length = 28 - r.sz := length_arpTail _ _
  have hl : frameLen r + good.length < 2 ^ 32 := by omega
  have hl' : frameLen r + (good.map (· + 1)).length < 2 ^ 32 := by rwa [List.length_map]
  have heq := hiso.behind hopen hme (fun h => absurd h harp.not_isIpv4) hl hl'
  have hyes : ArpRequestUpTo dev.myIpv4Address (r.behind good hl).p 28 := by
    intro i hi b hb
    by_cases hlt : i < r.sz
    · rw [agree_behind _ _ i (by omega)]
      exact hreq i hlt b hb
    · rw [getD_behind good hl (by omega) (by omega), hsz, List.getD_eq_getElem?_getD,
        getD_arpTail (by omega) hb]
      rfl
  have hno : ¬ ArpRequestUpTo dev.myIpv4Address (r.behind (good.map (· + 1)) hl').p 28 := by
    intro h
    have hlast : ∃ b, (arpRequest dev.myIpv4Address)[27]? = some (some b) := by
      refine ⟨dev.myIpv4Address.get 3, ?_⟩
      match dev.myIpv4Address with
      | ⟨[a, b, c, d], _⟩ => rfl
    obtain ⟨b, hb⟩ := hlast
    have h27 := h 27 (by omega) b hb
    rw [getD_behind _ hl' (by omega) (by rw [List.length_map]; omega), hsz,
      List.getD_eq_getElem?_getD, List.getElem?_map, getD_arpTail (by omega) hb] at h27
    have hne : b + 1 ≠ b := by simp
    exact hne h27
  have harp' : (r.behind good hl).isArp := harp
  have harp'' : (r.behind (good.map (· + 1)) hl').isArp := harp
  rw [netOnFrame_arp code dev harp', netOnFrame_arp code dev harp'',
    netOnArp_of_not_request dev _ hno] at heq
  exact netOnArp_of_request _ hyes (congrArg Effect.sent (congrArg Prod.snd heq))

theorem Isolated.other (hiso : Isolated code dev r) (hopen : dev.chosenNetDrvOpen = true)
    (hme : forMe dev r.hdr = true) (harp : ¬ r.isArp) (hip : ¬ r.isIpv4) :
    6 ≤ r.sz ∨ ∃ i < r.sz, r.p.getD i 0 ≠ 0xFF := by
  by_contra hc
  simp only [not_or, not_le, not_exists, not_and, not_not] at hc
  obtain ⟨h6, hff⟩ := hc
  have hsz : frameLen r = r.sz := if_neg hip
  have hl : ∀ b : Byte, frameLen r + (List.replicate 6 b).length < 2 ^ 32 := by
    intro b
    rw [List.length_replicate]
    omega
  have hget : ∀ (b : Byte) (i : ℕ), r.sz ≤ i → i < 6 → (r.behind _ (hl b)).p.getD i 0 = b := by
    intro b i hi hlt
    rw [getD_behind _ (hl b) (by omega) (by rw [List.length_replicate]; omega),
      List.getD_eq_getElem?_getD, List.getElem?_replicate_of_lt (by omega)]
    rfl
  have heq := hiso.behind hopen hme (fun h => absurd h hip) (hl 0xFF) (hl 0)
  have hones : memcmpEq (r.behind _ (hl 0xFF)).p (List.replicate 6 0xFF) = true := by
    rw [memcmpEq_ones_iff]
    intro i hi
    by_cases hlt : i < r.sz
    · rw [agree_behind _ _ i (by omega), hff i hlt]
    · exact hget 0xFF i (by omega) hi
  have hzero : ¬ memcmpEq (r.behind _ (hl 0)).p (List.replicate 6 0xFF) = true := by
    rw [memcmpEq_ones_iff]
    intro h
    have h5 := h 5 (by omega)
    rw [hget 0 5 (by omega) (by omega)] at h5
    exact absurd h5 (by decide)
  have hne : (netOnFrame code dev (r.behind _ (hl 0))).2.vga ≠ [] := by
    rw [netOnFrame_other (r := r.behind _ (hl 0)) code dev harp hip, if_neg hzero]
    simp [dumpFrame, ascii]
  rw [← heq, netOnFrame_other (r := r.behind _ (hl 0xFF)) code dev harp hip, if_pos hones] at hne
  exact hne rfl

/-! ## Packets -/

/-- What the debugger sends and copies for a datagram to port 777. -/
theorem netOnIpv4Udp_command (code : BitVec 32 → Mem 32 → Mem 32) (dev : Device)
    (eth : EthernetFrameHeader) (srcIp pkt : List Byte) (len : ℕ) (hip : srcIp.length = 4)
    (h8 : 8 ≤ len) (hsum : udpChksumOk dev.myIpv4Address srcIp pkt len = true)
    (hport : net16 pkt 2 = 777) :
    ∃ f, netOnIpv4Udp code dev eth srcIp pkt len
        = ((udpCommand code dev (pkt.drop 8) (udpDataLength pkt len)).dev,
          { sent := [f]
            writes := (udpCommand code dev (pkt.drop 8) (udpDataLength pkt len)).writes
            calls := (udpCommand code dev (pkt.drop 8) (udpDataLength pkt len)).calls
            vga := [] })
      ∧ f.payload.drop 28 = (udpCommand code dev (pkt.drop 8) (udpDataLength pkt len)).reply := by
  obtain ⟨f, hf, hdrop⟩ := makeUdpResponse_eq dev eth hip (net16 pkt 0) (net16 pkt 2)
    (udpCommand_reply_length code dev (pkt.drop 8) (udpDataLength pkt len))
  refine ⟨f, ?_, hdrop⟩
  unfold netOnIpv4Udp
  simp only [hsum, Bool.not_true, Bool.false_eq_true, if_false, hf]
  rw [if_neg (by omega), if_pos hport]
  rfl

theorem netOnIpv4_accepted (eth : EthernetFrameHeader) {p : List Byte} {sz : ℕ}
    (hacc : ipv4Accepts dev.myIpv4Address p sz = true) (hudp : p.getD 9 0 = 0x11) :
    netOnIpv4 code dev eth p sz = netOnIpv4Udp code dev eth (peek p 12 4)
      (p.drop (ipv4HdrLen p)) (ipv4TotalLen p - ipv4HdrLen p) := by
  rw [netOnIpv4, if_pos hacc]
  simp only []
  rw [if_neg (by rw [hudp]; decide), if_pos hudp]

/-- With `t` behind the frame, the command is the frame's text with `t` behind it. -/
theorem netOnFrame_behind (code : BitVec 32 → Mem 32 → Mem 32) (hip : r.isIpv4)
    (hacc : ipv4Accepts dev.myIpv4Address r.p r.sz = true) (hudp : r.p.getD 9 0 = 0x11)
    {pkt : List Byte} {len : ℕ} (hpkt : pkt = r.p.drop (ipv4HdrLen r.p))
    (hlen : len = ipv4TotalLen r.p - ipv4HdrLen r.p) (h8 : 8 ≤ len)
    (hsum : udpChksumOk dev.myIpv4Address (peek r.p 12 4) pkt len = true)
    (hport : net16 pkt 2 = 777) (t : List Byte) (h : frameLen r + t.length < 2 ^ 32) :
    ∃ f, (netOnFrame code dev (r.behind t h)).2.sent = [f]
      ∧ f.payload.drop 28 = (udpCommand code dev ((pkt.drop 8).take (len - 8)
          ++ (t ++ padding r t)) (udpDataLength pkt len)).reply
      ∧ (netOnFrame code dev (r.behind t h)).2.writes = (udpCommand code dev
          ((pkt.drop 8).take (len - 8) ++ (t ++ padding r t)) (udpDataLength pkt len)).writes := by
  obtain ⟨h20, hhdr, htot⟩ := ipv4Accepts_bounds hacc
  have hL : frameLen r = ipv4TotalLen r.p := by rw [frameLen, if_pos hip, Nat.min_eq_right htot]
  have hs := sameFrame_behind t h (by omega)
  set r' := r.behind t h with hr'
  have hag : Agree (ipv4TotalLen r.p) r'.p r.p := by
    rw [← hL]
    exact agree_behind t h
  have hh : ipv4HdrLen r'.p = ipv4HdrLen r.p := by
    rw [ipv4HdrLen, ipv4HdrLen, hag 0 (by omega)]
  have ht : ipv4TotalLen r'.p = ipv4TotalLen r.p := by
    rw [ipv4TotalLen, hag.net16 (by omega : 2 + 1 < ipv4TotalLen r.p)]
    rfl
  have hacc' : ipv4Accepts dev.myIpv4Address r'.p r'.sz = true := by
    rw [← hacc]
    exact ipv4Accepts_sameFrame _ hs hip
  have hag' : Agree len (r'.p.drop (ipv4HdrLen r.p)) pkt := by
    rw [hpkt, hlen]
    exact hag.drop _
  have hdata : (r'.p.drop (ipv4HdrLen r.p)).drop 8
      = (pkt.drop 8).take (len - 8) ++ (t ++ padding r t) := by
    show ((r.p.take (frameLen r) ++ (t ++ padding r t)).drop (ipv4HdrLen r.p)).drop 8 = _
    rw [List.drop_drop, List.drop_append_of_le_length (by rw [length_take_frame]; omega),
      List.drop_take, hpkt, List.drop_drop, hL, hlen, Nat.sub_sub]
  have hdl : udpDataLength (r'.p.drop (ipv4HdrLen r.p)) len = udpDataLength pkt len := by
    unfold udpDataLength
    rw [hag'.net16 (by omega : 4 + 1 < len)]
  obtain ⟨f, hf, hdrop⟩ := netOnIpv4Udp_command code dev r.hdr (peek r.p 12 4)
    (r'.p.drop (ipv4HdrLen r.p)) len (by simp) h8
    (by rw [udpChksumOk_congr _ _ h8 hag']; exact hsum)
    (by rw [hag'.net16 (by omega : 2 + 1 < len)]; exact hport)
  rw [hdata, hdl] at hf hdrop
  have hframe : netOnFrame code dev r' = netOnIpv4Udp code dev r.hdr (peek r.p 12 4)
      (r'.p.drop (ipv4HdrLen r.p)) len := by
    rw [netOnFrame_ipv4 code dev (hs.isIpv4 hip),
      netOnIpv4_accepted _ hacc' (by rw [hag 9 (by omega)]; exact hudp), hh, ht, ← hlen,
      hag.peek (by omega : 12 + 4 ≤ ipv4TotalLen r.p)]
    rfl
  rw [hframe, hf]
  exact ⟨f, rfl, hdrop, rfl⟩

theorem Isolated.udp (hiso : Isolated code dev r) (hopen : dev.chosenNetDrvOpen = true)
    (hme : forMe dev r.hdr = true) (hip : r.isIpv4)
    (hacc : ipv4Accepts dev.myIpv4Address r.p r.sz = true) (hudp : r.p.getD 9 0 = 0x11) :
    UdpContained dev.myIpv4Address r.p := by
  simp only [UdpContained]
  generalize hpkt : r.p.drop (ipv4HdrLen r.p) = pkt
  generalize hlen : ipv4TotalLen r.p - ipv4HdrLen r.p = len
  intro h8 hsum hport
  obtain ⟨h20, hhdr, htot⟩ := ipv4Accepts_bounds hacc
  have hL : frameLen r = ipv4TotalLen r.p := by rw [frameLen, if_pos hip, Nat.min_eq_right htot]
  have h16 : ipv4TotalLen r.p < 2 ^ 16 := (net16 r.p 2).isLt
  have htext : ((pkt.drop 8).take (len - 8)).length = len - 8 := by
    have := r.sz_le
    rw [← hpkt, List.length_take, List.length_drop, List.length_drop]
    omega
  have hun : Unmoved code dev ((pkt.drop 8).take (len - 8)) (udpDataLength pkt len)
      (padding r) := by
    intro t t' ht ht'
    have h : frameLen r + t.length < 2 ^ 32 := by omega
    have h' : frameLen r + t'.length < 2 ^ 32 := by omega
    have heq := hiso.behind hopen hme (by omega) h h'
    obtain ⟨f, hf, hfr, hfw⟩ := netOnFrame_behind code hip hacc hudp hpkt.symm
      hlen.symm h8 hsum hport t h
    obtain ⟨f', hf', hfr', hfw'⟩ := netOnFrame_behind code hip hacc hudp hpkt.symm
      hlen.symm h8 hsum hport t' h'
    rw [heq, hf', List.cons.injEq] at hf
    rw [heq, hfw'] at hfw
    refine ⟨?_, hfw.symm⟩
    rw [← hfr, ← hfr', hf.1]
  refine hun.contained ?_ (by omega)
  rw [htext]
  exact udpDataLength_le pkt len

end Behind

/-- For every device and every frame: what follows the frame is without effect on the round exactly
when the frame's fields and operands end before the frame does. -/
theorem isolated_iff_contained (code : BitVec 32 → Mem 32 → Mem 32) (dev : Device)
    (r : Received) : Isolated code dev r ↔ Contained dev r := by
  refine ⟨fun hiso hopen hme => ?_, isolated_of_contained code dev⟩
  split_ifs with harp hip
  · exact hiso.arp hopen hme harp
  · exact fun hacc hudp => hiso.udp hopen hme hip hacc hudp
  · exact hiso.other hopen hme harp hip

/-- The datagram "READ 1000 5" to port 777, as `remote_eth_read_block` would send it, with the
padding of a frame of 46 bytes. -/
def readFrame : Received where
  hdr := { dstMac := mac 2 0 0 0 0 2, srcMac := mac 2 0 0 0 0 1, type := ntoh16 0x0800 }
  sz := 46
  p := [0x45, 0, 0, 39, 0, 0, 0x40, 0, 0x40, 0x11, 0xB9, 0x72, 192, 168, 0, 1, 192, 168, 0, 2] ++
    [0x03, 0x09, 0x03, 0x09, 0, 19, 0, 0] ++ ascii "READ 1000 5" ++ List.replicate 7 0
  sz_le := by decide
  p_lt := by decide

/-- With a `3` as the first byte of padding this frame reads 0x53 bytes. -/
theorem readFrame_not_isolated : ¬ Isolated (fun _ m => m) debugger readFrame := by
  intro hiso
  have hc := hiso.udp (by decide) (by decide) (by decide) (by decide) (by decide)
  exact (hc (by decide) (by decide) (by decide)).1 (by decide) (by decide) (by decide)

end RemoteX86
