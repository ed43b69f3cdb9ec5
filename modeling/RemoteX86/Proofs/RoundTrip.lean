import RemoteX86.Link
import RemoteX86.Proofs.Replies

/-!
# Writing memory and reading it back

On a link that loses nothing every block takes one round: the request is parsed as it was printed,
the reply is accepted, and nothing is left waiting (`retryLoop_exchange`).  So `remote_eth_write`
copies block after block into the device's memory and `remote_eth_read` reads block after block
out of it, as far as an `int` can count.
-/

namespace RemoteX86

open Hex Memory

theorem hton16_append (x : BitVec 16) : (x >>> 8).setWidth 8 ++ x.setWidth 8 = x := by
  refine BitVec.eq_of_getLsbD_eq fun i hi => ?_
  rw [BitVec.getLsbD_append]
  simp only [BitVec.getLsbD_setWidth, BitVec.getLsbD_ushiftRight]
  rcases Nat.lt_or_ge i 8 with h | h
  · simp [h]
  · have h1 : ¬ i < 8 := by omega
    have h2 : i - 8 < 8 := by omega
    simp [h1, h2, show 8 + (i - 8) = i by omega]

theorem net16_hton16Bytes (x : BitVec 16) {p q : List Byte} {i : ℕ} (hp : p.length = i) :
    net16 (p ++ (hton16Bytes x ++ q)) i = x := by
  subst hp
  have hget : ∀ j, (p ++ (hton16Bytes x ++ q)).getD (p.length + j) 0
      = (hton16Bytes x ++ q).getD j 0 := by
    intro j
    rw [List.getD_eq_getElem?_getD, List.getElem?_append_right (Nat.le_add_right _ _),
      Nat.add_sub_cancel_left, List.getD_eq_getElem?_getD]
  have h0 := hget 0
  rw [Nat.add_zero] at h0
  rw [net16_eq, h0, hget 1]
  exact hton16_append x

/-- The device's address in the header it answers with. -/
theorem peek_ipv4Header (my : Ipv4Address) (srcIp : List Byte) (proto : Byte) (total : ℕ)
    (p : List Byte) : peek (ipv4Header my srcIp proto total ++ p) 12 4 = my.toList := by
  match my with
  | ⟨[a, b, c, d], _⟩ => rfl

theorem makeUdpResponse_datagram (dev : Device) (eth : EthernetFrameHeader) {srcIp data : List Byte}
    (hip : srcIp.length = 4) (srcPort dstPort : BitVec 16) (h : data.length ≤ 1412) :
    ∃ f, makeUdpResponse dev eth srcIp srcPort dstPort data = (some f, [])
      ∧ f.datagram = (data, { addr := dev.myIpv4Address, port := dstPort }) := by
  obtain ⟨f, hf, hdrop⟩ := makeUdpResponse_eq dev eth hip srcPort dstPort h
  refine ⟨f, hf, ?_⟩
  rw [makeUdpResponse_eq_some dev eth srcIp srcPort dstPort h, Prod.mk.injEq, Option.some.injEq]
    at hf
  have hport : net16 f.payload 20 = dstPort := by
    rw [← hf.1]
    simp only [List.append_assoc]
    exact net16_hton16Bytes dstPort (length_ipv4Header _ hip _ _)
  have hmy : peek f.payload 12 4 = dev.myIpv4Address.toList := by
    rw [← hf.1]
    simp only [List.append_assoc]
    exact peek_ipv4Header _ _ _ _ _
  have haddr : (⟨peek f.payload 12 4, by simp [peek]⟩ : Ipv4Address) = dev.myIpv4Address :=
    Subtype.ext hmy
  rw [Frame.datagram, hdrop, hport, haddr]

/-! ## One exchange -/

section Exchange

variable {h : Host} {code : BitVec 32 → Mem 32 → Mem 32} {s : Link} {data : List Byte}

theorem drop_udpPacket (dst : SockAddr) (data after : List Byte) :
    (h.udpPacket dst data ++ after).drop 8 = data ++ after := by
  simp [Host.udpPacket, hton16Bytes]

/-- A datagram to the device's port is a command, parsed with the bytes behind it in the buffer,
and its reply is the next thing to be taken. -/
theorem deliver_eq (hsum : h.ChksumPasses s.dev.myIpv4Address) (hlen : data.length ≤ 1472) :
    h.deliver code s { addr := s.dev.myIpv4Address, port := 777 } data
      = { dev := (udpCommand code s.dev (data ++ h.after s.count) data.length).dev
          inbox := s.inbox ++ [((udpCommand code s.dev (data ++ h.after s.count) data.length).reply,
            { addr := s.dev.myIpv4Address, port := 777 })]
          count := s.count + 1 } := by
  have hport : net16 (h.udpPacket { addr := s.dev.myIpv4Address, port := 777 } data
      ++ h.after s.count) 2 = 777 := by
    simp only [Host.udpPacket, List.append_assoc]
    exact net16_hton16Bytes 777 (p := hton16Bytes h.port) rfl
  have hulen : net16 (h.udpPacket { addr := s.dev.myIpv4Address, port := 777 } data
      ++ h.after s.count) 4 = BitVec.ofNat 16 (8 + data.length) := by
    simp only [Host.udpPacket, List.append_assoc]
    rw [← List.append_assoc]
    exact net16_hton16Bytes _ (p := hton16Bytes h.port ++ hton16Bytes 777) rfl
  have hdl : udpDataLength (h.udpPacket { addr := s.dev.myIpv4Address, port := 777 } data
      ++ h.after s.count) (8 + data.length) = data.length := by
    rw [udpDataLength, hulen, BitVec.toNat_ofNat]
    split_ifs <;> omega
  have hok := hsum s.count data hlen
  obtain ⟨f, hf, hfd⟩ := makeUdpResponse_datagram s.dev h.eth (h.ip.toList_length)
    (net16 (h.udpPacket { addr := s.dev.myIpv4Address, port := 777 } data ++ h.after s.count) 0)
    777 (udpCommand_reply_length code s.dev (data ++ h.after s.count) data.length)
  unfold Host.deliver netOnIpv4Udp
  simp only [hok, hport, hdl, drop_udpPacket, Bool.not_true, Bool.false_eq_true, if_false, if_true,
    hf]
  rw [if_neg (by omega)]
  simp only [Option.toList_some, List.map_singleton, hfd]

/-- Nothing is waiting at the socket, and the library talks to the device. -/
structure Idle (c : RemoteEthConnection) (s : Link) : Prop where
  inbox : s.inbox = []
  ipAddr : c.ipAddr = { addr := s.dev.myIpv4Address, port := 777 }

variable {c : RemoteEthConnection}

theorem retryLoop_done {σ : Type*} {net : Net σ} {call : Call} {s s' s'' : σ} {k : ℤ}
    {data buf : List Byte} {sender : SockAddr}
    (hsend : net.sendto s c.ipAddr call.request = (s', k))
    (hk : ¬ (BitVec.ofInt 64 k).toNat < call.request.length)
    (hwait : net.wait s' = (s'', .datagram data sender)) (hreply : call.reply data = .done buf)
    (retry : ℕ) :
    retryLoop net call (retry + 1) c s = (some buf, { c with ipAddr := sender }, s'') := by
  rw [retryLoop]
  simp only [hsend, hwait, hreply, hk, if_false]

variable (code)

/-- A command whose reply is accepted takes one round and leaves nothing waiting. -/
theorem retryLoop_exchange (call : Call) (buf : List Byte) (hidle : Idle c s)
    (hsum : h.ChksumPasses s.dev.myIpv4Address) (hlen : call.request.length ≤ 1472)
    (hreply : call.reply (udpCommand code s.dev (call.request ++ h.after s.count)
      call.request.length).reply = .done buf) (retry : ℕ) :
    retryLoop (h.net code) call (retry + 1) c s
      = (some buf, c,
          { dev := (udpCommand code s.dev (call.request ++ h.after s.count)
              call.request.length).dev
            inbox := []
            count := s.count + 1 }) := by
  have hsent := not_sent_short call.request (by omega)
  have hwait : (h.net code).wait (h.deliver code s c.ipAddr call.request)
      = ({ dev := (udpCommand code s.dev (call.request ++ h.after s.count)
              call.request.length).dev
           inbox := []
           count := s.count + 1 }, .datagram (udpCommand code s.dev
            (call.request ++ h.after s.count) call.request.length).reply c.ipAddr) := by
    rw [hidle.ipAddr, deliver_eq hsum hlen, hidle.inbox]
    rfl
  exact retryLoop_done rfl hsent hwait hreply retry

theorem setWidth_setWidth {addr : BitVec 64} (h : addr.toNat < 2 ^ 32) :
    (addr.setWidth 32).setWidth 64 = addr := by
  apply BitVec.eq_of_toNat_eq
  rw [BitVec.toNat_setWidth, BitVec.toNat_setWidth]
  omega

theorem remoteEthWriteBlock_exchange (hidle : Idle c s)
    (hsum : h.ChksumPasses s.dev.myIpv4Address) {addr : BitVec 64} (haddr : addr.toNat < 2 ^ 32)
    (buf : List Byte) {n : ℕ} (hn : n ≤ 1400) :
    ∃ c' s', remoteEthWriteBlock (h.net code) addr buf n c s = (some [], c', s') ∧ Idle c' s'
      ∧ s'.dev = { s.dev with mem := write s.dev.mem (addr.setWidth 32) (buf.take n) } := by
  have hbuf : (buf.take n).length ≤ 1400 := by
    rw [List.length_take]
    omega
  set seq := nextSeq c.seq (h.time s.count)
  have hlen := (length_writeCall addr seq (buf.take n)).2
  have hcmd := udpCommand_writeCall code s.dev addr seq (h.after s.count) hbuf
  have hidle' : Idle { c with seq := seq } s := ⟨hidle.inbox, hidle.ipAddr⟩
  have hloop := retryLoop_exchange code (writeCall addr seq (buf.take n)) [] hidle' hsum
    (by omega) (by rw [hcmd, writeCall_reply, if_pos ⟨setWidth_setWidth haddr, rfl⟩]) 2
  rw [hcmd] at hloop
  have hblock : remoteEthWriteBlock (h.net code) addr buf n c s
      = retryLoop (h.net code) (writeCall addr seq (buf.take n)) 3 { c with seq := seq } s := by
    rw [remoteEthWriteBlock, if_neg (by omega)]
    rfl
  exact ⟨_, _, hblock.trans hloop, ⟨rfl, hidle.ipAddr⟩, rfl⟩

theorem remoteEthReadBlock_exchange (hidle : Idle c s)
    (hsum : h.ChksumPasses s.dev.myIpv4Address) (hafter : ∀ n, NoDigit (h.after n))
    {addr : BitVec 64} (haddr : addr.toNat < 2 ^ 32) {n : ℕ} (hpos : 0 < n) (hn : n ≤ 1400) :
    ∃ s', remoteEthReadBlock (h.net code) addr n c s
        = (some (read s.dev.mem (addr.setWidth 32) n), c, s') ∧ Idle c s' ∧ s'.dev = s.dev := by
  have hcmd := udpCommand_readCall code s.dev addr hn (NumberEnds.of_pos hpos (hafter s.count))
  have hlen : (readCall addr n).request.length ≤ 1472 := by
    have ha := numeral_length_le (k := 16) (by omega) addr.isLt
    have hn' := numeral_length_le (n := n) (k := 8) (by omega) (by omega)
    have h5 : (ascii "READ ").length = 5 := rfl
    simp only [readCall, List.length_append, List.length_singleton, h5]
    omega
  have hloop := retryLoop_exchange code (readCall addr n)
    (read s.dev.mem (addr.setWidth 32) n) hidle hsum hlen (by
      rw [hcmd, readCall_reply _ _ _ (by rw [length_read]; exact hn), length_read,
        if_pos ⟨le_rfl, setWidth_setWidth haddr⟩, List.take_of_length_le (by simp)]) 2
  rw [hcmd] at hloop
  have hblock : remoteEthReadBlock (h.net code) addr n c s
      = retryLoop (h.net code) (readCall addr n) 3 c s := by
    rw [remoteEthReadBlock, if_neg (by omega)]
    rfl
  exact ⟨_, hblock.trans hloop, ⟨rfl, hidle.ipAddr⟩, rfl⟩

end Exchange

/-! ## Ranges -/

section Ranges

variable {h : Host} (code : BitVec 32 → Mem 32 → Mem 32)

/-- The address of the next block. -/
theorem addr_next {addr : BitVec 64} {n : ℕ} (h : addr.toNat + n ≤ 2 ^ 32) (hn : 1400 ≤ n) :
    (addr + 1400#64).toNat = addr.toNat + 1400
      ∧ (addr + 1400#64).setWidth 32 = addr.setWidth 32 + BitVec.ofNat 32 1400 := by
  refine ⟨?_, ?_⟩
  · rw [BitVec.toNat_add, BitVec.toNat_ofNat]
    omega
  · exact BitVec.setWidth_add addr 1400#64 (by omega)

/-- Block after block, the whole range is copied into the device's memory and nothing else. -/
theorem remoteEthWrite_mem (n : ℕ) : ∀ (addr : BitVec 64) (buf : List Byte)
    {c : RemoteEthConnection} {s : Link}, buf.length = n → addr.toNat + n ≤ 2 ^ 32 → Idle c s →
    h.ChksumPasses s.dev.myIpv4Address →
    ∃ c' s', remoteEthWrite (h.net code) addr buf n c s = (some [], c', s') ∧ Idle c' s'
      ∧ s'.dev = { s.dev with mem := write s.dev.mem (addr.setWidth 32) buf } := by
  induction n using Nat.strong_induction_on with
  | _ n ih =>
    intro addr buf c s hbuf haddr hidle hsum
    rw [remoteEthWrite]
    by_cases h1400 : 1400 ≤ n
    · obtain ⟨c1, s1, hblock, hidle1, hdev1⟩ := remoteEthWriteBlock_exchange code hidle
        hsum (by omega : addr.toNat < 2 ^ 32) buf (le_refl 1400)
      have hnext := addr_next haddr h1400
      obtain ⟨c2, s2, hrest, hidle2, hdev2⟩ := ih (n - 1400) (by omega) (addr + 1400#64)
        (buf.drop 1400) (by rw [List.length_drop, hbuf]) (by omega) hidle1
        (by rw [hdev1]; exact hsum)
      refine ⟨c2, s2, ?_, hidle2, ?_⟩
      · rw [if_pos (by omega)]
        have hcast : ((n - 1400 : ℕ) : ℤ) = (n : ℤ) - 1400 := by omega
        have hlit : ((1400 : ℕ) : ℤ) = 1400 := rfl
        rw [hcast] at hrest
        rw [hlit] at hblock
        rw [hblock]
        exact hrest
      · have hlen : (buf.take 1400).length = 1400 := by
          rw [List.length_take]
          omega
        have happ := write_append (buf.take 1400) (buf.drop 1400) s.dev.mem (addr.setWidth 32)
        rw [List.take_append_drop, hlen, ← hnext.2] at happ
        rw [hdev2, hdev1, happ]
    · rw [if_neg (by omega)]
      by_cases hpos : 0 < n
      · obtain ⟨c1, s1, hblock, hidle1, hdev1⟩ := remoteEthWriteBlock_exchange code hidle
          hsum (by omega : addr.toNat < 2 ^ 32) buf (by omega : n ≤ 1400)
        rw [List.take_of_length_le (by omega)] at hdev1
        exact ⟨c1, s1, by rw [if_pos (by omega), hblock], hidle1, hdev1⟩
      · have hnil : buf = [] := List.eq_nil_of_length_eq_zero (by omega)
        exact ⟨c, s, by rw [if_neg (by omega)], hidle, by rw [hnil]; rfl⟩

/-- Block after block, the whole range is read out of the device's memory. -/
theorem remoteEthRead_mem (hafter : ∀ n, NoDigit (h.after n)) (n : ℕ) : ∀ (addr : BitVec 64)
    {c : RemoteEthConnection} {s : Link}, addr.toNat + n ≤ 2 ^ 32 → Idle c s →
    h.ChksumPasses s.dev.myIpv4Address →
    ∃ s', remoteEthRead (h.net code) addr n c s
        = (some (read s.dev.mem (addr.setWidth 32) n), c, s') ∧ Idle c s' ∧ s'.dev = s.dev := by
  induction n using Nat.strong_induction_on with
  | _ n ih =>
    intro addr c s haddr hidle hsum
    rw [remoteEthRead]
    by_cases h1400 : 1400 ≤ n
    · obtain ⟨s1, hblock, hidle1, hdev1⟩ := remoteEthReadBlock_exchange code hidle
        hsum hafter (by omega : addr.toNat < 2 ^ 32) (by omega : 0 < 1400) (le_refl 1400)
      have hnext := addr_next haddr h1400
      obtain ⟨s2, hrest, hidle2, hdev2⟩ := ih (n - 1400) (by omega) (addr + 1400#64)
        (by omega) hidle1 (by rw [hdev1]; exact hsum)
      refine ⟨s2, ?_, hidle2, hdev2.trans hdev1⟩
      rw [if_pos (by omega)]
      have hcast : ((n - 1400 : ℕ) : ℤ) = (n : ℤ) - 1400 := by omega
      have hlit : ((1400 : ℕ) : ℤ) = 1400 := rfl
      rw [hcast, hdev1, hnext.2] at hrest
      rw [hlit] at hblock
      have hadd := read_add s.dev.mem 1400 (n - 1400) (addr.setWidth 32)
      rw [show 1400 + (n - 1400) = n by omega] at hadd
      rw [hblock]
      simp only [hrest, Option.map_some, hadd]
    · rw [if_neg (by omega)]
      by_cases hpos : 0 < n
      · obtain ⟨s1, hblock, hidle1, hdev1⟩ := remoteEthReadBlock_exchange code hidle
          hsum hafter (by omega : addr.toNat < 2 ^ 32) hpos (by omega : n ≤ 1400)
        exact ⟨s1, by rw [if_pos (by omega), hblock], hidle1, hdev1⟩
      · have hzero : n = 0 := by omega
        exact ⟨s, by rw [if_neg (by omega), hzero]; rfl, hidle, rfl⟩

end Ranges

/-! ## The round trip -/

/-- The caller's `n` in a parameter `int len`. -/
def intLen (n : ℕ) : ℤ := (BitVec.ofNat 32 n).toInt

theorem intLen_eq {n : ℕ} (h : n < 2 ^ 31) : intLen n = n := by
  have hn : (BitVec.ofNat 32 n).toNat = n := by
    rw [BitVec.toNat_ofNat]
    omega
  rw [intLen, BitVec.toInt_eq_toNat_of_lt (by omega), hn]

/-- The memory `m` with exactly the bytes at `a .. a + n` replaced by `b`. -/
def replaced (m : Mem 32) (a : BitVec 32) (b : List Byte) : Mem 32 := fun x =>
  if a.toNat ≤ x.toNat ∧ x.toNat < a.toNat + b.length then b.getD (x.toNat - a.toNat) 0 else m x

/-- `remote_eth_write` of `b` to `a` returns 1 and replaces exactly the bytes at `a .. a + n`, and
`remote_eth_read` of that range then returns 1 and yields `b`. -/
def RoundTrips (h : Host) (code : BitVec 32 → Mem 32 → Mem 32) (dev : Device) (seq : BitVec 32)
    (count : ℕ) (a : BitVec 32) (b : List Byte) : Prop :=
  ∃ c' s' c'' s'',
    remoteEthWrite (h.net code) (a.setWidth 64) b (intLen b.length)
        { remoteEthSocket dev.myIpv4Address with seq := seq }
        { dev := dev, inbox := [], count := count } = (some [], c', s')
      ∧ s'.dev = { dev with mem := replaced dev.mem a b }
      ∧ remoteEthRead (h.net code) (a.setWidth 64) (intLen b.length) c' s' = (some b, c'', s'')

theorem write_eq_replaced (m : Mem 32) (a : BitVec 32) {b : List Byte}
    (hab : a.toNat + b.length ≤ 2 ^ 32) :
    write m a b = replaced m a b := by
  funext x
  rw [write_range _ _ _ hab, replaced]
  by_cases hle : a.toNat ≤ x.toNat
  · by_cases hlt : x.toNat < a.toNat + b.length
    · rw [if_pos hle, if_pos ⟨hle, hlt⟩, List.getD_eq_getElem?_getD,
        List.getElem?_eq_getElem (by omega)]
      rfl
    · rw [if_pos hle, if_neg (fun hh => hlt hh.2), List.getElem?_eq_none (by omega)]
      rfl
  · rw [if_neg hle, if_neg (fun hh => hle hh.1)]

/-- What is written to the device is read back, at every address and for every length an `int` can
hold. -/
theorem roundTrips_of_int (h : Host) (code : BitVec 32 → Mem 32 → Mem 32) (dev : Device)
    (seq : BitVec 32) (count : ℕ) (hsum : h.ChksumPasses dev.myIpv4Address)
    (hafter : ∀ n, NoDigit (h.after n)) (a : BitVec 32) (b : List Byte)
    (hab : a.toNat + b.length ≤ 2 ^ 32) (hint : b.length < 2 ^ 31) :
    RoundTrips h code dev seq count a b := by
  have haddr : (a.setWidth 64).toNat = a.toNat := by
    rw [BitVec.toNat_setWidth]
    omega
  have hwidth : (a.setWidth 64).setWidth 32 = a := by simp
  have hidle : Idle { remoteEthSocket dev.myIpv4Address with seq := seq }
      { dev := dev, inbox := [], count := count } := ⟨rfl, rfl⟩
  obtain ⟨c', s', hwrite, hidle', hdev'⟩ := remoteEthWrite_mem code b.length
    (a.setWidth 64) b rfl (by omega) hidle hsum
  obtain ⟨s'', hread, -, -⟩ := remoteEthRead_mem code hafter b.length
    (a.setWidth 64) (by omega) hidle' (by rw [hdev']; exact hsum)
  rw [hwidth] at hdev' hread
  refine ⟨c', s', c', s'', ?_, ?_, ?_⟩
  · rw [intLen_eq hint]
    exact hwrite
  · rw [hdev', write_eq_replaced _ _ hab]
  · have hback := read_write dev.mem a (by omega : b.length ≤ 2 ^ 32)
    rw [intLen_eq hint, hread, hdev', hback]

/-- A host that sends no checksums, with nothing behind its datagrams. -/
def plainHost : Host where
  eth := { dstMac := debugger.myEthMac, srcMac := mac 2 0 0 0 0 1, type := ntoh16 0x0800 }
  ip := ipv4 192 168 0 1
  port := 4096
  chksum := fun _ _ => 0
  after := fun _ => []
  time := fun _ => 1

theorem plainHost_chksumPasses (my : Ipv4Address) : plainHost.ChksumPasses my := by
  intro n data _
  have hzero : net16 (plainHost.udpPacket { addr := my, port := 777 } data ++ plainHost.after n) 6
      = 0 := by
    simp only [Host.udpPacket, List.append_assoc]
    rw [← List.append_assoc, ← List.append_assoc]
    exact net16_hton16Bytes 0 (p := (hton16Bytes _ ++ hton16Bytes _) ++ hton16Bytes _) rfl
  rw [udpChksumOk, hzero]
  rfl

theorem roundTrips_of_int_hello :
    RoundTrips plainHost (fun _ m => m) debugger 0 0 0x1000 (ascii "hello\n") :=
  roundTrips_of_int plainHost _ debugger 0 0 (plainHost_chksumPasses _)
    (fun _ => by simp [plainHost, NoDigit]) 0x1000 _ (by decide) (by decide)

/-- Two gigabytes are a negative `int`: told to write the upper half of memory, `remote_eth_write`
returns 1 and sends nothing. -/
theorem roundTrips_false_of_negative :
    ¬ RoundTrips plainHost (fun _ m => m) debugger 0 0 0x80000000 (List.replicate (2 ^ 31) 0xFF) := by
  rintro ⟨c', s', c'', s'', hwrite, hdev, -⟩
  have hneg : intLen (List.replicate (2 ^ 31) (0xFF : Byte)).length = -2 ^ 31 := by
    rw [List.length_replicate]
    rfl
  rw [hneg, remoteEthWrite, if_neg (by norm_num), if_neg (by norm_num)] at hwrite
  simp only [Prod.mk.injEq] at hwrite
  rw [← hwrite.2.2] at hdev
  have hmem := congrFun (congrArg Device.mem hdev) 0x80000000
  simp only [replaced, List.length_replicate, List.getD_eq_getElem?_getD] at hmem
  rw [if_pos (by decide), List.getElem?_replicate_of_lt (by decide)] at hmem
  exact absurd hmem (by decide)

end RemoteX86
