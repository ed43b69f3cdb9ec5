import RemoteX86.EthMachine
import RemoteX86.Proofs.RoundTrip

/-!
# The Ethernet debugger is the machine it is for

Over a link that loses nothing and spoils no datagram every call takes one round for each of its
blocks, so whatever calls in range are made, each of them does to the device what it should do to the
machine, and returns that.
-/

namespace RemoteX86

open Hex Memory

section Calls

variable {h : Host} (code : BitVec 32 → Mem 32 → Mem 32) {c : RemoteEthConnection} {s : Link}

theorem udpCommand_testCall (dev : Device) (after : List Byte) :
    udpCommand code dev (testCall.request ++ after) testCall.request.length = commandTest dev := by
  have hprefix : ascii "TEST" <+: testCall.request ++ after := List.prefix_append _ _
  rw [udpCommand, if_pos ⟨le_rfl, (memcmpEq_iff _ _ (by decide)).2 hprefix⟩]

theorem testCall_reply : testCall.reply (ascii "OK x86-32") = .done [] := by decide

theorem remoteEthTest_exchange (hidle : Idle c s) (hsum : h.ChksumPasses s.dev.myIpv4Address) :
    ∃ s', remoteEthTest (h.net code) c s = (some [], c, s') ∧ Idle c s' ∧ s'.dev = s.dev := by
  have hcmd := udpCommand_testCall code s.dev (h.after s.count)
  have hloop := retryLoop_exchange code testCall [] hidle hsum (by decide)
    (by rw [hcmd]; exact testCall_reply) 2
  rw [hcmd] at hloop
  exact ⟨_, hloop, ⟨rfl, hidle.ipAddr⟩, rfl⟩

theorem execCall_reply (addr : BitVec 64) (seq x : BitVec 32) :
    (execCall addr seq).reply (ascii "OK Complete " ++ hexToStr x 8) = .done [] := by
  have hlen : (ascii "OK Complete " ++ hexToStr x 8).length = 20 := by
    rw [List.length_append, length_hexToStr]
    rfl
  have hok : strncmpEq (ascii "OK Complete " ++ hexToStr x 8) (ascii "OK ") = true := by
    have happ := strncmpEq_append (ascii "OK ") (ascii "Complete " ++ hexToStr x 8)
    rwa [← List.append_assoc] at happ
  rw [execCall]
  dsimp only
  rw [recvfrom_short (by rw [hlen]; decide) (by omega), if_pos hok]

theorem remoteEthExec_exchange (hidle : Idle c s) (hsum : h.ChksumPasses s.dev.myIpv4Address)
    (hafter : h.EndsNumbers) (addr : BitVec 64) :
    ∃ s', remoteEthExec (h.net code) addr c s = (some [], c, s') ∧ Idle c s' ∧
      s'.dev = if h.time s.count = s.dev.execLastSeq then s.dev
        else { s.dev with
          mem := code (addr.setWidth 32) s.dev.mem, execLastSeq := h.time s.count } := by
  set seq := h.time s.count with hseq
  have hends : NumberEnds seq.toNat (h.after s.count) :=
    ⟨(hafter s.count).1, fun _ => (hafter s.count).2⟩
  have hops := operands_execCall addr hends
  have hcmd := udpCommand_execCall code s.dev addr (congrArg Prod.fst hops)
    (congrArg (fun o => o.2.1) hops)
  have hlen : (execCall addr seq).request.length ≤ 1472 := by
    have ha := numeral_length_le (k := 16) (by omega) addr.isLt
    have hs := numeral_length_le (k := 8) (by omega) seq.isLt
    have h5 : (ascii "EXEC ").length = 5 := rfl
    simp only [execCall, List.length_append, List.length_singleton, h5]
    omega
  have hloop := retryLoop_exchange code (execCall addr seq) [] hidle hsum hlen
    (by rw [hcmd]; exact execCall_reply addr seq seq) 2
  rw [hcmd] at hloop
  refine ⟨_, hloop, ⟨rfl, ?_⟩, ?_⟩
  · rw [hidle.ipAddr]
    dsimp only
    split_ifs <;> rfl
  · dsimp only
    by_cases he : seq = s.dev.execLastSeq
    · rw [if_pos he, if_neg (not_not.2 he)]
    · rw [if_neg he, if_pos he]

/-- A negative length is none at all. -/
theorem remoteEthRead_toNat (addr : BitVec 64) (len : ℤ) :
    remoteEthRead (h.net code) addr len c s = remoteEthRead (h.net code) addr len.toNat c s := by
  rcases lt_or_ge len 0 with hneg | hpos
  · have hzero : ((len.toNat : ℕ) : ℤ) = 0 := by omega
    rw [hzero, remoteEthRead, if_neg (by omega), if_neg (by omega), remoteEthRead,
      if_neg (by omega), if_neg (by omega)]
  · rw [Int.toNat_of_nonneg hpos]

end Calls

section Runs

variable (h : Host) (code : BitVec 32 → Mem 32 → Mem 32) (dev : Device)

/-- The library talks to this device, which is the machine but for what never changes. -/
structure TalksTo (s : RemoteEthConnection × Link) (t : EthMachine) : Prop where
  idle : Idle s.1 s.2
  dev : s.2.dev = { dev with mem := t.mem, execLastSeq := t.lastExec }

variable {h code dev}

theorem TalksTo.answer (hsum : h.ChksumPasses dev.myIpv4Address) (hafter : h.EndsNumbers)
    {s : RemoteEthConnection × Link} {t : EthMachine} {call : ApiCall} (hrel : TalksTo dev s t)
    (hrange : call.InRange) :
    ∃ t', t.Answers code call (call.answer h code s).1 t' ∧
      TalksTo dev (call.answer h code s).2 t' := by
  obtain ⟨c, s⟩ := s
  obtain ⟨hidle, hdev⟩ := hrel
  dsimp only at hidle hdev
  have hsum' : h.ChksumPasses s.dev.myIpv4Address := by
    rw [hdev]
    exact hsum
  have hmem : s.dev.mem = t.mem := by rw [hdev]
  have hlast : s.dev.execLastSeq = t.lastExec := by rw [hdev]
  cases call with
  | test =>
    obtain ⟨s', hcall, hidle', hdev'⟩ := remoteEthTest_exchange code hidle hsum'
    refine ⟨t, ⟨?_, rfl⟩, ?_, ?_⟩ <;> simp only [ApiCall.answer, ApiCall.run, hcall]
    · exact hidle'
    · exact hdev'.trans hdev
  | read addr len =>
    obtain ⟨s', hcall, hidle', hdev'⟩ := remoteEthRead_mem code (fun n => (hafter n).1) len.toNat
      addr hrange hidle hsum'
    rw [← remoteEthRead_toNat] at hcall
    refine ⟨t, ⟨read s.dev.mem (addr.setWidth 32) len.toNat, ?_, ?_, rfl⟩, ?_, ?_⟩
    · simp only [ApiCall.answer, ApiCall.run, hcall]
    · rw [hmem, ← BitVec.ofNat_toNat]
      exact fetched_read _ _ _
    · simp only [ApiCall.answer, ApiCall.run, hcall]
      exact hidle'
    · simp only [ApiCall.answer, ApiCall.run, hcall]
      exact hdev'.trans hdev
  | write addr buf len =>
    obtain ⟨hrange, hlen⟩ := hrange
    obtain ⟨c', s', hcall, hidle', hdev'⟩ := remoteEthWrite_mem code buf.length addr buf rfl
      (by omega) hidle hsum'
    rw [← hlen] at hcall
    refine ⟨{ t with mem := write t.mem (addr.setWidth 32) buf }, ⟨?_, ?_, rfl⟩, ?_, ?_⟩
    · simp only [ApiCall.answer, ApiCall.run, hcall]
    · rw [← BitVec.ofNat_toNat]
      exact stored_write _ (by omega)
    · simp only [ApiCall.answer, ApiCall.run, hcall]
      exact hidle'
    · simp only [ApiCall.answer, ApiCall.run, hcall]
      rw [hdev', hdev]
  | exec addr =>
    obtain ⟨s', hcall, hidle', hdev'⟩ := remoteEthExec_exchange code hidle hsum' hafter addr
    refine ⟨_, ⟨?_, rfl⟩, ?_, ?_⟩ <;> simp only [ApiCall.answer, ApiCall.run, hcall]
    · exact hidle'
    · rw [hdev', hlast, hmem]
      split_ifs
      · exact hdev
      · rw [hdev]

/-- As long as every UDP checksum passes and nothing in the receive buffer goes on with the number a
datagram ends in, whatever calls in range are made, the answers are those of the machine, and the
device is left as the machine is. -/
theorem ethernet_refines (hsum : h.ChksumPasses dev.myIpv4Address) (hafter : h.EndsNumbers)
    (seq : BitVec 32) (count : ℕ) (calls : List ApiCall) (hcalls : ∀ call ∈ calls, call.InRange) :
    let r := Answering.answers (ApiCall.answer h code)
      ({ remoteEthSocket dev.myIpv4Address with seq := seq },
        { dev := dev, inbox := [], count := count }) calls
    Answering.Permits (EthMachine.Answers code) dev.machine r.1 r.2.2.dev.machine ∧
      r.2.2.dev = { dev with mem := r.2.2.dev.mem, execLastSeq := r.2.2.dev.execLastSeq } := by
  intro r
  have hstep : ∀ (s : RemoteEthConnection × Link) (t : EthMachine) (call : ApiCall),
      TalksTo dev s t → call.InRange → ∃ t', t.Answers code call (call.answer h code s).1 t' ∧
        TalksTo dev (call.answer h code s).2 t' :=
    fun _ _ _ hrel hrange => hrel.answer hsum hafter hrange
  have hstart : TalksTo dev ({ remoteEthSocket dev.myIpv4Address with seq := seq },
      { dev := dev, inbox := [], count := count }) dev.machine := ⟨⟨rfl, rfl⟩, rfl⟩
  obtain ⟨t, hpermits, hrel⟩ := Answering.permits_answers hstep hstart
    (Answering.asked_of_forall hcalls)
  have hend : r.2.2.dev.machine = t := by
    rw [hrel.dev]
    rfl
  refine ⟨hend ▸ hpermits, ?_⟩
  rw [hrel.dev]

theorem ethernet_refines_hello :
    let calls := [.write 0x1000 (ascii "hello") 5, .exec 0x1000, .test, .read 0xFFF 7]
    let r := Answering.answers (ApiCall.answer plainHost fun _ m => m)
      ({ remoteEthSocket debugger.myIpv4Address with seq := 0 },
        { dev := debugger, inbox := [], count := 0 }) calls
    Answering.Permits (EthMachine.Answers fun _ m => m) debugger.machine r.1 r.2.2.dev.machine ∧
      r.2.2.dev = { debugger with mem := r.2.2.dev.mem, execLastSeq := r.2.2.dev.execLastSeq } :=
  ethernet_refines (plainHost_chksumPasses _) (fun _ => by simp [plainHost, NoDigit]) 0 0 _
    (by decide)

end Runs

end RemoteX86
