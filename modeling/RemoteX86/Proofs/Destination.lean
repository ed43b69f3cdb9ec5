import RemoteX86.Destination

/-!
# The library talks to whoever spoke last

`recvfrom` leaves the sender's address where `sendto` takes the destination from, so the next
command goes to the sender of the last datagram taken (`Traced`).  The configured machine keeps
being addressed exactly as long as nobody else's datagram is taken (`allSentTo_iff`).
-/

namespace RemoteX86

open Hex

/-! ## Invariants of the loops -/

section Loops

variable {σ : Type*} {net : Net σ} {I J : RemoteEthConnection → σ → Prop}

/-- `I` holds between rounds and `J` between a round's `sendto` and its wait. -/
structure RoundInv (net : Net σ) (I J : RemoteEthConnection → σ → Prop) : Prop where
  seq : ∀ {c s} (q : BitVec 32), I c s → I { c with seq := q } s
  sendto : ∀ {c s} (data : List Byte), I c s → J c (net.sendto s c.ipAddr data).1
  sent : ∀ {c s}, J c s → I c s
  timeout : ∀ {c s s'}, J c s → net.wait s = (s', .timeout) → I c s'
  error : ∀ {c s s'}, J c s → net.wait s = (s', .error) → I c s'
  datagram : ∀ {c s s' data sender}, J c s → net.wait s = (s', .datagram data sender) →
    I { c with ipAddr := sender } s'

theorem RoundInv.retryLoop (h : RoundInv net I J) (call : Call) : ∀ (retry : ℕ)
    {c : RemoteEthConnection} {s : σ}, I c s →
      I (retryLoop net call retry c s).2.1 (retryLoop net call retry c s).2.2
  | 0, c, s, hI => hI
  | retry + 1, c, s, hI => by
    have hJ := h.sendto call.request hI
    rw [RemoteX86.retryLoop]
    simp only []
    split_ifs
    · exact h.sent hJ
    · rcases hw : net.wait (net.sendto s c.ipAddr call.request).1 with ⟨s', - | - | ⟨data, sender⟩⟩
      · exact h.retryLoop call retry (h.timeout hJ hw)
      · exact h.error hJ hw
      · have hI' := h.datagram hJ hw
        simp only []
        rcases call.reply data with - | buf | -
        · exact hI'
        · exact hI'
        · exact h.retryLoop call retry hI'

theorem RoundInv.readBlock (h : RoundInv net I J) (addr : BitVec 64) (len : ℤ)
    {c : RemoteEthConnection} {s : σ} (hI : I c s) :
    I (remoteEthReadBlock net addr len c s).2.1 (remoteEthReadBlock net addr len c s).2.2 := by
  rw [remoteEthReadBlock]
  split_ifs
  · exact hI
  · exact h.retryLoop _ _ hI

theorem RoundInv.writeBlock (h : RoundInv net I J) (addr : BitVec 64) (buf : List Byte) (len : ℤ)
    {c : RemoteEthConnection} {s : σ} (hI : I c s) :
    I (remoteEthWriteBlock net addr buf len c s).2.1
      (remoteEthWriteBlock net addr buf len c s).2.2 := by
  rw [remoteEthWriteBlock]
  split_ifs
  · exact hI
  · exact h.retryLoop _ _ (h.seq _ hI)

theorem RoundInv.read (h : RoundInv net I J) (addr : BitVec 64) (len : ℤ)
    (c : RemoteEthConnection) (s : σ) (hI : I c s) :
    I (remoteEthRead net addr len c s).2.1 (remoteEthRead net addr len c s).2.2 := by
  fun_induction remoteEthRead net addr len c s with
  | case1 addr len c s hlen c' s' hb =>
    have := h.readBlock addr 1400 hI
    rwa [hb] at this
  | case2 addr len c s hlen buf c' s' hb r ih =>
    have := h.readBlock addr 1400 hI
    rw [hb] at this
    exact ih this
  | case3 addr len c s hlen hpos => exact h.readBlock addr len hI
  | case4 addr len c s hlen hpos => exact hI

theorem RoundInv.write (h : RoundInv net I J) (addr : BitVec 64) (buf : List Byte) (len : ℤ)
    (c : RemoteEthConnection) (s : σ) (hI : I c s) :
    I (remoteEthWrite net addr buf len c s).2.1 (remoteEthWrite net addr buf len c s).2.2 := by
  fun_induction remoteEthWrite net addr buf len c s with
  | case1 addr buf len c s hlen c' s' hb =>
    have := h.writeBlock addr buf 1400 hI
    rwa [hb] at this
  | case2 addr buf len c s hlen _ c' s' hb ih =>
    have := h.writeBlock addr buf 1400 hI
    rw [hb] at this
    exact ih this
  | case3 addr buf len c s hlen hpos => exact h.writeBlock addr buf len hI
  | case4 addr buf len c s hlen hpos => exact hI

theorem RoundInv.run (h : RoundInv net I J) (call : ApiCall) {c : RemoteEthConnection} {s : σ}
    (hI : I c s) : I (call.run net c s).2.1 (call.run net c s).2.2 := by
  cases call with
  | test => exact h.retryLoop testCall 3 hI
  | read addr len => exact h.read addr len c s hI
  | write addr buf len => exact h.write addr buf len c s hI
  | exec addr => exact h.retryLoop (execCall addr (net.time s)) 3 hI

/-- What every round keeps holds after any sequence of calls. -/
theorem RoundInv.runCalls (h : RoundInv net I J) : ∀ (calls : List ApiCall)
    {c : RemoteEthConnection} {s : σ}, I c s →
      I (runCalls net c s calls).1 (runCalls net c s calls).2
  | [], _, _, hI => hI
  | call :: calls, _, _, hI => h.runCalls calls (h.run call hI)

end Loops

/-! ## The log -/

/-- Where the next command goes: to the sender of the last datagram taken. -/
def destination (cfg : SockAddr) : List Event → SockAddr
  | [] => cfg
  | .sent _ :: log => destination cfg log
  | .taken sender :: _ => sender

/-- Every command went where the last datagram before it came from, and a datagram is taken only
right after a command. -/
def WellLogged (cfg : SockAddr) : List Event → Prop
  | [] => True
  | .sent dst :: log => dst = destination cfg log ∧ WellLogged cfg log
  | .taken _ :: log => (∃ dst log', log = .sent dst :: log') ∧ WellLogged cfg log

theorem taken_of_sent {cfg : SockAddr} : ∀ (log : List Event), WellLogged cfg log →
    (∀ d, .sent d ∈ log → d = cfg) → destination cfg log = cfg → AllTakenFrom cfg log
  | [], _, _, _ => by simp [AllTakenFrom]
  | .sent dst :: log, hw, hs, hd => by
    have ih := taken_of_sent log hw.2 (fun d h => hs d (List.mem_cons_of_mem _ h)) hd
    intro d h
    exact ih d (by simpa using h)
  | .taken sender :: log, hw, hs, hd => by
    obtain ⟨⟨dst, log', rfl⟩, hw'⟩ := hw
    have hdst : dst = cfg := hs dst (by simp)
    have ih := taken_of_sent (.sent dst :: log') hw' (fun d h => hs d (List.mem_cons_of_mem _ h))
      (hw'.1.symm.trans hdst)
    intro d h
    rw [List.mem_cons, Event.taken.injEq] at h
    rcases h with rfl | h
    · exact hd
    · exact ih d h

theorem sent_of_taken {cfg : SockAddr} : ∀ (log : List Event), WellLogged cfg log →
    AllTakenFrom cfg log → (∀ d, .sent d ∈ log → d = cfg) ∧ destination cfg log = cfg
  | [], _, _ => by simp [destination]
  | .sent dst :: log, hw, ht => by
    obtain ⟨hs, hd⟩ := sent_of_taken log hw.2 fun d h => ht d (List.mem_cons_of_mem _ h)
    refine ⟨fun d h => ?_, hd⟩
    rw [List.mem_cons, Event.sent.injEq] at h
    rcases h with rfl | h
    · exact hw.1.trans hd
    · exact hs d h
  | .taken sender :: log, hw, ht => by
    obtain ⟨hs, -⟩ := sent_of_taken log hw.2 fun d h => ht d (List.mem_cons_of_mem _ h)
    exact ⟨fun d h => hs d (by simpa using h), ht sender List.mem_cons_self⟩

section Log

variable {σ : Type*} (net : Net σ) (cfg : SockAddr)

/-- The connection's address is the log's destination. -/
def Traced (c : RemoteEthConnection) (s : σ × List Event) : Prop :=
  WellLogged cfg s.2 ∧ c.ipAddr = destination cfg s.2

def JustSent (c : RemoteEthConnection) (s : σ × List Event) : Prop :=
  Traced cfg c s ∧ ∃ dst log, s.2 = .sent dst :: log

theorem roundInv_traced : RoundInv net.logged (Traced cfg) (JustSent cfg) where
  seq := fun _ h => h
  sendto := fun _ h => ⟨⟨⟨h.2, h.1⟩, h.2⟩, _, _, rfl⟩
  sent := fun h => h.1
  timeout := by
    intro c s s' h hw
    simp only [Net.logged] at hw
    split at hw <;> simp only [Prod.mk.injEq, reduceCtorEq, and_false] at hw
    rw [← hw.1]
    exact h.1
  error := by
    intro c s s' h hw
    simp only [Net.logged] at hw
    split at hw <;> simp only [Prod.mk.injEq, reduceCtorEq, and_false] at hw
    rw [← hw.1]
    exact h.1
  datagram := by
    intro c s s' data sender h hw
    simp only [Net.logged] at hw
    split at hw <;> simp only [Prod.mk.injEq, reduceCtorEq, and_false, Wait.datagram.injEq] at hw
    obtain ⟨hs', -, rfl⟩ := hw
    rw [← hs']
    exact ⟨⟨h.2, h.1.1⟩, rfl⟩

end Log

/-- For every socket and every sequence of calls: all commands go to the configured machine, and the
connection still names it, exactly when every datagram taken on the way came from there. -/
theorem allSentTo_iff {σ : Type*} (net : Net σ) (addr : Ipv4Address) (calls : List ApiCall)
    (s : σ) :
    AllSentTo { addr := addr, port := 777 }
        (runCalls net.logged (remoteEthSocket addr) (s, []) calls).1
        (runCalls net.logged (remoteEthSocket addr) (s, []) calls).2.2
      ↔ AllTakenFrom { addr := addr, port := 777 }
        (runCalls net.logged (remoteEthSocket addr) (s, []) calls).2.2 := by
  have hstart : Traced (σ := σ) { addr := addr, port := 777 } (remoteEthSocket addr) (s, []) :=
    ⟨trivial, rfl⟩
  obtain ⟨hw, hd⟩ := (roundInv_traced net { addr := addr, port := 777 }).runCalls calls hstart
  rw [AllSentTo, hd]
  exact ⟨fun h => taken_of_sent _ hw h.1 h.2, sent_of_taken _ hw⟩

/-- A stray datagram that is no reply makes the second TEST go to whoever sent it. -/
theorem test_sent_to_stranger :
    ¬ AllSentTo { addr := ipv4 192 168 0 2, port := 777 }
      (runCalls scriptNet.logged (remoteEthSocket (ipv4 192 168 0 2))
        ([.datagram (ascii "hello") { addr := ipv4 10 0 0 9, port := 53 }], []) [.test]).1
      (runCalls scriptNet.logged (remoteEthSocket (ipv4 192 168 0 2))
        ([.datagram (ascii "hello") { addr := ipv4 10 0 0 9, port := 53 }], [])
        [.test]).2.2 := by
  intro h
  have hdst := h.1 { addr := ipv4 10 0 0 9, port := 53 } (by decide)
  exact absurd hdst (by decide)

end RemoteX86
