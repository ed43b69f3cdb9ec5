import RemoteX86.Proofs.Session

/-!
# When an acknowledged EXEC was run

The client takes any reply that starts with "OK " for the reply to its own call.  `exec_acked` says
what it takes for that to be right: a sequence number that is not the device's last one and not on
its way from an earlier call, and a reply that echoes it.  The reply a retransmission left waiting
is enough to break it (`exec_not_acked_by_stale_reply`).
-/

namespace RemoteX86

open Hex Memory Transition

theorem hexToStr_injective {x y : BitVec 32} (h : hexToStr x 8 = hexToStr y 8) : x = y := by
  have hx := value_hexToStr 8 x 0 le_rfl
  have hy := value_hexToStr 8 y 0 le_rfl
  rw [h, hy] at hx
  exact BitVec.eq_of_toNat_eq (by simpa using hx.symm)

theorem execAck_injective {x y : BitVec 32} (h : execAck x = execAck y) : x = y :=
  hexToStr_injective (List.append_cancel_left h)

namespace Session

variable {code : BitVec 32 → Mem 32 → Mem 32} {s s' : Session ExecJob} {a : Action ExecJob}

/-- The device ran the code at the current call's address for one of its datagrams. -/
def Ran (s : Session ExecJob) (job : ExecJob) : Prop :=
  ∃ a ∈ s.runsOf s.current, a.setWidth 64 = job.addr

/-- Whatever carries the current call's sequence number comes from the current call, and the device
answers with it or remembers it only after it ran the code. -/
structure Acknowledged (s : Session ExecJob) : Prop extends s.Ordered where
  addr : ∀ job ∈ s.job?, job.addr.toNat < 2 ^ 32
  req : ∀ job ∈ s.job?, ∀ r ∈ s.reqs, r.job.seq = job.seq → r.call = s.current
  rep : ∀ job ∈ s.job?, ∀ r ∈ s.reps, r.data = execAck job.seq → s.Ran job
  last : ∀ job ∈ s.job?, s.dev.execLastSeq = job.seq → s.Ran job
  acked : s.ExecAcked

theorem Acknowledged.start (h : s.Acknowledged) {job : ExecJob} (hok : s.FreshExec (.start job)) :
    (s.start job).Acknowledged := by
  obtain ⟨haddr, hlast, hreqs, hreps⟩ := hok
  have hjob : ∀ j ∈ (s.start job).job?, j = job := by
    intro j hj
    exact (Option.some.inj hj).symm
  refine { h.toOrdered.start job with addr := ?_, req := ?_, rep := ?_, last := ?_, acked := ?_ }
  · intro j hj
    rw [hjob j hj]
    exact haddr
  · intro j hj r hr hseq
    rw [hjob j hj] at hseq
    simp only [Session.start, List.mem_append, List.mem_singleton] at hr
    rcases hr with hr | rfl
    · exact absurd hseq (hreqs r hr)
    · simp [Session.start, current]
  · intro j hj r hr hdata
    rw [hjob j hj] at hdata
    exact absurd hdata (hreps r hr)
  · intro j hj heq
    rw [hjob j hj] at heq
    exact absurd heq.symm hlast
  · intro j buf hphase
    simp [Session.start] at hphase

/-- A wait that ends with the call returning 1 took a reply to its own sequence number. -/
theorem Acknowledged.proceed (h : s.Acknowledged) {job : ExecJob} {left : ℕ}
    (hp : s.phase = .waiting job left) {arrived : Option (List Byte)}
    (hran : arrived ≠ none → s.Ran job) :
    (s.proceed ExecJob.call job left arrived).Acknowledged := by
  have hord := h.toOrdered.proceed ExecJob.call hp arrived
  have hjob : s.job? = some job := by rw [job?, hp]
  rcases s.proceed_cases ExecJob.call job left arrived with ⟨result, hres, he⟩ | he
  · rw [he] at hord ⊢
    have hsame : ({ s with phase := .returned job result } : Session ExecJob).job? = s.job? := by
      rw [hjob]
      rfl
    refine { hord with addr := ?_, req := ?_, rep := ?_, last := ?_, acked := ?_ }
    · rw [hsame]; exact h.addr
    · rw [hsame]; exact h.req
    · rw [hsame]; exact h.rep
    · rw [hsame]; exact h.last
    · intro j buf hphase
      simp only [Phase.returned.injEq] at hphase
      obtain ⟨rfl, rfl⟩ := hphase
      refine hran ?_
      rintro rfl
      cases left <;> simp [afterWait] at hres
  · rw [he] at hord ⊢
    have hsame : ({ s with
        phase := .waiting job (left - 1)
        reqs := s.reqs ++ [{ call := s.current, job := job }] } : Session ExecJob).job?
          = s.job? := by
      rw [hjob]
      rfl
    refine { hord with addr := ?_, req := ?_, rep := ?_, last := ?_, acked := ?_ }
    · rw [hsame]; exact h.addr
    · rw [hsame]
      intro j hj r hr hseq
      simp only [List.mem_append, List.mem_singleton] at hr
      rcases hr with hr | rfl
      · exact h.req j hj r hr hseq
      · rfl
    · rw [hsame]; exact h.rep
    · rw [hsame]; exact h.last
    · intro j buf hphase
      simp at hphase

section Handle

variable {r : Request ExecJob} {reqs : List (Request ExecJob)} {after : List Byte}

theorem Ran.handle {job : ExecJob} (h : s.Ran job) :
    (s.handle ExecJob.call code after r reqs).Ran job := by
  obtain ⟨a, ha, haddr⟩ := h
  refine ⟨a, ?_, haddr⟩
  rw [handle_current, runsOf_handle]
  exact List.mem_append_right _ ha

/-- A datagram with the call's own sequence number runs the code, or finds it run. -/
theorem Acknowledged.ran_handle (h : s.Acknowledged) (hmem : r ∈ s.reqs)
    (hparse : r.job.ParsedAsSent after) {job : ExecJob} (hjob : job ∈ s.job?)
    (hseq : r.job.seq = job.seq) : (s.handle ExecJob.call code after r reqs).Ran job := by
  have hcmd : s.command ExecJob.call code after r = _ :=
    udpCommand_execCall code s.dev r.job.addr hparse.1 hparse.2
  have hcall := h.req job hjob r hmem hseq
  have hrjob := h.req_job r hmem
  rw [hcall, h.job hjob, Option.some.injEq] at hrjob
  by_cases hlast : s.dev.execLastSeq = job.seq
  · exact (h.last job hjob hlast).handle
  · refine ⟨job.addr.setWidth 32, ?_, ?_⟩
    · have hne : job.seq ≠ s.dev.execLastSeq := fun e => hlast e.symm
      rw [handle_current, runsOf_handle, if_pos hcall, hcmd, ← hrjob]
      simp [hne]
    · have := h.addr job hjob
      apply BitVec.eq_of_toNat_eq
      rw [BitVec.toNat_setWidth, BitVec.toNat_setWidth]
      omega

theorem Acknowledged.handle (h : s.Acknowledged) (hr : s.reqs = r :: reqs)
    (hparse : r.job.ParsedAsSent after) :
    (s.handle ExecJob.call code after r reqs).Acknowledged := by
  have hmem : r ∈ s.reqs := by
    rw [hr]
    exact List.mem_cons_self
  have hcmd : s.command ExecJob.call code after r = _ :=
    udpCommand_execCall code s.dev r.job.addr hparse.1 hparse.2
  refine { h.toOrdered.handle hr after with
    addr := ?_, req := ?_, rep := ?_, last := ?_, acked := ?_ }
  · rw [handle_job?]
    exact h.addr
  · rw [handle_job?, handle_current]
    intro job hjob q hq hseq
    refine h.req job hjob q ?_ hseq
    rw [hr]
    exact List.mem_cons_of_mem _ hq
  · rw [handle_job?]
    intro job hjob p hp hdata
    simp only [Session.handle, List.mem_append, List.mem_singleton] at hp
    rcases hp with hp | rfl
    · exact (h.rep job hjob p hp hdata).handle
    · simp only [hcmd] at hdata
      exact h.ran_handle hmem hparse hjob (execAck_injective hdata)
  · rw [handle_job?]
    intro job hjob hlast
    simp only [Session.handle, hcmd] at hlast
    split_ifs at hlast with hne
    · exact h.ran_handle hmem hparse hjob hlast
    · exact (h.last job hjob hlast).handle
  · intro job buf hphase
    rw [handle_phase] at hphase
    exact Ran.handle (h.acked job buf hphase)

end Handle

theorem Acknowledged.step (h : s.Acknowledged) (hok : s.FreshExec a)
    (hs : s.step ExecJob.call code a = some s') : s'.Acknowledged := by
  have hord := h.toOrdered.step hs
  rcases step_cases hs with ⟨job, rfl, rfl⟩ | ⟨job, left, -, hp, rfl⟩
    | ⟨job, left, r, reps, rfl, hp, hr, rfl⟩ | ⟨after, r, reqs, rfl, hr, rfl⟩
    | ⟨reqs, reps, hreqs, hreps, rfl⟩ | ⟨mem, -, rfl⟩
  · exact h.start hok
  · exact h.proceed hp (by simp)
  · have hmem : r ∈ s.reps := by
      rw [hr]
      exact List.mem_cons_self
    have htail : ∀ p ∈ reps, p ∈ s.reps := by
      intro p hp
      rw [hr]
      exact List.mem_cons_of_mem _ hp
    have hjob : s.job? = some job := by rw [job?, hp]
    have hran : s.Ran job := h.rep job hjob r hmem (hok job hjob r (by rw [hr]; rfl))
    have h' : ({ s with reps := reps } : Session ExecJob).Acknowledged :=
      { h with
        rep_job := fun p hp => h.rep_job p (htail p hp)
        rep := fun j hj p hp => h.rep j hj p (htail p hp) }
    exact h'.proceed hp fun _ => hran
  · refine h.handle hr (hok r ?_)
    rw [hr]
    rfl
  · exact
      { hord with
        addr := h.addr
        req := fun j hj r hr => h.req j hj r (hreqs.mem hr)
        rep := fun j hj r hr => h.rep j hj r (hreps.mem hr)
        last := h.last
        acked := h.acked }
  · exact { h with }

end Session

/-- In every run in which calls and replies are fresh, a call that returned 1 was run. -/
theorem exec_acked (code : BitVec 32 → Mem 32 → Mem 32) (dev : Device) (s : Session ExecJob)
    (h : Reaches (Session.step ExecJob.call code) Session.FreshExec (Session.init dev) s) :
    s.ExecAcked := by
  have hinit : (Session.init dev : Session ExecJob).Acknowledged :=
    { Session.ordered_init dev with
      addr := by simp [Session.init, Session.job?]
      req := by simp [Session.init]
      rep := by simp [Session.init]
      last := by simp [Session.init, Session.job?]
      acked := by simp [Session.init, Session.ExecAcked] }
  exact (h.invariant hinit fun _ _ _ hI hok hs => hI.step hok hs).acked

/-- Two calls, the first of them sent twice, the second after the clock has moved on. -/
theorem exec_acked_two_calls :
    ∃ s, Reaches (Session.step ExecJob.call fun _ m => m) Session.FreshExec
        (Session.init debugger) s
      ∧ s.phase = .returned { addr := 0x2000, seq := 101 } (some [])
      ∧ s.handled.length = 3 ∧ s.ExecAcked := by
  obtain ⟨s, hs, hp⟩ := exists_reaches_of_exec
    (Session.step ExecJob.call fun _ m => m) Session.FreshExec
    (s := Session.init debugger)
    (p := fun s => decide (s.phase = .returned { addr := 0x2000, seq := 101 } (some [])
      ∧ s.handled.length = 3))
    [.start { addr := 0x1000, seq := 100 }, .timeout, .deliver [], .receive, .deliver [],
      .loseRep 0, .start { addr := 0x2000, seq := 101 }, .deliver [], .receive] (by decide)
  obtain ⟨hphase, h3⟩ := of_decide_eq_true hp
  exact ⟨s, hs, hphase, h3, exec_acked _ _ s hs⟩

/-- The first call times out once, so two replies come; the second call takes the one left over and
returns 1 before the device has even seen it. -/
theorem exec_not_acked_by_stale_reply :
    ¬ ∀ s, Reaches (Session.step ExecJob.call fun _ m => m) Session.ClockExec
        (Session.init debugger) s → s.ExecAcked := by
  intro hall
  obtain ⟨s, hs, hp⟩ := exists_reaches_of_exec
    (Session.step ExecJob.call fun _ m => m) Session.ClockExec
    (s := Session.init debugger)
    (p := fun s => decide (s.phase = .returned { addr := 0x2000, seq := 101 } (some [])
      ∧ s.runsOf s.current = []))
    [.start { addr := 0x1000, seq := 100 }, .timeout, .deliver [], .receive, .deliver [],
      .start { addr := 0x2000, seq := 101 }, .receive] (by decide)
  obtain ⟨hphase, hruns⟩ := of_decide_eq_true hp
  obtain ⟨a, ha, -⟩ := hall s hs _ _ hphase
  rw [hruns] at ha
  simp at ha

end RemoteX86
