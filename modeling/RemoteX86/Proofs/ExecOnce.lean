import RemoteX86.Proofs.Session

/-!
# EXEC runs the code at most once

The device handles the datagrams of one call one after another, because the channel keeps their
order.  After the first of them `exec_last_seq` is the call's sequence number, whether the code was
run or not, and no other call's datagram comes between to change it.
-/

namespace RemoteX86

open Hex Memory Transition

/-- A datagram with no digit behind it is parsed as it was sent. -/
theorem ExecJob.parsedAsSent (j : ExecJob) {after : List Byte}
    (h : NumberEnds j.seq.toNat after) : j.ParsedAsSent after := by
  have hops := operands_execCall j.addr h
  unfold ExecJob.ParsedAsSent ExecJob.call
  rw [hops]
  exact ⟨rfl, rfl⟩

namespace Session

variable {code : BitVec 32 → Mem 32 → Mem 32} {s s' : Session ExecJob} {a : Action ExecJob}

/-- The last datagram handled left its sequence number behind, and no call ran its code twice. -/
structure RanOnce (s : Session ExecJob) : Prop extends s.Ordered where
  lastSeq : ∀ e ∈ s.handled.head?, s.dev.execLastSeq = e.job.seq
  once : ∀ i, (s.runsOf i).length ≤ 1

theorem RanOnce.handle (h : s.RanOnce) {r : Request ExecJob} {reqs : List (Request ExecJob)}
    (hr : s.reqs = r :: reqs) {after : List Byte} (hparse : r.job.ParsedAsSent after) :
    (s.handle ExecJob.call code after r reqs).RanOnce := by
  have hmem : r ∈ s.reqs := by
    rw [hr]
    exact List.mem_cons_self
  have hcmd : s.command ExecJob.call code after r = _ :=
    udpCommand_execCall code s.dev r.job.addr hparse.1 hparse.2
  refine { h.toOrdered.handle hr after with lastSeq := ?_, once := ?_ }
  · intro e he
    simp only [Session.handle, List.head?_cons, Option.mem_def, Option.some.injEq] at he
    rw [← he]
    simp only [Session.handle, hcmd]
    split_ifs with hseq
    · rfl
    · exact (not_not.1 hseq).symm
  · intro i
    rw [runsOf_handle]
    split_ifs with hi
    · by_cases hseen : ∃ e ∈ s.handled, e.call = i
      · -- the call was handled before, so its sequence number is the last one seen
        obtain ⟨e, he, hecall⟩ := hseen
        obtain ⟨e', he', hjob⟩ := h.toOrdered.head_job (h.req_job r hmem)
          (fun e he => h.handled_le e he r hmem) he (hecall.trans hi.symm)
        have hlast := h.lastSeq e' he'
        rw [hjob] at hlast
        rw [hcmd]
        simp only [hlast, ne_eq, not_true_eq_false, if_false, List.nil_append]
        exact h.once i
      · have hnil : s.runsOf i = [] := by
          rw [runsOf, List.flatMap_eq_nil_iff]
          intro e he
          rw [if_neg fun hc => hseen ⟨e, he, hc⟩]
        rw [hnil, List.append_nil, hcmd]
        simp only []
        split_ifs <;> simp
    · exact h.once i

theorem RanOnce.step (h : s.RanOnce) (hok : s.ParsesExec a)
    (hs : s.step ExecJob.call code a = some s') : s'.RanOnce := by
  have hord := h.toOrdered.step hs
  rcases step_frame hs with ⟨after, r, reqs, rfl, hr, rfl⟩ | ⟨hhandled, mem, hdev⟩
  · refine h.handle hr (hok r ?_)
    rw [hr]
    rfl
  · refine { hord with lastSeq := ?_, once := ?_ }
    · rw [hhandled, hdev]
      exact h.lastSeq
    · intro i
      rw [runsOf, hhandled]
      exact h.once i

end Session

/-- In every run of a client that makes EXEC calls with any sequence numbers, the datagrams of one
call make the device run the code at most once. -/
theorem exec_at_most_once (code : BitVec 32 → Mem 32 → Mem 32) (dev : Device)
    (s : Session ExecJob)
    (h : Reaches (Session.step ExecJob.call code) Session.ParsesExec (Session.init dev) s) (i : ℕ) :
    (s.runsOf i).length ≤ 1 := by
  have hinit : (Session.init dev : Session ExecJob).RanOnce :=
    { Session.ordered_init dev with
      lastSeq := by simp [Session.init]
      once := by simp [Session.init, Session.runsOf] }
  exact (h.invariant hinit fun _ _ _ hI hok hs => hI.step hok hs).once i

/-- A call that times out once, with a doubled request: three datagrams arrive and one runs the
code. -/
theorem exec_at_most_once_retransmitted :
    ∃ s, Reaches (Session.step ExecJob.call fun _ m => m) Session.ParsesExec
        (Session.init debugger) s
      ∧ s.handled.length = 3 ∧ s.runsOf 0 = [0x1000#32] ∧ (s.runsOf 0).length ≤ 1 := by
  obtain ⟨s, hs, hp⟩ := exists_reaches_of_exec
    (Session.step ExecJob.call fun _ m => m) Session.ParsesExec
    (s := Session.init debugger)
    (p := fun s => decide (s.handled.length = 3 ∧ s.runsOf 0 = [0x1000#32]))
    [.start { addr := 0x1000, seq := 100 }, .timeout, .dupReq 0, .deliver [], .deliver [],
      .deliver [], .receive] (by decide)
  obtain ⟨h3, hruns⟩ := of_decide_eq_true hp
  exact ⟨s, hs, h3, hruns, exec_at_most_once _ _ s hs 0⟩

end RemoteX86
