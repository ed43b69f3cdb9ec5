import RemoteX86.Proofs.Session

/-!
# No write is lost, and none comes back

Sequence numbers only grow, so a reply that echoes the current one was made for a datagram of the
current call.  The device sees calls in order, so from then on every datagram it handles belongs to
the current call and writes the same data to the same place.
-/

namespace RemoteX86

open Hex Memory Transition

namespace Session

variable {code : BitVec 32 → Mem 32 → Mem 32} {s s' : Session WriteJob} {a : Action WriteJob}
  {seq : BitVec 32} {time : ℕ → BitVec 32}

/-- The calls' sequence numbers grow. -/
def Growing (jobs : List WriteJob) : Prop := jobs.Pairwise fun j j' => j.seq.toNat < j'.seq.toNat

theorem Growing.index_eq {jobs : List WriteJob} (h : Growing jobs) {i k : ℕ} {j j' : WriteJob}
    (hi : jobs[i]? = some j) (hk : jobs[k]? = some j') (hseq : j.seq = j'.seq) : i = k := by
  obtain ⟨hi', rfl⟩ := List.getElem?_eq_some_iff.1 hi
  obtain ⟨hk', rfl⟩ := List.getElem?_eq_some_iff.1 hk
  have hseq := congrArg BitVec.toNat hseq
  rw [Growing, List.pairwise_iff_getElem] at h
  rcases Nat.lt_trichotomy i k with hlt | heq | hgt
  · have := h i k hi' hk' hlt
    omega
  · exact heq
  · have := h k i hk' hi' hgt
    omega

/-- The number after the last one is above all of them. -/
theorem Growing.append {jobs : List WriteJob} (h : Growing jobs) {job : WriteJob}
    (hlast : ∀ prev, jobs[jobs.length - 1]? = some prev → prev.seq.toNat < job.seq.toNat) :
    Growing (jobs ++ [job]) := by
  rw [Growing, List.pairwise_append]
  refine ⟨h, List.pairwise_singleton _ _, fun j hj j' hj' => ?_⟩
  rw [List.mem_singleton] at hj'
  subst hj'
  obtain ⟨i, hi, rfl⟩ := List.mem_iff_getElem.1 hj
  have hbelow := hlast jobs[jobs.length - 1] (List.getElem?_eq_getElem (by omega))
  rcases Nat.lt_or_ge i (jobs.length - 1) with hlt | hge
  · have := (List.pairwise_iff_getElem.1 h) i (jobs.length - 1) hi (by omega) hlt
    omega
  · have hi' : i = jobs.length - 1 := by omega
    subst hi'
    exact hbelow

theorem nextSeq_toNat {prev t : BitVec 32} (hprev : prev ≠ 0) (hnext : nextSeq prev t ≠ 0) :
    (nextSeq prev t).toNat = prev.toNat + 1 := by
  rw [nextSeq, if_neg hprev] at hnext ⊢
  have hlt := prev.isLt
  have hne : (prev + 1).toNat ≠ 0 := fun h => hnext (BitVec.eq_of_toNat_eq h)
  rw [BitVec.toNat_add] at hne ⊢
  have h1 : (1 : BitVec 32).toNat = 1 := rfl
  omega

/-- The device's reply to a WRITE. -/
def writeAck (a seq : BitVec 32) : List Byte :=
  ascii "OK " ++ hexToStr a 8 ++ [0x20#8] ++ hexToStr seq 8

/-- The last datagram handled is what memory holds, and whatever was answered was handled. -/
structure Applied (s : Session WriteJob) : Prop extends s.Ordered where
  ready : s.job? = none → s.jobs = []
  nonzero : ∀ j ∈ s.jobs, j.seq ≠ 0
  growing : Growing s.jobs
  region : ∀ j ∈ s.jobs, j.addr.toNat + j.buf.length ≤ 2 ^ 32
  answered : ∀ r ∈ s.reps, r.data = writeAck (r.job.addr.setWidth 32) r.job.seq
    ∧ ∃ e ∈ s.handled, e.call = r.call
  mem : ∀ e ∈ s.handled.head?,
    read s.dev.mem (e.job.addr.setWidth 32) e.job.buf.length = e.job.buf
  done : ∀ job buf, s.phase = .returned job (some buf) → ∃ e ∈ s.handled, e.call = s.current

theorem Applied.start (h : s.Applied) {job : WriteJob} (hok : s.WriteSteps seq time (.start job)) :
    (s.start job).Applied := by
  obtain ⟨hregion, hzero, hseq⟩ := hok
  have hmem : ∀ j ∈ (s.start job).jobs, j ∈ s.jobs ∨ j = job := by
    intro j hj
    simpa [Session.start] using hj
  refine { h.toOrdered.start job with
    ready := ?_, nonzero := ?_, growing := ?_, region := ?_, answered := h.answered, mem := h.mem
    done := ?_ }
  · simp [Session.start, job?]
  · intro j hj
    rcases hmem j hj with hj | rfl
    · exact h.nonzero j hj
    · exact hzero
  · refine h.growing.append fun prev hprev => ?_
    rcases hj : s.job? with - | j
    · rw [h.ready hj] at hprev
      simp at hprev
    · have hlast := h.job hj
      rw [current, hprev, Option.some.injEq] at hlast
      subst hlast
      have hne : prev.seq ≠ 0 := h.nonzero prev (List.mem_of_getElem? hprev)
      rw [hj] at hseq
      simp only [Option.map_some, Option.getD_some] at hseq
      rw [hseq] at hzero ⊢
      rw [nextSeq_toNat hne hzero]
      omega
  · intro j hj
    rcases hmem j hj with hj | rfl
    · exact h.region j hj
    · exact hregion
  · intro j buf hp
    simp [Session.start] at hp

theorem Applied.proceed (h : s.Applied) {job : WriteJob} {left : ℕ}
    (hp : s.phase = .waiting job left) {arrived : Option (List Byte)}
    (hdone : ∀ data ∈ arrived, ∀ buf, job.call.reply data = .done buf →
      ∃ e ∈ s.handled, e.call = s.current) :
    (s.proceed WriteJob.call job left arrived).Applied := by
  have hord := h.toOrdered.proceed WriteJob.call hp arrived
  rcases s.proceed_cases WriteJob.call job left arrived with ⟨result, hres, he⟩ | he
  · rw [he] at hord ⊢
    refine { hord with
      ready := by simp [job?], nonzero := h.nonzero, growing := h.growing, region := h.region
      answered := h.answered, mem := h.mem, done := ?_ }
    intro j buf hj
    simp only [Phase.returned.injEq] at hj
    obtain ⟨rfl, rfl⟩ := hj
    rcases arrived with - | data
    · cases left <;> simp [afterWait] at hres
    · refine hdone data rfl buf ?_
      simp only [afterWait, Option.map_some, Option.getD_some] at hres
      split at hres <;> simp_all
  · rw [he] at hord ⊢
    exact { hord with
      ready := by simp [job?], nonzero := h.nonzero, growing := h.growing, region := h.region
      answered := h.answered, mem := h.mem, done := by simp }

theorem Applied.handle (h : s.Applied) {r : Request WriteJob} {reqs : List (Request WriteJob)}
    (hr : s.reqs = r :: reqs) (after : List Byte) :
    (s.handle WriteJob.call code after r reqs).Applied := by
  have hmem : r ∈ s.reqs := by
    rw [hr]
    exact List.mem_cons_self
  have hcmd : s.command WriteJob.call code after r = _ :=
    udpCommand_writeCall code s.dev r.job.addr r.job.seq after r.job.len_le
  have hregion := h.region r.job (List.mem_of_getElem? (h.req_job r hmem))
  refine { h.toOrdered.handle hr after with
    ready := ?_, nonzero := ?_, growing := ?_, region := ?_, answered := ?_, mem := ?_
    done := ?_ }
  · rw [handle_job?, handle_jobs]
    exact h.ready
  · rw [handle_jobs]
    exact h.nonzero
  · rw [handle_jobs]
    exact h.growing
  · rw [handle_jobs]
    exact h.region
  · intro p hp
    simp only [Session.handle, List.mem_append, List.mem_singleton] at hp
    rcases hp with hp | rfl
    · obtain ⟨hdata, e, he, hcall⟩ := h.answered p hp
      exact ⟨hdata, e, mem_handle_handled he, hcall⟩
    · exact ⟨by simp only [hcmd, writeAck], _, List.mem_cons_self, rfl⟩
  · intro e he
    simp only [Session.handle, List.head?_cons, Option.mem_def, Option.some.injEq] at he
    rw [← he]
    have hback := read_write s.dev.mem (r.job.addr.setWidth 32)
      (by omega : r.job.buf.length ≤ 2 ^ 32)
    simp only [Session.handle, hcmd]
    exact hback
  · rw [handle_phase, handle_current]
    intro j buf hp
    obtain ⟨e, he, hcall⟩ := h.done j buf hp
    exact ⟨e, mem_handle_handled he, hcall⟩

/-- A reply that makes the call return 1 is one to the call's own datagrams. -/
theorem Applied.accepted (h : s.Applied) {job : WriteJob} (hjob : s.job? = some job)
    {r : Reply WriteJob} (hr : r ∈ s.reps) {buf : List Byte}
    (hbuf : job.call.reply r.data = .done buf) : ∃ e ∈ s.handled, e.call = s.current := by
  obtain ⟨hdata, e, he, hcall⟩ := h.answered r hr
  rw [hdata, WriteJob.call, writeAck, writeCall_reply] at hbuf
  split_ifs at hbuf with hacc
  exact ⟨e, he, hcall.trans (h.growing.index_eq (h.rep_job r hr) (h.job hjob) hacc.2)⟩

theorem Applied.step (h : s.Applied) (hok : s.WriteSteps seq time a)
    (hs : s.step WriteJob.call code a = some s') : s'.Applied := by
  have hord := h.toOrdered.step hs
  rcases step_cases hs with ⟨job, rfl, rfl⟩ | ⟨job, left, -, hp, rfl⟩
    | ⟨job, left, r, reps, rfl, hp, hr, rfl⟩ | ⟨after, r, reqs, rfl, hr, rfl⟩
    | ⟨reqs, reps, hreqs, hreps, rfl⟩ | ⟨mem, rfl, rfl⟩
  · exact h.start hok
  · exact h.proceed hp (by simp)
  · have hmem : ∀ p ∈ r :: reps, p ∈ s.reps := by
      intro p hp
      rwa [hr]
    have hjob : s.job? = some job := by rw [job?, hp]
    have h' : ({ s with reps := reps } : Session WriteJob).Applied :=
      { h with
        rep_job := fun p hp => h.rep_job p (hmem p (List.mem_cons_of_mem _ hp))
        answered := fun p hp => h.answered p (hmem p (List.mem_cons_of_mem _ hp)) }
    refine h'.proceed hp fun data hdata buf hbuf => ?_
    rw [← Option.some.inj hdata] at hbuf
    exact h.accepted hjob (hmem r List.mem_cons_self) hbuf
  · exact h.handle hr after
  · exact { hord with
      ready := h.ready, nonzero := h.nonzero, growing := h.growing, region := h.region
      answered := fun p hp => h.answered p (hreps.mem hp), mem := h.mem, done := h.done }
  · exact hok.elim

theorem Applied.writeApplied (h : s.Applied) : s.WriteApplied := by
  intro job buf hp
  obtain ⟨e, he, hcall⟩ := h.done job buf hp
  have hjob : s.job? = some job := by rw [job?, hp]
  obtain ⟨e', he', rfl⟩ := h.toOrdered.head_job (h.job hjob)
    (fun e he => lt_of_job (h.handled_job e he)) he hcall
  exact ⟨⟨e, he, hcall⟩, h.mem e' he'⟩

end Session

/-- In every run of a session of write calls: once a call has returned 1 its data has been applied,
and it is in memory until the next call starts. -/
theorem write_applied (code : BitVec 32 → Mem 32 → Mem 32) (dev : Device) (seq : BitVec 32)
    (time : ℕ → BitVec 32) (s : Session WriteJob)
    (h : Reaches (Session.step WriteJob.call code) (Session.WriteSteps seq time)
      (Session.init dev) s) : s.WriteApplied := by
  have hinit : (Session.init dev : Session WriteJob).Applied :=
    { Session.ordered_init dev with
      ready := fun _ => rfl
      nonzero := by simp [Session.init]
      growing := List.Pairwise.nil
      region := by simp [Session.init]
      answered := by simp [Session.init]
      mem := by simp [Session.init]
      done := by simp [Session.init] }
  exact (h.invariant hinit fun _ _ _ hI hok hs => hI.step hok hs).writeApplied

/-- Two calls to overlapping regions, the first of them sent twice and answered late. -/
theorem write_applied_overlapping :
    ∃ s, Reaches (Session.step WriteJob.call fun _ m => m)
        (Session.WriteSteps 0 fun _ => 100) (Session.init debugger) s
      ∧ s.phase = .returned { addr := 0x1001, seq := 101, buf := [3, 4], len_le := by decide }
          (some [])
      ∧ s.handled.length = 3 ∧ s.WriteApplied := by
  obtain ⟨s, hs, hp⟩ := exists_reaches_of_exec
    (Session.step WriteJob.call fun _ m => m) (Session.WriteSteps 0 fun _ => 100)
    (s := Session.init debugger)
    (p := fun s => decide (s.phase = .returned
        { addr := 0x1001, seq := 101, buf := [3, 4], len_le := by decide } (some [])
      ∧ s.handled.length = 3))
    [.start { addr := 0x1000, seq := 100, buf := [1, 2], len_le := by decide }, .timeout,
      .deliver [], .receive,
      .start { addr := 0x1001, seq := 101, buf := [3, 4], len_le := by decide }, .deliver [],
      .loseRep 0, .deliver [], .receive] (by decide)
  obtain ⟨hphase, h3⟩ := of_decide_eq_true hp
  exact ⟨s, hs, hphase, h3, write_applied _ _ _ _ s hs⟩

end RemoteX86
