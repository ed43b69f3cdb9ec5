import RemoteX86.Session
import RemoteX86.Proofs.Replies

/-!
# Steps of a session

`Session.returns_retryLoop` ties the session's client to the library's loop: given the same waits, the
one returns what the other does.  `Session.step_cases` says once what a step can do, and the
invariants of the modules that follow are derived from it.
-/

namespace RemoteX86

open Hex Memory Transition

/-- The datagram a wait brought. -/
def Wait.data? : Wait → Option (List Byte)
  | .datagram data _ => some data
  | _ => none

/-- The connection after a wait. -/
def Wait.conn (c : RemoteEthConnection) : Wait → RemoteEthConnection
  | .datagram _ sender => { c with ipAddr := sender }
  | _ => c

/-- What a wait is in a session. -/
def Wait.action {ι : Type*} : Wait → Action ι
  | .datagram _ _ => .receive
  | _ => .timeout

/-- A round of the library's loop is a send, a wait, and what `afterWait` makes of it. -/
theorem retryLoop_succ {σ : Type*} {net : Net σ} {call : Call} {left : ℕ} {c : RemoteEthConnection}
    {s s' : σ} {w : Wait}
    (hsent : ¬ (BitVec.ofInt 64 (net.sendto s c.ipAddr call.request).2).toNat < call.request.length)
    (hwait : net.wait (net.sendto s c.ipAddr call.request).1 = (s', w)) (hw : w ≠ .error) :
    retryLoop net call (left + 1) c s =
      match afterWait call left w.data? with
      | some result => (result, w.conn c, s')
      | none => retryLoop net call left (w.conn c) s' := by
  rw [retryLoop]
  simp only []
  rw [if_neg hsent, hwait]
  cases w with
  | error => exact absurd rfl hw
  | timeout =>
    cases left with
    | zero => rfl
    | succ left => rfl
  | datagram data sender =>
    simp only [Wait.data?, Wait.conn, afterWait, Option.map_some, Option.getD_some]
    rcases call.reply data with - | buf | -
    · rfl
    · rfl
    · cases left with
      | zero => rfl
      | succ left => rfl

namespace Session

variable {ι : Type*} {toCall : ι → Call} {code : BitVec 32 → Mem 32 → Mem 32}
  {s s' : Session ι} {a : Action ι}

/-- Everything a step can do. -/
theorem step_cases (h : s.step toCall code a = some s') :
    (∃ job, a = .start job ∧ s' = s.start job)
      ∨ (∃ job left, a = .timeout ∧ s.phase = .waiting job left
          ∧ s' = s.proceed toCall job left none)
      ∨ (∃ job left r reps, a = .receive ∧ s.phase = .waiting job left ∧ s.reps = r :: reps
          ∧ s' = { s with reps := reps }.proceed toCall job left (some r.data))
      ∨ (∃ after r reqs, a = .deliver after ∧ s.reqs = r :: reqs
          ∧ s' = s.handle toCall code after r reqs)
      ∨ (∃ reqs reps, Worn s.reqs reqs ∧ Worn s.reps reps
          ∧ s' = { s with reqs := reqs, reps := reps })
      ∨ (∃ mem, a = .poke mem
          ∧ s' = { s with dev := { s.dev with mem := mem }, moments := s.note mem }) := by
  cases a with
  | start job =>
    left
    refine ⟨job, rfl, ?_⟩
    simp only [step] at h
    split at h <;> simp only [reduceCtorEq, Option.some.injEq] at h
    exact h.symm
  | timeout =>
    right; left
    simp only [step] at h
    split at h <;> simp only [reduceCtorEq, Option.some.injEq] at h
    exact ⟨_, _, rfl, ‹_›, h.symm⟩
  | receive =>
    right; right; left
    simp only [step] at h
    split at h <;> simp only [reduceCtorEq, Option.some.injEq] at h
    exact ⟨_, _, _, _, rfl, ‹_›, ‹_›, h.symm⟩
  | deliver after =>
    right; right; right; left
    simp only [step] at h
    split at h <;> simp only [reduceCtorEq, Option.some.injEq] at h
    exact ⟨_, _, _, rfl, ‹_›, h.symm⟩
  | loseReq k =>
    right; right; right; right; left
    simp only [step, Option.some.injEq] at h
    exact ⟨_, _, .lose k, .refl, h.symm⟩
  | loseRep k =>
    right; right; right; right; left
    simp only [step, Option.some.injEq] at h
    exact ⟨_, _, .refl, .lose k, h.symm⟩
  | dupReq k =>
    right; right; right; right; left
    simp only [step, Option.some.injEq] at h
    exact ⟨_, _, .dup k, .refl, h.symm⟩
  | dupRep k =>
    right; right; right; right; left
    simp only [step, Option.some.injEq] at h
    exact ⟨_, _, .refl, .dup k, h.symm⟩
  | poke mem =>
    right; right; right; right; right
    simp only [step, Option.some.injEq] at h
    exact ⟨mem, rfl, h.symm⟩

/-- The client's next round, or its return. -/
theorem proceed_cases (toCall : ι → Call) (s : Session ι) (job : ι) (left : ℕ)
    (arrived : Option (List Byte)) :
    (∃ result, afterWait (toCall job) left arrived = some result
        ∧ s.proceed toCall job left arrived = { s with phase := .returned job result })
      ∨ s.proceed toCall job left arrived
        = { s with
            phase := .waiting job (left - 1)
            reqs := s.reqs ++ [{ call := s.current, job := job }] } := by
  unfold proceed
  rcases h : afterWait (toCall job) left arrived with - | result
  · exact .inr rfl
  · exact .inl ⟨result, rfl, rfl⟩

/-! ## The client is the library's loop -/

section Returns

variable {job : ι} {left : ℕ}

/-- The last round is followed by no other. -/
theorem afterWait_zero (call : Call) (arrived : Option (List Byte)) :
    afterWait call 0 arrived ≠ none := by
  unfold afterWait
  rcases (arrived.map call.reply).getD .again with - | buf | - <;> nofun

/-- A wait in a session: the client returns or waits again, as `afterWait` says. -/
theorem step_wait (code : BitVec 32 → Mem 32 → Mem 32) {w : Wait} (hw : w ≠ .error)
    {arriving : List (List Byte)} (hphase : s.phase = .waiting job left)
    (hreps : s.reps.map Reply.data = w.data?.toList ++ arriving) :
    ∃ s', s.step toCall code w.action = some s' ∧ s'.reps.map Reply.data = arriving
      ∧ s'.phase = match afterWait (toCall job) left w.data? with
        | some result => .returned job result
        | none => .waiting job (left - 1) := by
  have hproceed : ∀ (s : Session ι) (arrived : Option (List Byte)),
      (s.proceed toCall job left arrived).reps = s.reps
        ∧ (s.proceed toCall job left arrived).phase
          = match afterWait (toCall job) left arrived with
            | some result => .returned job result
            | none => .waiting job (left - 1) := by
    intro s arrived
    unfold proceed
    rcases afterWait (toCall job) left arrived with - | result
    · exact ⟨rfl, rfl⟩
    · exact ⟨rfl, rfl⟩
  cases w with
  | error => exact absurd rfl hw
  | timeout =>
    obtain ⟨hsame, hnext⟩ := hproceed s none
    refine ⟨s.proceed toCall job left none, ?_, ?_, hnext⟩
    · simp only [Wait.action, step, hphase]
    · rw [hsame]
      exact hreps
  | datagram data sender =>
    obtain ⟨r, reps, hcons, rfl, hrest⟩ := List.map_eq_cons_iff.1 hreps
    obtain ⟨hsame, hnext⟩ := hproceed { s with reps := reps } (some r.data)
    refine ⟨{ s with reps := reps }.proceed toCall job left (some r.data), ?_, ?_, hnext⟩
    · rw [Wait.action, step, hphase, hcons]
    · rw [hsame]
      exact hrest

/-- A session's client that meets the waits of a script returns what the library's loop returns over
them. -/
theorem returns_retryLoop (code : BitVec 32 → Mem 32 → Mem 32)
    (hlen : (toCall job).request.length < 2 ^ 64) :
    ∀ (ws : List Wait) {left : ℕ} {c : RemoteEthConnection} {s : Session ι},
      (∀ w ∈ ws, w ≠ .error) → left < ws.length → s.phase = .waiting job left →
      s.reps.map Reply.data = ws.filterMap Wait.data? →
        ∃ k s', exec (step toCall code) (fun _ _ => True) s ((ws.take k).map Wait.action) = some s'
          ∧ s'.phase = .returned job (retryLoop scriptNet (toCall job) (left + 1) c ws).1
  | [], left, _, _, _, hleft, _, _ => absurd hleft (Nat.not_lt_zero left)
  | w :: ws, left, c, s, hok, hleft, hphase, hreps => by
    have hw := hok w List.mem_cons_self
    have hround : retryLoop scriptNet (toCall job) (left + 1) c (w :: ws) = _ :=
      retryLoop_succ (not_sent_short _ hlen) rfl hw
    have harriving : s.reps.map Reply.data = w.data?.toList ++ ws.filterMap Wait.data? := by
      rw [hreps, List.filterMap_cons]
      cases w.data? <;> rfl
    obtain ⟨s', hstep, hreps', hphase'⟩ := step_wait code hw hphase harriving
    rw [hround]
    rcases hafter : afterWait (toCall job) left w.data? with - | result
    · rw [hafter] at hphase'
      -- only with rounds to go does the client wait again
      obtain ⟨left, rfl⟩ : ∃ l, left = l + 1 := by
        cases left with
        | zero => exact absurd hafter (afterWait_zero _ _)
        | succ l => exact ⟨l, rfl⟩
      obtain ⟨k, t, hexec, ht⟩ := returns_retryLoop code hlen ws (c := w.conn c)
        (fun w' hw' => hok w' (List.mem_cons_of_mem w hw')) (Nat.lt_of_succ_lt_succ hleft) hphase'
        hreps'
      refine ⟨k + 1, t, ?_, ht⟩
      rw [List.take_succ_cons, List.map_cons, exec, if_pos trivial, hstep]
      exact hexec
    · rw [hafter] at hphase'
      refine ⟨1, s', ?_, hphase'⟩
      rw [List.take_succ_cons, List.map_cons, exec, if_pos trivial, hstep]
      rfl

end Returns

section Handle

variable (after : List Byte) (r : Request ι) (reqs : List (Request ι))

theorem handle_jobs : (s.handle toCall code after r reqs).jobs = s.jobs := rfl

theorem handle_phase : (s.handle toCall code after r reqs).phase = s.phase := rfl

theorem handle_current : (s.handle toCall code after r reqs).current = s.current := rfl

theorem handle_job? : (s.handle toCall code after r reqs).job? = s.job? := by
  unfold job?
  rw [handle_phase]

theorem runsOf_handle (i : ℕ) : (s.handle toCall code after r reqs).runsOf i
    = (if r.call = i then (s.command toCall code after r).calls else []) ++ s.runsOf i := by
  simp only [runsOf, handle, List.flatMap_cons]

end Handle

theorem mem_handle_handled {after : List Byte} {r : Request ι} {reqs : List (Request ι)}
    {e : Handled ι} (h : e ∈ s.handled) : e ∈ (s.handle toCall code after r reqs).handled :=
  List.mem_cons_of_mem _ h

/-- What is handled and what the device remembers changes only when a request is delivered; only its
memory may also change on its own. -/
theorem step_frame (h : s.step toCall code a = some s') :
    (∃ after r reqs, a = .deliver after ∧ s.reqs = r :: reqs
        ∧ s' = s.handle toCall code after r reqs)
      ∨ s'.handled = s.handled ∧ ∃ mem, s'.dev = { s.dev with mem := mem } := by
  have hproceed : ∀ (s : Session ι) (job : ι) (left : ℕ) (arrived : Option (List Byte)),
      (s.proceed toCall job left arrived).handled = s.handled
        ∧ (s.proceed toCall job left arrived).dev = s.dev := by
    intro s job left arrived
    rcases s.proceed_cases toCall job left arrived with ⟨result, -, he⟩ | he
    · rw [he]
      exact ⟨rfl, rfl⟩
    · rw [he]
      exact ⟨rfl, rfl⟩
  rcases step_cases h with ⟨job, -, rfl⟩ | ⟨job, left, -, hp, rfl⟩
    | ⟨job, left, r, reps, -, hp, hr, rfl⟩ | ⟨after, r, reqs, ha, hr, rfl⟩
    | ⟨reqs, reps, hreqs, hreps, rfl⟩ | ⟨mem, -, rfl⟩
  · exact .inr ⟨rfl, _, rfl⟩
  · obtain ⟨h1, h2⟩ := hproceed s job left none
    exact .inr ⟨h1, _, h2⟩
  · obtain ⟨h1, h2⟩ := hproceed { s with reps := reps } job left (some r.data)
    exact .inr ⟨h1, _, h2⟩
  · exact .inl ⟨after, r, reqs, ha, hr, rfl⟩
  · exact .inr ⟨rfl, _, rfl⟩
  · exact .inr ⟨rfl, mem, rfl⟩

/-! ## Order -/

/-- Numbers and jobs belong together, and both channels and the device see calls in the order they
were made. -/
structure Ordered (s : Session ι) : Prop where
  job : ∀ {job}, s.job? = some job → s.jobs[s.current]? = some job
  req_job : ∀ r ∈ s.reqs, s.jobs[r.call]? = some r.job
  rep_job : ∀ r ∈ s.reps, s.jobs[r.call]? = some r.job
  handled_job : ∀ e ∈ s.handled, s.jobs[e.call]? = some e.job
  sorted : s.reqs.Pairwise fun r r' => r.call ≤ r'.call
  handled_le : ∀ e ∈ s.handled, ∀ r ∈ s.reqs, e.call ≤ r.call
  handled_sorted : s.handled.Pairwise fun e e' => e'.call ≤ e.call

theorem ordered_init (dev : Device) : (init dev : Session ι).Ordered where
  job := by simp [init, job?]
  req_job := by simp [init]
  rep_job := by simp [init]
  handled_job := by simp [init]
  sorted := by simp [init]
  handled_le := by simp [init]
  handled_sorted := by simp [init]

theorem lt_of_job {jobs : List ι} {i : ℕ} {job : ι} (h : jobs[i]? = some job) :
    i ≤ jobs.length - 1 := by
  have := (List.getElem?_eq_some_iff.1 h).1
  omega

/-- Where no call above `i` has been handled, the newest entry belongs to call `i` once any does. -/
theorem Ordered.head_job (h : s.Ordered) {i : ℕ} {job : ι} (hjob : s.jobs[i]? = some job)
    (hle : ∀ e ∈ s.handled, e.call ≤ i) {e : Handled ι} (he : e ∈ s.handled) (hcall : e.call = i) :
    ∃ e' ∈ s.handled.head?, e'.job = job := by
  rcases hlist : s.handled with - | ⟨e', tail⟩
  · rw [hlist] at he
    simp at he
  · have hsorted := h.handled_sorted
    rw [hlist, List.pairwise_cons] at hsorted
    have hge : e.call ≤ e'.call := by
      rw [hlist, List.mem_cons] at he
      rcases he with rfl | he
      · exact le_rfl
      · exact hsorted.1 e he
    have hmem : e' ∈ s.handled := by
      rw [hlist]
      exact List.mem_cons_self
    have hjob' := h.handled_job e' hmem
    rw [Nat.le_antisymm (hle e' hmem) (hcall ▸ hge), hjob, Option.some.injEq] at hjob'
    exact ⟨e', rfl, hjob'.symm⟩

/-- A datagram sent now goes behind all others. -/
theorem sorted_append {reqs : List (Request ι)} {r : Request ι}
    (h : reqs.Pairwise fun r r' => r.call ≤ r'.call) (hle : ∀ q ∈ reqs, q.call ≤ r.call) :
    (reqs ++ [r]).Pairwise fun r r' => r.call ≤ r'.call := by
  rw [List.pairwise_append]
  refine ⟨h, List.pairwise_singleton _ _, fun q hq q' hq' => ?_⟩
  rw [List.mem_singleton] at hq'
  rw [hq']
  exact hle q hq

theorem Ordered.start (h : s.Ordered) (job : ι) : (s.start job).Ordered := by
  have hget : ∀ {i : ℕ} {j : ι}, s.jobs[i]? = some j → (s.jobs ++ [job])[i]? = some j := by
    intro i j hj
    rw [List.getElem?_append_left (List.getElem?_eq_some_iff.1 hj).1, hj]
  have hlast : (s.jobs ++ [job])[s.jobs.length]? = some job := by simp
  have hlt : ∀ {i : ℕ} {j : ι}, s.jobs[i]? = some j → i ≤ s.jobs.length := by
    intro i j hj
    exact Nat.le_of_lt (List.getElem?_eq_some_iff.1 hj).1
  exact
    { job := by
        intro j hj
        simp only [Session.start, job?, Option.some.injEq] at hj
        simp only [Session.start, current, List.length_append, List.length_singleton,
          Nat.add_sub_cancel]
        rw [hlast, hj]
      req_job := by
        intro r hr
        simp only [Session.start, List.mem_append, List.mem_singleton] at hr ⊢
        rcases hr with hr | rfl
        · exact hget (h.req_job r hr)
        · exact hlast
      rep_job := fun r hr => hget (h.rep_job r hr)
      handled_job := fun e he => hget (h.handled_job e he)
      sorted := sorted_append h.sorted fun q hq => hlt (h.req_job q hq)
      handled_le := by
        intro e he r hr
        simp only [Session.start, List.mem_append, List.mem_singleton] at he hr
        rcases hr with hr | rfl
        · exact h.handled_le e he r hr
        · exact hlt (h.handled_job e he)
      handled_sorted := h.handled_sorted }

theorem Ordered.proceed (toCall : ι → Call) (h : s.Ordered) {job : ι} {left : ℕ}
    (hp : s.phase = .waiting job left) (arrived : Option (List Byte)) :
    (s.proceed toCall job left arrived).Ordered := by
  have hjob : s.jobs[s.current]? = some job := h.job (by rw [job?, hp])
  rcases s.proceed_cases toCall job left arrived with ⟨result, -, hs⟩ | hs
  · rw [hs]
    refine { h with job := ?_ }
    intro j hj
    simp only [job?, Option.some.injEq] at hj
    rw [← hj]
    exact hjob
  · rw [hs]
    refine { h with job := ?_, req_job := ?_, sorted := ?_, handled_le := ?_ }
    · intro j hj
      simp only [job?, Option.some.injEq] at hj
      rw [← hj]
      exact hjob
    · intro r hr
      simp only [List.mem_append, List.mem_singleton] at hr
      rcases hr with hr | rfl
      · exact h.req_job r hr
      · exact hjob
    · exact sorted_append h.sorted fun q hq => lt_of_job (h.req_job q hq)
    · intro e he r hr
      simp only [List.mem_append, List.mem_singleton] at hr
      rcases hr with hr | rfl
      · exact h.handled_le e he r hr
      · exact lt_of_job (h.handled_job e he)

theorem Ordered.handle (h : s.Ordered) {r : Request ι} {reqs : List (Request ι)}
    (hr : s.reqs = r :: reqs) (after : List Byte) :
    (s.handle toCall code after r reqs).Ordered := by
  have hmem : ∀ q ∈ reqs, q ∈ s.reqs := by
    intro q hq
    rw [hr]
    exact List.mem_cons_of_mem _ hq
  have hhead : r ∈ s.reqs := by
    rw [hr]
    exact List.mem_cons_self
  have hsorted := h.sorted
  rw [hr, List.pairwise_cons] at hsorted
  exact
    { job := h.job
      req_job := fun q hq => h.req_job q (hmem q hq)
      rep_job := by
        intro p hp
        simp only [Session.handle, List.mem_append, List.mem_singleton] at hp
        rcases hp with hp | rfl
        · exact h.rep_job p hp
        · exact h.req_job r hhead
      handled_job := by
        intro e he
        simp only [Session.handle, List.mem_cons] at he
        rcases he with rfl | he
        · exact h.req_job r hhead
        · exact h.handled_job e he
      sorted := hsorted.2
      handled_le := by
        intro e he q hq
        simp only [Session.handle, List.mem_cons] at he
        rcases he with rfl | he
        · exact hsorted.1 q hq
        · exact h.handled_le e he q (hmem q hq)
      handled_sorted := by
        simp only [Session.handle, List.pairwise_cons]
        exact ⟨fun e he => h.handled_le e he r hhead, h.handled_sorted⟩ }

theorem Ordered.worn (h : s.Ordered) {reqs : List (Request ι)} {reps : List (Reply ι)}
    (hreqs : Worn s.reqs reqs) (hreps : Worn s.reps reps) :
    ({ s with reqs := reqs, reps := reps } : Session ι).Ordered :=
  { h with
    req_job := fun r hr => h.req_job r (hreqs.mem hr)
    rep_job := fun r hr => h.rep_job r (hreps.mem hr)
    sorted := hreqs.pairwise (fun _ => le_rfl) h.sorted
    handled_le := fun e he r hr => h.handled_le e he r (hreqs.mem hr) }

theorem Ordered.step (h : s.Ordered) (hs : s.step toCall code a = some s') : s'.Ordered := by
  rcases step_cases hs with ⟨job, -, rfl⟩ | ⟨job, left, -, hp, rfl⟩
    | ⟨job, left, r, reps, -, hp, hr, rfl⟩ | ⟨after, r, reqs, -, hr, rfl⟩
    | ⟨reqs, reps, hreqs, hreps, rfl⟩ | ⟨mem, -, rfl⟩
  · exact h.start job
  · exact h.proceed toCall hp none
  · have htail : ∀ p ∈ reps, p ∈ s.reps := by
      intro p hmem
      rw [hr]
      exact List.mem_cons_of_mem _ hmem
    have h' : ({ s with reps := reps } : Session ι).Ordered :=
      { h with rep_job := fun p hmem => h.rep_job p (htail p hmem) }
    exact h'.proceed toCall hp _
  · exact h.handle hr after
  · exact h.worn hreqs hreps
  · exact { h with }

end Session

end RemoteX86
