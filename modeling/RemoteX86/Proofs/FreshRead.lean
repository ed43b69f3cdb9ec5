import RemoteX86.Proofs.Session

/-!
# When a read is fresh

READ carries no sequence number, so the client takes the first reply with its own address that is
long enough.  A request of an earlier call does no harm, since the device answers it with what its
memory holds now; a reply of an earlier call that is still on its way does.
-/

namespace RemoteX86

open Hex Memory Transition

/-- The device's reply to a READ at `a`. -/
def readAck (a : BitVec 32) (data : List Byte) : List Byte :=
  ascii "OK " ++ hexToStr a 8 ++ [0x0A#8] ++ data

namespace Session

variable {code : BitVec 32 → Mem 32 → Mem 32} {s s' : Session ReadJob} {a : Action ReadJob}

/-- The reply is a copy of memory, from a moment of the current call if that waits for this
address. -/
def CopyOf (s : Session ReadJob) (r : Reply ReadJob) : Prop :=
  ∃ m n, n ≤ 1400
    ∧ r.data = readAck (r.job.addr.setWidth 32) (read m (r.job.addr.setWidth 32) n)
    ∧ ∀ job left, s.phase = .waiting job left →
        r.job.addr.setWidth 32 = job.addr.setWidth 32 → m ∈ s.moments

structure Current (s : Session ReadJob) : Prop where
  reps : ∀ r ∈ s.reps, s.CopyOf r
  now : ∀ job left, s.phase = .waiting job left → s.dev.mem ∈ s.moments
  fresh : s.ReadFresh

theorem Current.start (h : s.Current) {job : ReadJob} (hok : s.FreshRead (.start job)) :
    (s.start job).Current where
  reps := by
    intro r hr
    obtain ⟨m, n, hn, hdata, -⟩ := h.reps r hr
    refine ⟨m, n, hn, hdata, fun j left hp haddr => ?_⟩
    simp only [Session.start, Phase.waiting.injEq] at hp
    rw [← hp.1] at haddr
    exact absurd haddr (hok r hr)
  now := fun _ _ _ => List.mem_singleton.2 rfl
  fresh := by
    intro j buf hp
    simp [Session.start] at hp

/-- A reply that makes the call return 1 holds bytes of one of the call's moments. -/
theorem CopyOf.accepted {r : Reply ReadJob} (h : s.CopyOf r) {job : ReadJob} {left : ℕ}
    (hp : s.phase = .waiting job left) {buf : List Byte}
    (hbuf : job.call.reply r.data = .done buf) :
    job.addr.toNat < 2 ^ 32 ∧ ∃ m ∈ s.moments, buf = read m (job.addr.setWidth 32) job.len := by
  obtain ⟨m, n, hn, hdata, hm⟩ := h
  rw [hdata, ReadJob.call, readAck, readCall_reply _ _ _ (by rw [length_read]; exact hn),
    length_read] at hbuf
  split_ifs at hbuf with hacc
  obtain ⟨hlen, haddr⟩ := hacc
  have hlt : job.addr.toNat < 2 ^ 32 := by
    rw [← haddr, BitVec.toNat_setWidth]
    have := (r.job.addr.setWidth 32).isLt
    omega
  have hsame : r.job.addr.setWidth 32 = job.addr.setWidth 32 := by
    rw [← haddr]
    simp
  refine ⟨hlt, m, hm job left hp hsame, ?_⟩
  rw [Verdict.done.injEq, read_take m _ hlen, hsame] at hbuf
  exact hbuf.symm

theorem Current.proceed (h : s.Current) {job : ReadJob} {left : ℕ}
    (hp : s.phase = .waiting job left) {arrived : Option (List Byte)}
    (hcopy : ∀ data ∈ arrived, ∃ r, r.data = data ∧ s.CopyOf r) :
    (s.proceed ReadJob.call job left arrived).Current := by
  rcases s.proceed_cases ReadJob.call job left arrived with ⟨result, hres, he⟩ | he
  · rw [he]
    refine ⟨?_, ?_, ?_⟩
    · intro r hr
      obtain ⟨m, n, hn, hdata, -⟩ := h.reps r hr
      exact ⟨m, n, hn, hdata, fun j l hj => by simp at hj⟩
    · intro j l hj
      simp at hj
    · intro j buf hj
      simp only [Phase.returned.injEq] at hj
      obtain ⟨rfl, rfl⟩ := hj
      rcases arrived with - | data
      · cases left <;> simp [afterWait] at hres
      · obtain ⟨r, rfl, hr⟩ := hcopy data rfl
        refine hr.accepted hp ?_
        simp only [afterWait, Option.map_some, Option.getD_some] at hres
        split at hres <;> simp_all
  · rw [he]
    refine ⟨?_, ?_, ?_⟩
    · intro r hr
      obtain ⟨m, n, hn, hdata, hm⟩ := h.reps r hr
      refine ⟨m, n, hn, hdata, fun j l hj => ?_⟩
      simp only [Phase.waiting.injEq] at hj
      rw [← hj.1]
      exact hm job left hp
    · intro j l _
      exact h.now job left hp
    · intro j buf hj
      simp at hj

theorem mem_note (s : Session ReadJob) {m m' : Mem 32} (h : m ∈ s.moments) : m ∈ s.note m' := by
  unfold note
  split
  · exact List.mem_append_left _ h
  · exact h

theorem self_mem_note {job : ReadJob} {left : ℕ} (h : s.phase = .waiting job left) (m : Mem 32) :
    m ∈ s.note m := by
  rw [note, h]
  exact List.mem_append_right _ (List.mem_singleton.2 rfl)

theorem Current.handle (h : s.Current) (r : Request ReadJob) (reqs : List (Request ReadJob))
    (after : List Byte) : (s.handle ReadJob.call code after r reqs).Current := by
  obtain ⟨n, hn, -, hcmd⟩ := udpCommand_readCall_any code s.dev r.job.addr r.job.len after
  have hcmd : s.command ReadJob.call code after r = _ := hcmd
  refine ⟨?_, ?_, ?_⟩
  · intro p hp
    simp only [Session.handle, List.mem_append, List.mem_singleton] at hp
    rcases hp with hp | rfl
    · obtain ⟨m, n', hn', hdata, hm⟩ := h.reps p hp
      exact ⟨m, n', hn', hdata, fun j l hj haddr => mem_note s (hm j l hj haddr)⟩
    · refine ⟨s.dev.mem, n, hn, by simp only [hcmd, readAck], fun j l hj _ => ?_⟩
      exact mem_note s (h.now j l hj)
  · intro j l hj
    have hdev : (s.handle ReadJob.call code after r reqs).dev = s.dev := by
      simp only [Session.handle, hcmd]
    rw [hdev]
    exact mem_note s (h.now j l hj)
  · intro j buf hj
    obtain ⟨hlt, m, hm, hbuf⟩ := h.fresh j buf hj
    exact ⟨hlt, m, mem_note s hm, hbuf⟩

theorem Current.step (h : s.Current) (hok : s.FreshRead a)
    (hs : s.step ReadJob.call code a = some s') : s'.Current := by
  rcases step_cases hs with ⟨job, rfl, rfl⟩ | ⟨job, left, -, hp, rfl⟩
    | ⟨job, left, r, reps, rfl, hp, hr, rfl⟩ | ⟨after, r, reqs, rfl, hr, rfl⟩
    | ⟨reqs, reps, hreqs, hreps, rfl⟩ | ⟨mem, -, rfl⟩
  · exact h.start hok
  · exact h.proceed hp (by simp)
  · have hmem : ∀ p ∈ r :: reps, s.CopyOf p := by
      intro p hp
      rw [← hr] at hp
      exact h.reps p hp
    have h' : ({ s with reps := reps } : Session ReadJob).Current :=
      ⟨fun p hp => hmem p (List.mem_cons_of_mem _ hp), h.now, h.fresh⟩
    refine h'.proceed hp fun data hdata => ?_
    exact ⟨r, Option.some.inj hdata, hmem r List.mem_cons_self⟩
  · exact h.handle r reqs after
  · exact ⟨fun p hp => h.reps p (hreps.mem hp), h.now, h.fresh⟩
  · refine ⟨?_, ?_, ?_⟩
    · intro p hp
      obtain ⟨m, n, hn, hdata, hm⟩ := h.reps p hp
      exact ⟨m, n, hn, hdata, fun j l hj haddr => mem_note s (hm j l hj haddr)⟩
    · intro j l hj
      exact self_mem_note (s := s) hj mem
    · intro j buf hj
      obtain ⟨hlt, m, hm, hbuf⟩ := h.fresh j buf hj
      exact ⟨hlt, m, mem_note s hm, hbuf⟩

end Session

/-- In every run in which no call begins while a reply to an earlier read of its address is on its
way, with the memory changing at any time, every call that returns 1 returns bytes that were in
memory during the call. -/
theorem read_fresh (code : BitVec 32 → Mem 32 → Mem 32) (dev : Device) (s : Session ReadJob)
    (h : Reaches (Session.step ReadJob.call code) Session.FreshRead (Session.init dev) s) :
    s.ReadFresh := by
  have hinit : (Session.init dev : Session ReadJob).Current :=
    { reps := by simp [Session.init]
      now := by simp [Session.init]
      fresh := by simp [Session.init, Session.ReadFresh] }
  exact (h.invariant hinit fun _ _ _ hI hok hs => hI.step hok hs).fresh

/-- Two reads of one address with the memory changed between them. -/
theorem read_fresh_two_calls :
    ∃ s, Reaches (Session.step ReadJob.call fun _ m => m) Session.FreshRead
        (Session.init debugger) s
      ∧ s.phase = .returned { addr := 0x1000, len := 2, len_le := by decide } (some [7, 7])
      ∧ s.ReadFresh := by
  obtain ⟨s, hs, hp⟩ := exists_reaches_of_exec
    (Session.step ReadJob.call fun _ m => m) Session.FreshRead
    (s := Session.init debugger)
    (p := fun s => decide
      (s.phase = .returned { addr := 0x1000, len := 2, len_le := by decide } (some [7, 7])))
    [.start { addr := 0x1000, len := 2, len_le := by decide }, .timeout, .deliver [], .receive,
      .poke fun _ => 7, .start { addr := 0x1000, len := 2, len_le := by decide }, .deliver [],
      .receive] (by decide)
  exact ⟨s, hs, of_decide_eq_true hp, read_fresh _ _ s hs⟩

/-- The first call times out once, so two replies come; by the time the second call takes the one
left over, the memory it was read from has changed. -/
theorem read_not_fresh_after_timeout :
    ¬ ∀ s, Reaches (Session.step ReadJob.call fun _ m => m) Session.Lossy
        (Session.init debugger) s → s.ReadFresh := by
  intro hall
  obtain ⟨s, hs, hp⟩ := exists_reaches_of_exec
    (Session.step ReadJob.call fun _ m => m) Session.Lossy
    (s := Session.init debugger)
    (p := fun s => decide
      (s.phase = .returned { addr := 0x1000, len := 2, len_le := by decide } (some [0, 0])
        ∧ (s.moments.all fun m => read m 0x1000#32 2 == [7, 7]) = true))
    [.start { addr := 0x1000, len := 2, len_le := by decide }, .timeout, .deliver [], .receive,
      .deliver [], .poke fun _ => 7, .start { addr := 0x1000, len := 2, len_le := by decide },
      .receive] (by decide)
  obtain ⟨hphase, hmoments⟩ := of_decide_eq_true hp
  obtain ⟨-, m, hm, hbuf⟩ := hall s hs _ _ hphase
  have h7 : read m ((0x1000 : BitVec 64).setWidth 32) 2 = [7, 7] :=
    beq_iff_eq.1 (List.all_eq_true.1 hmoments m hm)
  rw [h7] at hbuf
  exact absurd hbuf (by decide)

end RemoteX86
