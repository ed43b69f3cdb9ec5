import RemoteX86.Proofs.Ne2000

/-!
# What the driver writes to the boundary register

The boundary goes to the page before the one the header names.  In eight bits that is the page
before, also of the first page of the ring, which has none there.
-/

namespace RemoteX86

open Hex Memory

/-- The value is what the register holds after the call. -/
theorem bnry_getPacket (s : Ne2000) :
    (ne2000GetPacket s).1.bnry = s.boundaryWrite.getD s.bnry := by
  unfold Ne2000.boundaryWrite
  rcases h : s.prx with - | -
  · obtain ⟨isr, -, hcall⟩ := getPacket_of_not_prx h
    have hprx : s.isr.getLsbD 0 = false := h
    rw [hcall, hprx, if_neg (fun h => Bool.false_ne_true h.1), Option.getD_none]
  · have hprx : s.isr.getLsbD 0 = true := h
    by_cases hread : s.curRead = s.curr
    · obtain ⟨isr, -, hcall⟩ := getPacket_of_caught_up h hread
      rw [hcall, if_neg (fun h => h.2 hread), Option.getD_none]
    · obtain ⟨isr, -, hcall⟩ := getPacket_of_behind h hread
      rw [hcall, if_pos ⟨hprx, hread⟩, Option.getD_some]

/-- The page before a page of the ring is one of the ring, but for the first. -/
theorem ringPage_pred_iff {next : Byte} (h : RingPage next) :
    RingPage (next - 1) ↔ next ≠ rxPageStart := by
  have hge := h.ge
  have hlt := h.lt
  have hpred : (next - 1).toNat = next.toNat - 1 := by
    rw [BitVec.toNat_sub]
    change (256 - 1 + next.toNat) % 256 = _
    omega
  have hstart : next ≠ rxPageStart ↔ next.toNat ≠ 0x46 := by
    rw [Ne, ← BitVec.toNat_inj]
    rfl
  rw [hstart]
  constructor
  · intro h
    have := h.ge
    omega
  · intro hne
    exact ⟨by omega, by omega⟩

/-- The values written are the first page and the pages before those of the headers. -/
structure Ne2000Boundary.Inv (s : Ne2000Boundary) : Prop where
  written : s.written = rxPageStart :: s.nexts.map (· - 1)
  nexts : ∀ next ∈ s.nexts, RingPage next

theorem Ne2000Boundary.Inv.step {s s' : Ne2000Boundary} {a : BoundaryAction} (h : s.Inv)
    (hok : s.nextOk a = true) (hstep : s.step a = some s') : s'.Inv := by
  cases a with
  | card ram curr isr =>
    simp only [Ne2000Boundary.step, Option.some.injEq] at hstep
    subst hstep
    exact ⟨h.written, h.nexts⟩
  | getPacket =>
    simp only [Ne2000Boundary.step, Option.some.injEq] at hstep
    subst hstep
    rcases hwrite : s.nic.boundaryWrite with - | b
    · exact ⟨by simpa [hwrite] using h.written, by simpa [hwrite] using h.nexts⟩
    · have hb : b = s.nic.tmp.getD 1 0 - 1 := by
        unfold Ne2000.boundaryWrite at hwrite
        split_ifs at hwrite
        exact (Option.some.inj hwrite).symm
      simp only [Ne2000Boundary.nextOk, hwrite, Option.isNone_some, Bool.false_or,
        Bool.and_eq_true, decide_eq_true_eq] at hok
      refine ⟨?_, ?_⟩
      · simp [h.written, hb]
      · intro next hnext
        simp only [Option.map_some, Option.toList_some, List.mem_append, List.mem_singleton] at hnext
        rcases hnext with hnext | rfl
        · exact h.nexts next hnext
        · exact ⟨hok.1, hok.2⟩

/-- Every value written is a page of the ring just when no header named its first page. -/
theorem boundary_in_ring_iff {ram : Mem 16} {s : Ne2000Boundary} (h : s.Reached ram) :
    (∀ b ∈ s.written, RingPage b) ↔ rxPageStart ∉ s.nexts := by
  have hinv : s.Inv := by
    refine Transition.Reaches.invariant (I := Ne2000Boundary.Inv) h ⟨rfl, nofun⟩ ?_
    intro s a s' hs hok hstep
    exact hs.step hok hstep
  have hstart : RingPage rxPageStart := ⟨by decide, by decide⟩
  rw [hinv.written]
  simp only [List.mem_cons, List.mem_map, forall_eq_or_imp, hstart, true_and,
    forall_exists_index, and_imp, forall_apply_eq_imp_iff₂]
  constructor
  · intro hall hmem
    exact (ringPage_pred_iff (hinv.nexts _ hmem)).1 (hall _ hmem) rfl
  · intro hno next hnext
    refine (ringPage_pred_iff (hinv.nexts next hnext)).2 ?_
    rintro rfl
    exact hno hnext

/-- A card with a header at the page the driver reads first, of a frame that ends before page
`next`. -/
def oneHeader (next : Byte) : BoundaryAction :=
  .card (fun a => if a = pageAddr 0x47 1 then next else 1) 0x50 0x01

theorem boundary_in_ring_48 : ∃ s : Ne2000Boundary, s.Reached (fun _ => 0) ∧ s.nexts = [0x48] ∧
    ∀ b ∈ s.written, RingPage b := by
  obtain ⟨s, hs, hnexts⟩ := Transition.exists_reaches_of_exec_map Ne2000Boundary.step
    (Ne2000Boundary.nextOk · · = true) [oneHeader 0x48, .getPacket]
    (s := .start fun _ => 0) (f := Ne2000Boundary.nexts) (b := [0x48]) (by decide)
  exact ⟨s, hs, hnexts, (boundary_in_ring_iff hs).2 (by rw [hnexts]; decide)⟩

/-- A frame that ends at the end of the ring: the page before the first is written. -/
theorem boundary_leaves_ring : ∃ s : Ne2000Boundary, s.Reached (fun _ => 0) ∧
    ¬∀ b ∈ s.written, RingPage b := by
  obtain ⟨s, hs, hwritten⟩ := Transition.exists_reaches_of_exec_map Ne2000Boundary.step
    (Ne2000Boundary.nextOk · · = true) [oneHeader 0x46, .getPacket]
    (s := .start fun _ => 0) (f := Ne2000Boundary.written) (b := [0x46, 0x45]) (by decide)
  refine ⟨s, hs, fun hall => ?_⟩
  have hpage := (hall 0x45 (by rw [hwritten]; decide)).ge
  exact absurd hpage (by decide)

end RemoteX86
