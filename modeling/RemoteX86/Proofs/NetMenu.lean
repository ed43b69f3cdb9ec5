import RemoteX86.NetMenu
import Mathlib.Data.List.Induction

/-!
# The open driver is the live one until it is probed away

Probing replaces the driver that was found and leaves alone whether one is open.  So an open driver
stays the one whose `init` last succeeded just as long as probing finds it again.
-/

namespace RemoteX86

section Probe

variable {probe : ProbeResults} {pdev : Option ℕ} {drv : NetworkDriver}

theorem probeDrivers_eq (probe : ProbeResults) (pdev : Option ℕ) :
    ∀ drvs, probeDrivers probe pdev drvs = drvs.find? (probe · pdev)
  | [] => rfl
  | drv :: drvs => by
    rw [probeDrivers, List.find?_cons, probeDrivers_eq probe pdev drvs]
    cases probe drv pdev <;> rfl

theorem probeDrivers_eq_none :
    probeDrivers probe pdev netDrivers = none ↔ ∀ drv ∈ netDrivers, probe drv pdev = false := by
  rw [probeDrivers_eq, List.find?_eq_none]
  simp

/-- The loop over the cards finds nothing just when no driver claims an ethernet card. -/
theorem probeDevices_eq_none (probe : ProbeResults) : ∀ (pdevs : List PciDevice) (n : ℕ),
    probeDevices probe n pdevs = none ↔ ∀ k pdev, pdevs[k]? = some pdev →
      pdev.ethernet = true → ∀ drv ∈ netDrivers, probe drv (some (n + k)) = false
  | [], n => by simp [probeDevices]
  | p :: pdevs, n => by
    have hrest := probeDevices_eq_none probe pdevs (n + 1)
    have hstep : probeDevices probe n (p :: pdevs) = none ↔
        (p.ethernet = true → ∀ drv ∈ netDrivers, probe drv (some n) = false) ∧
          probeDevices probe (n + 1) pdevs = none := by
      rw [probeDevices]
      by_cases hp : p.ethernet = true
      · rw [if_pos hp]
        rcases hdrv : probeDrivers probe (some n) netDrivers with - | drv
        · have := probeDrivers_eq_none.1 hdrv
          exact (and_iff_right fun _ => this).symm
        · have : ¬∀ drv ∈ netDrivers, probe drv (some n) = false := fun h => by
            rw [probeDrivers_eq_none.2 h] at hdrv
            cases hdrv
          simp [hp, this]
      · simp [hp]
    rw [hstep, hrest]
    constructor
    · rintro ⟨hhead, htail⟩ k pdev hk hpdev
      rcases k with - | k
      · obtain rfl : p = pdev := by simpa using hk
        exact hhead hpdev
      · rw [show n + (k + 1) = n + 1 + k by omega]
        exact htail k pdev (by simpa using hk) hpdev
    · intro h
      refine ⟨h 0 p rfl, fun k pdev hk hpdev => ?_⟩
      rw [show n + 1 + k = n + (k + 1) by omega]
      exact h (k + 1) pdev (by simpa using hk) hpdev

/-- It finds the first card that a driver claims, and the first driver to claim it. -/
theorem probeDevices_eq_some (probe : ProbeResults) : ∀ (pdevs : List PciDevice) (n index : ℕ)
    (drv : NetworkDriver), probeDevices probe n pdevs = some (index, drv) →
      ∃ k pdev, index = n + k ∧ pdevs[k]? = some pdev ∧ pdev.ethernet = true ∧
        netDrivers.find? (probe · (some index)) = some drv ∧
        ∀ j < k, ∀ pdev, pdevs[j]? = some pdev → pdev.ethernet = true →
          ∀ drv ∈ netDrivers, probe drv (some (n + j)) = false
  | [], n, index, drv, h => by simp [probeDevices] at h
  | p :: pdevs, n, index, drv, h => by
    rw [probeDevices] at h
    have hskip : ((p.ethernet = true → ∀ drv ∈ netDrivers, probe drv (some n) = false) ∧
        probeDevices probe (n + 1) pdevs = some (index, drv)) →
        ∃ k pdev, index = n + k ∧ (p :: pdevs)[k]? = some pdev ∧ pdev.ethernet = true ∧
          netDrivers.find? (probe · (some index)) = some drv ∧
          ∀ j < k, ∀ pdev, (p :: pdevs)[j]? = some pdev → pdev.ethernet = true →
            ∀ drv ∈ netDrivers, probe drv (some (n + j)) = false := by
      rintro ⟨hp, hrest⟩
      obtain ⟨k, pdev, hindex, hpdev, hether, hfind, hbefore⟩ :=
        probeDevices_eq_some probe pdevs (n + 1) index drv hrest
      refine ⟨k + 1, pdev, by omega, by simpa using hpdev, hether, hfind, fun j hj q hq hqe => ?_⟩
      rcases j with - | j
      · obtain rfl : p = q := by simpa using hq
        exact hp hqe
      · rw [show n + (j + 1) = n + 1 + j by omega]
        exact hbefore j (by omega) q (by simpa using hq) hqe
    by_cases hp : p.ethernet = true
    · rw [if_pos hp] at h
      rcases hdrv : probeDrivers probe (some n) netDrivers with - | d
      · rw [hdrv] at h
        exact hskip ⟨fun _ => probeDrivers_eq_none.1 hdrv, h⟩
      · rw [hdrv] at h
        obtain ⟨rfl, rfl⟩ := Prod.mk.injEq .. ▸ Option.some.inj h
        refine ⟨0, p, rfl, rfl, hp, ?_, fun j hj => absurd hj (Nat.not_lt_zero j)⟩
        rwa [probeDrivers_eq] at hdrv
    · rw [if_neg hp] at h
      exact hskip ⟨fun he => absurd he hp, h⟩

end Probe

theorem isaPrompt_iff : ∀ cs : List ℤ, isaPrompt cs = true ↔ cs.find? (0 < ·) = some 0x79
  | [] => by simp [isaPrompt]
  | c :: cs => by
    rw [isaPrompt, List.find?_cons]
    split_ifs with hy hpos
    · subst hy
      simp
    · simp [hpos, hy]
    · simpa [hpos] using isaPrompt_iff cs

section Menu

variable {pciDevice : List PciDevice} {i : MenuInput} {s : NetChoice} {drv : NetworkDriver}

theorem FirstToClaim.of_pci {index : ℕ} (h : probeDevices i.probe 0 pciDevice = some (index, drv)) :
    FirstToClaim pciDevice i drv := by
  obtain ⟨k, pdev, hindex, hpdev, hether, hfind, hbefore⟩ := probeDevices_eq_some _ _ _ _ _ h
  rw [Nat.zero_add] at hindex
  subst hindex
  refine .pci index pdev hpdev hether hfind fun j hj q hq hqe => ?_
  have := hbefore j hj q hq hqe
  rwa [Nat.zero_add] at this

/-- Two drivers cannot both be the first. -/
theorem FirstToClaim.unique {drv' : NetworkDriver} (h : FirstToClaim pciDevice i drv)
    (h' : FirstToClaim pciDevice i drv') : drv = drv' := by
  have hclash : ∀ {k pdev d}, pciDevice[k]? = some pdev → pdev.ethernet = true →
      netDrivers.find? (i.probe · (some k)) = some d →
      ¬∀ drv ∈ netDrivers, i.probe drv (some k) = false := by
    intro k pdev d _ _ hfind hno
    have htrue := List.find?_some hfind
    rw [hno d (List.mem_of_find?_eq_some hfind)] at htrue
    exact Bool.false_ne_true htrue
  cases h with
  | pci k p hp hpe hfind hbefore =>
    cases h' with
    | pci k' p' hp' hpe' hfind' hbefore' =>
      rcases Nat.lt_trichotomy k k' with hlt | rfl | hgt
      · exact absurd (hbefore' k hlt p hp hpe) (hclash hp hpe hfind)
      · exact Option.some.inj (hfind.symm.trans hfind')
      · exact absurd (hbefore k' hgt p' hp' hpe') (hclash hp' hpe' hfind')
    | isa hnone => exact absurd (hnone k p hp hpe) (hclash hp hpe hfind)
  | isa hnone hyes hfind =>
    cases h' with
    | pci k' p' hp' hpe' hfind' => exact absurd (hnone k' p' hp' hpe') (hclash hp' hpe' hfind')
    | isa _ _ hfind' => exact Option.some.inj (hfind.symm.trans hfind')

/-- Probing chooses the first driver to claim a card. -/
theorem autoprobeNetworkCard_eq_some :
    (autoprobeNetworkCard pciDevice i.probe i.answers s).chosenNetDrv = some drv ↔
      FirstToClaim pciDevice i drv := by
  unfold autoprobeNetworkCard
  rcases hdev : probeDevices i.probe 0 pciDevice with - | ⟨index, d⟩
  · have hnone : ∀ k pdev, pciDevice[k]? = some pdev → pdev.ethernet = true →
        ∀ drv ∈ netDrivers, i.probe drv (some k) = false := by
      simpa only [Nat.zero_add] using (probeDevices_eq_none _ _ _).1 hdev
    constructor
    · intro h
      dsimp only at h
      split_ifs at h with hyes
      rw [autoprobeNetworkCardIsa, probeDrivers_eq] at h
      exact .isa hnone ((isaPrompt_iff _).1 hyes) h
    · intro h
      cases h with
      | pci k p hp hpe hfind =>
        have htrue := List.find?_some hfind
        rw [hnone k p hp hpe drv (List.mem_of_find?_eq_some hfind)] at htrue
        exact absurd htrue Bool.false_ne_true
      | isa _ hyes hfind =>
        dsimp only
        rw [if_pos ((isaPrompt_iff _).2 hyes), autoprobeNetworkCardIsa, probeDrivers_eq]
        exact hfind
  · have hfirst := FirstToClaim.of_pci hdev
    dsimp only
    rw [Option.some.injEq]
    constructor
    · rintro rfl
      exact hfirst
    · exact hfirst.unique

/-! ## Rounds -/

/-- Opening a driver leaves a live one live. -/
theorem NetChoice.Live.openDriver (init : NetworkDriver → Option ℕ → Bool) (h : s.Live) :
    (openDriver init s).Live := by
  unfold RemoteX86.openDriver
  rcases hdrv : s.chosenNetDrv with - | drv
  · exact h
  · dsimp only
    split_ifs with hinit
    · exact fun _ => ⟨drv, rfl, rfl⟩
    · exact h

theorem autoprobe_open :
    (autoprobeNetworkCard pciDevice i.probe i.answers s).chosenNetDrvOpen = s.chosenNetDrvOpen ∧
      (autoprobeNetworkCard pciDevice i.probe i.answers s).inited = s.inited := by
  unfold autoprobeNetworkCard
  rcases probeDevices i.probe 0 pciDevice with - | ⟨index, d⟩
  · dsimp only
    split_ifs <;> exact ⟨rfl, rfl⟩
  · exact ⟨rfl, rfl⟩

theorem cStart_live (pciDevice : List PciDevice) (i : MenuInput) : (cStart pciDevice i).Live := by
  refine NetChoice.Live.openDriver _ fun hopen => ?_
  rw [autoprobe_open.1] at hopen
  exact absurd hopen Bool.false_ne_true

/-- A round leaves the open driver live just when it is safe. -/
theorem live_mainMenu_iff (h : s.Live) : (mainMenu pciDevice s i).Live ↔ s.Safe pciDevice i := by
  unfold mainMenu NetChoice.Safe
  split_ifs with ho hx
  · exact iff_of_true (h.openDriver _) fun hx => absurd (ho.symm.trans hx) (by decide)
  · constructor
    · intro hlive _ hopen
      obtain ⟨drv, hdrv, hinited⟩ := hlive (autoprobe_open.1.trans hopen)
      obtain ⟨drv', hdrv', hinited'⟩ := h hopen
      rw [autoprobe_open.2, hinited', Option.some.injEq] at hinited
      subst hinited
      exact ⟨drv', hdrv', autoprobeNetworkCard_eq_some.1 hdrv⟩
    · intro hsafe hopen
      rw [autoprobe_open.1] at hopen
      obtain ⟨drv, hdrv, hfirst⟩ := hsafe hx hopen
      obtain ⟨drv', hdrv', hinited⟩ := h hopen
      rw [hdrv, Option.some.injEq] at hdrv'
      subst hdrv'
      exact ⟨drv, autoprobeNetworkCard_eq_some.2 hfirst, autoprobe_open.2.trans hinited⟩
  · exact iff_of_true h fun he => absurd he hx

end Menu

theorem menuRun_append (pciDevice : List PciDevice) (first i : MenuInput) (is : List MenuInput) :
    menuRun pciDevice first (is ++ [i]) = mainMenu pciDevice (menuRun pciDevice first is) i := by
  rw [menuRun, menuRun, List.foldl_append, List.foldl_cons, List.foldl_nil]

/-- Through all of a run the open driver is live just when every round of it was safe. -/
theorem live_menuRun_iff (pciDevice : List PciDevice) (first : MenuInput) (is : List MenuInput) :
    (∀ pre, pre <+: is → (menuRun pciDevice first pre).Live) ↔
      ∀ pre i, pre ++ [i] <+: is → (menuRun pciDevice first pre).Safe pciDevice i := by
  constructor
  · intro hlive pre i hpre
    have hbefore := hlive pre ((List.prefix_append pre [i]).trans hpre)
    have hafter := hlive _ hpre
    rw [menuRun_append] at hafter
    exact (live_mainMenu_iff hbefore).1 hafter
  · intro hsafe pre hpre
    induction pre using List.reverseRecOn with
    | nil => exact cStart_live pciDevice first
    | append_singleton pre i ih =>
      rw [menuRun_append]
      exact (live_mainMenu_iff (ih ((List.prefix_append pre [i]).trans hpre))).2 (hsafe pre i hpre)

/-- A round on a machine with an NE2000 on the ISA bus and no other card, and one key for the
prompt. -/
def ne2000Round (key : ℤ) (yes : Bool) : MenuInput where
  key := key
  probe drv pdev := drv == .ne2000 && pdev.isNone
  init drv _ := drv == .ne2000
  answers := [if yes then 0x79 else 0x6E]
  answered := ⟨_, List.mem_singleton_self _, by cases yes <;> decide⟩

/-- The card is found and opened, the prompt is answered `n` the next time, and the open driver is
gone. -/
theorem not_live_after_probe :
    ¬(menuRun [] (ne2000Round 0 true) [ne2000Round 0x78 false]).Live := by
  intro hlive
  obtain ⟨drv, hdrv, -⟩ := hlive (by decide)
  exact absurd hdrv nofun

end RemoteX86
