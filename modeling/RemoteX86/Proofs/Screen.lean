import RemoteX86.Screen

/-!
# Output stays on the screen

Whatever is written, in every mode `vga_init` selects, output keeps the cursor on the screen and
stores nowhere else.
-/

namespace RemoteX86

open Hex Emitting

/-! ## Modes and cursors -/

/-- What all modes have in common. -/
structure TextMode.Usual (g : TextMode) : Prop where
  rows_ge : 10 ≤ g.rows.toNat
  rows_le : g.rows.toNat ≤ 80
  columns_ge : 25 ≤ g.columns.toNat
  columns_le : g.columns.toNat ≤ 80

/-- The cursor is on the screen. -/
structure Cursor.On (g : TextMode) (c : Cursor) : Prop where
  x_lt : c.x.toNat < g.columns.toNat
  y_lt : c.y.toNat < g.rows.toNat

theorem vgaMode_usual (bios : BiosData) : (vgaMode bios).Usual := by
  unfold vgaMode
  simp only []
  split_ifs with h
  · obtain ⟨hcols, hge, hle⟩ := h
    have hge : 10 ≤ (bios.lastRow + 1).toNat := hge
    have hle : (bios.lastRow + 1).toNat ≤ 60 := hle
    have hrows : ((bios.lastRow + 1).setWidth 32).toNat = (bios.lastRow + 1).toNat :=
      BitVec.toNat_setWidth_of_le (by decide)
    refine ⟨?_, ?_, ?_, ?_⟩ <;> simp only [hrows] <;>
      first | omega | (rcases hcols with h | h | h <;> rw [h] <;> decide)
  · exact ⟨by decide, by decide, by decide, by decide⟩

theorem vgaInit_on (bios : BiosData) : (vgaInit bios).On (vgaMode bios) := by
  have hg := vgaMode_usual bios
  have hrows := hg.rows_ge
  have hcols := hg.columns_ge
  unfold vgaInit
  simp only []
  split_ifs with h
  · exact ⟨h.1, h.2⟩
  · refine ⟨?_, ?_⟩
    · change 0 < _
      omega
    · change ((vgaMode bios).rows - 1).toNat < _
      bv_omega

/-! ## Stores -/

section Output

variable {g : TextMode}

theorem CellStore.onScreen_iff (w : CellStore) : w.OnScreen g ↔
    (∃ i < g.rows.toNat * g.columns.toNat, w.address = vgaAlpha + 2 * BitVec.ofNat 32 i)
      ∧ w.cursor.On g :=
  and_congr_right' ⟨fun h => ⟨h.1, h.2⟩, fun h => ⟨h.1, h.2⟩⟩

theorem TextMode.Usual.area_le (hg : g.Usual) : g.rows.toNat * g.columns.toNat ≤ 6400 :=
  Nat.mul_le_mul hg.rows_le hg.columns_le

/-- The character a cursor on the screen points at. -/
theorem vgaAlphaCharPtr_onScreen {c : Cursor} (hc : c.On g) :
    (CellStore.mk (vgaAlphaCharPtr g c.x c.y) c).OnScreen g := by
  refine (CellStore.onScreen_iff _).2 ⟨⟨c.y.toNat * g.columns.toNat + c.x.toNat, ?_, ?_⟩, hc⟩
  · calc c.y.toNat * g.columns.toNat + c.x.toNat
        < c.y.toNat * g.columns.toNat + g.columns.toNat := Nat.add_lt_add_left hc.x_lt _
      _ = (c.y.toNat + 1) * g.columns.toNat := (Nat.succ_mul _ _).symm
      _ ≤ g.rows.toNat * g.columns.toNat := Nat.mul_le_mul_right _ hc.y_lt
  · rw [BitVec.ofNat_add, BitVec.ofNat_mul, BitVec.ofNat_toNat, BitVec.ofNat_toNat,
      BitVec.ofNat_toNat, BitVec.setWidth_eq, BitVec.setWidth_eq, BitVec.setWidth_eq,
      vgaAlphaCharPtr, BitVec.mul_add, BitVec.add_assoc]

/-- Stores to `n` characters from the `k`-th on. -/
theorem storeCells_on {k n : ℕ} (h : k + n ≤ g.rows.toNat * g.columns.toNat) :
    Leads (CellStore.OnScreen g) (Cursor.On g) (storeCells (vgaAlpha + 2 * BitVec.ofNat 32 k) n)
      (Cursor.On g) := by
  intro c hc
  refine ⟨hc, fun w hw => ?_⟩
  obtain ⟨i, hi, rfl⟩ := List.mem_map.1 hw
  have hi := List.mem_range.1 hi
  refine (CellStore.onScreen_iff _).2 ⟨⟨k + i, by omega, ?_⟩, hc⟩
  rw [BitVec.ofNat_add, BitVec.mul_add, BitVec.add_assoc]

/-! ## Where the cursor goes -/

theorem vgaCursorDown_x (c : Cursor) : (vgaCursorDown g c).1.x = c.x := by
  unfold vgaCursorDown
  split_ifs <;> rfl

/-- A character takes the cursor one column on, and from the last column to the first. -/
theorem vgaStorechar_x (c : Cursor) :
    (vgaStorechar g c).1.x = if g.columns ≤ c.x + 1 then 0 else c.x + 1 := by
  change (vgaCursorRight g c).1.x = _
  unfold vgaCursorRight
  split_ifs
  · exact vgaCursorDown_x _
  · rfl

theorem vgaWritechar_of_ne {ch : Byte} (h13 : ch ≠ 13) (h10 : ch ≠ 10) :
    vgaWritechar g ch = vgaStorechar g := by
  funext c
  rw [vgaWritechar, if_neg h13, if_neg h10]

/-- A character stored off the screen. -/
theorem vgaStorechar_off {c : Cursor} (h : ¬ c.x < g.columns) :
    ∃ w ∈ (vgaStorechar g c).2, ¬ w.OnScreen g :=
  ⟨⟨vgaAlphaCharPtr g c.x c.y, c⟩, List.mem_append_left _ (List.mem_singleton_self _),
    fun hon => h hon.2.1⟩

/-- A size in bytes, as a number of characters. -/
theorem toNat_mul_two_div {n : BitVec 32} (h : n.toNat < 2 ^ 31) : (n * 2).toNat / 2 = n.toNat := by
  rw [BitVec.toNat_mul, show (2 : BitVec 32).toNat = 2 from rfl, Nat.mod_eq_of_lt (by omega),
    Nat.mul_div_cancel _ (by decide)]

/-! ## In a usual mode -/

variable (hg : g.Usual)

include hg

theorem vgaClear_on : Leads (CellStore.OnScreen g) (Cursor.On g) (vgaClear g) (Cursor.On g) := by
  have harea := hg.area_le
  have hn : (g.rows * g.columns).toNat = g.rows.toNat * g.columns.toNat := by
    rw [BitVec.toNat_mul, Nat.mod_eq_of_lt (by omega)]
  rw [vgaClear, hn]
  exact storeCells_on (k := 0) (by omega)

theorem vgaScrollup_on :
    Leads (CellStore.OnScreen g) (Cursor.On g) (vgaScrollup g) (Cursor.On g) := by
  have hrows := hg.rows_ge
  have harea := hg.area_le
  have hcols := hg.columns_le
  have hlast : (g.rows - 1).toNat = g.rows.toNat - 1 := by bv_omega
  have hsplit : (g.rows.toNat - 1) * g.columns.toNat + g.columns.toNat
      = g.rows.toNat * g.columns.toNat := by
    rw [← Nat.succ_mul, Nat.succ_eq_add_one, Nat.sub_add_cancel (by omega)]
  have hcells : (g.rows - 1) * g.columns
      = BitVec.ofNat 32 ((g.rows.toNat - 1) * g.columns.toNat) := by
    rw [BitVec.ofNat_mul, ← hlast, BitVec.ofNat_toNat, BitVec.ofNat_toNat, BitVec.setWidth_eq,
      BitVec.setWidth_eq]
  have hcopy : ((g.rows - 1) * g.columns * 2).toNat / 2 = (g.rows.toNat - 1) * g.columns.toNat := by
    have hn : ((g.rows - 1) * g.columns).toNat = (g.rows.toNat - 1) * g.columns.toNat := by
      rw [hcells, BitVec.toNat_ofNat, Nat.mod_eq_of_lt (by omega)]
    rw [toNat_mul_two_div (by omega), hn]
  have hset : (g.columns * 2).toNat / 2 = g.columns.toNat := toNat_mul_two_div (by omega)
  rw [vgaScrollup, hcopy, hset, hcells]
  exact (storeCells_on (k := 0) (by omega)).andThen (storeCells_on (by omega))

theorem vgaCursorDown_on :
    Leads (CellStore.OnScreen g) (Cursor.On g) (vgaCursorDown g) (Cursor.On g) := by
  intro c hc
  have hrows := hg.rows_ge
  unfold vgaCursorDown
  split_ifs with h
  · refine vgaScrollup_on hg _ ⟨hc.x_lt, ?_⟩
    change (g.rows - 1).toNat < g.rows.toNat
    bv_omega
  · exact ⟨⟨hc.x_lt, BitVec.lt_def.1 (BitVec.not_le.1 h)⟩, by simp⟩

theorem vgaCursorRight_on :
    Leads (CellStore.OnScreen g) (Cursor.On g) (vgaCursorRight g) (Cursor.On g) := by
  intro c hc
  have hcols := hg.columns_ge
  unfold vgaCursorRight
  split_ifs with h
  · refine vgaCursorDown_on hg _ ⟨?_, hc.y_lt⟩
    change 0 < _
    omega
  · exact ⟨⟨BitVec.lt_def.1 (BitVec.not_le.1 h), hc.y_lt⟩, by simp⟩

theorem vgaStorechar_on :
    Leads (CellStore.OnScreen g) (Cursor.On g) (vgaStorechar g) (Cursor.On g) := by
  refine Leads.andThen (fun c hc => ⟨hc, fun w hw => ?_⟩) (vgaCursorRight_on hg)
  rw [List.mem_singleton.1 hw]
  exact vgaAlphaCharPtr_onScreen hc

theorem vgaWritechar_on (ch : Byte) :
    Leads (CellStore.OnScreen g) (Cursor.On g) (vgaWritechar g ch) (Cursor.On g) := by
  intro c hc
  have hcols := hg.columns_ge
  unfold vgaWritechar
  split_ifs
  · refine ⟨⟨?_, hc.y_lt⟩, by simp⟩
    change 0 < _
    omega
  · exact vgaCursorDown_on hg c hc
  · exact vgaStorechar_on hg c hc

theorem vgaWrite_on (s : List Byte) :
    Leads (CellStore.OnScreen g) (Cursor.On g) (vgaWrite g s) (Cursor.On g) :=
  Leads.each s fun ch _ => vgaWritechar_on hg ch

theorem vgaHome_on : Leads (CellStore.OnScreen g) (Cursor.On g) vgaHome (Cursor.On g) := by
  have hrows := hg.rows_ge
  have hcols := hg.columns_ge
  exact Leads.silently fun _ _ => ⟨by change 0 < _; omega, by change 0 < _; omega⟩

end Output

end RemoteX86
