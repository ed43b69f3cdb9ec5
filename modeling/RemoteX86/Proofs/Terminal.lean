import RemoteX86.Proofs.Screen
import RemoteX86.Terminal

/-!
# The screen is a window on the paper

A character goes to its cell and no other, and a scroll takes every cell one line up and leaves the
last line empty.  Below the screen the paper is empty as well, so when the screen moves on the line
that comes into sight is the one the scroll has left.
-/

namespace RemoteX86

open Hex Memory

/-! ## Text memory -/

/-- The two bytes of a word. -/
theorem append_bytes {n : ℕ} (x : BitVec n) :
    (x >>> 8).setWidth 8 ++ x.setWidth 8 = x.setWidth 16 := by
  refine BitVec.eq_of_getLsbD_eq fun k hk => ?_
  rw [BitVec.getLsbD_append, BitVec.getLsbD_setWidth, BitVec.getLsbD_setWidth,
    BitVec.getLsbD_setWidth, BitVec.getLsbD_ushiftRight, decide_eq_true hk]
  by_cases hlow : k < 8
  · rw [if_pos hlow, decide_eq_true hlow]
  · rw [if_neg hlow, Nat.add_sub_cancel' (by omega), decide_eq_true (by omega)]

theorem cellAt_screenCell (m : Mem 32) (i : ℕ) : cellAt m (screenCell i)
    = m (vgaAlpha + BitVec.ofNat 32 (2 * i + 1)) ++ m (vgaAlpha + BitVec.ofNat 32 (2 * i)) := by
  rw [cellAt, screenCell, show (1 : BitVec 32) = BitVec.ofNat 32 1 from rfl, add_ofNat_add]

/-- A character is stored in its own cell. -/
theorem cellAt_storeCell (m : Mem 32) (c : BitVec 16) {i j : ℕ} (hi : i < 2 ^ 30)
    (hj : j < 2 ^ 30) :
    cellAt (storeCell m (screenCell i) c) (screenCell j)
      = if i = j then c else cellAt m (screenCell j) := by
  have hlen : [c.setWidth 8, (c >>> 8).setWidth 8].length = 2 := rfl
  rw [cellAt_screenCell, cellAt_screenCell, storeCell, screenCell,
    write_offset m vgaAlpha (by omega) (by omega), write_offset m vgaAlpha (by omega) (by omega)]
  rcases Nat.lt_trichotomy i j with hlt | rfl | hgt
  · rw [if_pos (by omega), if_pos (by omega), if_neg (by omega),
      List.getElem?_eq_none (by omega), List.getElem?_eq_none (by omega)]
    rfl
  · rw [if_pos (by omega), if_pos le_rfl, if_pos rfl, Nat.add_sub_cancel_left, Nat.sub_self]
    exact (append_bytes c).trans (BitVec.setWidth_eq c)
  · rw [if_neg (by omega), if_neg (by omega), if_neg (by omega)]

variable {g : TextMode}

theorem ScreenOnly.trans {m m' m'' : Mem 32} (h : ScreenOnly g m m') (h' : ScreenOnly g m' m'') :
    ScreenOnly g m m'' :=
  fun a ha => (h' a ha).trans (h a ha)

theorem screenOnly_write (m : Mem 32) {bs : List Byte} {i : ℕ}
    (h : i + bs.length ≤ 2 * (g.rows.toNat * g.columns.toNat)) :
    ScreenOnly g m (write m (vgaAlpha + BitVec.ofNat 32 i) bs) :=
  fun a ha => write_outside m vgaAlpha a h ha

/-- The loop of `vga_clear`. -/
theorem foldl_storeCell (m : Mem 32) (c : BitVec 16) : ∀ n ≤ 2 ^ 30,
    let m' := (List.range n).foldl (fun mem x => storeCell mem (screenCell x) c) m
    (∀ i < 2 ^ 30, cellAt m' (screenCell i) = if i < n then c else cellAt m (screenCell i))
      ∧ (n ≤ g.rows.toNat * g.columns.toNat → ScreenOnly g m m')
  | 0, _ => ⟨fun _ _ => rfl, fun _ _ _ => rfl⟩
  | n + 1, hn => by
    obtain ⟨hcells, honly⟩ := foldl_storeCell m c n (by omega)
    simp only [List.range_succ, List.foldl_append, List.foldl_cons, List.foldl_nil]
    refine ⟨fun i hi => ?_, fun hle => (honly (by omega)).trans ?_⟩
    · rw [cellAt_storeCell _ _ (by omega) hi, hcells i hi]
      split_ifs <;> first | rfl | omega
    · exact screenOnly_write _ (by simp only [List.length_cons, List.length_nil]; omega)

/-- Where the cursor points. -/
theorem vgaAlphaCharPtr_eq (g : TextMode) (c : Cursor) :
    vgaAlphaCharPtr g c.x c.y = screenCell (c.y.toNat * g.columns.toNat + c.x.toNat) := by
  have htwo : (2 : BitVec 32) = BitVec.ofNat 32 2 := rfl
  rw [vgaAlphaCharPtr, screenCell, Nat.mul_add, BitVec.ofNat_add, BitVec.ofNat_mul,
    BitVec.ofNat_mul, BitVec.ofNat_mul, BitVec.ofNat_toNat, BitVec.ofNat_toNat, BitVec.ofNat_toNat,
    BitVec.setWidth_eq, BitVec.setWidth_eq, BitVec.setWidth_eq, BitVec.add_assoc, htwo]

/-- Two places on the screen. -/
theorem cell_inj {x y x' y' : ℕ} (hx : x < g.columns.toNat) (hx' : x' < g.columns.toNat) :
    y * g.columns.toNat + x = y' * g.columns.toNat + x' ↔ y = y' ∧ x = x' := by
  constructor
  · intro h
    have hmod := congrArg (· % g.columns.toNat) h
    simp only [Nat.mul_add_mod', Nat.mod_eq_of_lt hx, Nat.mod_eq_of_lt hx'] at hmod
    subst hmod
    exact ⟨Nat.eq_of_mul_eq_mul_right (by omega) (Nat.add_right_cancel h), rfl⟩
  · rintro ⟨rfl, rfl⟩
    rfl

theorem cell_lt {x y : ℕ} (hx : x < g.columns.toNat) (hy : y < g.rows.toNat) :
    y * g.columns.toNat + x < g.rows.toNat * g.columns.toNat :=
  calc y * g.columns.toNat + x
      < y * g.columns.toNat + g.columns.toNat := Nat.add_lt_add_left hx _
    _ = (y + 1) * g.columns.toNat := (Nat.succ_mul _ _).symm
    _ ≤ g.rows.toNat * g.columns.toNat := Nat.mul_le_mul_right _ hy

/-! ## The cursor -/

theorem cursorDown_cursor (v : Vga) : (v.cursorDown g).cursor = (vgaCursorDown g v.cursor).1 := by
  unfold Vga.cursorDown vgaCursorDown
  split_ifs <;> rfl

theorem cursorRight_cursor (v : Vga) :
    (v.cursorRight g).cursor = (vgaCursorRight g v.cursor).1 := by
  unfold Vga.cursorRight vgaCursorRight
  split_ifs
  · exact cursorDown_cursor _
  · rfl

/-- It goes where the stores alone say it goes. -/
theorem writechar_cursor (c : Byte) (v : Vga) :
    (v.writechar g c).cursor = (vgaWritechar g c v.cursor).1 := by
  unfold Vga.writechar vgaWritechar
  split_ifs
  · rfl
  · exact cursorDown_cursor v
  · exact cursorRight_cursor _

/-! ## In a usual mode -/

section Usual

variable (hg : g.Usual) {v : Vga}

include hg

theorem toNat_kept : ((g.rows - 1) * g.columns).toNat = (g.rows.toNat - 1) * g.columns.toNat := by
  have hrows := hg.rows_ge
  have hlast : (g.rows - 1).toNat = g.rows.toNat - 1 := by bv_omega
  have hle : (g.rows.toNat - 1) * g.columns.toNat ≤ 6400 :=
    (Nat.mul_le_mul_right _ (Nat.sub_le _ _)).trans hg.area_le
  rw [BitVec.toNat_mul, hlast, Nat.mod_eq_of_lt (by omega)]

theorem area_eq :
    g.rows.toNat * g.columns.toNat = (g.rows.toNat - 1) * g.columns.toNat + g.columns.toNat := by
  have hrows := hg.rows_ge
  rw [← Nat.succ_mul, Nat.succ_eq_add_one, Nat.sub_add_cancel (by omega)]

theorem scrollup_mem : (v.scrollup g).mem
    = write (write v.mem (vgaAlpha + BitVec.ofNat 32 0)
        (read v.mem (vgaAlpha + BitVec.ofNat 32 (2 * g.columns.toNat))
          (2 * ((g.rows.toNat - 1) * g.columns.toNat))))
      (vgaAlpha + BitVec.ofNat 32 (2 * ((g.rows.toNat - 1) * g.columns.toNat)))
      (List.replicate (2 * g.columns.toNat) 0) := by
  have harea := hg.area_le
  have hsplit := area_eq hg
  have hcols := hg.columns_le
  have hkept := toNat_kept hg
  have htwo : (2 : BitVec 32).toNat = 2 := rfl
  have hcopied : ((g.rows - 1) * g.columns * 2).toNat
      = 2 * ((g.rows.toNat - 1) * g.columns.toNat) := by
    rw [BitVec.toNat_mul, hkept, htwo]
    omega
  have hcleared : (g.columns * 2).toNat = 2 * g.columns.toNat := by
    rw [BitVec.toNat_mul, htwo]
    omega
  have hline : 2 * g.columns = BitVec.ofNat 32 (2 * g.columns.toNat) := by
    rw [← hcleared, BitVec.ofNat_toNat, BitVec.setWidth_eq, BitVec.mul_comm]
  have hlast : 2 * ((g.rows - 1) * g.columns)
      = BitVec.ofNat 32 (2 * ((g.rows.toNat - 1) * g.columns.toNat)) := by
    rw [← hcopied, BitVec.ofNat_toNat, BitVec.setWidth_eq, BitVec.mul_comm]
  have hback : (vgaAlpha - (vgaAlpha + 2 * g.columns)).toNat = 2 ^ 32 - 2 * g.columns.toNat := by
    rw [sub_add_cancel_left, hline, BitVec.toNat_neg, BitVec.toNat_ofNat]
    have hpos := hg.columns_ge
    omega
  have hcopy := copyUp_eq 1 (2 * ((g.rows.toNat - 1) * g.columns.toNat)) v.mem vgaAlpha
    (vgaAlpha + 2 * g.columns) (by omega) (.inr (by omega))
  rw [Vga.scrollup, memset, memcpy, hcopied, hcleared, hcopy, Nat.one_mul, hline, hlast,
    BitVec.add_zero]

/-- A scroll takes each cell a line up, and leaves the last line empty. -/
theorem cellAt_scrollup {i : ℕ} (hi : i < g.rows.toNat * g.columns.toNat) :
    cellAt (v.scrollup g).mem (screenCell i)
      = if i + g.columns.toNat < g.rows.toNat * g.columns.toNat then
          cellAt v.mem (screenCell (i + g.columns.toNat))
        else 0 := by
  have harea := hg.area_le
  have hsplit := area_eq hg
  have hbyte : ∀ k < 2 * (g.rows.toNat * g.columns.toNat),
      (v.scrollup g).mem (vgaAlpha + BitVec.ofNat 32 k)
        = if k < 2 * ((g.rows.toNat - 1) * g.columns.toNat) then
            v.mem (vgaAlpha + BitVec.ofNat 32 (2 * g.columns.toNat + k))
          else 0 := by
    intro k hk
    rw [scrollup_mem hg, write_offset _ _ (by rw [List.length_replicate]; omega) (by omega),
      write_offset _ _ (by rw [length_read]; omega) (by omega), Nat.sub_zero,
      if_pos (Nat.zero_le k)]
    rcases Nat.lt_or_ge k (2 * ((g.rows.toNat - 1) * g.columns.toNat)) with hlt | hge
    · rw [if_neg (by omega), if_pos hlt, getElem?_read _ _ _ _ hlt, add_ofNat_add]
      rfl
    · rw [if_pos hge, if_neg (by omega), List.getElem?_replicate_of_lt (by omega)]
      rfl
  rw [cellAt_screenCell, hbyte _ (by omega), hbyte _ (by omega)]
  split_ifs with h1 h2 h3 h3 h2 <;> try omega
  · rw [cellAt_screenCell, Nat.mul_add, Nat.add_comm (2 * i) (2 * g.columns.toNat), Nat.add_assoc]
  · rfl

/-- `vga_clear` leaves blanks all over the screen. -/
theorem clear_mem :
    (∀ i < g.rows.toNat * g.columns.toNat, cellAt (v.clear g).mem (screenCell i) = 0x0720)
      ∧ ScreenOnly g v.mem (v.clear g).mem := by
  have harea := hg.area_le
  have hn : (g.rows * g.columns).toNat = g.rows.toNat * g.columns.toNat := by
    rw [BitVec.toNat_mul, Nat.mod_eq_of_lt (by omega)]
  have hptr : ∀ x, vgaAlpha + 2 * BitVec.ofNat 32 x = screenCell x := fun x => by
    rw [screenCell, BitVec.ofNat_mul]
    rfl
  have hmem : (v.clear g).mem = (List.range (g.rows.toNat * g.columns.toNat)).foldl
      (fun mem x => storeCell mem (screenCell x) 0x0720) v.mem := by
    simp only [Vga.clear, hn, hptr]
  obtain ⟨hcells, honly⟩ :=
    @foldl_storeCell g v.mem 0x0720 (g.rows.toNat * g.columns.toNat) (by omega)
  rw [hmem]
  exact ⟨fun i hi => (hcells i (by omega)).trans (if_pos hi), honly le_rfl⟩

theorem scrollup_screenOnly : ScreenOnly g v.mem (v.scrollup g).mem := by
  have hsplit := area_eq hg
  rw [scrollup_mem hg]
  refine (screenOnly_write v.mem ?_).trans (screenOnly_write _ ?_)
  · rw [length_read]
    omega
  · rw [List.length_replicate]
    omega

end Usual

/-! ## The window -/

/-- The screen shows the paper, below it the paper is empty, and no other memory than the screen's
is different from `mem`. -/
structure Vga.Over (g : TextMode) (mem : Mem 32) (v : Vga) (p : Paper) : Prop where
  shows : v.Shows g p
  on : v.cursor.On g
  below : ∀ l x, p.top + g.rows.toNat ≤ l → p.cells l x = 0
  outside : ScreenOnly g mem v.mem

section Over

variable {mem : Mem 32} {v : Vga} {p : Paper}

variable (hg : g.Usual)

include hg

/-- At the foot of the screen the line behind it comes into sight, empty as the scroll leaves it. -/
theorem Vga.Over.cursorDown (h : v.Over g mem p) :
    (v.cursorDown g).Over g mem (p.lineFeed g.rows.toNat) := by
  have hrows := hg.rows_ge
  have hrows' := hg.rows_le
  have hy := h.on.y_lt
  have hline := h.shows.line
  have hdown : g.rows ≤ v.cursor.y + 1 ↔ g.rows.toNat ≤ v.cursor.y.toNat + 1 := by bv_omega
  unfold Vga.cursorDown
  split_ifs with hfoot
  · have hfoot := hdown.1 hfoot
    have hlast : (g.rows - 1).toNat = g.rows.toNat - 1 := by bv_omega
    have htop : (p.lineFeed g.rows.toNat).top = p.top + 1 := by
      change max p.top (p.line + 2 - g.rows.toNat) = _
      omega
    refine ⟨⟨fun y hy x hx => ?_, ?_, h.shows.column, h.shows.color, h.shows.mark⟩,
      ⟨h.on.x_lt, by change (g.rows - 1).toNat < _; omega⟩, fun l x hl => ?_,
      h.outside.trans (scrollup_screenOnly hg)⟩
    · rw [cellAt_scrollup hg (cell_lt hx hy), htop]
      change _ = p.cells _ x
      by_cases hlt : y + 1 < g.rows.toNat
      · have hnext := cell_lt hx hlt
        rw [Nat.succ_mul] at hnext
        rw [if_pos (by omega), show y * g.columns.toNat + x + g.columns.toNat
          = (y + 1) * g.columns.toNat + x by rw [Nat.succ_mul]; omega,
          h.shows.cells (y + 1) hlt x hx, Nat.add_assoc, Nat.add_comm 1]
      · have hend : g.rows.toNat = y + 1 := by omega
        rw [if_neg (by rw [hend, Nat.succ_mul]; omega), h.below _ _ (by omega)]
    · change p.line + 1 = _ + (g.rows - 1).toNat
      rw [htop]
      omega
    · rw [htop] at hl
      exact h.below l x (by omega)
  · have hfoot : v.cursor.y.toNat + 1 < g.rows.toNat :=
      Nat.lt_of_not_le fun hle => hfoot (hdown.2 hle)
    have hnext : (v.cursor.y + 1).toNat = v.cursor.y.toNat + 1 := by bv_omega
    have htop : (p.lineFeed g.rows.toNat).top = p.top := by
      change max p.top (p.line + 2 - g.rows.toNat) = _
      omega
    refine ⟨⟨fun y hy x hx => ?_, ?_, h.shows.column, h.shows.color, h.shows.mark⟩,
      ⟨h.on.x_lt, by change (v.cursor.y + 1).toNat < _; omega⟩, fun l x hl => ?_, h.outside⟩
    · rw [htop]
      exact h.shows.cells y hy x hx
    · change p.line + 1 = _ + (v.cursor.y + 1).toNat
      rw [htop]
      omega
    · rw [htop] at hl
      exact h.below l x hl

theorem Vga.Over.cursorRight (h : v.Over g mem p) :
    (v.cursorRight g).Over g mem (p.advance g.rows.toNat g.columns.toNat) := by
  have hcols := hg.columns_ge
  have hcols' := hg.columns_le
  have hx := h.on.x_lt
  have hcolumn := h.shows.column
  have hright : g.columns ≤ v.cursor.x + 1 ↔ p.column + 1 = g.columns.toNat := by
    rw [hcolumn]
    bv_omega
  unfold Vga.cursorRight Paper.advance
  simp only [hright]
  split_ifs with hedge
  · refine Vga.Over.cursorDown hg ⟨⟨h.shows.cells, h.shows.line, rfl, h.shows.color,
      h.shows.mark⟩, ⟨?_, h.on.y_lt⟩, h.below, h.outside⟩
    change 0 < _
    omega
  · have hnext : (v.cursor.x + 1).toNat = v.cursor.x.toNat + 1 := by bv_omega
    refine ⟨⟨h.shows.cells, h.shows.line, ?_, h.shows.color, h.shows.mark⟩,
      ⟨?_, h.on.y_lt⟩, h.below, h.outside⟩
    · change p.column + 1 = (v.cursor.x + 1).toNat
      omega
    · change (v.cursor.x + 1).toNat < _
      omega

/-- A character is put where the cursor is. -/
theorem Vga.Over.put (h : v.Over g mem p) (c : BitVec 16) :
    Vga.Over g mem
      { v with mem := storeCell v.mem (vgaAlphaCharPtr g v.cursor.x v.cursor.y) c }
      (p.put c) := by
  have harea := hg.area_le
  have hline := h.shows.line
  have hcolumn := h.shows.column
  have hat := cell_lt h.on.x_lt h.on.y_lt
  rw [vgaAlphaCharPtr_eq]
  refine ⟨⟨fun y hy x hx => ?_, hline, hcolumn, h.shows.color, h.shows.mark⟩, h.on,
    fun l x hl => ?_, h.outside.trans (screenOnly_write _ ?_)⟩
  · have hcell := cell_lt hx hy
    change cellAt (storeCell _ _ _) _ = Function.update p.cells p.line _ (p.top + y) x
    simp only [cellAt_storeCell _ _ (by omega : v.cursor.y.toNat * g.columns.toNat
      + v.cursor.x.toNat < 2 ^ 30) (by omega : y * g.columns.toNat + x < 2 ^ 30),
      cell_inj h.on.x_lt hx]
    by_cases hyy : v.cursor.y.toNat = y
    · rw [hline, hyy, Function.update_self]
      by_cases hxx : v.cursor.x.toNat = x
      · rw [if_pos ⟨rfl, hxx⟩, hcolumn, hxx, Function.update_self]
      · rw [if_neg fun hboth => hxx hboth.2, hcolumn, Function.update_of_ne fun heq => hxx heq.symm]
        exact h.shows.cells y hy x hx
    · rw [if_neg fun hboth => hyy hboth.1, hline, Function.update_of_ne (by omega)]
      exact h.shows.cells y hy x hx
  · have hy := h.on.y_lt
    change Function.update p.cells p.line _ l x = 0
    rw [Function.update_of_ne (by change p.top + _ ≤ l at hl; omega)]
    exact h.below l x hl
  · simp only [List.length_cons, List.length_nil]
    omega

/-- The CRTC is told where the cursor is. -/
theorem Vga.Over.updateCursor (h : v.Over g mem p) :
    (v.updateCursor g).Over g mem (p.showCursor g.columns.toNat) := by
  have harea := hg.area_le
  have hat := cell_lt h.on.x_lt h.on.y_lt
  have hline := h.shows.line
  refine ⟨⟨h.shows.cells, hline, h.shows.column, h.shows.color, fun n hn => ?_⟩, h.on, h.below,
    h.outside⟩
  obtain rfl : (p.line - p.top) * g.columns.toNat + p.column = n := Option.some.inj hn
  simp only [Vga.updateCursor, Vga.crtcWrite]
  rw [Function.update_of_ne (by decide), Function.update_self, Function.update_self, append_bytes,
    h.shows.column, hline, Nat.add_sub_cancel_left]
  refine BitVec.eq_of_toNat_eq ?_
  rw [BitVec.toNat_setWidth, BitVec.toNat_add, BitVec.toNat_mul, BitVec.toNat_ofNat]
  omega

theorem Vga.Over.act (h : v.Over g mem p) {a : VgaAction} (ha : a.OnScreen g) :
    (v.act g a).Over g mem (p.act g.rows.toNat g.columns.toNat a) := by
  have hrows := hg.rows_ge
  have hcols := hg.columns_ge
  cases a with
  | writechar c =>
    refine Vga.Over.updateCursor hg ?_
    split_ifs
    · refine ⟨⟨h.shows.cells, h.shows.line, rfl, h.shows.color, h.shows.mark⟩,
        ⟨?_, h.on.y_lt⟩, h.below, h.outside⟩
      change 0 < _
      omega
    · exact h.cursorDown hg
    · rw [h.shows.color]
      exact (h.put hg _).cursorRight hg
  | color c =>
    exact ⟨⟨h.shows.cells, h.shows.line, h.shows.column, rfl, h.shows.mark⟩, h.on, h.below,
      h.outside⟩
  | clear =>
    obtain ⟨hcells, honly⟩ := @clear_mem g hg v
    refine ⟨⟨fun y hy x hx => ?_, h.shows.line, h.shows.column, h.shows.color, h.shows.mark⟩, h.on,
      fun l x hl => ?_, h.outside.trans honly⟩
    · refine (hcells _ (cell_lt hx hy)).trans (if_pos ?_).symm
      exact ⟨Nat.le_add_right _ _, Nat.add_lt_add_left hy _⟩
    · refine (if_neg fun hin => ?_).trans (h.below l x hl)
      exact absurd hin.2 (Nat.not_lt.2 hl)
  | home =>
    refine ⟨⟨h.shows.cells, rfl, rfl, h.shows.color, h.shows.mark⟩, ⟨?_, ?_⟩, h.below, h.outside⟩
    · change 0 < _
      omega
    · change 0 < _
      omega
  | moveTo x y =>
    exact ⟨⟨h.shows.cells, rfl, rfl, h.shows.color, h.shows.mark⟩, ⟨ha.1, ha.2⟩, h.below,
      h.outside⟩
  | updateCursor => exact h.updateCursor hg

end Over

/-- It starts with what is on the screen. -/
theorem Vga.Over.start (bios : BiosData) (mem : Mem 32) (crtc : Byte → Byte) :
    (Vga.init bios mem crtc).Over (vgaMode bios) mem
      ((Vga.init bios mem crtc).paper (vgaMode bios)) where
  shows := ⟨fun y hy x _ => by simp only [Vga.paper, Nat.zero_add, if_pos hy],
    (Nat.zero_add _).symm, rfl, rfl, nofun⟩
  on := vgaInit_on bios
  below l x hl := if_neg (by simpa [Vga.paper] using hl)
  outside _ _ := rfl

/-- Whatever is written, cleared and placed, the screen shows the paper, and no other memory changes.
The CRTC's cursor stands where the last `vga_writechar` or `vga_update_cursor` left it, wherever
`vga_home` and placements have gone since. -/
theorem screen_shows_paper (bios : BiosData) (mem : Mem 32) (crtc : Byte → Byte)
    {actions : List VgaAction} (h : ∀ a ∈ actions, a.OnScreen (vgaMode bios)) :
    let g := vgaMode bios
    let v := Vga.init bios mem crtc
    let v' := actions.foldl (Vga.act g) v
    v'.Shows g (actions.foldl (Paper.act g.rows.toNat g.columns.toNat) (v.paper g))
      ∧ v'.cursor.On g ∧ ScreenOnly g mem v'.mem := by
  intro g v v'
  have hover : v'.Over g mem
      (actions.foldl (Paper.act g.rows.toNat g.columns.toNat) (v.paper g)) :=
    List.foldl_rel (r := Vga.Over g mem) (Vga.Over.start bios mem crtc) fun a ha _ _ hover =>
      hover.act (vgaMode_usual bios) (h a ha)
  exact ⟨hover.shows, hover.on, hover.outside⟩

/-- Two lines are written at the foot of a screen of 32 columns, under a heading, over memory that
is empty. -/
theorem screen_shows_paper_two_lines :
    let bios : BiosData := ⟨9, 32, 0, 9⟩
    let mem : Mem 32 := fun _ => 0
    let actions := [.clear, .home, .color 0x70] ++ (ascii "PCI devices present").map .writechar
      ++ [.moveTo 0 9, .color 7] ++ (ascii "one\r\ntwo\r\n").map .writechar
    let g := vgaMode bios
    let v := Vga.init bios mem fun _ => 0
    let v' := actions.foldl (Vga.act g) v
    v'.Shows g (actions.foldl (Paper.act g.rows.toNat g.columns.toNat) (v.paper g))
      ∧ v'.cursor.On g ∧ ScreenOnly g mem v'.mem :=
  screen_shows_paper _ (fun _ => 0) (fun _ => 0) (by decide)

end RemoteX86
