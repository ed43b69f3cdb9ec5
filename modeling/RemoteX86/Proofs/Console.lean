import RemoteX86.Console
import RemoteX86.Proofs.Screen

/-!
# The menus stay on the screen

While an address is entered the cursor stands behind the text.  Once the text fills a row the cursor is
back in column 0, and the next edit puts it off the screen: a character goes to the column behind the
last one, a backspace to the one in front of the first.  Nothing else takes the cursor off the screen.
-/

namespace RemoteX86

open Hex Emitting

/-! ## Texts and cursors -/

section Text

variable {g : TextMode}

theorem vgaWritechar_addressChar {a : Byte} (h : IsAddressChar a) :
    vgaWritechar g a = vgaStorechar g := by
  refine vgaWritechar_of_ne ?_ ?_ <;> rintro rfl <;> revert h <;> decide

/-- Behind the texts of `change_ip_addr_ui` the cursor is in column 0. -/
theorem changeIpTexts_x (c : Cursor) : (vgaWrite g changeIpTexts c).1.x = 0 := by
  have hends : changeIpTexts = changeIpTexts.dropLast.dropLast ++ [13, 10] := by
    decide +kernel
  rw [hends, vgaWrite, each_append]
  exact vgaCursorDown_x _

/-- The column behind a text, the first one if the text fills a row. -/
def textColumn (g : TextMode) (input : List Byte) : BitVec 32 :=
  if input.length < g.columns.toNat then BitVec.ofNat 32 input.length else 0

theorem textColumn_nil (g : TextMode) : textColumn g [] = 0 := by
  unfold textColumn
  split_ifs <;> rfl

theorem toNat_ofNat_length {input : List Byte} (h : input.length ≤ g.columns.toNat) :
    (BitVec.ofNat 32 input.length).toNat = input.length := by
  have hlt := g.columns.isLt
  rw [BitVec.toNat_ofNat, Nat.mod_eq_of_lt (by omega)]

/-- In a row that is not full, a character may be added. -/
theorem Cursor.On.behind {c : Cursor} (hc : c.On g) {input : List Byte}
    (h : input.length < g.columns.toNat) :
    ({ c with x := BitVec.ofNat 32 input.length } : Cursor).On g := by
  refine ⟨?_, hc.y_lt⟩
  change (BitVec.ofNat 32 input.length).toNat < _
  rwa [toNat_ofNat_length h.le]

end Text

/-! ## Good consoles -/

section Good

variable {g : TextMode}

structure Console.Good (g : TextMode) (c : Console) : Prop where
  cursor : c.cursor.On g
  text : ∀ input, c.loop = .changeIp input →
    input.length ≤ g.columns.toNat ∧ c.cursor.x = textColumn g input

/-- A step that leaves a good console, and stores on the screen. -/
def Console.Keeps (g : TextMode) (r : Console × List CellStore) : Prop :=
  r.1.Good g ∧ ∀ w ∈ r.2, w.OnScreen g

theorem Console.Good.wait {c : Console} (h : c.Good g) {loop : ConsoleLoop}
    (hloop : ∀ input, loop = .changeIp input → c.loop = .changeIp input) :
    Console.Keeps g (c.wait loop) :=
  ⟨⟨h.cursor, fun input hi => h.text input (hloop input hi)⟩, by simp [Console.wait]⟩

/-- Drawing where no address is entered. -/
theorem Console.Good.draw {c : Console} (h : c.Good g) {f : Cursor → Cursor × List CellStore}
    (hf : Leads (CellStore.OnScreen g) (Cursor.On g) f (Cursor.On g)) {loop : ConsoleLoop}
    (hloop : ∀ input, loop ≠ .changeIp input) : Console.Keeps g (c.draw f loop) := by
  obtain ⟨hon, hstores⟩ := hf _ h.cursor
  exact ⟨⟨hon, fun input hi => absurd hi (hloop input)⟩, hstores⟩

/-- Drawing where the cursor ends up behind a text. -/
theorem Console.Good.draw_text {c : Console} (h : c.Good g) {f : Cursor → Cursor × List CellStore}
    (hf : Leads (CellStore.OnScreen g) (Cursor.On g) f (Cursor.On g)) {input : List Byte}
    (hlen : input.length ≤ g.columns.toNat) (hx : (f c.cursor).1.x = textColumn g input) :
    Console.Keeps g (c.draw f (.changeIp input)) := by
  obtain ⟨hon, hstores⟩ := hf _ h.cursor
  refine ⟨⟨hon, ?_⟩, hstores⟩
  rintro _ ⟨⟩
  exact ⟨hlen, hx⟩

variable (hg : g.Usual)

include hg

/-! ## The menu of PCI devices -/

variable (t : PciTable)

theorem pciRedraw_on (scroll : BitVec 32) :
    Leads (CellStore.OnScreen g) (Cursor.On g) (pciRedraw g t scroll) (Cursor.On g) := by
  have hrows := hg.rows_ge
  have hrows' := hg.rows_le
  have hcols := hg.columns_ge
  refine Leads.each _ fun y hy => Leads.andThen (Leads.silently fun _ _ => ⟨?_, ?_⟩)
    (vgaWrite_on hg _)
  · change 0 < _
    omega
  · have hlines : (pciLines g).toNat = g.rows.toNat - 8 := by
      unfold pciLines
      bv_omega
    have hy := List.mem_range.1 hy
    change (BitVec.ofNat 32 y + 1).toNat < _
    bv_omega

theorem pciBars_on (select : BitVec 32) :
    Leads (CellStore.OnScreen g) (Cursor.On g) (pciBars g t select) (Cursor.On g) :=
  (vgaClear_on hg).andThen ((vgaHome_on hg).andThen (vgaWrite_on hg _))

/-! ## Entering an address -/

theorem textColumn_append {input : List Byte} (h : input.length < g.columns.toNat) (a : Byte) :
    (if g.columns ≤ BitVec.ofNat 32 input.length + 1 then 0 else BitVec.ofNat 32 input.length + 1)
      = textColumn g (input ++ [a]) := by
  have hcols := hg.columns_le
  have hone : (BitVec.ofNat 32 input.length + 1).toNat = input.length + 1 := by
    have hlen := toNat_ofNat_length h.le
    bv_omega
  have hiff : g.columns ≤ BitVec.ofNat 32 input.length + 1 ↔ g.columns.toNat ≤ input.length + 1 := by
    rw [BitVec.le_def, hone]
  rw [textColumn, List.length_append, List.length_singleton, BitVec.ofNat_add]
  by_cases hfull : g.columns.toNat ≤ input.length + 1
  · rw [if_pos (hiff.2 hfull), if_neg (Nat.not_lt.2 hfull)]
  · rw [if_neg (mt hiff.1 hfull), if_pos (Nat.lt_of_not_le hfull)]
    rfl

/-- A digit or a dot behind a text that leaves room in its row. -/
theorem changeIp_append {c : Console} (h : c.Good g) {input : List Byte} {a : Byte}
    (ha : IsAddressChar a) (hroom : input.length < g.columns.toNat) :
    Console.Keeps g (c.draw (andThen
      (silently fun cur => { cur with x := BitVec.ofNat 32 input.length }) (vgaWritechar g a))
      (.changeIp (input ++ [a]))) := by
  have hx := vgaStorechar_x (g := g) { c.cursor with x := BitVec.ofNat 32 input.length }
  rw [textColumn_append hg hroom a] at hx
  refine h.draw_text ((Leads.silently fun _ hc => hc.behind hroom).andThen (vgaWritechar_on hg a))
    ?_ ?_
  · rw [List.length_append]
    exact hroom
  · rw [vgaWritechar_addressChar ha]
    exact hx

/-- A backspace in a row that is not full. -/
theorem changeIp_dropLast {c : Console} (h : c.Good g) {input : List Byte}
    (hx : c.cursor.x = textColumn g input) (hpos : 0 < input.length)
    (hroom : input.length < g.columns.toNat) :
    Console.Keeps g (c.draw (andThen (silently fun cur => { cur with x := cur.x - 1 })
      (andThen (vgaWritechar g 0x20) (silently fun cur => { cur with x := cur.x - 1 })))
      (.changeIp input.dropLast)) := by
  obtain ⟨init, a, rfl⟩ : ∃ init a, input = init ++ [a] :=
    ⟨input.dropLast, input.getLast (List.ne_nil_of_length_pos hpos),
      (List.dropLast_append_getLast _).symm⟩
  have hlen : init.length < g.columns.toNat := by
    rw [List.length_append, List.length_singleton] at hroom
    omega
  have hback : c.cursor.x - 1 = BitVec.ofNat 32 init.length := by
    rw [hx, textColumn, if_pos hroom, List.length_append, List.length_singleton, BitVec.ofNat_add]
    exact BitVec.add_sub_cancel _ _
  have hbehind := h.cursor.behind hlen
  rw [← hback] at hbehind
  obtain ⟨hon, hstores⟩ := vgaStorechar_on hg _ hbehind
  -- the blank takes the cursor back to where it was
  have hx' := vgaStorechar_x (g := g) { c.cursor with x := c.cursor.x - 1 }
  rw [hback, textColumn_append hg hlen a, ← hx] at hx'
  rw [vgaWritechar_of_ne (by decide) (by decide), List.dropLast_concat]
  have hend : (vgaStorechar g { c.cursor with x := c.cursor.x - 1 }).1.x - 1
      = BitVec.ofNat 32 init.length := by
    rw [hback, hx', hback]
  have hback' := h.cursor.behind hlen
  refine ⟨⟨⟨?_, hon.y_lt⟩, ?_⟩, fun w hw => ?_⟩
  · exact lt_of_eq_of_lt (congrArg BitVec.toNat hend) hback'.x_lt
  · rintro input' ⟨⟩
    refine ⟨hlen.le, hend.trans ?_⟩
    rw [textColumn, if_pos hlen]
  · -- the step of the cursor stores nothing
    simp only [Console.draw, andThen, silently, List.nil_append, List.append_nil] at hw
    exact hstores w hw

theorem changeIpKey_keeps {c : Console} (h : c.Good g) {input : List Byte}
    (hloop : c.loop = .changeIp input) {r : Byte}
    (hfits : EditsAddress input r → input.length < g.columns.toNat) :
    Console.Keeps g (changeIpKey g input r c) := by
  have hwait : Console.Keeps g (c.wait (.changeIp input)) :=
    h.wait fun input' hi => by rw [hloop, hi]
  rcases hr : keyb8042ToAscii r with _ | a
  · simpa only [changeIpKey, hr] using hwait
  · simp only [changeIpKey, hr]
    split_ifs with haddr hlen h8 hpos h13
    · exact changeIp_append hg h haddr (hfits (Or.inl ⟨a, hr, haddr, hlen⟩))
    · exact hwait
    · subst h8
      exact changeIp_dropLast hg h (h.text input hloop).2 hpos (hfits (Or.inr ⟨hr, hpos⟩))
    · exact hwait
    · exact ⟨⟨h.cursor, fun _ hi => nomatch hi⟩, by simp [Console.wait]⟩
    · exact hwait

/-- An edit of a text that fills a row. -/
theorem changeIpKey_off {c : Console} (h : c.Good g) {input : List Byte}
    (hloop : c.loop = .changeIp input) {r : Byte} (hedits : EditsAddress input r)
    (hfull : ¬ input.length < g.columns.toNat) :
    ∃ w ∈ (changeIpKey g input r c).2, ¬ w.OnScreen g := by
  obtain ⟨hle, hx⟩ := h.text input hloop
  rw [textColumn, if_neg hfull] at hx
  rcases hedits with ⟨a, hr, ha, hlen⟩ | ⟨hr, hpos⟩
  · simp only [changeIpKey, hr]
    rw [if_pos ha, if_pos hlen, vgaWritechar_addressChar ha]
    refine vgaStorechar_off (c := { c.cursor with x := BitVec.ofNat 32 input.length }) fun hlt => ?_
    exact hfull (toNat_ofNat_length hle ▸ BitVec.lt_def.1 hlt)
  · have haddr : ¬ IsAddressChar 8 := by decide
    simp only [changeIpKey, hr, if_neg haddr, if_pos hpos, if_true]
    rw [vgaWritechar_of_ne (by decide) (by decide)]
    obtain ⟨w, hw, hoff⟩ := vgaStorechar_off (g := g)
      (c := { c.cursor with x := c.cursor.x - 1 }) fun hlt => by
        have hlt : (c.cursor.x - 1).toNat < g.columns.toNat := hlt
        have hcols := hg.columns_le
        rw [hx] at hlt
        bv_omega
    exact ⟨w, List.mem_append_right _ (List.mem_append_left _ hw), hoff⟩

/-! ## Runs -/

theorem pciListKey_keeps {c : Console} (h : c.Good g) (select scroll : BitVec 32) (r : Byte) :
    Console.Keeps g (pciListKey g t select scroll r c) := by
  unfold pciListKey
  simp only []
  split_ifs
  · exact h.wait fun _ hi => nomatch hi
  · exact h.draw (pciRedraw_on hg t _) fun _ => nofun
  · exact h.draw (pciRedraw_on hg t _) fun _ => nofun
  · exact h.wait fun _ hi => nomatch hi
  · exact h.draw (pciRedraw_on hg t _) fun _ => nofun
  · exact h.draw (pciRedraw_on hg t _) fun _ => nofun
  · exact h.draw (pciBars_on hg t _) fun _ => nofun
  · exact h.wait fun _ hi => nomatch hi

theorem pciBarsKey_keeps {c : Console} (h : c.Good g) (select scroll : BitVec 32) (r : Byte) :
    Console.Keeps g (pciBarsKey g t select scroll r c) := by
  unfold pciBarsKey
  split_ifs
  · exact h.draw ((vgaClear_on hg).andThen (pciRedraw_on hg t _)) fun _ => nofun
  · exact h.wait fun _ hi => nomatch hi

theorem mainMenuKey_keeps {c : Console} (h : c.Good g) (r : Byte) :
    Console.Keeps g (mainMenuKey g t r c) := by
  unfold mainMenuKey
  split
  · exact h.wait fun _ hi => nomatch hi
  · split_ifs
    · exact h.draw (vgaWrite_on hg _) fun _ => nofun
    · exact h.draw ((vgaClear_on hg).andThen ((vgaHome_on hg).andThen
        ((vgaWrite_on hg _).andThen (pciRedraw_on hg t _)))) fun _ => nofun
    · exact h.draw_text (vgaWrite_on hg _) (Nat.zero_le _)
        ((changeIpTexts_x _).trans (textColumn_nil g).symm)
    · exact h.wait fun _ hi => nomatch hi
    · exact h.draw (vgaWrite_on hg _) fun _ => nofun

theorem Console.step_keeps {c : Console} (h : c.Good g) {e : ConsoleEvent} (hfits : c.Fits g e) :
    Console.Keeps g (c.step g t e) := by
  obtain ⟨cursor, loop, my⟩ := c
  cases e with
  | key r =>
    cases loop with
    | mainMenu => exact mainMenuKey_keeps hg t h r
    | pciList select scroll => exact pciListKey_keeps hg t h select scroll r
    | pciBars select scroll => exact pciBarsKey_keeps hg t h select scroll r
    | changeIp input => exact changeIpKey_keeps hg h rfl (hfits input rfl)
  | print s =>
    cases loop with
    | mainMenu => exact h.draw (vgaWrite_on hg s) fun _ => nofun
    | pciList => exact h.wait fun _ hi => hi ▸ rfl
    | pciBars => exact h.wait fun _ hi => hi ▸ rfl
    | changeIp => exact h.wait fun _ hi => hi ▸ rfl

theorem Console.step_off {c : Console} (h : c.Good g) {e : ConsoleEvent} (hfits : ¬ c.Fits g e) :
    ∃ w ∈ (c.step g t e).2, ¬ w.OnScreen g := by
  cases e with
  | print s => exact absurd trivial hfits
  | key r =>
    simp only [Console.Fits, not_forall] at hfits
    obtain ⟨input, hloop, hedits, hfull⟩ := hfits
    obtain ⟨w, hw, hoff⟩ := changeIpKey_off hg h hloop hedits hfull
    refine ⟨w, ?_, hoff⟩
    simpa only [Console.step, hloop] using hw

end Good

/-- Whatever is written and typed, the stores of a run stay on the screen exactly if no text is edited
while it fills a row. -/
theorem stores_onScreen_iff (bios : BiosData) (t : PciTable) (my : Ipv4Address)
    (events : List ConsoleEvent) :
    (∀ w ∈ (Console.run (vgaMode bios) t events (Console.init bios my)).2, w.OnScreen (vgaMode bios))
      ↔ EachAllowed (Console.step (vgaMode bios) t) (Console.Fits (vgaMode bios)) events
          (Console.init bios my) := by
  have hg := vgaMode_usual bios
  have hinit : (Console.init bios my).Good (vgaMode bios) :=
    ⟨vgaInit_on bios, fun _ hi => nomatch hi⟩
  refine emits_each_iff (I := Console.Good (vgaMode bios)) ?_ ?_ events _ hinit
  · intro c e hc hfits
    exact Console.step_keeps hg t hc hfits
  · intro c e hc hfits
    exact Console.step_off hg t hc hfits

/-! ## Texts that fill a row -/

/-- 25 rows of 40 columns, the cursor in the first row. -/
def fortyColumns : BiosData := { lastRow := 24, columns := 40, cursorX := 0, cursorY := 0 }

/-- `i`, 40 digits, and one key more. -/
def fullRowKeys (r : Byte) : List ConsoleEvent :=
  .key 0x17 :: List.replicate 40 (.key 0x02) ++ [.key r]

def fullRowStores (r : Byte) : List CellStore :=
  (Console.run (vgaMode fortyColumns) .empty (fullRowKeys r)
    (Console.init fortyColumns (List.Vector.replicate 4 0))).2

theorem fullRowStores_off {r : Byte}
    (h : (fullRowStores r).any (fun w => (vgaMode fortyColumns).columns ≤ w.cursor.x) = true) :
    ¬ ∀ w ∈ fullRowStores r, w.OnScreen (vgaMode fortyColumns) := by
  intro hall
  obtain ⟨w, hw, hx⟩ := List.any_eq_true.1 h
  exact BitVec.not_le.2 (hall w hw).2.1 (of_decide_eq_true hx)

/-- A 41st digit, and a backspace behind the 40th, are stored with the cursor off the screen. -/
theorem not_onScreen_full_row :
    (¬ ∀ w ∈ fullRowStores 0x02, w.OnScreen (vgaMode fortyColumns))
      ∧ ¬ ∀ w ∈ fullRowStores 0x0E, w.OnScreen (vgaMode fortyColumns) :=
  ⟨fullRowStores_off (by decide +kernel), fullRowStores_off (by decide +kernel)⟩

end RemoteX86
