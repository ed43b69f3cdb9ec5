import RemoteX86.Lib.Copy
import RemoteX86.Screen

/-!
# What the screen shows

`eth/vga.c` with what it stores: the characters in text memory, the colour they are written in and
the cursor registers of the CRTC, together with `vga_clear`, `vga_home` and `vga_color` of
`eth/c-main.c`.  `memcpy` is the one built into the compiler, which moves upwards.

What it is for is a sheet of paper without an end, written on line by line.  Nothing on it ever
moves; the screen is laid over it and moves on to the next line when the writing comes to its foot.
-/

namespace RemoteX86

open Hex Memory

/-! ## The display -/

/-- `crtc` holds the registers of the CRTC, which are written by their index. -/
structure Vga where
  cursor : Cursor
  color : Byte
  mem : Mem 32
  crtc : Byte → Byte

/-- A `vga_char_t`, the lower byte first. -/
def storeCell (m : Mem 32) (p : BitVec 32) (c : BitVec 16) : Mem 32 :=
  write m p [c.setWidth 8, (c >>> 8).setWidth 8]

def cellAt (m : Mem 32) (p : BitVec 32) : BitVec 16 := m (p + 1) ++ m p

/-- Where the `i`-th character of the screen is. -/
def screenCell (i : ℕ) : BitVec 32 := vgaAlpha + BitVec.ofNat 32 (2 * i)

def memcpy (m : Mem 32) (dst src c : BitVec 32) : Mem 32 := copyUp 1 m dst src c.toNat

def memset (m : Mem 32) (dst : BitVec 32) (c : Byte) (l : BitVec 32) : Mem 32 :=
  write m dst (List.replicate l.toNat c)

namespace Vga

section Output

variable (g : TextMode)

/-- `vga_crtc_write`: the index goes to one port and the value to the other. -/
def crtcWrite (index val : Byte) (v : Vga) : Vga :=
  { v with crtc := Function.update v.crtc index val }

def updateCursor (v : Vga) : Vga :=
  let cursorPos := v.cursor.y * g.columns + v.cursor.x
  crtcWrite 0x0F (cursorPos.setWidth 8) (crtcWrite 0x0E ((cursorPos >>> 8).setWidth 8) v)

def scrollup (v : Vga) : Vga :=
  let last := vgaAlpha + 2 * ((g.rows - 1) * g.columns)
  let mem := memcpy v.mem vgaAlpha (vgaAlpha + 2 * g.columns) ((g.rows - 1) * g.columns * 2)
  { v with mem := memset mem last 0 (g.columns * 2) }

def cursorDown (v : Vga) : Vga :=
  if g.rows ≤ v.cursor.y + 1 then scrollup g { v with cursor := ⟨v.cursor.x, g.rows - 1⟩ }
  else { v with cursor := ⟨v.cursor.x, v.cursor.y + 1⟩ }

def cursorRight (v : Vga) : Vga :=
  if g.columns ≤ v.cursor.x + 1 then cursorDown g { v with cursor := ⟨0, v.cursor.y⟩ }
  else { v with cursor := ⟨v.cursor.x + 1, v.cursor.y⟩ }

def writechar (c : Byte) (v : Vga) : Vga :=
  updateCursor g
    (if c = 13 then { v with cursor := ⟨0, v.cursor.y⟩ }
    else if c = 10 then cursorDown g v
    else cursorRight g { v with
      mem := storeCell v.mem (vgaAlphaCharPtr g v.cursor.x v.cursor.y) (v.color ++ c) })

/-- `vga_write` -/
def writes (s : List Byte) (v : Vga) : Vga := s.foldl (fun v c => writechar g c v) v

def clear (v : Vga) : Vga :=
  let store mem x := storeCell mem (vgaAlpha + 2 * BitVec.ofNat 32 x) 0x0720
  { v with mem := (List.range (g.rows * g.columns).toNat).foldl store v.mem }

end Output

/-- The display `vga_init` leaves, whose memory and CRTC are as they were. -/
def init (bios : BiosData) (mem : Mem 32) (crtc : Byte → Byte) : Vga where
  cursor := vgaInit bios
  color := 7
  mem := mem
  crtc := crtc

end Vga

/-- What is done with the display.  `moveTo` sets `VGA_alpha_x` and `VGA_alpha_y`. -/
inductive VgaAction where
  | writechar (c : Byte)
  | color (c : Byte)
  | clear
  | home
  | moveTo (x y : BitVec 32)
  | updateCursor
  deriving DecidableEq, Repr

def Vga.act (g : TextMode) (v : Vga) : VgaAction → Vga
  | .writechar c => v.writechar g c
  | .color c => { v with color := c }
  | .clear => v.clear g
  | .home => { v with cursor := ⟨0, 0⟩ }
  | .moveTo x y => { v with cursor := ⟨x, y⟩ }
  | .updateCursor => v.updateCursor g

/-- The cursor is not moved off the screen. -/
def VgaAction.OnScreen (g : TextMode) : VgaAction → Prop
  | .moveTo x y => x < g.columns ∧ y < g.rows
  | _ => True

instance (g : TextMode) : DecidablePred (VgaAction.OnScreen g) := fun a => by
  cases a <;> unfold VgaAction.OnScreen <;> infer_instance

/-! ## The paper -/

/-- A sheet without an end, its characters by line and column.  `top` is the first line the screen
lies over, and `mark` where on the screen the cursor has last been shown. -/
structure Paper where
  cells : ℕ → ℕ → BitVec 16
  line : ℕ
  column : ℕ
  top : ℕ
  color : Byte
  mark : Option ℕ

namespace Paper

variable (height width : ℕ)

/-- The screen moves on as far as it has to. -/
def lineFeed (p : Paper) : Paper :=
  { p with line := p.line + 1, top := max p.top (p.line + 2 - height) }

def advance (p : Paper) : Paper :=
  if p.column + 1 = width then { p with column := 0 }.lineFeed height
  else { p with column := p.column + 1 }

def put (c : BitVec 16) (p : Paper) : Paper :=
  { p with cells := Function.update p.cells p.line (Function.update (p.cells p.line) p.column c) }

def showCursor (p : Paper) : Paper :=
  { p with mark := some ((p.line - p.top) * width + p.column) }

def act (p : Paper) : VgaAction → Paper
  | .writechar c =>
    (if c = 13 then { p with column := 0 }
      else if c = 10 then p.lineFeed height
      else (p.put (p.color ++ c)).advance height width).showCursor width
  | .color c => { p with color := c }
  -- blanks in grey, over what is seen and no more
  | .clear => { p with
      cells := fun l x => if p.top ≤ l ∧ l < p.top + height then 0x0720 else p.cells l x }
  | .home => { p with line := p.top, column := 0 }
  | .moveTo x y => { p with line := p.top + y.toNat, column := x.toNat }
  | .updateCursor => p.showCursor width

end Paper

/-- The paper under the display when the program starts; what is below the screen is empty. -/
def Vga.paper (g : TextMode) (v : Vga) : Paper where
  cells l x :=
    if l < g.rows.toNat then cellAt v.mem (screenCell (l * g.columns.toNat + x)) else 0
  line := v.cursor.y.toNat
  column := v.cursor.x.toNat
  top := 0
  color := v.color
  mark := none

/-- The screen shows the paper from `top` on, with the cursor and the mark where they are on it. -/
structure Vga.Shows (g : TextMode) (v : Vga) (p : Paper) : Prop where
  cells : ∀ y < g.rows.toNat, ∀ x < g.columns.toNat,
    cellAt v.mem (screenCell (y * g.columns.toNat + x)) = p.cells (p.top + y) x
  line : p.line = p.top + v.cursor.y.toNat
  column : p.column = v.cursor.x.toNat
  color : p.color = v.color
  mark : ∀ n, p.mark = some n → v.crtc 0x0E ++ v.crtc 0x0F = BitVec.ofNat 16 n

/-- No memory but the screen's has changed. -/
def ScreenOnly (g : TextMode) (m m' : Mem 32) : Prop :=
  ∀ a, 2 * (g.rows.toNat * g.columns.toNat) ≤ (a - vgaAlpha).toNat → m' a = m a

end RemoteX86
