import RemoteX86.Lib.Emitting
import RemoteX86.Lib.Hex

/-!
# The text screen

`eth/vga.c` as far as it says where characters are stored, and `vga_clear` and `vga_home` of
`eth/c-main.c`.  The stores of a step come in order, each with the cursor as it is then; what is
stored, and what the CRTC is told of the cursor, is left out.
-/

namespace RemoteX86

open Hex Emitting

/-- `VGA_alpha_rows` and `VGA_alpha_columns`, which only `vga_init` sets. -/
structure TextMode where
  rows : BitVec 32
  columns : BitVec 32
  deriving DecidableEq, Repr

/-- `VGA_alpha_x` and `VGA_alpha_y` -/
structure Cursor where
  x : BitVec 32
  y : BitVec 32
  deriving DecidableEq, Repr

/-- A character stored, and the cursor at the time. -/
structure CellStore where
  address : BitVec 32
  cursor : Cursor
  deriving DecidableEq, Repr

/-- It goes to a character of the screen, and the cursor is on the screen. -/
def CellStore.OnScreen (g : TextMode) (w : CellStore) : Prop :=
  (∃ i < g.rows.toNat * g.columns.toNat, w.address = 0xB8000 + 2 * BitVec.ofNat 32 i)
    ∧ w.cursor.x < g.columns ∧ w.cursor.y < g.rows

/-! ## Output -/

section Output

variable (g : TextMode)

/-- `VGA_alpha`, a `vga_char_t *`. -/
def vgaAlpha : BitVec 32 := 0xB8000

def vgaAlphaCharPtr (x y : BitVec 32) : BitVec 32 := vgaAlpha + 2 * (y * g.columns) + 2 * x

/-- Stores to `n` characters from `ptr` on. -/
def storeCells (ptr : BitVec 32) (n : ℕ) (c : Cursor) : Cursor × List CellStore :=
  (c, (List.range n).map fun i => ⟨ptr + 2 * BitVec.ofNat 32 i, c⟩)

/-- The `memcpy` and the `memset`, whose sizes are in bytes. -/
def vgaScrollup : Cursor → Cursor × List CellStore :=
  andThen (storeCells vgaAlpha (((g.rows - 1) * g.columns * 2).toNat / 2))
    (storeCells (vgaAlpha + 2 * ((g.rows - 1) * g.columns)) ((g.columns * 2).toNat / 2))

def vgaCursorDown (c : Cursor) : Cursor × List CellStore :=
  if g.rows ≤ c.y + 1 then vgaScrollup g { c with y := g.rows - 1 }
  else ({ c with y := c.y + 1 }, [])

def vgaCursorRight (c : Cursor) : Cursor × List CellStore :=
  if g.columns ≤ c.x + 1 then vgaCursorDown g { c with x := 0 }
  else ({ c with x := c.x + 1 }, [])

/-- A character at the cursor, which goes on. -/
def vgaStorechar : Cursor → Cursor × List CellStore :=
  andThen (fun c => (c, [⟨vgaAlphaCharPtr g c.x c.y, c⟩])) (vgaCursorRight g)

def vgaWritechar (ch : Byte) (c : Cursor) : Cursor × List CellStore :=
  if ch = 13 then ({ c with x := 0 }, [])
  else if ch = 10 then vgaCursorDown g c
  else vgaStorechar g c

def vgaWrite : List Byte → Cursor → Cursor × List CellStore := each (vgaWritechar g)

def vgaClear : Cursor → Cursor × List CellStore := storeCells vgaAlpha (g.rows * g.columns).toNat

def vgaHome : Cursor → Cursor × List CellStore := silently fun _ => ⟨0, 0⟩

end Output

/-! ## Starting -/

/-- The bytes of the BIOS data area at 84h, 50h and 51h, and the word at 4Ah. -/
structure BiosData where
  lastRow : Byte
  columns : BitVec 16
  cursorX : Byte
  cursorY : Byte

/-- The rows and columns `vga_init` selects. -/
def vgaMode (bios : BiosData) : TextMode :=
  let biosRows := bios.lastRow + 1
  let biosCols := bios.columns.setWidth 8
  if (biosCols = 40 ∨ biosCols = 80 ∨ biosCols = 32) ∧ 10 ≤ biosRows ∧ biosRows ≤ 60 then
    { rows := biosRows.setWidth 32, columns := biosCols.setWidth 32 }
  else { rows := 80, columns := 25 }

/-- `vga_init` -/
def vgaInit (bios : BiosData) : Cursor :=
  let g := vgaMode bios
  let x := bios.cursorX.setWidth 32
  let y := bios.cursorY.setWidth 32
  if x < g.columns ∧ y < g.rows then ⟨x, y⟩ else ⟨0, g.rows - 1⟩

end RemoteX86
