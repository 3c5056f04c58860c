import Raster.Scan.Edge
import Raster.Scan.RectProbe
import Raster.Surface

/-!
# Filling rectangles

An axis-aligned rectangle covers a rectangle of samples, whose number in each pixel
is a product.  Such a path needs no sweep.
-/

namespace Raster

/-- A rectangle of samples, from `left`, `top` up to but excluding `right`,
`bottom`. -/
structure CellRect where
  left : Int
  top : Int
  right : Int
  bottom : Int
deriving Repr, DecidableEq

namespace CellRect

/-- The first sample at or after a coordinate, limited to the samples of the pixels
from `low` up to but excluding `high`. -/
def cell (perPixel : Nat) (low high coordinate : Int) : Int :=
  min (max (sampleAtOrAfter (coordinate * perPixel)) (low * perPixel)) (high * perPixel)

/-- The samples of a rectangle that lie in a clip box. -/
def ofRect (grid : Grid) (clip : PixelBox) (rect : Rect) : CellRect :=
  { left := cell grid.columns clip.left clip.right rect.left
    top := cell grid.rows clip.top clip.bottom rect.top
    right := cell grid.columns clip.left clip.right rect.right
    bottom := cell grid.rows clip.top clip.bottom rect.bottom }

/-- Whether there is no sample. -/
def isEmpty (cells : CellRect) : Bool :=
  cells.right ≤ cells.left || cells.bottom ≤ cells.top

/-- The pixels that have a sample, if there is any. -/
def box (grid : Grid) (cells : CellRect) : PixelBox :=
  { left := cells.left / grid.columns
    top := cells.top / grid.rows
    right := (cells.right - 1) / grid.columns + 1
    bottom := (cells.bottom - 1) / grid.rows + 1 }

/-- The number of samples from `first` up to but excluding `stop` in a pixel that has
at least one of them. -/
def samplesIn (perPixel : Nat) (first stop pixel : Int) : Nat :=
  (min stop ((pixel + 1) * perPixel) - max first (pixel * perPixel)).toNat

/-- The integers from `first` to `last`. -/
def pixels (first last : Int) : List Int :=
  (List.range (last + 1 - first).toNat).map fun (index : Nat) => first + index

/-- The number of sample columns of a rectangle in a pixel of a line, whose pixels lie
between `first` and `last`.  An inner pixel of a line that is covered from top to bottom
has all of them. -/
def columnsIn (grid : Grid) (cells : CellRect) (first last : Int) (fullLine : Bool)
    (pixel : Int) : Nat :=
  if first < pixel ∧ pixel < last ∧ fullLine then
    grid.columns
  else
    samplesIn grid.columns cells.left cells.right pixel

/-- The touches that fill the pixels of a surface with one color. -/
def touches (grid : Grid) (cells : CellRect) (width height : Nat) (alphas : Array Nat)
    (argb : Nat) : Except Fault (List Touch) :=
  if cells.isEmpty then
    .ok []
  else
    let box := cells.box grid
    let left := max box.left 0
    let right := min (box.right - 1) (width - 1)
    let lines := pixels (max box.top 0) (min (box.bottom - 1) (height - 1))
    let positions := lines.flatMap fun y => (pixels left right).map fun x => (x, y)
    positions.mapM fun (x, y) => do
      let rows := samplesIn grid.rows cells.top cells.bottom y
      let columns := columnsIn grid cells left right (rows = grid.rows) x
      pure ⟨x, y, ← Alpha.lookup alphas (columns * rows), argb⟩

end CellRect

end Raster
