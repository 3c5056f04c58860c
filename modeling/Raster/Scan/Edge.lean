import Raster.PixelBox

/-!
# Edges

Each pixel is divided into a grid of samples, which lie at the centers of equal
cells.  An edge is a segment of a path on the sample rows of a clip box.  Its
crossing with the current row is kept as a quotient and a remainder, and both are
stepped exactly from row to row.

Coordinates are in cells; fractions of a cell are in units of `1 / 65536`.
-/

namespace Raster

/-- The samples of a pixel: `2 ^ lgX` columns and `2 ^ lgY` rows. -/
structure Grid where
  lgX : Nat
  lgY : Nat
deriving Repr, DecidableEq, Inhabited

namespace Grid

/-- The greatest logarithm of a number of columns or rows. -/
def maxLg : Nat := 3

/-- The finest grid. -/
def finest : Grid := ⟨maxLg, maxLg⟩

/-- The grid of one sample per pixel. -/
def single : Grid := ⟨0, 0⟩

/-- The grid nearest to the asked one. -/
def limited (lgX lgY : Nat) : Grid := ⟨min lgX maxLg, min lgY maxLg⟩

/-- The number of columns of a pixel. -/
def columns (grid : Grid) : Nat := Nat.pow 2 grid.lgX

/-- The number of rows of a pixel. -/
def rows (grid : Grid) : Nat := Nat.pow 2 grid.lgY

/-- The number of samples of a pixel. -/
def maxCoverage (grid : Grid) : Nat := grid.columns * grid.rows

end Grid

/-- The first sample whose center is at or after a position. -/
def sampleAtOrAfter (position : Int) : Int :=
  (position + 32767) / 65536

/-- A segment that crosses sample rows. -/
@[ext]
structure Edge where
  /-- The first row that the edge crosses. -/
  firstRow : Int
  /-- The row after the last one that it crosses. -/
  stopRow : Int
  /-- The position of the crossing on the current row, rounded down. -/
  x : Int
  /-- What rounding left out, in units of `1 / dy`. -/
  remainder : Int
  /-- The step of the position from row to row, rounded down. -/
  step : Int
  stepRemainder : Int
  dy : Int
  /-- `1` for a downward edge and `-1` for an upward one. -/
  direction : Int
deriving Repr, DecidableEq

namespace Edge

/-- The edge from `(xa, ya)` down to `(xb, yb)` on the rows from `firstRow` up to but
excluding `stopRow`, which lie between the two points. -/
def between (xa ya xb yb firstRow stopRow direction : Int) : Edge :=
  let dy := yb - ya
  let dx := xb - xa
  let offset := (firstRow * 65536 + 32768 - ya) * dx
  { firstRow := firstRow
    stopRow := stopRow
    x := xa + offset / dy
    remainder := offset % dy
    step := dx * 65536 / dy
    stepRemainder := dx * 65536 % dy
    dy := dy
    direction := direction }

/-- The edge of a segment on the rows of a clip box, if it crosses any. -/
def ofSegment? (grid : Grid) (clip : PixelBox) (source target : Point) : Option Edge :=
  let columns : Int := grid.columns
  let rows : Int := grid.rows
  let downward := source.y * rows ≤ target.y * rows
  let upper := if downward then source else target
  let lower := if downward then target else source
  let ya := upper.y * rows
  let yb := lower.y * rows
  let firstRow := max (sampleAtOrAfter ya) (clip.top * rows)
  let stopRow := min (sampleAtOrAfter yb) (clip.bottom * rows)
  if firstRow < stopRow then
    some (between (upper.x * columns) ya (lower.x * columns) yb firstRow stopRow
      (if downward then 1 else -1))
  else
    none

/-- The first sample column at or right of the crossing. -/
def column (edge : Edge) : Int :=
  (edge.x + 32767 + (if edge.remainder > 0 then 1 else 0)) / 65536

/-- The edge on the next row. -/
def advance (edge : Edge) : Edge :=
  let remainder := edge.remainder + edge.stepRemainder
  if remainder ≥ edge.dy then
    { edge with x := edge.x + edge.step + 1, remainder := remainder - edge.dy }
  else
    { edge with x := edge.x + edge.step, remainder := remainder }

end Edge

end Raster
