import Raster.Coverage.Row
import Raster.Scan.Edge
import Raster.Stage

/-!
# Sweeping edges

A sweep visits the sample rows of some edges from top to bottom.  On each row the
edges that cross it are sorted by their crossings, and a winding rule decides which
spans of samples between neighboring crossings are inside.  The spans of all sample
rows of a line of pixels make a row of coverage, which counts the samples inside
each pixel.
-/

namespace Raster

/-- Which regions of a path that meets itself are inside. -/
inductive WindingRule where
  /-- Those around which the path winds an odd number of times. -/
  | evenOdd
  /-- Those around which the path winds at all. -/
  | nonZero
deriving Repr, DecidableEq, Inhabited

namespace WindingRule

/-- Whether a region with a winding number is inside. -/
def isInside : WindingRule → Int → Bool
  | evenOdd, winding => winding % 2 ≠ 0
  | nonZero, winding => winding ≠ 0

end WindingRule

/-- Neighboring samples of a row, from `first` up to but excluding `stop`, counted
from the left edge of the clip box. -/
structure Span where
  first : Nat
  stop : Nat
deriving Repr, DecidableEq

namespace Span

/-- The number of samples of a span in a pixel of `columns` columns. -/
def samplesIn (span : Span) (columns pixel : Nat) : Nat :=
  min span.stop ((pixel + 1) * columns) - max span.first (pixel * columns)

/-- The first pixel that has a sample of the span. -/
def firstPixel (span : Span) (columns : Nat) : Nat :=
  span.first / columns

/-- The last pixel that has a sample of the span, which is not empty. -/
def lastPixel (span : Span) (columns : Nat) : Nat :=
  (span.stop - 1) / columns

end Span

/-- How a path is scanned. -/
structure ScanFrame where
  grid : Grid
  rule : WindingRule
  clip : PixelBox
deriving Repr, DecidableEq

/-- The edges of a sweep: those whose rows lie ahead, and those that cross the
current row. -/
structure Sweep where
  waiting : List Edge
  active : List Edge
deriving Repr, DecidableEq

namespace Sweep

/-- Inserts an edge in front of the first one that does not cross left of it. -/
def insert (edge : Edge) : List Edge → List Edge
  | [] => [edge]
  | next :: rest => if edge.x ≤ next.x then edge :: next :: rest else next :: insert edge rest

/-- Edges in the order of their crossings, rounded down; edges with the same
crossing keep their order. -/
def sort (edges : List Edge) : List Edge :=
  edges.foldr insert []

/-- The sweep on a row: edges that begin there join, edges that ended before leave,
and the others are put in order. -/
def enter (sweep : Sweep) (row : Int) : Sweep :=
  let (entering, waiting) := sweep.waiting.partition fun edge => edge.firstRow ≤ row
  let crossing := (sweep.active ++ entering).filter fun edge => row < edge.stopRow
  { waiting := waiting, active := sort crossing }

/-- The sweep with its edges stepped to the next row. -/
def leave (sweep : Sweep) : Sweep :=
  { sweep with active := sweep.active.map Edge.advance }

/-! ## Spans -/

/-- The samples between two crossings that lie in the clip box. -/
def spanBetween? (frame : ScanFrame) (left right : Edge) : Option Span :=
  let columns : Int := frame.grid.columns
  let first := max left.column (frame.clip.left * columns)
  let stop := min right.column (frame.clip.right * columns)
  if first < stop then
    some
      { first := (first - frame.clip.left * columns).toNat
        stop := (stop - frame.clip.left * columns).toNat }
  else
    none

/-- The spans inside a path, given the winding number left of some sorted edges. -/
def spans (frame : ScanFrame) (winding : Int) : List Edge → List Span
  | left :: right :: rest =>
      let winding := winding + left.direction
      let here :=
        if frame.rule.isInside winding then (spanBetween? frame left right).toList else []
      here ++ spans frame winding (right :: rest)
  | _ => []

/-- Visits one sample row. -/
def sampleRow (frame : ScanFrame) (sweep : Sweep) (row : Int) : Sweep × List Span :=
  let entered := sweep.enter row
  (entered.leave, spans frame 0 entered.active)

/-! ## Coverage -/

/-- The coverage of a line of pixels with the samples of a span added.  A coverage
is a byte and wraps around. -/
def accumulate (columns : Nat) (coverage : Array Nat) (span : Span) : Array Nat :=
  let first := span.firstPixel columns
  let count := span.lastPixel columns + 1 - first
  (List.range' first count).foldl (fun coverage pixel =>
    coverage.modify pixel fun samples => (samples + span.samplesIn columns pixel) % 256)
    coverage

/-- The pixels from the first to the last one that has a sample of some spans. -/
def touched? (columns : Nat) (spans : List Span) : Option (Nat × Nat) :=
  match (spans.map (Span.firstPixel · columns)).min?,
      (spans.map (Span.lastPixel · columns)).max? with
  | some first, some last => some (first, last)
  | _, _ => none

/-- The row of coverage of the line `y`, if its spans have any sample. -/
def coverageRow? (frame : ScanFrame) (y : Int) (spans : List Span) : Option CoverageRow :=
  let columns := frame.grid.columns
  match touched? columns spans with
  | none => none
  | some (first, last) =>
      let clear := Array.replicate frame.clip.width.toNat 0
      let coverage := spans.foldl (accumulate columns) clear
      some
        { x := frame.clip.left + first
          y := y
          values := (coverage.extract first (last + 1)).toList }

/-- The integers from `first` up to but excluding `stop`. -/
def interval (first stop : Int) : List Int :=
  (List.range (stop - first).toNat).map fun (index : Nat) => first + index

/-- The sample rows of the line `y`. -/
def sampleRowsOf (grid : Grid) (y : Int) : List Int :=
  interval (y * grid.rows) ((y + 1) * grid.rows)

/-- Visits the sample rows of the line `y`. -/
def pixelRow (frame : ScanFrame) (sweep : Sweep) (y : Int) : Sweep × List CoverageRow :=
  let (next, spans) := Stage.run (sampleRow frame) sweep (sampleRowsOf frame.grid y)
  (next, (coverageRow? frame y spans).toList)

/-- The lines of pixels that some edges cross, from the first to the last. -/
def linesOf (grid : Grid) (edges : List Edge) : List Int :=
  match (edges.map (·.firstRow)).min?, (edges.map (·.stopRow)).max? with
  | some first, some stop => interval (first / grid.rows) ((stop - 1) / grid.rows + 1)
  | _, _ => []

/-- The coverage of a path, given its edges. -/
def coverageRows (frame : ScanFrame) (edges : List Edge) : List CoverageRow :=
  if frame.clip.isEmpty then
    []
  else
    (Stage.run (pixelRow frame) ⟨edges, []⟩ (linesOf frame.grid edges)).2

/-- The pixels of some rows. -/
def boxOf (rows : List CoverageRow) : Option PixelBox :=
  rows.foldl (fun box row =>
    match box with
    | some box => some (box.union row.box)
    | none => some row.box) none

end Sweep

end Raster
