import Raster.Scan.Sweep

/-!
# The loop of a sweep

A sweep runs as one loop over the sample rows, which works on the same data all along.  The edges
are sorted once by their first rows, and a cursor takes them in as their rows come.  The active
edges are sorted in place, by swapping neighbors.  One buffer counts the samples of each line, and
after a line only its touched pixels are cleared.  The buffers are kept from one path to the next,
so that they need not be allocated again, and cleared before each path.
-/

namespace Raster

namespace Sweep

/-! ## Sorting in place -/

/-- Moves the edge at a position to the left, past all edges that cross right of it. -/
def sink (active : Array Edge) : Nat → Array Edge
  | 0 => active
  | position + 1 =>
      match active[position]?, active[position + 1]? with
      | some left, some right =>
          if right.x < left.x then
            sink ((active.setIfInBounds position right).setIfInBounds (position + 1) left) position
          else
            active
      | _, _ => active

/-- Sorts edges by their crossings, rounded down.  Each edge sinks into those in front of it. -/
def sortInPlace (active : Array Edge) : Array Edge :=
  (List.range' 1 (active.size - 1)).foldl sink active

end Sweep

/-- A buffer of another length: elements are cut off, or zeros are put behind them. -/
def resized (buffer : Array Nat) (length : Nat) : Array Nat :=
  buffer.take length ++ Array.replicate (length - buffer.size) 0

/-! ## The loop -/

/-- What the loop works on. -/
structure SweepLoop where
  /-- The edges that the cursor has not passed, in the order of their first rows. -/
  waiting : List Edge
  active : Array Edge
  /-- The number of samples in each pixel of the clip box on a line. -/
  coverage : Array Nat
  /-- The first and the last pixel of the line that has a sample. -/
  touched : Option (Nat × Nat)

namespace SweepLoop

/-- Inserts an edge in front of the first one that does not begin above it. -/
def enqueue (edge : Edge) : List Edge → List Edge
  | [] => [edge]
  | next :: rest =>
      if edge.firstRow ≤ next.firstRow then edge :: next :: rest else next :: enqueue edge rest

/-- Edges in the order of their first rows; edges that begin on the same row keep their order. -/
def byFirstRow (edges : List Edge) : List Edge :=
  edges.foldr enqueue []

/-- The loop before the first line. -/
def start (frame : ScanFrame) (edges : List Edge) : SweepLoop :=
  { waiting := byFirstRow edges
    active := #[]
    coverage := Array.replicate frame.clip.width.toNat 0
    touched := none }

/-- The loop before the first line, with the buffers of another loop cleared. -/
def restart (active : Array Edge) (coverage : Array Nat) (frame : ScanFrame) (edges : List Edge) :
    SweepLoop :=
  { waiting := byFirstRow edges
    active := active.take 0
    coverage := resized (coverage.take 0) frame.clip.width.toNat
    touched := none }

/-- The loop when the spans of a row are taken: the cursor has moved past the edges that begin
there, edges that ended before have left, and the others are sorted. -/
def enter (loop : SweepLoop) (row : Int) : SweepLoop :=
  let crossing := loop.active ++ loop.waiting.takeWhile fun edge => edge.firstRow ≤ row
  { loop with
    waiting := loop.waiting.dropWhile fun edge => edge.firstRow ≤ row
    active := Sweep.sortInPlace (crossing.filter fun edge => row < edge.stopRow) }

/-- The range of touched pixels with those of a span. -/
def touch (columns : Nat) (touched : Option (Nat × Nat)) (span : Span) : Option (Nat × Nat) :=
  match touched with
  | none => some (span.firstPixel columns, span.lastPixel columns)
  | some (first, last) =>
      some (min first (span.firstPixel columns), max last (span.lastPixel columns))

/-- Counts the samples of a span. -/
def count (columns : Nat) (loop : SweepLoop) (span : Span) : SweepLoop :=
  { loop with
    coverage := Sweep.accumulate columns loop.coverage span
    touched := touch columns loop.touched span }

/-- Visits a sample row.  A row that no edge crosses is skipped. -/
def visitRow (frame : ScanFrame) (loop : SweepLoop) (row : Int) : SweepLoop :=
  let entered := loop.enter row
  if entered.active.isEmpty then
    entered
  else
    let spans := Sweep.spans frame 0 entered.active.toList
    let counted := spans.foldl (count frame.grid.columns) entered
    { counted with active := counted.active.map Edge.advance }

/-- Sets the counters from the first to the last pixel to zero. -/
def clear (coverage : Array Nat) (first last : Nat) : Array Nat :=
  (List.range' first (last + 1 - first)).foldl
    (fun coverage pixel => coverage.modify pixel fun _ => 0) coverage

/-- Visits the sample rows of the line `y`, answers its touched pixels and clears them. -/
def visitLine (frame : ScanFrame) (loop : SweepLoop) (y : Int) : SweepLoop × List CoverageRow :=
  let visited := (Sweep.sampleRowsOf frame.grid y).foldl (visitRow frame)
    { loop with touched := none }
  match visited.touched with
  | none => (visited, [])
  | some (first, last) =>
      ({ visited with coverage := clear visited.coverage first last },
        [{ x := frame.clip.left + first
           y := y
           values := (visited.coverage.extract first (last + 1)).toList }])

/-- The rows of coverage that the loop answers. -/
def coverageRows (frame : ScanFrame) (edges : List Edge) : List CoverageRow :=
  if frame.clip.isEmpty then
    []
  else
    (Stage.run (visitLine frame) (start frame edges) (Sweep.linesOf frame.grid edges)).2

end SweepLoop

end Raster
