import Raster.Proofs.Scan.ActiveList
import Raster.Proofs.Scan.Winding

/-!
# Shifted paths

A path and its clip box may be shifted by whole pixels.  Every position on the way to the coverage
is then shifted by as many cells: the rows that an edge crosses, its crossings before and after each
step, and the ends of the clip box.  Whatever compares two positions, among them the order of edges
with the same crossing, or takes the difference of two, stays the same.  Hence the rows of coverage
are the same ones elsewhere.
-/

namespace Raster

/-- A displacement by whole pixels. -/
structure PixelShift where
  right : Int
  down : Int
deriving Repr, DecidableEq

/-- The point displaced by whole pixels, each of which is `65536` units. -/
def Point.shift (shift : PixelShift) (point : Point) : Point :=
  ⟨point.x + shift.right * 65536, point.y + shift.down * 65536⟩

/-- The box displaced by whole pixels. -/
def PixelBox.shift (shift : PixelShift) (box : PixelBox) : PixelBox :=
  { left := box.left + shift.right
    top := box.top + shift.down
    right := box.right + shift.right
    bottom := box.bottom + shift.down }

/-- The command with its point displaced. -/
def LineCommand.shift (shift : PixelShift) : LineCommand → LineCommand
  | .moveTo point => .moveTo (point.shift shift)
  | .lineJoin => .lineJoin
  | .lineTo point => .lineTo (point.shift shift)
  | .close => .close
  | .finish => .finish

/-- The same coverage elsewhere. -/
def CoverageRow.shift (shift : PixelShift) (row : CoverageRow) : CoverageRow :=
  { row with x := row.x + shift.right, y := row.y + shift.down }

/-- The frame with its clip box displaced. -/
def ScanFrame.shift (shift : PixelShift) (frame : ScanFrame) : ScanFrame :=
  { frame with clip := frame.clip.shift shift }

@[simp]
theorem ScanFrame.grid_shift (shift : PixelShift) (frame : ScanFrame) :
    (frame.shift shift).grid = frame.grid :=
  rfl

/-! ## Segments -/

def Segment.shift (shift : PixelShift) (segment : Segment) : Segment :=
  ⟨segment.source.shift shift, segment.target.shift shift⟩

def OpenSubpath.shift (shift : PixelShift) (subpath : OpenSubpath) : OpenSubpath :=
  ⟨subpath.start.shift shift, subpath.current.shift shift⟩

def Trace.shift (shift : PixelShift) (trace : Trace) : Trace :=
  ⟨trace.segments.map (Segment.shift shift), trace.subpath.map (OpenSubpath.shift shift)⟩

namespace Trace

variable (shift : PixelShift)

theorem closed_shift (trace : Trace) :
    (trace.shift shift).closed = trace.closed.map (Segment.shift shift) := by
  obtain ⟨segments, subpath⟩ := trace
  cases subpath with
  | none => rfl
  | some subpath =>
      simp only [closed, Trace.shift, Option.map_some, List.map_append, List.map_cons,
        List.map_nil]
      rfl

/-- A shifted command traces shifted segments. -/
theorem step_shift (trace : Trace) (command : LineCommand) :
    (trace.shift shift).step (command.shift shift) = (trace.step command).shift shift := by
  have closed := trace.closed_shift shift
  obtain ⟨segments, subpath⟩ := trace
  cases command with
  | moveTo point =>
      simp only [LineCommand.shift, step, closed]
      rfl
  | lineJoin => rfl
  | lineTo point =>
      cases subpath with
      | none => rfl
      | some subpath =>
          simp only [LineCommand.shift, step, Trace.shift, Option.map_some, List.map_append,
            List.map_cons, List.map_nil]
          rfl
  | close =>
      cases subpath with
      | none => rfl
      | some subpath =>
          simp only [Trace.shift, Option.map_some] at closed
          simp only [LineCommand.shift, step, Trace.shift, Option.map_some, closed]
          rfl
  | finish => rfl

theorem foldl_step_shift (trace : Trace) (commands : List LineCommand) :
    (commands.map (LineCommand.shift shift)).foldl step (trace.shift shift) =
      (commands.foldl step trace).shift shift := by
  induction commands generalizing trace with
  | nil => rfl
  | cons command rest inductionHypothesis =>
      rw [List.map_cons, List.foldl_cons, step_shift, inductionHypothesis, List.foldl_cons]

end Trace

/-- A shifted path has shifted segments. -/
theorem segmentsOf_shift (shift : PixelShift) (commands : List LineCommand) :
    segmentsOf (commands.map (LineCommand.shift shift)) =
      (segmentsOf commands).map (Segment.shift shift) := by
  have traced := Trace.empty.foldl_step_shift shift commands
  rw [segmentsOf, segmentsOf, ← Trace.closed_shift]
  exact congrArg Trace.closed traced

namespace Segment

variable (shift : PixelShift) (segment : Segment)

/-- A shifted segment is as level as before. -/
theorem le_shift_iff :
    (segment.shift shift).source.y ≤ (segment.shift shift).target.y ↔
      segment.source.y ≤ segment.target.y :=
  Int.add_le_add_iff_right _

theorem upper_shift : (segment.shift shift).upper = segment.upper.shift shift := by
  simp only [upper, le_shift_iff]
  split <;> rfl

theorem lower_shift : (segment.shift shift).lower = segment.lower.shift shift := by
  simp only [lower, le_shift_iff]
  split <;> rfl

theorem direction_shift : (segment.shift shift).direction = segment.direction := by
  simp only [direction, le_shift_iff]

end Segment

/-! ## Edges -/

theorem sampleAtOrAfter_add (position samples : Int) :
    sampleAtOrAfter (position + samples * 65536) = sampleAtOrAfter position + samples := by
  unfold sampleAtOrAfter
  omega

namespace Edge

/-- The edge shifted by a number of columns and rows of cells. -/
def move (columns rows : Int) (edge : Edge) : Edge :=
  { edge with
    firstRow := edge.firstRow + rows
    stopRow := edge.stopRow + rows
    x := edge.x + columns * 65536 }

variable (columns rows : Int)

@[simp]
theorem direction_move (edge : Edge) : (edge.move columns rows).direction = edge.direction :=
  rfl

/-- Only the place of an edge depends on where its ends are, not its slope or what is rounded. -/
theorem between_move (xa ya xb yb firstRow stopRow direction : Int) :
    between (xa + columns * 65536) (ya + rows * 65536) (xb + columns * 65536) (yb + rows * 65536)
        (firstRow + rows) (stopRow + rows) direction =
      (between xa ya xb yb firstRow stopRow direction).move columns rows := by
  have width : xb + columns * 65536 - (xa + columns * 65536) = xb - xa := by ring
  have height : yb + rows * 65536 - (ya + rows * 65536) = yb - ya := by ring
  have offset : (firstRow + rows) * 65536 + 32768 - (ya + rows * 65536) =
      firstRow * 65536 + 32768 - ya := by
    ring
  have start (crossing : Int) : xa + columns * 65536 + crossing =
      xa + crossing + columns * 65536 := by
    ring
  simp only [between, move, width, height, offset, start]

theorem column_move (edge : Edge) : (edge.move columns rows).column = edge.column + columns := by
  simp only [column, move]
  omega

theorem advance_move (edge : Edge) :
    (edge.move columns rows).advance = edge.advance.move columns rows := by
  have stepped : edge.x + columns * 65536 + edge.step = edge.x + edge.step + columns * 65536 := by
    ring
  have carried : edge.x + edge.step + columns * 65536 + 1 =
      edge.x + edge.step + 1 + columns * 65536 := by
    ring
  simp only [advance, move, stepped, carried]
  split <;> rfl

/-- A whole pixel is as many cells as the grid has. -/
theorem ofSegment?_shift (grid : Grid) (clip : PixelBox) (shift : PixelShift)
    (segment : Segment) :
    ofSegment? grid (clip.shift shift) (segment.shift shift).source (segment.shift shift).target =
      (ofSegment? grid clip segment.source segment.target).map
        (move (shift.right * grid.columns) (shift.down * grid.rows)) := by
  have cells (pixels position perPixel : Int) :
      (position + pixels * 65536) * perPixel =
        position * perPixel + pixels * perPixel * 65536 := by
    ring
  have rows (line : Int) : (line + shift.down) * (grid.rows : Int) =
      line * grid.rows + shift.down * grid.rows := by
    ring
  have least (first second : Int) :
      max (first + shift.down * grid.rows) (second + shift.down * grid.rows) =
        max first second + shift.down * grid.rows := by
    omega
  have greatest (first second : Int) :
      min (first + shift.down * grid.rows) (second + shift.down * grid.rows) =
        min first second + shift.down * grid.rows := by
    omega
  simp only [ofSegment?_eq, Segment.upper_shift, Segment.lower_shift, Segment.direction_shift,
    Point.shift, PixelBox.shift, cells, rows, sampleAtOrAfter_add, least, greatest,
    Int.add_lt_add_iff_right, between_move]
  split <;> rfl

theorem ofSegments_shift (grid : Grid) (clip : PixelBox) (shift : PixelShift)
    (segments : List Segment) :
    ofSegments grid (clip.shift shift) (segments.map (Segment.shift shift)) =
      (ofSegments grid clip segments).map
        (move (shift.right * grid.columns) (shift.down * grid.rows)) := by
  simp only [ofSegments, List.filterMap_map, List.map_filterMap]
  apply List.filterMap_congr
  intro segment _
  exact ofSegment?_shift grid clip shift segment

end Edge

/-! ## Sweeps -/

namespace Sweep

section

variable (columns rows : Int)

/-- The sweep with all its edges shifted. -/
def move (sweep : Sweep) : Sweep :=
  ⟨sweep.waiting.map (Edge.move columns rows), sweep.active.map (Edge.move columns rows)⟩

@[simp]
theorem active_move (sweep : Sweep) :
    (sweep.move columns rows).active = sweep.active.map (Edge.move columns rows) :=
  rfl

/-- An edge finds the same place among shifted ones, also beside edges with the same crossing. -/
theorem insert_move (edge : Edge) (edges : List Edge) :
    insert (edge.move columns rows) (edges.map (Edge.move columns rows)) =
      (insert edge edges).map (Edge.move columns rows) := by
  induction edges with
  | nil => rfl
  | cons next rest inductionHypothesis =>
      have before : (edge.move columns rows).x ≤ (next.move columns rows).x ↔ edge.x ≤ next.x :=
        Int.add_le_add_iff_right _
      simp only [List.map_cons, insert, before]
      split
      · rfl
      · rw [inductionHypothesis, List.map_cons]

theorem sort_move (edges : List Edge) :
    sort (edges.map (Edge.move columns rows)) = (sort edges).map (Edge.move columns rows) := by
  induction edges with
  | nil => rfl
  | cons edge rest inductionHypothesis =>
      change insert _ (sort (rest.map _)) = (insert edge (sort rest)).map _
      rw [inductionHypothesis, insert_move]

/-- On a shifted row the same edges join and leave. -/
theorem enter_move (sweep : Sweep) (row : Int) :
    (sweep.move columns rows).enter (row + rows) = (sweep.enter row).move columns rows := by
  have begun (edge : Edge) :
      decide ((edge.move columns rows).firstRow ≤ row + rows) = decide (edge.firstRow ≤ row) :=
    decide_eq_decide.mpr (Int.add_le_add_iff_right _)
  have unended (edge : Edge) :
      decide (row + rows < (edge.move columns rows).stopRow) = decide (row < edge.stopRow) :=
    decide_eq_decide.mpr (Int.add_lt_add_iff_right _)
  simp only [enter, move, List.partition_eq_filter_filter, List.filter_map, ← List.map_append,
    sort_move, Function.comp_def, begun, unended]

theorem leave_move (sweep : Sweep) :
    (sweep.move columns rows).leave = sweep.leave.move columns rows := by
  simp only [leave, move, List.map_map, Function.comp_def, Edge.advance_move]

end

variable (frame : ScanFrame) (shift : PixelShift)

/-- Spans are counted from the left edge of the clip box, which is shifted like the edges. -/
theorem spanBetween?_shift (rows : Int) (left right : Edge) :
    spanBetween? (frame.shift shift) (left.move (shift.right * frame.grid.columns) rows)
        (right.move (shift.right * frame.grid.columns) rows) =
      spanBetween? frame left right := by
  have sides (side : Int) : (side + shift.right) * (frame.grid.columns : Int) =
      side * frame.grid.columns + shift.right * frame.grid.columns := by
    ring
  simp only [spanBetween?, ScanFrame.shift, PixelBox.shift, Edge.column_move, sides]
  generalize shift.right * (frame.grid.columns : Int) = columns
  generalize frame.clip.left * (frame.grid.columns : Int) = least
  generalize frame.clip.right * (frame.grid.columns : Int) = most
  have first : max (left.column + columns) (least + columns) = max left.column least + columns := by
    omega
  have stop : min (right.column + columns) (most + columns) = min right.column most + columns := by
    omega
  have distance (sample : Int) : sample + columns - (least + columns) = sample - least := by omega
  simp only [first, stop, distance, Int.add_lt_add_iff_right]

theorem spans_shift (rows winding : Int) (edges : List Edge) :
    spans (frame.shift shift) winding
        (edges.map (Edge.move (shift.right * frame.grid.columns) rows)) =
      spans frame winding edges := by
  induction edges generalizing winding with
  | nil => rfl
  | cons left rest inductionHypothesis =>
      cases rest with
      | nil => rfl
      | cons right rest =>
          have later := inductionHypothesis (winding + left.direction)
          rw [List.map_cons] at later
          simp only [List.map_cons, spans, Edge.direction_move, spanBetween?_shift, later]
          rfl

/-- A shifted sample row has the same spans. -/
theorem sampleRow_shift (rows : Int) (sweep : Sweep) (row : Int) :
    sampleRow (frame.shift shift) (sweep.move (shift.right * frame.grid.columns) rows)
        (row + rows) =
      ((sampleRow frame sweep row).1.move (shift.right * frame.grid.columns) rows,
        (sampleRow frame sweep row).2) := by
  simp only [sampleRow, enter_move, leave_move, active_move, spans_shift]

/-! ## Lines of pixels -/

theorem interval_add (first stop distance : Int) :
    interval (first + distance) (stop + distance) =
      (interval first stop).map (· + distance) := by
  have count : stop + distance - (first + distance) = stop - first := by omega
  simp only [interval, count, List.map_map]
  apply List.map_congr_left
  intro index _
  simp only [Function.comp_apply]
  omega

theorem sampleRowsOf_add (grid : Grid) (y lines : Int) :
    sampleRowsOf grid (y + lines) = (sampleRowsOf grid y).map (· + lines * grid.rows) := by
  have first : (y + lines) * (grid.rows : Int) = y * grid.rows + lines * grid.rows := by ring
  have stop : (y + lines + 1) * (grid.rows : Int) = (y + 1) * grid.rows + lines * grid.rows := by
    ring
  rw [sampleRowsOf, first, stop, interval_add, sampleRowsOf]

theorem coverageRow?_shift (y : Int) (spans : List Span) :
    coverageRow? (frame.shift shift) (y + shift.down) spans =
      (coverageRow? frame y spans).map (CoverageRow.shift shift) := by
  have width : (frame.clip.shift shift).width = frame.clip.width := by
    simp only [PixelBox.width, PixelBox.shift]
    congr 1
    omega
  simp only [coverageRow?, ScanFrame.shift, width]
  cases touched? frame.grid.columns spans with
  | none => rfl
  | some touched =>
      have left : frame.clip.left + shift.right + (touched.1 : Int) =
          frame.clip.left + touched.1 + shift.right := by
        omega
      simp only [PixelBox.shift, left, Option.map_some, CoverageRow.shift]

/-- A shifted line has the same coverage. -/
theorem pixelRow_shift (sweep : Sweep) (y : Int) :
    pixelRow (frame.shift shift)
        (sweep.move (shift.right * frame.grid.columns) (shift.down * frame.grid.rows))
        (y + shift.down) =
      ((pixelRow frame sweep y).1.move (shift.right * frame.grid.columns)
          (shift.down * frame.grid.rows),
        (pixelRow frame sweep y).2.map (CoverageRow.shift shift)) := by
  have steps (sweep : Sweep) (row : Int) :
      sampleRow (frame.shift shift)
          (sweep.move (shift.right * frame.grid.columns) (shift.down * frame.grid.rows))
          (row + shift.down * frame.grid.rows) =
        ((sampleRow frame sweep row).1.move (shift.right * frame.grid.columns)
          (shift.down * frame.grid.rows), (sampleRow frame sweep row).2.map id) := by
    rw [sampleRow_shift, List.map_id]
  have run := Stage.run_map steps sweep (sampleRowsOf frame.grid y)
  rw [List.map_id, ← sampleRowsOf_add] at run
  simp only [pixelRow, ScanFrame.grid_shift, run, coverageRow?_shift]
  cases coverageRow? frame y _ <;> rfl

/-- The least of some numbers is shifted like all of them. -/
theorem min?_map_add (values : List Int) (distance : Int) :
    (values.map (· + distance)).min? = values.min?.map (· + distance) := by
  cases values with
  | nil => rfl
  | cons first rest =>
      rw [List.map_cons, List.min?_cons', List.min?_cons', List.foldl_map, Option.map_some]
      congr 1
      apply List.foldl_hom (· + distance)
      intro least value
      omega

theorem max?_map_add (values : List Int) (distance : Int) :
    (values.map (· + distance)).max? = values.max?.map (· + distance) := by
  cases values with
  | nil => rfl
  | cons first rest =>
      rw [List.map_cons, List.max?_cons', List.max?_cons', List.foldl_map, Option.map_some]
      congr 1
      apply List.foldl_hom (· + distance)
      intro greatest value
      omega

/-- Shifted edges cross shifted lines. -/
theorem linesOf_move (grid : Grid) (columns lines : Int) (edges : List Edge) :
    linesOf grid (edges.map (Edge.move columns (lines * grid.rows))) =
      (linesOf grid edges).map (· + lines) := by
  have positive : (grid.rows : Int) ≠ 0 := by exact_mod_cast grid.rows_pos.ne'
  have firstRows : (edges.map (Edge.move columns (lines * grid.rows))).map (·.firstRow) =
      (edges.map (·.firstRow)).map (· + lines * grid.rows) := by
    rw [List.map_map, List.map_map]
    rfl
  have stopRows : (edges.map (Edge.move columns (lines * grid.rows))).map (·.stopRow) =
      (edges.map (·.stopRow)).map (· + lines * grid.rows) := by
    rw [List.map_map, List.map_map]
    rfl
  simp only [linesOf, firstRows, stopRows, min?_map_add, max?_map_add]
  cases (edges.map (·.firstRow)).min? with
  | none => rfl
  | some first =>
      cases (edges.map (·.stopRow)).max? with
      | none => rfl
      | some stop =>
          have last : stop + lines * grid.rows - 1 = stop - 1 + lines * grid.rows := by ring
          have next (line : Int) : line + lines + 1 = line + 1 + lines := by ring
          simp only [Option.map_some, last, Int.add_mul_ediv_right _ _ positive, next,
            interval_add]

/-- The coverage of a shifted path is the coverage of the path, shifted. -/
theorem coverageRows_shift (edges : List Edge) :
    coverageRows (frame.shift shift)
        (edges.map (Edge.move (shift.right * frame.grid.columns)
          (shift.down * frame.grid.rows))) =
      (coverageRows frame edges).map (CoverageRow.shift shift) := by
  have empty : (frame.shift shift).clip.isEmpty = frame.clip.isEmpty := by
    simp only [ScanFrame.shift, PixelBox.isEmpty, PixelBox.shift, Int.add_le_add_iff_right]
  have run := Stage.run_map (pixelRow_shift frame shift) ⟨edges, []⟩ (linesOf frame.grid edges)
  unfold coverageRows
  rw [empty]
  split
  · rfl
  · rw [ScanFrame.grid_shift, linesOf_move]
    exact congrArg Prod.snd run

end Sweep

end Raster
