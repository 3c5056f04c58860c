import Mathlib
import Raster.Proofs.Scan.Counting
import Raster.Proofs.Scan.Tracing

/-!
# Winding numbers

The winding number of a point is a sum over the segments of a path that cross its
height at or left of it.  It is defined with exact rational crossings, and the edges
of a sample row add up to it at the center of every sample.  The directions of the
edges on a row cancel out, since every subpath is closed.
-/

namespace Raster

/-- The position of a fixed-point coordinate, in pixels. -/
def Fixed.toRat (coordinate : Int) : ℚ :=
  coordinate / 65536

/-- The position of the center of a sample, in pixels. -/
def sampleCenter (perPixel : Nat) (sample : Int) : ℚ :=
  (sample + 1 / 2) / perPixel

namespace Segment

/-- The end of a segment with the lesser height; the source if the segment is level. -/
def upper (segment : Segment) : Point :=
  if segment.source.y ≤ segment.target.y then segment.source else segment.target

/-- The end of a segment with the greater height; the target if the segment is level. -/
def lower (segment : Segment) : Point :=
  if segment.source.y ≤ segment.target.y then segment.target else segment.source

/-- `1` for a downward segment and `-1` for an upward one. -/
def direction (segment : Segment) : Int :=
  if segment.source.y ≤ segment.target.y then 1 else -1

/-- The half-open range of heights of the segment contains `y`. -/
def Reaches (segment : Segment) (y : ℚ) : Prop :=
  Fixed.toRat segment.upper.y ≤ y ∧ y < Fixed.toRat segment.lower.y

instance (segment : Segment) (y : ℚ) : Decidable (segment.Reaches y) :=
  inferInstanceAs (Decidable (_ ∧ _))

/-- Where the line through a segment that is not level crosses the height `y`. -/
def crossing (segment : Segment) (y : ℚ) : ℚ :=
  let upper := segment.upper
  let lower := segment.lower
  Fixed.toRat upper.x + (y - Fixed.toRat upper.y) *
    ((Fixed.toRat lower.x - Fixed.toRat upper.x) / (Fixed.toRat lower.y - Fixed.toRat upper.y))

/-- What a segment contributes to the winding number of a point. -/
def winding (segment : Segment) (x y : ℚ) : Int :=
  if segment.Reaches y ∧ segment.crossing y ≤ x then segment.direction else 0

end Segment

/-- How often some segments wind around a point. -/
def windingNumber (segments : List Segment) (x y : ℚ) : Int :=
  (segments.map (·.winding x y)).sum

/-- The number of samples of a pixel that are inside. -/
def insideSamples (grid : Grid) (rule : WindingRule) (segments : List Segment) (x y : Int) :
    Nat :=
  ((List.range grid.rows).map fun (row : Nat) =>
    (List.range grid.columns).countP fun (column : Nat) =>
      rule.isInside (windingNumber segments
        (sampleCenter grid.columns (x * grid.columns + column))
        (sampleCenter grid.rows (y * grid.rows + row)))).sum

/-! ## Cells and pixels -/

theorem toRat_le_sampleCenter_iff {perPixel : Nat} (positive : 0 < perPixel)
    (coordinate sample : Int) :
    Fixed.toRat coordinate ≤ sampleCenter perPixel sample ↔
      coordinate * perPixel ≤ sample * 65536 + 32768 := by
  have scale : (0 : ℚ) < perPixel := by exact_mod_cast positive
  have cells : (sample + 1 / 2 : ℚ) * 65536 = sample * 65536 + 32768 := by ring
  rw [Fixed.toRat, sampleCenter, div_le_div_iff₀ (by norm_num) scale, cells]
  exact_mod_cast Iff.rfl

theorem sampleCenter_lt_toRat_iff {perPixel : Nat} (positive : 0 < perPixel)
    (coordinate sample : Int) :
    sampleCenter perPixel sample < Fixed.toRat coordinate ↔
      sample * 65536 + 32768 < coordinate * perPixel := by
  rw [← not_le, toRat_le_sampleCenter_iff positive, not_le]

/-- A segment reaches the centers of a sample row exactly if they lie between its ends,
measured in cells. -/
theorem Segment.reaches_iff (segment : Segment) (grid : Grid) (row : Int) :
    segment.Reaches (sampleCenter grid.rows row) ↔
      segment.upper.y * grid.rows ≤ row * 65536 + 32768 ∧
        row * 65536 + 32768 < segment.lower.y * grid.rows := by
  rw [Reaches, toRat_le_sampleCenter_iff grid.rows_pos, sampleCenter_lt_toRat_iff grid.rows_pos]

/-- Comparing a crossing with the center of a sample takes no division, measured in
cells. -/
theorem Segment.crossing_le_iff {segment : Segment} (falls : segment.upper.y < segment.lower.y)
    (grid : Grid) (row column : Int) :
    segment.crossing (sampleCenter grid.rows row) ≤ sampleCenter grid.columns column ↔
      segment.upper.x * grid.columns *
          (segment.lower.y * grid.rows - segment.upper.y * grid.rows) +
        (row * 65536 + 32768 - segment.upper.y * grid.rows) *
          (segment.lower.x * grid.columns - segment.upper.x * grid.columns) ≤
      (column * 65536 + 32768) *
        (segment.lower.y * grid.rows - segment.upper.y * grid.rows) := by
  have columns : (0 : ℚ) < grid.columns := by exact_mod_cast grid.columns_pos
  have rows : (0 : ℚ) < grid.rows := by exact_mod_cast grid.rows_pos
  have height : (0 : ℚ) < segment.lower.y - segment.upper.y := by
    rw [sub_pos]
    exact_mod_cast falls
  have whole : (0 : ℚ) < 65536 * grid.columns * ((segment.lower.y - segment.upper.y) * grid.rows) :=
    by positivity
  have left : segment.crossing (sampleCenter grid.rows row) =
      (segment.upper.x * grid.columns *
          (segment.lower.y * grid.rows - segment.upper.y * grid.rows) +
        (row * 65536 + 32768 - segment.upper.y * grid.rows) *
          (segment.lower.x * grid.columns - segment.upper.x * grid.columns)) /
        (65536 * grid.columns * ((segment.lower.y - segment.upper.y) * grid.rows)) := by
    simp only [crossing, sampleCenter, Fixed.toRat]
    field_simp
    ring
  have right : sampleCenter grid.columns column =
      ((column * 65536 + 32768) *
        (segment.lower.y * grid.rows - segment.upper.y * grid.rows)) /
        (65536 * grid.columns * ((segment.lower.y - segment.upper.y) * grid.rows)) := by
    simp only [sampleCenter]
    field_simp
    ring
  rw [left, right, div_le_div_iff_of_pos_right whole]
  exact_mod_cast Iff.rfl

/-! ## Edges of a sample row -/

/-- The edge of a segment runs from its upper to its lower end. -/
theorem Edge.ofSegment?_eq (grid : Grid) (clip : PixelBox) (segment : Segment) :
    ofSegment? grid clip segment.source segment.target =
      let firstRow := max (sampleAtOrAfter (segment.upper.y * grid.rows)) (clip.top * grid.rows)
      let stopRow := min (sampleAtOrAfter (segment.lower.y * grid.rows)) (clip.bottom * grid.rows)
      if firstRow < stopRow then
        some (between (segment.upper.x * grid.columns) (segment.upper.y * grid.rows)
          (segment.lower.x * grid.columns) (segment.lower.y * grid.rows) firstRow stopRow
          segment.direction)
      else
        none := by
  have rows : (0 : Int) < grid.rows := by exact_mod_cast grid.rows_pos
  have ordered : segment.source.y * grid.rows ≤ segment.target.y * grid.rows ↔
      segment.source.y ≤ segment.target.y := Int.mul_le_mul_right rows
  unfold ofSegment? Segment.upper Segment.lower Segment.direction
  simp only [ordered]

/-- A segment has an edge if a sample row of the clip box lies between its ends. -/
theorem Edge.ofSegment?_eq_some_iff {grid : Grid} {clip : PixelBox} (segment : Segment)
    {edge : Edge} :
    ofSegment? grid clip segment.source segment.target = some edge ↔
      let firstRow := max (sampleAtOrAfter (segment.upper.y * grid.rows)) (clip.top * grid.rows)
      let stopRow := min (sampleAtOrAfter (segment.lower.y * grid.rows)) (clip.bottom * grid.rows)
      firstRow < stopRow ∧
        between (segment.upper.x * grid.columns) (segment.upper.y * grid.rows)
          (segment.lower.x * grid.columns) (segment.lower.y * grid.rows) firstRow stopRow
          segment.direction = edge := by
  simp only [ofSegment?_eq, Option.ite_none_right_eq_some, Option.some.injEq]

namespace Segment

variable {grid : Grid} {clip : PixelBox} {segment : Segment} {edge : Edge}

/-- The edge of a segment crosses exactly those rows of the clip box whose centers are not above
its upper end and above its lower one. -/
theorem crosses_iff
    (made : Edge.ofSegment? grid clip segment.source segment.target = some edge) (row : Int) :
    edge.Crosses row ↔
      (clip.top * grid.rows ≤ row ∧ row < clip.bottom * grid.rows) ∧
        segment.upper.y * grid.rows ≤ row * 65536 + 32768 ∧
          row * 65536 + 32768 < segment.lower.y * grid.rows := by
  obtain ⟨_, rfl⟩ := (Edge.ofSegment?_eq_some_iff segment).mp made
  rw [← sampleAtOrAfter_le_iff, ← lt_sampleAtOrAfter_iff]
  simp only [Edge.Crosses, Edge.between]
  omega

/-- The edge of a segment starts exact, and is as high as the segment. -/
theorem isExact
    (made : Edge.ofSegment? grid clip segment.source segment.target = some edge) :
    edge.IsExact (segment.upper.x * grid.columns) (segment.upper.y * grid.rows)
        (segment.lower.x * grid.columns - segment.upper.x * grid.columns) edge.firstRow ∧
      edge.dy = segment.lower.y * grid.rows - segment.upper.y * grid.rows := by
  obtain ⟨nonempty, rfl⟩ := (Edge.ofSegment?_eq_some_iff segment).mp made
  have falls : segment.upper.y * grid.rows < segment.lower.y * grid.rows := by
    by_contra level
    have := sampleAtOrAfter_mono (Int.not_lt.mp level)
    omega
  exact ⟨Edge.isExact_between falls, rfl⟩

theorem direction_eq
    (made : Edge.ofSegment? grid clip segment.source segment.target = some edge) :
    edge.direction = segment.direction := by
  obtain ⟨_, rfl⟩ := (Edge.ofSegment?_eq_some_iff segment).mp made
  rfl

end Segment

/-- No edge crosses a row outside the clip box. -/
theorem Edge.inClip_of_crosses {grid : Grid} {clip : PixelBox} {segments : List Segment}
    {edge : Edge} (member : edge ∈ Edge.ofSegments grid clip segments) {row : Int}
    (crosses : edge.Crosses row) :
    clip.top * grid.rows ≤ row ∧ row < clip.bottom * grid.rows := by
  obtain ⟨segment, _, made⟩ := List.mem_filterMap.mp member
  exact ((segment.crosses_iff made row).mp crosses).1

namespace Sweep

theorem crossing_append (first second : List Edge) (row : Int) :
    crossing (first ++ second) row = crossing first row ++ crossing second row := by
  simp [crossing]

theorem windingAt_append (first second : List Edge) (column : Int) :
    windingAt (first ++ second) column = windingAt first column + windingAt second column := by
  simp [windingAt]

/-- On a row of the clip box a segment has one edge if it reaches the row, and none
otherwise; the edge lies left of the center of a sample exactly if the crossing does. -/
theorem crossing_segment {grid : Grid} {clip : PixelBox} {row : Int}
    (inClip : clip.top * grid.rows ≤ row ∧ row < clip.bottom * grid.rows) (segment : Segment) :
    (¬ segment.Reaches (sampleCenter grid.rows row) ∧
      crossing (Edge.ofSegments grid clip [segment]) row = []) ∨
    (segment.Reaches (sampleCenter grid.rows row) ∧
      ∃ edge, crossing (Edge.ofSegments grid clip [segment]) row = [edge] ∧
        edge.direction = segment.direction ∧
        ∀ column, edge.column ≤ column ↔
          segment.crossing (sampleCenter grid.rows row) ≤ sampleCenter grid.columns column) := by
  rw [Edge.ofSegments_singleton, Segment.reaches_iff]
  cases made : Edge.ofSegment? grid clip segment.source segment.target with
  | none =>
      left
      have above := sampleAtOrAfter_le_iff (segment.upper.y * grid.rows) row
      have below := lt_sampleAtOrAfter_iff (segment.lower.y * grid.rows) row
      rw [Edge.ofSegment?_eq] at made
      simp only at made
      split at made
      · cases made
      · exact ⟨by omega, rfl⟩
  | some edge =>
      have crosses := segment.crosses_iff made row
      rw [Option.toList_some]
      by_cases here : edge.Crosses row
      · right
        obtain ⟨exact, height⟩ := segment.isExact made
        have onRow := exact.onRow here.1
        refine ⟨(crosses.mp here).2, edge.onRow row, by simp [crossing, here], ?_, ?_⟩
        · rw [Edge.direction_onRow, segment.direction_eq made]
        · intro column
          have falls : segment.upper.y * grid.rows < segment.lower.y * grid.rows := by
            have reaches := (crosses.mp here).2
            omega
          rw [Edge.column_le_iff onRow.remainder_nonneg onRow.remainder_lt, onRow.crossing,
            Edge.dy_onRow, height, Segment.crossing_le_iff]
          exact lt_of_mul_lt_mul_right falls (by positivity)
      · left
        exact ⟨fun reaches => here (crosses.mpr ⟨inClip, reaches⟩), by simp [crossing, here]⟩

/-- At the center of a sample the edges of its row have the winding number of the
segments. -/
theorem windingAt_crossing {grid : Grid} {clip : PixelBox} {row : Int}
    (inClip : clip.top * grid.rows ≤ row ∧ row < clip.bottom * grid.rows)
    (segments : List Segment) (column : Int) :
    windingAt (crossing (Edge.ofSegments grid clip segments) row) column =
      windingNumber segments (sampleCenter grid.columns column) (sampleCenter grid.rows row) := by
  induction segments with
  | nil => rfl
  | cons segment rest inductionHypothesis =>
      rw [Edge.ofSegments_cons, crossing_append, windingAt_append, inductionHypothesis]
      simp only [windingNumber, List.map_cons, List.sum_cons]
      congr 1
      rcases crossing_segment inClip segment with
        ⟨apart, none⟩ | ⟨reaches, edge, one, direction, leftOf⟩
      · rw [none, Segment.winding, if_neg (fun both => apart both.1)]
        rfl
      · simp only [one, windingAt, List.map_cons, List.map_nil, List.sum_cons, List.sum_nil,
          add_zero, Segment.winding, leftOf, direction, reaches, true_and]

/-! ## Balance -/

/-- `1` for a point above the centers of a sample row or on them, and `0` below. -/
def above (grid : Grid) (row : Int) (point : Point) : Int :=
  if point.y * grid.rows ≤ row * 65536 + 32768 then 1 else 0

/-- The directions on a row add up to the number of segments that leave the points above
it less the number of those that return. -/
theorem sum_direction_crossing {grid : Grid} {clip : PixelBox} {row : Int}
    (inClip : clip.top * grid.rows ≤ row ∧ row < clip.bottom * grid.rows)
    (segments : List Segment) :
    ((crossing (Edge.ofSegments grid clip segments) row).map Edge.direction).sum =
      (segments.map fun segment =>
        above grid row segment.source - above grid row segment.target).sum := by
  induction segments with
  | nil => rfl
  | cons segment rest inductionHypothesis =>
      rw [Edge.ofSegments_cons, crossing_append, List.map_append, List.sum_append,
        inductionHypothesis, List.map_cons, List.sum_cons]
      congr 1
      have rows : (0 : Int) < grid.rows := by exact_mod_cast grid.rows_pos
      have ordered : segment.source.y * grid.rows ≤ segment.target.y * grid.rows ↔
          segment.source.y ≤ segment.target.y := Int.mul_le_mul_right rows
      rcases crossing_segment inClip segment with
        ⟨apart, none⟩ | ⟨reaches, edge, one, direction, _⟩
      · rw [Segment.reaches_iff] at apart
        rw [none, List.map_nil, List.sum_nil]
        unfold Segment.upper Segment.lower at apart
        unfold above
        split at apart <;> omega
      · rw [Segment.reaches_iff] at reaches
        rw [one, List.map_singleton, List.sum_singleton, direction]
        unfold Segment.upper Segment.lower at reaches
        unfold above Segment.direction
        split at reaches <;> omega

end Sweep

namespace Trace

/-- What leaves the sources of some segments less what enters their targets. -/
def outflow (potential : Point → Int) (segments : List Segment) : Int :=
  (segments.map fun segment => potential segment.source - potential segment.target).sum

theorem outflow_append (potential : Point → Int) (first second : List Segment) :
    outflow potential (first ++ second) = outflow potential first + outflow potential second := by
  simp [outflow]

/-- Only the open subpath leaves anything unpaid: the way back to its start. -/
def Balanced (potential : Point → Int) (trace : Trace) : Prop :=
  outflow potential trace.segments =
    match trace.subpath with
    | none => 0
    | some subpath => potential subpath.start - potential subpath.current

theorem Balanced.closed {potential : Point → Int} {trace : Trace}
    (balanced : trace.Balanced potential) : outflow potential trace.closed = 0 := by
  obtain ⟨segments, subpath⟩ := trace
  cases subpath with
  | none => exact balanced
  | some subpath =>
      simp only [Balanced] at balanced
      rw [Trace.closed, outflow_append, balanced]
      simp [outflow]

theorem Balanced.step {potential : Point → Int} {trace : Trace}
    (balanced : trace.Balanced potential) (command : LineCommand) :
    (trace.step command).Balanced potential := by
  have closed := balanced.closed
  cases command with
  | moveTo point =>
      simp only [Balanced, Trace.step, closed, sub_self]
  | lineJoin => exact balanced
  | lineTo point =>
      obtain ⟨segments, subpath⟩ := trace
      cases subpath with
      | none => exact balanced
      | some subpath =>
          simp only [Balanced] at balanced
          simp only [Balanced, Trace.step, outflow_append, balanced]
          simp [outflow]
  | close =>
      obtain ⟨segments, subpath⟩ := trace
      cases subpath with
      | none => exact balanced
      | some subpath => simp only [Balanced, Trace.step, closed, sub_self]
  | finish => rfl

/-- Nothing flows out of closed subpaths. -/
theorem outflow_segmentsOf (potential : Point → Int) (commands : List LineCommand) :
    outflow potential (segmentsOf commands) = 0 := by
  apply Balanced.closed
  have balanced : ∀ trace : Trace, trace.Balanced potential →
      (commands.foldl step trace).Balanced potential := by
    induction commands with
    | nil => exact fun _ balanced => balanced
    | cons command rest inductionHypothesis =>
        exact fun trace balanced => inductionHypothesis _ (balanced.step command)
  exact balanced empty rfl

end Trace

/-- On every row of the clip box the directions of a closed path cancel out. -/
theorem sum_direction_segmentsOf {grid : Grid} {clip : PixelBox} {row : Int}
    (inClip : clip.top * grid.rows ≤ row ∧ row < clip.bottom * grid.rows)
    (commands : List LineCommand) :
    ((Sweep.crossing (Edge.ofSegments grid clip (segmentsOf commands)) row).map
      Edge.direction).sum = 0 := by
  rw [Sweep.sum_direction_crossing inClip]
  exact Trace.outflow_segmentsOf (Sweep.above grid row) commands

end Raster
