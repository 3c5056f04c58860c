import Raster.Proofs.Scan.Confining
import Raster.Proofs.Scan.Winding

/-!
# Balanced rows

Every subpath of a path is closed, so it leaves the points above the centers of a sample row as often
as it returns to them.  The directions of the edges on the row therefore cancel out, in whatever
order commands build the path.  The spans of a row end at the last edge, and nothing is lost there:
right of all edges the path does not wind around anything.
-/

namespace Raster

namespace Sweep

/-- The samples of the clip box right of a crossing. -/
def spanFrom? (frame : ScanFrame) (last : Edge) : Option Span :=
  let columns : Int := frame.grid.columns
  let first := max last.column (frame.clip.left * columns)
  let stop := frame.clip.right * columns
  if first < stop then
    some
      { first := (first - frame.clip.left * columns).toNat
        stop := (stop - frame.clip.left * columns).toNat }
  else
    none

/-- The spans inside a path, with the region right of the last edge, given the winding number left
of some sorted edges. -/
def openSpans (frame : ScanFrame) (winding : Int) : List Edge → List Span
  | [] => []
  | [last] =>
      if frame.rule.isInside (winding + last.direction) then
        (spanFrom? frame last).toList
      else
        []
  | left :: right :: rest =>
      let winding := winding + left.direction
      let here :=
        if frame.rule.isInside winding then (spanBetween? frame left right).toList else []
      here ++ openSpans frame winding (right :: rest)

/-- Behind edges whose directions cancel out nothing is inside. -/
theorem openSpans_eq_spans {frame : ScanFrame} {winding : Int} {edges : List Edge}
    (balanced : winding + (edges.map Edge.direction).sum = 0) :
    openSpans frame winding edges = spans frame winding edges := by
  induction edges generalizing winding with
  | nil => rfl
  | cons left rest inductionHypothesis =>
      rw [List.map_cons, List.sum_cons, ← add_assoc] at balanced
      cases rest with
      | nil =>
          rw [List.map_nil, List.sum_nil, add_zero] at balanced
          rw [openSpans, balanced, WindingRule.isInside_zero]
          rfl
      | cons right rest => rw [openSpans, spans, inductionHypothesis balanced]

end Sweep

/-- On every row, also outside the clip box, the directions of closed subpaths cancel out. -/
theorem sum_direction_crossing_segmentsOf {grid : Grid} {clip : PixelBox} {row : Int}
    (commands : List LineCommand) :
    ((Sweep.crossing (Edge.ofSegments grid clip (segmentsOf commands)) row).map
      Edge.direction).sum = 0 := by
  by_cases inClip : clip.top * grid.rows ≤ row ∧ row < clip.bottom * grid.rows
  · exact sum_direction_segmentsOf inClip commands
  · have none : Sweep.crossing (Edge.ofSegments grid clip (segmentsOf commands)) row = [] := by
      rw [Sweep.crossing, List.map_eq_nil_iff, List.filter_eq_nil_iff]
      intro edge member crosses
      exact inClip (Edge.inClip_of_crosses member (of_decide_eq_true crosses))
    rw [none]
    rfl

namespace Scanner

/-- Whatever commands build a path, with whatever calls among them that keep the clip box and the
grid: once the last subpath is closed, the directions of the edges that cross a row add up to zero.
So the spans of the row miss nothing right of its last edge.  There the winding rule finds every
sample outside, by the edges as well as by the exact winding number of the path. -/
theorem directions_cancel_on_rows {started received : Scanner} (idle : started.Idle)
    {calls : List Call} (keep : ∀ call ∈ calls, call.keepsFrame = true)
    (sent : started.performAll calls = .ok received) (row : Int) :
    let edges := received.closeSubpath.edges.toList
    let frame := received.closeSubpath.frame
    let segments := segmentsOf (calls.flatMap Call.sent)
    ((edges.filter fun edge => edge.Crosses row).map Edge.direction).sum = 0 ∧
      Sweep.openSpans frame 0 (Sweep.activeAt frame edges row) = Sweep.spansAt frame edges row ∧
      ∀ column, (∀ edge ∈ Sweep.activeAt frame edges row, edge.column ≤ column) →
        frame.rule.isInside (Sweep.windingAt (Sweep.activeAt frame edges row) column) = false ∧
        (frame.clip.top * frame.grid.rows ≤ row ∧ row < frame.clip.bottom * frame.grid.rows →
          frame.rule.isInside (windingNumber segments (sampleCenter frame.grid.columns column)
            (sampleCenter frame.grid.rows row)) = false) := by
  intro edges frame segments
  have sameFrame : frame = received.frame := by
    simp only [frame, closeSubpath_eq]
    rfl
  have traced : edges = Edge.ofSegments frame.grid frame.clip segments := by
    rw [sameFrame]
    exact (idle.follows.performAll keep sent).closeSubpath
  have perm := Sweep.activeAt_perm frame edges row
  have crossing : ((Sweep.crossing edges row).map Edge.direction).sum = 0 := by
    rw [traced]
    exact sum_direction_crossing_segmentsOf _
  have active : ((Sweep.activeAt frame edges row).map Edge.direction).sum = 0 := by
    rw [(perm.map _).sum_eq, crossing]
  refine ⟨?_, ?_, ?_⟩
  · rw [← crossing, Sweep.crossing, List.map_map]
    congr 1
    apply List.map_congr_left
    intro edge _
    exact (edge.direction_onRow row).symm
  · apply Sweep.openSpans_eq_spans
    rw [active, add_zero]
  · intro column right
    have winding := Sweep.windingAt_eq_sum right
    rw [active] at winding
    refine ⟨by rw [winding, WindingRule.isInside_zero], ?_⟩
    intro inClip
    rw [← Sweep.windingAt_crossing inClip, ← traced, ← Sweep.windingAt_perm perm, winding,
      WindingRule.isInside_zero]

/-- A line without a current point, a subpath that is left open, one that is closed and continued,
and an empty one, with the winding rule changed in between.  On the first row the edges of two
subpaths alternate, and each subpath has a span. -/
theorem directions_cancel_on_rows_interleaved :
    let surface : Surface := ⟨.gray8, 4, 2, .packed 4, Array.replicate 8 0⟩
    let calls : List Call :=
      [.send [.lineTo ⟨65536, 65536⟩, .moveTo ⟨0, 0⟩, .lineTo ⟨0, 131072⟩,
          .lineTo ⟨196608, 131072⟩],
        .setRule .evenOdd,
        .send [.moveTo ⟨131072, 0⟩, .lineTo ⟨131072, 131072⟩, .lineTo ⟨393216, 131072⟩, .close,
          .lineTo ⟨200000, 0⟩, .moveTo ⟨0, 0⟩]]
    ∃ started received : Scanner, started = (Scanner.new surface).setGrid 0 0 ∧
      started.Idle ∧ (∀ call ∈ calls, call.keepsFrame = true) ∧
        started.performAll calls = .ok received ∧
        (received.closeSubpath.edges.toList.filter fun edge => edge.Crosses 0).map
          Edge.direction = [1, -1, 1, -1] ∧
        Sweep.openSpans received.closeSubpath.frame 0
            (Sweep.activeAt received.closeSubpath.frame received.closeSubpath.edges.toList 0) =
          [⟨0, 1⟩, ⟨2, 3⟩] := by
  intro surface calls
  have idle : ((Scanner.new surface).setGrid 0 0).Idle := (idle_new surface).setGrid 0 0
  have keep : ∀ call ∈ calls, call.keepsFrame = true := by decide
  obtain ⟨received, sent, directions, spans⟩ : ∃ received : Scanner,
      ((Scanner.new surface).setGrid 0 0).performAll calls = .ok received ∧
        (received.closeSubpath.edges.toList.filter fun edge => edge.Crosses 0).map
          Edge.direction = [1, -1, 1, -1] ∧
        Sweep.spansAt received.closeSubpath.frame received.closeSubpath.edges.toList 0 =
          [⟨0, 1⟩, ⟨2, 3⟩] := ⟨_, rfl, by decide, by decide⟩
  obtain ⟨_, complete, _⟩ := directions_cancel_on_rows idle keep sent 0
  exact ⟨_, received, rfl, idle, keep, sent, directions, complete.trans spans⟩

end Scanner

end Raster
