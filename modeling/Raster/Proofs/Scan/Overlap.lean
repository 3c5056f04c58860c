import Mathlib
import Raster.Proofs.Scan.Conversion

/-!
# Overlapping spans

The spans of a row are disjoint unless an edge that ends one of them overtakes an edge
that begins a later one.  While they are disjoint, no pixel has more samples than the grid
gives it, so that neither the end of a path nor a replay reaches outside an alpha table.
Spans that overlap may count a sample twice, and then the end of the path is a fault.
-/

namespace Raster

namespace Sweep

/-- Disjoint spans have no sample twice. -/
theorem samplesIn_le_of_disjoint {spans : List Span} (disjoint : spans.Pairwise Span.Disjoint)
    (columns pixel : Nat) : samplesIn columns spans pixel ≤ columns := by
  simp only [samplesIn, Span.samplesIn_eq_countP, Span.sum_countP_contains]
  have atMost := List.sum_le_card_nsmul
    ((List.range' (pixel * columns) columns).map fun column => spans.countP (·.contains column)) 1
    (by
      intro count member
      obtain ⟨column, _, rfl⟩ := List.mem_map.mp member
      exact Span.countP_contains_le_one disjoint column)
  simpa using atMost

/-- While the spans of every row are disjoint, a line has no more samples of a pixel than
there are. -/
theorem samplesIn_lineSpans_le {frame : ScanFrame} {edges : List Edge}
    (disjoint : ∀ row, (spansAt frame edges row).Pairwise Span.Disjoint) (y : Int)
    (pixel : Nat) :
    samplesIn frame.grid.columns (lineSpans frame edges y) pixel ≤ frame.grid.maxCoverage := by
  rw [lineSpans, samplesIn_flatMap]
  have atMost := List.sum_le_card_nsmul
    ((sampleRowsOf frame.grid y).map fun row =>
      samplesIn frame.grid.columns (spansAt frame edges row) pixel) frame.grid.columns
    (by
      intro samples member
      obtain ⟨row, _, rfl⟩ := List.mem_map.mp member
      exact samplesIn_le_of_disjoint (disjoint row) _ _)
  rw [List.length_map, sampleRowsOf_eq, List.length_map, List.length_range, smul_eq_mul] at atMost
  rw [Grid.maxCoverage, Nat.mul_comm, sampleRowsOf_eq]
  exact atMost

/-- A row of coverage belongs to the spans of its line. -/
theorem coverageRow?_of_mem_coverageRows {frame : ScanFrame} {edges : List Edge}
    {row : CoverageRow} (member : row ∈ coverageRows frame edges) :
    coverageRow? frame row.y (lineSpans frame edges row.y) = some row := by
  rw [coverageRows_eq] at member
  split at member
  · cases member
  · obtain ⟨line, _, lineMember⟩ := List.mem_flatMap.mp member
    have made := Option.mem_toList.mp lineMember
    rw [y_of_coverageRow? made]
    exact made

/-- A row of coverage holds the counters of the pixels that its line touches. -/
theorem exists_touched_of_mem_coverageRows {frame : ScanFrame}
    (width : frame.clip.width = frame.clip.right - frame.clip.left) {edges : List Edge}
    {row : CoverageRow} (member : row ∈ coverageRows frame edges) :
    ∃ first last, first ≤ last ∧ last < frame.clip.width.toNat ∧
      row.x = frame.clip.left + first ∧
      row.values = (List.range' first (last + 1 - first)).map fun pixel =>
        samplesIn frame.grid.columns (lineSpans frame edges row.y) pixel % 256 := by
  have made := coverageRow?_of_mem_coverageRows member
  have fit := fit_lineSpans width edges row.y
  have nonempty : lineSpans frame edges row.y ≠ [] := by
    intro empty
    rw [empty] at made
    cases made
  obtain ⟨first, last, touched⟩ := exists_touched? frame.grid.columns nonempty
  obtain ⟨ordered, inside⟩ := touched?_lt_width frame.grid.columns_pos fit touched
  rw [coverageRow?_eq_some fit touched] at made
  have same := Option.some.inj made
  refine ⟨first, last, ordered, inside, ?_, ?_⟩
  · rw [← same]
  · conv_lhs => rw [← same]

/-- The rows of coverage lie in the clip box. -/
theorem bounds_of_mem_coverageRows {frame : ScanFrame}
    (width : frame.clip.width = frame.clip.right - frame.clip.left) {segments : List Segment}
    {row : CoverageRow}
    (member : row ∈ coverageRows frame (Edge.ofSegments frame.grid frame.clip segments)) :
    (frame.clip.left ≤ row.x ∧ row.x + row.values.length ≤ frame.clip.right) ∧
      frame.clip.top ≤ row.y ∧ row.y < frame.clip.bottom := by
  constructor
  · obtain ⟨first, last, ordered, inside, left, values⟩ :=
      exists_touched_of_mem_coverageRows width member
    rw [values, left, List.length_map, List.length_range']
    omega
  · by_contra outside
    have made := coverageRow?_of_mem_coverageRows member
    rw [lineSpans_of_outside (by omega)] at made
    cases made

/-- While the spans of every row are disjoint, no counter exceeds the samples of a pixel. -/
theorem le_maxCoverage_of_mem_coverageRows {frame : ScanFrame}
    (width : frame.clip.width = frame.clip.right - frame.clip.left) {edges : List Edge}
    (disjoint : ∀ row, (spansAt frame edges row).Pairwise Span.Disjoint) {row : CoverageRow}
    (member : row ∈ coverageRows frame edges) {value : Nat} (valueMember : value ∈ row.values) :
    value ≤ frame.grid.maxCoverage := by
  obtain ⟨first, last, _, _, _, values⟩ := exists_touched_of_mem_coverageRows width member
  rw [values] at valueMember
  obtain ⟨pixel, _, rfl⟩ := List.mem_map.mp valueMember
  exact (Nat.mod_le _ _).trans (samplesIn_lineSpans_le disjoint row.y pixel)

/-- While the spans of every row are disjoint, no counter of a pixel wraps around. -/
theorem coverageAt_of_disjoint {frame : ScanFrame}
    (width : frame.clip.width = frame.clip.right - frame.clip.left)
    (fits : frame.grid.maxCoverage < 256) {edges : List Edge}
    (disjoint : ∀ row, (spansAt frame edges row).Pairwise Span.Disjoint) {x y : Int}
    (contained : frame.clip.contains x y = true) :
    coverageAt (coverageRows frame edges) x y =
      samplesIn frame.grid.columns (lineSpans frame edges y) (x - frame.clip.left).toNat := by
  have atMost := samplesIn_lineSpans_le disjoint y (x - frame.clip.left).toNat
  rw [coverageAt_of_contains width _ contained]
  exact Nat.mod_eq_of_lt (atMost.trans_lt fits)

end Sweep

/-- The box of a surface is not larger than the surface. -/
theorem Surface.bounds_le (surface : Surface) :
    surface.bounds.right ≤ surface.width ∧ surface.bounds.bottom ≤ surface.height := by
  have atMost : ∀ size : Nat, Word.clamp32 (0 + size) ≤ size := by
    intro size
    unfold Word.clamp32 Word.max32 Word.min32
    split
    · omega
    · split <;> omega
  exact ⟨atMost surface.width, atMost surface.height⟩

namespace Scanner

/-- The rows of a traced path lie on the surface. -/
theorem Ready.shows {scanner : Scanner} (ready : scanner.Ready) {segments : List Segment}
    {row : CoverageRow}
    (member : row ∈ Sweep.coverageRows scanner.frame
      (Edge.ofSegments scanner.grid scanner.clip segments)) : scanner.Shows row := by
  intro _ _
  obtain ⟨leftNonneg, topNonneg, _, _, rightLe, bottomLe⟩ := ready.clip
  obtain ⟨⟨left, right⟩, top, bottom⟩ := Sweep.bounds_of_mem_coverageRows ready.width_eq member
  have size := scanner.surface.bounds_le
  simp only [frame] at left right top bottom
  have shownRight : row.x + row.values.length ≤ (scanner.surface.width : Int) := by omega
  have shownBottom : row.y < (scanner.surface.height : Int) := by omega
  exact ⟨by omega, shownBottom, by omega, shownRight⟩

/-- The spans of a row of a received path are disjoint exactly if no edge that ends one of
them overtakes an edge that begins a later one.  If they are disjoint on all rows, every
counter is exact and in the alpha table, and for paints that lack no colors neither the end of
the path nor a replay of its record is a fault.  In general the end of the path is a fault
exactly if a row is composited that has no colors or counts more samples than a pixel has. -/
theorem disjoint_spans_iff_and_no_fault {scanner : Scanner} (ready : scanner.Ready)
    (idle : scanner.Idle) {commands : List LineCommand} (unfinished : .finish ∉ commands) :
    ∃ received edges, scanner.send commands = .ok received ∧
      received.closeSubpath.edges.toList = edges ∧
      (∀ row, (Sweep.spansAt scanner.frame edges row).Pairwise Span.Disjoint ↔
        (Sweep.gaps scanner.frame 0 (Sweep.activeAt scanner.frame edges row)).Pairwise
          fun first second => ¬ first.2.Overtakes second.1) ∧
      ((∀ row, (Sweep.spansAt scanner.frame edges row).Pairwise Span.Disjoint) →
        (∀ x y, scanner.clip.contains x y = true →
          coverageAt received.closeSubpath.coverageRows x y =
            Sweep.samplesIn scanner.grid.columns (Sweep.lineSpans scanner.frame edges y)
              (x - scanner.clip.left).toNat ∧
          coverageAt received.closeSubpath.coverageRows x y ≤ scanner.grid.maxCoverage) ∧
        (∀ row ∈ received.closeSubpath.coverageRows, ∀ value ∈ row.values,
          value ≤ scanner.grid.maxCoverage) ∧
        ((scanner.cache = none → scanner.paint.IsWhole) → ∃ drawn, received.finish = .ok drawn) ∧
        ∀ cache, scanner.cache = some cache →
          ∃ drawn recorded, received.finish = .ok drawn ∧ drawn.cache = some recorded ∧
            ∀ player : Scanner, player.paint.IsWhole →
              ∃ replayed, player.replay recorded = .ok replayed) ∧
      ((∃ drawn, received.finish = .ok drawn) ↔
        (scanner.cache = none → received.closeSubpath.filledRect? = none →
          scanner.paint.isDegenerate = false →
            ∀ row ∈ received.closeSubpath.coverageRows, scanner.Colors row ∧
              ∀ value ∈ row.values, value ≤ scanner.grid.maxCoverage)) := by
  obtain ⟨received, edges, probe, sent, closed, traced⟩ := idle.exists_received unfinished
  have rows : received.closeSubpath.coverageRows =
      Sweep.coverageRows scanner.frame edges.toList := by
    rw [closed]
    rfl
  have shown : ∀ row ∈ (scanner.withPath edges none probe).coverageRows,
      (scanner.withPath edges none probe).Shows row := by
    intro row member
    have traceMember : row ∈ Sweep.coverageRows scanner.frame
        (Edge.ofSegments scanner.grid scanner.clip (segmentsOf commands)) := by
      rw [← traced]
      exact member
    exact ready.shows traceMember
  have ends := exists_finish_iff closed shown
  refine ⟨received, edges.toList, sent, by rw [closed]; rfl, ?_, ?_, ?_⟩
  · intro row
    exact Sweep.pairwise_disjoint_spans_iff (Sweep.isSorted_activeAt _ _ row)
  · intro disjoint
    have bounded : ∀ row ∈ received.closeSubpath.coverageRows, ∀ value ∈ row.values,
        value ≤ scanner.grid.maxCoverage := by
      rw [rows]
      intro row member value
      exact Sweep.le_maxCoverage_of_mem_coverageRows ready.width_eq disjoint member
    have grid : received.closeSubpath.grid = scanner.grid := by
      rw [closed]
      rfl
    have done : (scanner.cache = none → scanner.paint.IsWhole) →
        ∃ drawn, received.finish = .ok drawn := by
      intro whole
      refine ends.mpr fun detached _ sound row member => ⟨?_, ?_⟩
      · exact colors_of_isWhole (whole detached) sound row
      · rw [← closed] at member
        exact bounded row member
    refine ⟨?_, bounded, done, ?_⟩
    · intro x y contained
      rw [rows, Sweep.coverageAt_of_disjoint ready.width_eq ready.maxCoverage_lt disjoint contained]
      exact ⟨rfl, Sweep.samplesIn_lineSpans_le disjoint y _⟩
    · intro cache attached
      have closedCache : received.closeSubpath.cache = some cache := by
        rw [closed]
        exact attached
      obtain ⟨drawn, finished⟩ := done fun detached => by
        rw [detached] at attached
        cases attached
      obtain ⟨recorded, kept, plays⟩ := exists_recorded_of_finish finished closedCache (by
        rw [grid]
        exact bounded)
      exact ⟨drawn, recorded, finished, kept, plays⟩
  · rw [ends, closed]
    rfl

/-- Two quadrilaterals on one sample row with one sample per pixel.  The second begins on the center
of a sample, and the first ends at `corner` on its lower side. -/
def quadrilaterals (corner : Int) : List LineCommand :=
  [.moveTo ⟨0, 0⟩, .lineTo ⟨0, 65536⟩, .lineTo ⟨corner, 65536⟩, .lineTo ⟨98304, 0⟩, .close,
    .moveTo ⟨98304, 0⟩, .lineTo ⟨98304, 65536⟩, .lineTo ⟨196608, 65536⟩, .lineTo ⟨196608, 0⟩,
    .close]

/-- Quadrilaterals that do not meet, on a surface of four pixels. -/
theorem disjoint_spans_iff_and_no_fault_quadrilaterals :
    let scanner := (Scanner.new ⟨.gray8, 4, 1, .packed 4, #[0, 0, 0, 0]⟩).setGrid 0 0
    scanner.Ready ∧ scanner.Idle ∧ .finish ∉ quadrilaterals 65536 ∧
      ∃ received edges, scanner.send (quadrilaterals 65536) = .ok received ∧
        received.closeSubpath.edges.toList = edges ∧
        Sweep.spansAt scanner.frame edges 0 = [⟨0, 1⟩, ⟨1, 3⟩] ∧
        (∀ row, (Sweep.spansAt scanner.frame edges row).Pairwise Span.Disjoint) ∧
        ∃ drawn, received.finish = .ok drawn := by
  intro scanner
  have ready : scanner.Ready :=
    (ready_new ⟨.gray8, 4, 1, .packed 4, #[0, 0, 0, 0]⟩).setGrid 0 0
  have idle : scanner.Idle := (idle_new ⟨.gray8, 4, 1, .packed 4, #[0, 0, 0, 0]⟩).setGrid 0 0
  have unfinished : .finish ∉ quadrilaterals 65536 := by decide
  obtain ⟨received, edges, sent, kept, _, safe, _⟩ :=
    disjoint_spans_iff_and_no_fault ready idle unfinished
  have spans : (scanner.send (quadrilaterals 65536)).map (fun received =>
      Sweep.spansAt scanner.frame received.closeSubpath.edges.toList 0) =
        .ok [⟨0, 1⟩, ⟨1, 3⟩] := by
    decide +kernel
  have rows : (scanner.send (quadrilaterals 65536)).map (fun received =>
      received.closeSubpath.edges.toList.all fun edge => edge.firstRow = 0 ∧ edge.stopRow = 1) =
        .ok true := by
    decide +kernel
  rw [sent, Except.map, kept] at spans rows
  have spansHere := Except.ok.inj spans
  have rowsHere := List.all_eq_true.mp (Except.ok.inj rows)
  have disjoint : ∀ row, (Sweep.spansAt scanner.frame edges row).Pairwise Span.Disjoint := by
    intro row
    by_cases first : row = 0
    · rw [first, spansHere]
      decide
    · rw [Sweep.spansAt_eq_nil]
      · exact List.Pairwise.nil
      · intro edge member crosses
        have range := of_decide_eq_true (rowsHere edge member)
        unfold Edge.Crosses at crosses
        omega
  have whole : scanner.paint.IsWhole := Paint.isWhole_of_not_image fun _ same => by cases same
  obtain ⟨_, _, done, _⟩ := safe disjoint
  exact ⟨ready, idle, unfinished, received, edges, sent, kept, spansHere, disjoint,
    done fun _ => whole⟩

/-- An edge overtakes another, both spans count the sample between them, and its pixel has one
sample more than the table has opacities for. -/
theorem finish_eq_error_of_overlap :
    ∃ received,
      ((Scanner.new ⟨.gray8, 4, 1, .packed 4, #[0, 0, 0, 0]⟩).setGrid 0 0).send
          (quadrilaterals 98305) = .ok received ∧
        Sweep.spansAt received.closeSubpath.frame received.closeSubpath.edges.toList 0 =
          [⟨0, 2⟩, ⟨1, 3⟩] ∧
        received.finish = .error .coverageBeyondTable :=
  ⟨_, rfl, by decide +kernel, by rfl⟩

end Scanner

end Raster
