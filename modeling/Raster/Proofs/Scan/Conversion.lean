import Mathlib
import Raster.Proofs.Scan.Finishing
import Raster.Proofs.Scan.Winding

/-!
# Exact scan conversion

The coverage of a pixel is the number of its samples around which the path winds as the
winding rule asks.  This holds unless two edges of a row are out of order: the order of
the active edges looks only at the whole parts of their crossings.
-/

namespace Raster

namespace Sweep

/-- Of the crossings on a row that agree in their whole parts, all are whole or none. -/
def NoMixedTies (edges : List Edge) : Prop :=
  ∀ row, ∀ first ∈ crossing edges row, ∀ second ∈ crossing edges row,
    first.x = second.x → (first.remainder = 0 ↔ second.remainder = 0)

/-- Only rows that some edge crosses matter. -/
theorem noMixedTies_iff (edges : List Edge) :
    NoMixedTies edges ↔
      ∀ edge ∈ edges, ∀ row ∈ interval edge.firstRow edge.stopRow,
        ∀ first ∈ crossing edges row, ∀ second ∈ crossing edges row,
          first.x = second.x → (first.remainder = 0 ↔ second.remainder = 0) := by
  constructor
  · intro noMixedTies edge _ row _
    exact noMixedTies row
  · intro onCrossedRows row first firstMember
    obtain ⟨start, startMember, _⟩ := List.mem_map.mp firstMember
    obtain ⟨edgeMember, crosses⟩ := List.mem_filter.mp startMember
    have here : start.Crosses row := of_decide_eq_true crosses
    exact onCrossedRows start edgeMember row ((mem_interval _ _ row).mpr here) first firstMember

instance (edges : List Edge) : Decidable (NoMixedTies edges) :=
  decidable_of_iff _ (noMixedTies_iff edges).symm

/-! ## Order by columns -/

/-- Remainders stay between zero and the height of the edge. -/
theorem remainder_nonneg_of_mem_crossing {grid : Grid} {clip : PixelBox}
    {segments : List Segment} {row : Int} {edge : Edge}
    (member : edge ∈ crossing (Edge.ofSegments grid clip segments) row) :
    0 ≤ edge.remainder := by
  obtain ⟨start, startMember, rfl⟩ := List.mem_map.mp member
  obtain ⟨edgeMember, crosses⟩ := List.mem_filter.mp startMember
  have ⟨begun, _⟩ : start.Crosses row := of_decide_eq_true crosses
  obtain ⟨segment, _, made⟩ := List.mem_filterMap.mp edgeMember
  exact ((segment.isExact made).1.onRow begun).remainder_nonneg

/-- Without mixed ties the active edges are in the order of their columns. -/
theorem pairwise_column_activeAt {frame : ScanFrame} {segments : List Segment}
    (noMixedTies : NoMixedTies (Edge.ofSegments frame.grid frame.clip segments)) (row : Int) :
    (activeAt frame (Edge.ofSegments frame.grid frame.clip segments) row).Pairwise
      fun first second => first.column ≤ second.column := by
  have perm := activeAt_perm frame (Edge.ofSegments frame.grid frame.clip segments) row
  refine (isSorted_activeAt frame _ row).imp_of_mem ?_
  intro first second firstMember secondMember ordered
  rw [← Int.not_lt, Edge.column_lt_iff_overtakes ordered]
  rintro ⟨tie, _, between, notBetween⟩
  have firstCrossing := perm.mem_iff.mp firstMember
  have secondCrossing := perm.mem_iff.mp secondMember
  have same := noMixedTies row first firstCrossing second secondCrossing tie
  have nonneg := remainder_nonneg_of_mem_crossing secondCrossing
  omega

/-! ## Samples of a pixel -/

theorem samplesIn_flatMap {α : Type} (columns : Nat) (rows : List α) (spansOf : α → List Span)
    (pixel : Nat) :
    samplesIn columns (rows.flatMap spansOf) pixel =
      (rows.map fun row => samplesIn columns (spansOf row) pixel).sum := by
  induction rows with
  | nil => rfl
  | cons row rest inductionHypothesis =>
      rw [List.flatMap_cons, List.map_cons, List.sum_cons, ← inductionHypothesis]
      simp [samplesIn]

/-- The spans of a row have as many samples of a pixel as are inside. -/
theorem samplesIn_spansAt {frame : ScanFrame} {edges : List Edge} {row x : Int}
    (inClip : frame.clip.left ≤ x ∧ x < frame.clip.right)
    (sorted : (activeAt frame edges row).Pairwise fun first second => first.column ≤ second.column)
    (balanced : ((crossing edges row).map Edge.direction).sum = 0) :
    samplesIn frame.grid.columns (spansAt frame edges row) (x - frame.clip.left).toNat =
      (List.range frame.grid.columns).countP fun (column : Nat) =>
        frame.rule.isInside (windingAt (crossing edges row) (x * frame.grid.columns + column)) := by
  have perm := activeAt_perm frame edges row
  have activeBalanced : ((activeAt frame edges row).map Edge.direction).sum = 0 := by
    rw [(perm.map _).sum_eq, balanced]
  simp only [samplesIn, Span.samplesIn_eq_countP, Span.sum_countP_contains]
  rw [List.range'_eq_map_range, List.map_map, Span.countP_eq_sum]
  congr 1
  apply List.map_congr_left
  intro column member
  have below : column < frame.grid.columns := List.mem_range.mp member
  have leftLe : frame.clip.left * frame.grid.columns ≤ x * frame.grid.columns :=
    Int.mul_le_mul_of_nonneg_right inClip.1 (by omega)
  have lePrevious : (x + 1) * frame.grid.columns ≤ frame.clip.right * frame.grid.columns :=
    Int.mul_le_mul_of_nonneg_right inClip.2 (by omega)
  rw [add_mul, one_mul] at lePrevious
  have within : frame.clip.left * frame.grid.columns ≤ x * frame.grid.columns + column ∧
      x * frame.grid.columns + column < frame.clip.right * frame.grid.columns := by omega
  have index : (x - frame.clip.left).toNat * frame.grid.columns + column =
      (x * frame.grid.columns + column - frame.clip.left * frame.grid.columns).toNat := by
    zify
    rw [Int.toNat_of_nonneg (by omega), Int.toNat_of_nonneg (by omega), sub_mul]
    ring
  rw [Function.comp_apply, index, spansAt, countP_spans within sorted activeBalanced,
    windingAt_perm perm]

/-- The spans of a line have as many samples of a pixel as are inside. -/
theorem samplesIn_lineSpans {frame : ScanFrame} {commands : List LineCommand} {x y : Int}
    (inClip : frame.clip.contains x y = true)
    (noMixedTies : NoMixedTies (Edge.ofSegments frame.grid frame.clip (segmentsOf commands))) :
    samplesIn frame.grid.columns
        (lineSpans frame (Edge.ofSegments frame.grid frame.clip (segmentsOf commands)) y)
        (x - frame.clip.left).toNat =
      insideSamples frame.grid frame.rule (segmentsOf commands) x y := by
  obtain ⟨inColumns, topLe, ltBottom⟩ := (frame.clip.contains_iff x y).mp inClip
  rw [lineSpans, samplesIn_flatMap, sampleRowsOf_eq, List.map_map, insideSamples]
  congr 1
  apply List.map_congr_left
  intro row member
  have below : row < frame.grid.rows := List.mem_range.mp member
  have fromTop : frame.clip.top * frame.grid.rows ≤ y * frame.grid.rows :=
    Int.mul_le_mul_of_nonneg_right topLe (by omega)
  have toBottom : (y + 1) * frame.grid.rows ≤ frame.clip.bottom * frame.grid.rows :=
    Int.mul_le_mul_of_nonneg_right ltBottom (by omega)
  rw [add_mul, one_mul] at toBottom
  have within : frame.clip.top * frame.grid.rows ≤ y * frame.grid.rows + row ∧
      y * frame.grid.rows + row < frame.clip.bottom * frame.grid.rows := by omega
  rw [Function.comp_apply, samplesIn_spansAt inColumns (pairwise_column_activeAt noMixedTies _)
    (sum_direction_segmentsOf within commands)]
  simp only [windingAt_crossing within]

/-- A line outside the clip box has no spans. -/
theorem lineSpans_of_outside {frame : ScanFrame} {segments : List Segment} {y : Int}
    (outside : y < frame.clip.top ∨ frame.clip.bottom ≤ y) :
    lineSpans frame (Edge.ofSegments frame.grid frame.clip segments) y = [] := by
  apply List.flatMap_eq_nil_iff.mpr
  intro row rowMember
  apply spansAt_eq_nil
  intro edge member crosses
  have ⟨low, high⟩ := (mem_interval _ _ row).mp rowMember
  have inClip := Edge.inClip_of_crosses member crosses
  rcases outside with above | below
  · have : (y + 1) * frame.grid.rows ≤ frame.clip.top * frame.grid.rows :=
      Int.mul_le_mul_of_nonneg_right above (by omega)
    omega
  · have : frame.clip.bottom * frame.grid.rows ≤ y * frame.grid.rows :=
      Int.mul_le_mul_of_nonneg_right below (by omega)
    omega

/-- The rows of coverage belong to different lines, from top to bottom. -/
theorem pairwise_coverageRows (frame : ScanFrame) (edges : List Edge) :
    (coverageRows frame edges).Pairwise fun first second => first.y < second.y := by
  rw [coverageRows_eq]
  split
  · exact List.Pairwise.nil
  · obtain ⟨first, stop, lines, _⟩ := exists_linesOf_eq_interval frame.grid edges
    rw [lines, List.pairwise_flatMap]
    constructor
    · intro line _
      cases coverageRow? frame line (lineSpans frame edges line) with
      | none => exact List.Pairwise.nil
      | some row => exact List.pairwise_singleton _ _
    · rw [interval, List.pairwise_map]
      refine List.pairwise_lt_range.imp ?_
      intro before after ordered row rowMember other otherMember
      rw [y_of_coverageRow? (Option.mem_toList.mp rowMember),
        y_of_coverageRow? (Option.mem_toList.mp otherMember)]
      omega

end Sweep

/-! ## Coverage of a path -/

/-- No coverage exceeds that of a pixel inside completely. -/
theorem insideSamples_le (grid : Grid) (rule : WindingRule) (segments : List Segment)
    (x y : Int) : insideSamples grid rule segments x y ≤ grid.maxCoverage := by
  have atMost := List.sum_le_card_nsmul
    ((List.range grid.rows).map fun (row : Nat) =>
      (List.range grid.columns).countP fun (column : Nat) =>
        rule.isInside (windingNumber segments
          (sampleCenter grid.columns (x * grid.columns + column))
          (sampleCenter grid.rows (y * grid.rows + row)))) grid.columns
    (by
      intro count member
      obtain ⟨row, _, rfl⟩ := List.mem_map.mp member
      exact (List.countP_le_length).trans (List.length_range).le)
  rw [List.length_map, List.length_range, smul_eq_mul] at atMost
  rw [Grid.maxCoverage, Nat.mul_comm grid.columns]
  exact atMost

/-- A coverage fits a byte. -/
theorem Scanner.Ready.maxCoverage_lt {scanner : Scanner} (ready : scanner.Ready) :
    scanner.grid.maxCoverage < 256 := by
  have product := Nat.mul_le_mul ready.columns_le ready.rows_le
  unfold Grid.maxCoverage
  omega

/-- The coverage of closed subpaths, whose segments are all that the sweep sees. -/
theorem Sweep.coverageAt_segmentsOf {frame : ScanFrame} {commands : List LineCommand}
    (width : frame.clip.width = frame.clip.right - frame.clip.left)
    (fits : frame.grid.maxCoverage < 256)
    (noMixedTies : NoMixedTies (Edge.ofSegments frame.grid frame.clip (segmentsOf commands)))
    (x y : Int) :
    coverageAt
        (coverageRows frame (Edge.ofSegments frame.grid frame.clip (segmentsOf commands))) x y =
      if frame.clip.contains x y then
        insideSamples frame.grid frame.rule (segmentsOf commands) x y
      else
        0 := by
  cases contained : frame.clip.contains x y with
  | true =>
      have bounded := insideSamples_le frame.grid frame.rule (segmentsOf commands) x y
      rw [coverageAt_of_contains width _ contained, samplesIn_lineSpans contained noMixedTies]
      exact Nat.mod_eq_of_lt (bounded.trans_lt fits)
  | false =>
      rw [coverageAt_coverageRows width, if_neg Bool.false_ne_true]
      split
      · rename_i inColumns
        have outside : y < frame.clip.top ∨ frame.clip.bottom ≤ y := by
          by_contra inLines
          have inBox : frame.clip.contains x y = true :=
            (frame.clip.contains_iff x y).mpr ⟨inColumns.2, by omega⟩
          rw [contained] at inBox
          exact Bool.false_ne_true inBox
        rw [lineSpans_of_outside outside]
        rfl
      · rfl

namespace Scanner

/-- A path received by an idle scanner gives each pixel of the clip box the number of its
samples inside the path, and each line at most one row.  These rows are what is recorded
or composited. -/
theorem coverageAt_eq_insideSamples {scanner : Scanner} (ready : scanner.Ready)
    (idle : scanner.Idle) {commands : List LineCommand} (unfinished : .finish ∉ commands)
    (noMixedTies : Sweep.NoMixedTies
      (Edge.ofSegments scanner.grid scanner.clip (segmentsOf commands))) :
    ∃ received, scanner.send commands = .ok received ∧
      (∀ x y, coverageAt received.closeSubpath.coverageRows x y =
        if scanner.clip.contains x y then
          insideSamples scanner.grid scanner.rule (segmentsOf commands) x y
        else
          0) ∧
      (received.closeSubpath.coverageRows.Pairwise fun first second => first.y < second.y) ∧
      (∀ cache, scanner.cache = some cache →
        ∃ drawn recorded, received.finish = .ok drawn ∧ drawn.cache = some recorded ∧
          recorded.rows.map RunRow.decoded = received.closeSubpath.coverageRows) ∧
      (scanner.cache = none → scanner.paint.isDegenerate = false →
        ∃ scratch, received.closeSubpath.rasterize =
          received.closeSubpath.coverageRows.foldlM
            (drawRow (scanner.alphas scanner.grid.maxCoverage))
            { received.closeSubpath with
              boundingBox := Sweep.boxOf received.closeSubpath.coverageRows
              scratch := scratch }) := by
  obtain ⟨received, edges, probe, sent, closed, traced⟩ := idle.exists_received unfinished
  have rows : received.closeSubpath.coverageRows = Sweep.coverageRows scanner.frame
      (Edge.ofSegments scanner.grid scanner.clip (segmentsOf commands)) := by
    rw [closed, coverageRows, ← traced]
    rfl
  refine ⟨received, sent, ?_, ?_, ?_, ?_⟩
  · intro x y
    rw [rows]
    exact Sweep.coverageAt_segmentsOf ready.width_eq ready.maxCoverage_lt noMixedTies x y
  · rw [rows]
    exact Sweep.pairwise_coverageRows _ _
  · intro cache attached
    have closedCache : received.closeSubpath.cache = some cache := by
      rw [closed]
      exact attached
    obtain ⟨scratch, recorded⟩ := exists_finish_of_cache closedCache
    refine ⟨_, _, recorded, rfl, ?_⟩
    rw [record, CoverageCache.rows_record, List.map_map]
    exact List.map_id'' CoverageRow.decoded_encoded _
  · intro detached sound
    rw [closed]
    exact exists_rasterize_of_detached detached sound

/-- A triangle with a slanted side, on a surface of two by two pixels with two by two samples
each. -/
theorem coverageAt_eq_insideSamples_triangle :
    let scanner := (Scanner.new ⟨.gray8, 2, 2, .packed 2, #[0, 0, 0, 0]⟩).setGrid 1 1
    let commands : List LineCommand :=
      [.moveTo ⟨0, 0⟩, .lineTo ⟨131072, 65536⟩, .lineTo ⟨40000, 131072⟩]
    scanner.Ready ∧ scanner.Idle ∧ .finish ∉ commands ∧
      Sweep.NoMixedTies (Edge.ofSegments scanner.grid scanner.clip (segmentsOf commands)) ∧
      ∃ received, scanner.send commands = .ok received ∧
        (∀ x y, coverageAt received.closeSubpath.coverageRows x y =
          if scanner.clip.contains x y then
            insideSamples scanner.grid scanner.rule (segmentsOf commands) x y
          else
            0) := by
  have ready := (ready_new ⟨.gray8, 2, 2, .packed 2, #[0, 0, 0, 0]⟩).setGrid 1 1
  have noMixedTies : Sweep.NoMixedTies (Edge.ofSegments ⟨1, 1⟩ ⟨0, 0, 2, 2⟩
      (segmentsOf [.moveTo ⟨0, 0⟩, .lineTo ⟨131072, 65536⟩, .lineTo ⟨40000, 131072⟩])) := by
    decide +kernel
  obtain ⟨received, sent, coverage, _⟩ := coverageAt_eq_insideSamples ready ⟨rfl, rfl, rfl⟩
    (by decide) noMixedTies
  exact ⟨ready, ⟨rfl, rfl, rfl⟩, by decide, noMixedTies, received, sent, coverage⟩

end Scanner

end Raster
