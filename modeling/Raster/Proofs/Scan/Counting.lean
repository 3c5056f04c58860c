import Mathlib
import Raster.Proofs.Scan.ActiveList
import Raster.Proofs.Scan.Spans

/-!
# Counting samples

Coverage counters add up, modulo `256`, the samples that the spans of a line have in
each pixel.  The row of coverage of a line has such a counter for every pixel that the
spans touch, and nothing is counted elsewhere.
-/

namespace Raster

/-- The coverage that a row gives to a pixel; there is none outside the row. -/
def CoverageRow.valueAt (row : CoverageRow) (x y : Int) : Nat :=
  if row.y = y ∧ row.x ≤ x then row.values[(x - row.x).toNat]?.getD 0 else 0

/-- The coverage that some rows give to a pixel. -/
def coverageAt (rows : List CoverageRow) (x y : Int) : Nat :=
  (rows.map (·.valueAt x y)).sum

namespace Span

/-- A span has no samples left of its first pixel. -/
theorem samplesIn_of_lt_firstPixel {span : Span} {columns pixel : Nat} (positive : 0 < columns)
    (before : pixel < span.firstPixel columns) : span.samplesIn columns pixel = 0 := by
  have le : (pixel + 1) * columns ≤ span.first :=
    (Nat.le_div_iff_mul_le positive).mp before
  unfold samplesIn
  omega

/-- A span has no samples right of its last pixel. -/
theorem samplesIn_of_lastPixel_lt {span : Span} {columns pixel : Nat} (positive : 0 < columns)
    (after : span.lastPixel columns < pixel) : span.samplesIn columns pixel = 0 := by
  have lt : span.stop - 1 < pixel * columns := (Nat.div_lt_iff_lt_mul positive).mp after
  unfold samplesIn
  omega

end Span

namespace Sweep

/-- The number of samples that some spans have in a pixel. -/
def samplesIn (columns : Nat) (spans : List Span) (pixel : Nat) : Nat :=
  (spans.map (·.samplesIn columns pixel)).sum

/-- The spans have samples, and all of them in the first `width` pixels. -/
def Fit (columns width : Nat) (spans : List Span) : Prop :=
  ∀ span ∈ spans, span.first < span.stop ∧ span.stop ≤ width * columns

/-! ## Counters -/

/-- A pass over neighboring counters changes each of them once. -/
theorem getElem?_foldl_modify (change : Nat → Nat → Nat) (first count : Nat)
    (coverage : Array Nat) (pixel : Nat) :
    ((List.range' first count).foldl
        (fun coverage pixel => coverage.modify pixel (change pixel)) coverage)[pixel]? =
      if first ≤ pixel ∧ pixel < first + count then
        coverage[pixel]?.map (change pixel)
      else
        coverage[pixel]? := by
  induction count with
  | zero =>
      rw [if_neg (by omega)]
      rfl
  | succ count inductionHypothesis =>
      rw [List.range'_concat, List.foldl_append, List.foldl_cons, List.foldl_nil,
        Array.getElem?_modify, inductionHypothesis]
      by_cases last : first + 1 * count = pixel
      · rw [if_pos last, if_neg (by omega), if_pos (by omega), last]
      · rw [if_neg last]
        by_cases earlier : first ≤ pixel ∧ pixel < first + count
        · rw [if_pos earlier, if_pos (by omega)]
        · rw [if_neg earlier, if_neg (by omega)]

/-- A span adds its samples to the counter of each pixel. -/
theorem getElem?_accumulate {columns : Nat} {span : Span} {coverage : Array Nat}
    {pixel total : Nat} (positive : 0 < columns) (nonempty : span.first < span.stop)
    (before : coverage[pixel]? = some (total % 256)) :
    (accumulate columns coverage span)[pixel]? =
      some ((total + span.samplesIn columns pixel) % 256) := by
  have ordered : span.firstPixel columns ≤ span.lastPixel columns :=
    Nat.div_le_div_right (by omega)
  simp only [accumulate]
  rw [getElem?_foldl_modify fun pixel samples =>
    (samples + span.samplesIn columns pixel) % 256, before]
  split
  · rw [Option.map_some, Nat.mod_add_mod]
  · rename_i outside
    have none : span.samplesIn columns pixel = 0 := by
      rcases Nat.lt_or_ge pixel (span.firstPixel columns) with left | right
      · exact Span.samplesIn_of_lt_firstPixel positive left
      · exact Span.samplesIn_of_lastPixel_lt positive (by omega)
    rw [none, Nat.add_zero]

/-- Spans add up their samples in the counter of each pixel. -/
theorem getElem?_foldl_accumulate {columns width : Nat} {spans : List Span}
    {coverage : Array Nat} {pixel total : Nat} (positive : 0 < columns)
    (fit : Fit columns width spans) (before : coverage[pixel]? = some (total % 256)) :
    (spans.foldl (accumulate columns) coverage)[pixel]? =
      some ((total + samplesIn columns spans pixel) % 256) := by
  induction spans generalizing coverage total with
  | nil => simpa [samplesIn] using before
  | cons span rest inductionHypothesis =>
      have nonempty := (fit span List.mem_cons_self).1
      have restFit : Fit columns width rest := fun other member =>
        fit other (List.mem_cons_of_mem _ member)
      rw [List.foldl_cons,
        inductionHypothesis restFit (getElem?_accumulate positive nonempty before)]
      simp only [samplesIn, List.map_cons, List.sum_cons, Nat.add_assoc]

theorem size_foldl_accumulate (columns : Nat) (spans : List Span) (coverage : Array Nat) :
    (spans.foldl (accumulate columns) coverage).size = coverage.size := by
  have sizeAccumulate : ∀ (coverage : Array Nat) (span : Span),
      (accumulate columns coverage span).size = coverage.size := by
    intro coverage span
    simp only [accumulate]
    generalize List.range' _ _ = pixels
    induction pixels generalizing coverage with
    | nil => rfl
    | cons pixel rest inductionHypothesis => simp [inductionHypothesis]
  induction spans generalizing coverage with
  | nil => rfl
  | cons span rest inductionHypothesis =>
      rw [List.foldl_cons, inductionHypothesis, sizeAccumulate]

/-! ## Rows of coverage -/

@[simp]
theorem touched?_nil (columns : Nat) : touched? columns [] = none :=
  rfl

/-- Spans touch the pixels from their least first one to their greatest last one. -/
theorem touched?_eq_some_iff {columns : Nat} {spans : List Span} {first last : Nat} :
    touched? columns spans = some (first, last) ↔
      (spans.map (Span.firstPixel · columns)).min? = some first ∧
        (spans.map (Span.lastPixel · columns)).max? = some last := by
  unfold touched?
  cases (spans.map (Span.firstPixel · columns)).min? with
  | none => simp
  | some least =>
      cases (spans.map (Span.lastPixel · columns)).max? with
      | none => simp
      | some greatest => simp

theorem exists_touched? (columns : Nat) {spans : List Span} (nonempty : spans ≠ []) :
    ∃ first last, touched? columns spans = some (first, last) := by
  obtain ⟨first, least⟩ := Option.isSome_iff_exists.mp (List.isSome_min?_of_ne_nil
    (l := spans.map (Span.firstPixel · columns)) (by simpa using nonempty))
  obtain ⟨last, greatest⟩ := Option.isSome_iff_exists.mp (List.isSome_max?_of_ne_nil
    (l := spans.map (Span.lastPixel · columns)) (by simpa using nonempty))
  exact ⟨first, last, touched?_eq_some_iff.mpr ⟨least, greatest⟩⟩

theorem touched?_bounds {columns : Nat} {spans : List Span} {first last : Nat}
    (touched : touched? columns spans = some (first, last)) {span : Span}
    (member : span ∈ spans) :
    first ≤ span.firstPixel columns ∧ span.lastPixel columns ≤ last := by
  obtain ⟨least, greatest⟩ := touched?_eq_some_iff.mp touched
  exact ⟨(List.min?_eq_some_iff.mp least).2 _ (List.mem_map_of_mem member),
    (List.max?_eq_some_iff.mp greatest).2 _ (List.mem_map_of_mem member)⟩

/-- The touched pixels lie in the clip box. -/
theorem touched?_lt_width {columns width : Nat} {spans : List Span} {first last : Nat}
    (positive : 0 < columns) (fit : Fit columns width spans)
    (touched : touched? columns spans = some (first, last)) : first ≤ last ∧ last < width := by
  obtain ⟨_, greatest⟩ := touched?_eq_some_iff.mp touched
  obtain ⟨span, member, lastEq⟩ := List.mem_map.mp (List.max?_eq_some_iff.mp greatest).1
  obtain ⟨nonempty, le⟩ := fit span member
  have bounds := (touched?_bounds touched member).1
  have ordered : span.firstPixel columns ≤ span.lastPixel columns :=
    Nat.div_le_div_right (by omega)
  have below : span.lastPixel columns < width := by
    unfold Span.lastPixel
    rw [Nat.div_lt_iff_lt_mul positive]
    omega
  omega

/-- Outside the touched pixels there are no samples. -/
theorem samplesIn_of_untouched {columns : Nat} {spans : List Span} {first last pixel : Nat}
    (positive : 0 < columns) (touched : touched? columns spans = some (first, last))
    (outside : pixel < first ∨ last < pixel) : samplesIn columns spans pixel = 0 := by
  apply List.sum_eq_zero
  intro samples member
  obtain ⟨span, spanMember, rfl⟩ := List.mem_map.mp member
  obtain ⟨left, right⟩ := touched?_bounds touched spanMember
  rcases outside with before | after
  · exact Span.samplesIn_of_lt_firstPixel positive (by omega)
  · exact Span.samplesIn_of_lastPixel_lt positive (by omega)

/-- The row of a line has the counter of every touched pixel. -/
theorem coverageRow?_eq_some {frame : ScanFrame} {spans : List Span} {first last : Nat}
    (fit : Fit frame.grid.columns frame.clip.width.toNat spans)
    (touched : touched? frame.grid.columns spans = some (first, last)) (y : Int) :
    coverageRow? frame y spans =
      some
        { x := frame.clip.left + first
          y := y
          values := (List.range' first (last + 1 - first)).map fun pixel =>
            samplesIn frame.grid.columns spans pixel % 256 } := by
  have positive := frame.grid.columns_pos
  have ⟨_, inside⟩ := touched?_lt_width positive fit touched
  simp only [coverageRow?, touched, Option.some.injEq, CoverageRow.mk.injEq, true_and]
  apply List.ext_getElem?
  intro index
  rw [Array.getElem?_toList, Array.getElem?_extract, size_foldl_accumulate, Array.size_replicate,
    List.getElem?_map]
  by_cases within : index < last + 1 - first
  · have clear : (Array.replicate frame.clip.width.toNat 0)[first + index]? = some (0 % 256) := by
      rw [Array.getElem?_replicate, if_pos (by omega)]
    rw [if_pos (by omega), getElem?_foldl_accumulate positive fit clear,
      List.getElem?_range' within, Option.map_some, Nat.zero_add, Nat.one_mul]
  · rw [if_neg (by omega), List.getElem?_eq_none (by simp; omega)]
    rfl

theorem y_of_coverageRow? {frame : ScanFrame} {line : Int} {spans : List Span}
    {row : CoverageRow} (made : coverageRow? frame line spans = some row) : row.y = line := by
  simp only [coverageRow?] at made
  split at made
  · cases made
  · obtain rfl := Option.some.inj made
    rfl

/-- What a line gives to a pixel. -/
theorem valueAt_coverageRow? {frame : ScanFrame} {spans : List Span}
    (width : frame.clip.width = frame.clip.right - frame.clip.left)
    (fit : Fit frame.grid.columns frame.clip.width.toNat spans) (line x y : Int) :
    coverageAt (coverageRow? frame line spans).toList x y =
      if line = y ∧ frame.clip.left ≤ x ∧ x < frame.clip.right then
        samplesIn frame.grid.columns spans (x - frame.clip.left).toNat % 256
      else
        0 := by
  have positive := frame.grid.columns_pos
  by_cases empty : spans = []
  · subst empty
    simp [coverageRow?, coverageAt, samplesIn]
  · obtain ⟨first, last, touched⟩ := exists_touched? frame.grid.columns empty
    have ⟨ordered, inside⟩ := touched?_lt_width positive fit touched
    rw [coverageRow?_eq_some fit touched]
    simp only [coverageAt, Option.toList_some, List.map_cons, List.map_nil, List.sum_cons,
      List.sum_nil, Nat.add_zero, CoverageRow.valueAt]
    by_cases within : frame.clip.left + first ≤ x ∧ x ≤ frame.clip.left + last
    · have index : (x - (frame.clip.left + first)).toNat < last + 1 - first := by omega
      have pixel : first + (x - (frame.clip.left + first)).toNat =
          (x - frame.clip.left).toNat := by omega
      rw [List.getElem?_map, List.getElem?_range' index, Nat.one_mul, pixel]
      have bounds : frame.clip.left ≤ x ∧ x < frame.clip.right := by omega
      simp only [within.1, bounds, and_true, Option.map_some, Option.getD_some, and_self]
    · have untouched : frame.clip.left ≤ x →
          samplesIn frame.grid.columns spans (x - frame.clip.left).toNat = 0 := fun _ =>
        samplesIn_of_untouched positive touched (by omega)
      have beyond : frame.clip.left + first ≤ x →
          ¬ (x - (frame.clip.left + first)).toNat < last + 1 - first := by omega
      split
      · rename_i reached
        rw [List.getElem?_eq_none (by simpa using beyond reached.2), Option.getD_none]
        split
        · rename_i inClip
          rw [untouched inClip.2.1]
        · rfl
      · split
        · rename_i inClip
          rw [untouched inClip.2.1]
        · rfl

/-! ## All lines -/

theorem coverageAt_append (first second : List CoverageRow) (x y : Int) :
    coverageAt (first ++ second) x y = coverageAt first x y + coverageAt second x y := by
  simp [coverageAt]

/-- Of the lines of an interval at most one gives anything to a pixel. -/
theorem coverageAt_flatMap_interval (rowsOf : Int → List CoverageRow) (first stop x y : Int)
    (elsewhere : ∀ line, line ≠ y → coverageAt (rowsOf line) x y = 0) :
    coverageAt ((interval first stop).flatMap rowsOf) x y =
      if first ≤ y ∧ y < stop then coverageAt (rowsOf y) x y else 0 := by
  rcases Int.le_total stop first with empty | ordered
  · rw [interval_of_le empty, if_neg (by omega)]
    rfl
  · obtain ⟨count, rfl⟩ : ∃ count : Nat, stop = first + count :=
      ⟨(stop - first).toNat, by omega⟩
    clear ordered
    induction count with
    | zero =>
        rw [interval_of_le (by omega), if_neg (by omega)]
        rfl
    | succ count inductionHypothesis =>
        have next : first + ((count + 1 : Nat) : Int) = first + (count : Int) + 1 := by omega
        rw [next, interval_succ (by omega), List.flatMap_append, coverageAt_append,
          inductionHypothesis, List.flatMap_cons, List.flatMap_nil, List.append_nil]
        by_cases last : first + (count : Int) = y
        · rw [last, if_neg (by omega), if_pos (by omega), Nat.zero_add]
        · rw [elsewhere _ last, Nat.add_zero]
          by_cases within : first ≤ y ∧ y < first + count
          · rw [if_pos within, if_pos (by omega)]
          · rw [if_neg within, if_neg (by omega)]

theorem fit_spans {frame : ScanFrame}
    (width : frame.clip.width = frame.clip.right - frame.clip.left) (winding : Int)
    (edges : List Edge) :
    Fit frame.grid.columns frame.clip.width.toNat (spans frame winding edges) := by
  intro span member
  rw [spans_eq_filterMap_gaps] at member
  obtain ⟨⟨left, right⟩, _, between⟩ := List.mem_filterMap.mp member
  simp only [spanBetween?] at between
  split at between
  · obtain rfl := Option.some.inj between
    rename_i nonempty
    have columns := frame.grid.columns_pos
    have ordered : frame.clip.left ≤ frame.clip.right := by
      by_contra reversed
      have product : frame.clip.right * frame.grid.columns ≤ frame.clip.left * frame.grid.columns :=
        Int.mul_le_mul_of_nonneg_right (by omega) (by omega)
      omega
    have inside : (min right.column (frame.clip.right * frame.grid.columns) -
        frame.clip.left * frame.grid.columns).toNat ≤
          frame.clip.width.toNat * frame.grid.columns := by
      zify
      rw [width, Int.toNat_of_nonneg (by omega), Int.toNat_of_nonneg (by omega), Int.sub_mul]
      omega
    refine ⟨?_, inside⟩
    simp only
    omega
  · cases between

theorem fit_lineSpans {frame : ScanFrame}
    (width : frame.clip.width = frame.clip.right - frame.clip.left) (edges : List Edge)
    (y : Int) : Fit frame.grid.columns frame.clip.width.toNat (lineSpans frame edges y) := by
  intro span member
  obtain ⟨row, _, spanMember⟩ := List.mem_flatMap.mp member
  exact fit_spans width 0 _ span spanMember

/-- A row that no edge crosses has no spans. -/
theorem spansAt_eq_nil {frame : ScanFrame} {edges : List Edge} {row : Int}
    (uncrossed : ∀ edge ∈ edges, ¬ edge.Crosses row) : spansAt frame edges row = [] := by
  have perm := activeAt_perm frame edges row
  have none : crossing edges row = [] := by
    rw [crossing, List.filter_eq_nil_iff.mpr, List.map_nil]
    intro edge member
    simpa using uncrossed edge member
  rw [none] at perm
  rw [spansAt, perm.eq_nil]
  rfl

/-- The line of a row that an edge crosses is visited. -/
theorem mem_linesOf {grid : Grid} {edges : List Edge} {edge : Edge} {row y : Int}
    (member : edge ∈ edges) (crosses : edge.Crosses row) (inLine : row ∈ sampleRowsOf grid y) :
    y ∈ linesOf grid edges := by
  have rows := grid.rows_pos
  obtain ⟨begun, notEnded⟩ := crosses
  obtain ⟨first, least⟩ := Option.isSome_iff_exists.mp (List.isSome_min?_of_mem
    (List.mem_map_of_mem (f := fun edge : Edge => edge.firstRow) member))
  obtain ⟨stop, greatest⟩ := Option.isSome_iff_exists.mp (List.isSome_max?_of_mem
    (List.mem_map_of_mem (f := fun edge : Edge => edge.stopRow) member))
  have firstLe := (List.min?_eq_some_iff.mp least).2 _ (List.mem_map_of_mem member)
  have leStop := (List.max?_eq_some_iff.mp greatest).2 _ (List.mem_map_of_mem member)
  have ⟨low, high⟩ := (mem_interval _ _ row).mp inLine
  simp only [linesOf, least, greatest, mem_interval]
  constructor
  · rw [← Int.lt_add_one_iff]
    exact Int.ediv_lt_of_lt_mul (by omega) (by omega)
  · rw [Int.lt_add_one_iff]
    exact Int.le_ediv_of_mul_le (by omega) (by omega)

/-- A line that the sweep does not visit has no spans. -/
theorem lineSpans_of_not_mem_linesOf {frame : ScanFrame} {edges : List Edge} {y : Int}
    (unvisited : y ∉ linesOf frame.grid edges) : lineSpans frame edges y = [] := by
  apply List.flatMap_eq_nil_iff.mpr
  intro row inLine
  apply spansAt_eq_nil
  intro edge member crosses
  exact unvisited (mem_linesOf member crosses inLine)

/-- The coverage of a pixel is its number of samples in the spans of its line, modulo
`256`. -/
theorem coverageAt_coverageRows {frame : ScanFrame}
    (width : frame.clip.width = frame.clip.right - frame.clip.left) (edges : List Edge)
    (x y : Int) :
    coverageAt (coverageRows frame edges) x y =
      if frame.clip.isEmpty = false ∧ frame.clip.left ≤ x ∧ x < frame.clip.right then
        samplesIn frame.grid.columns (lineSpans frame edges y)
          (x - frame.clip.left).toNat % 256
      else
        0 := by
  rw [coverageRows_eq]
  cases empty : frame.clip.isEmpty with
  | true => simp [coverageAt]
  | false =>
      have given := fun line => valueAt_coverageRow? width (fit_lineSpans width edges line) line x y
      obtain ⟨first, stop, lines, _⟩ := exists_linesOf_eq_interval frame.grid edges
      rw [if_neg Bool.false_ne_true, lines, coverageAt_flatMap_interval]
      · by_cases visited : first ≤ y ∧ y < stop
        · rw [if_pos visited, given]
          simp only [true_and]
        · have unvisited : y ∉ linesOf frame.grid edges := by rwa [lines, mem_interval]
          rw [if_neg visited, lineSpans_of_not_mem_linesOf unvisited]
          simp [samplesIn]
      · intro line other
        rw [given, if_neg (fun within => other within.1)]

/-- In the clip box every pixel has a counter. -/
theorem coverageAt_of_contains {frame : ScanFrame}
    (width : frame.clip.width = frame.clip.right - frame.clip.left) (edges : List Edge)
    {x y : Int} (contained : frame.clip.contains x y = true) :
    coverageAt (coverageRows frame edges) x y =
      samplesIn frame.grid.columns (lineSpans frame edges y) (x - frame.clip.left).toNat % 256 := by
  have nonempty : frame.clip.isEmpty = false := by
    rw [Bool.eq_false_iff]
    intro empty
    rw [PixelBox.contains_eq_false_of_isEmpty empty] at contained
    exact Bool.false_ne_true contained
  have inColumns := ((frame.clip.contains_iff x y).mp contained).1
  rw [coverageAt_coverageRows width, if_pos ⟨nonempty, inColumns⟩]

end Sweep

end Raster
