import Raster.Proofs.Hull
import Raster.Proofs.Scan.Confining

/-!
# The bounding box of a path

The end of a path reports the smallest box of the pixels that have a sample inside the path.
A row of coverage begins and ends with such pixels, so that its box, and with it the union of
all of them, depends on nothing else; and a rectangle of cells has a sample in every pixel of
its box.
-/

namespace Raster

open PixelBox (Hull Hull?)

/-- The pixel belongs to the row. -/
def CoverageRow.HasPixel (row : CoverageRow) (x y : Int) : Prop :=
  row.y = y ∧ row.x ≤ x ∧ x < row.x + row.values.length

/-- The box of a row whose far corner does not saturate is the smallest one of its pixels. -/
theorem CoverageRow.hull_box {row : CoverageRow} (nonempty : row.values ≠ [])
    (right : Word.Fits32 (row.x + row.values.length)) (bottom : Word.Fits32 (row.y + 1)) :
    Hull row.HasPixel row.box := by
  have length := List.length_pos_of_ne_nil nonempty
  have corners : row.box = ⟨row.x, row.y, row.x + row.values.length, row.y + 1⟩ := by
    rw [CoverageRow.box, PixelBox.ofSize, Word.clamp32_eq_self right, Word.clamp32_eq_self bottom]
  rw [corners]
  apply PixelBox.hull_of_contains_iff
  · simp only
    omega
  · simp only
    omega
  · intro x y
    rw [PixelBox.contains_iff]
    unfold HasPixel
    simp only
    omega

namespace Span

theorem samplesIn_firstPixel_pos {span : Span} {columns : Nat} (positive : 0 < columns)
    (nonempty : span.first < span.stop) :
    0 < span.samplesIn columns (span.firstPixel columns) := by
  have begun : span.first / columns * columns ≤ span.first := Nat.div_mul_le_self _ _
  have ended : span.first < (span.first / columns + 1) * columns :=
    Nat.lt_mul_of_div_lt (Nat.lt_succ_self _) positive
  unfold samplesIn firstPixel
  omega

theorem samplesIn_lastPixel_pos {span : Span} {columns : Nat} (positive : 0 < columns)
    (nonempty : span.first < span.stop) :
    0 < span.samplesIn columns (span.lastPixel columns) := by
  have begun : (span.stop - 1) / columns * columns ≤ span.stop - 1 := Nat.div_mul_le_self _ _
  have ended : span.stop - 1 < ((span.stop - 1) / columns + 1) * columns :=
    Nat.lt_mul_of_div_lt (Nat.lt_succ_self _) positive
  unfold samplesIn lastPixel
  omega

end Span

namespace Sweep

theorem samplesIn_pos_of_mem {columns pixel : Nat} {spans : List Span} {span : Span}
    (member : span ∈ spans) (positive : 0 < span.samplesIn columns pixel) :
    0 < samplesIn columns spans pixel :=
  positive.trans_le (List.le_sum_of_mem (List.mem_map_of_mem member))

/-- The first and the last touched pixel have a sample. -/
theorem samplesIn_pos_of_touched? {columns width : Nat} {spans : List Span} {first last : Nat}
    (positive : 0 < columns) (fit : Fit columns width spans)
    (touched : touched? columns spans = some (first, last)) :
    0 < samplesIn columns spans first ∧ 0 < samplesIn columns spans last := by
  obtain ⟨least, greatest⟩ := touched?_eq_some_iff.mp touched
  obtain ⟨leftmost, leftMember, rfl⟩ := List.mem_map.mp (List.min?_eq_some_iff.mp least).1
  obtain ⟨rightmost, rightMember, rfl⟩ := List.mem_map.mp (List.max?_eq_some_iff.mp greatest).1
  exact
    ⟨samplesIn_pos_of_mem leftMember
      (Span.samplesIn_firstPixel_pos positive (fit _ leftMember).1),
    samplesIn_pos_of_mem rightMember
      (Span.samplesIn_lastPixel_pos positive (fit _ rightMember).1)⟩

/-! ## Samples of pixels -/

/-- The number of samples that the spans of a sweep have in a pixel. -/
def samplesAt (frame : ScanFrame) (edges : List Edge) (x y : Int) : Nat :=
  if frame.clip.isEmpty = false ∧ frame.clip.left ≤ x ∧ x < frame.clip.right then
    samplesIn frame.grid.columns (lineSpans frame edges y) (x - frame.clip.left).toNat
  else
    0

variable {frame : ScanFrame} {edges : List Edge}

/-- A row of coverage holds the samples of its pixels, of which the first and the last have
some. -/
theorem samplesAt_of_mem_coverageRows
    (width : frame.clip.width = frame.clip.right - frame.clip.left) {row : CoverageRow}
    (member : row ∈ coverageRows frame edges) :
    ∃ first last : Nat, first ≤ last ∧ row.x = frame.clip.left + first ∧
      row.x + row.values.length = frame.clip.left + last + 1 ∧
      frame.clip.left + last < frame.clip.right ∧
      row.values = (List.range' first (last + 1 - first)).map (fun pixel : Nat =>
        samplesAt frame edges (frame.clip.left + pixel) row.y % 256) ∧
      0 < samplesAt frame edges (frame.clip.left + first) row.y ∧
      0 < samplesAt frame edges (frame.clip.left + last) row.y := by
  have clip : frame.clip.isEmpty = false := by
    rw [coverageRows_eq] at member
    by_contra empty
    rw [if_pos (by simpa using empty)] at member
    cases member
  have made := coverageRow?_of_mem_coverageRows member
  have fit := fit_lineSpans width edges row.y
  have nonempty : lineSpans frame edges row.y ≠ [] := by
    intro empty
    rw [empty] at made
    cases made
  obtain ⟨first, last, touched⟩ := exists_touched? frame.grid.columns nonempty
  obtain ⟨ordered, inside⟩ := touched?_lt_width frame.grid.columns_pos fit touched
  obtain ⟨firstPos, lastPos⟩ := samplesIn_pos_of_touched? frame.grid.columns_pos fit touched
  rw [coverageRow?_eq_some fit touched] at made
  have here : ∀ pixel : Nat, pixel ≤ last →
      samplesAt frame edges (frame.clip.left + pixel) row.y =
        samplesIn frame.grid.columns (lineSpans frame edges row.y) pixel := by
    intro pixel atMost
    rw [samplesAt, if_pos ⟨clip, by omega, by omega⟩]
    congr 1
    omega
  have same := Option.some.inj made
  have values : row.values = (List.range' first (last + 1 - first)).map (fun pixel : Nat =>
      samplesAt frame edges (frame.clip.left + pixel) row.y % 256) := by
    conv_lhs => rw [← same]
    apply List.map_congr_left
    intro pixel pixelMember
    obtain ⟨_, below⟩ := List.mem_range'_1.mp pixelMember
    rw [here pixel (by omega)]
  refine ⟨first, last, ordered, by rw [← same], ?_, by omega, values, ?_, ?_⟩
  · rw [values, List.length_map, List.length_range', ← same]
    simp only
    omega
  · rwa [here first ordered]
  · rwa [here last (Nat.le_refl last)]

theorem values_ne_nil_of_mem_coverageRows
    (width : frame.clip.width = frame.clip.right - frame.clip.left) {row : CoverageRow}
    (member : row ∈ coverageRows frame edges) : row.values ≠ [] := by
  obtain ⟨first, last, ordered, left, right, _⟩ := samplesAt_of_mem_coverageRows width member
  intro empty
  rw [empty, List.length_nil] at right
  omega

/-- The row of a line that has spans is a row of coverage. -/
theorem mem_coverageRows_of_coverageRow? (clip : frame.clip.isEmpty = false) {y : Int}
    {row : CoverageRow} (made : coverageRow? frame y (lineSpans frame edges y) = some row) :
    row ∈ coverageRows frame edges := by
  have visited : y ∈ linesOf frame.grid edges := by
    by_contra unvisited
    rw [lineSpans_of_not_mem_linesOf unvisited] at made
    cases made
  rw [coverageRows_eq, clip, if_neg Bool.false_ne_true]
  exact List.mem_flatMap.mpr ⟨y, visited, Option.mem_toList.mpr made⟩

/-- Every pixel that has a sample belongs to a row of coverage. -/
theorem exists_hasPixel_of_samplesAt_pos
    (width : frame.clip.width = frame.clip.right - frame.clip.left) {x y : Int}
    (positive : 0 < samplesAt frame edges x y) :
    ∃ row ∈ coverageRows frame edges, row.HasPixel x y := by
  unfold samplesAt at positive
  split at positive
  · rename_i inColumns
    obtain ⟨clip, left, right⟩ := inColumns
    have nonempty : lineSpans frame edges y ≠ [] := by
      intro empty
      rw [empty] at positive
      cases positive
    obtain ⟨first, last, touched⟩ := exists_touched? frame.grid.columns nonempty
    have inside : first ≤ (x - frame.clip.left).toNat ∧ (x - frame.clip.left).toNat ≤ last := by
      by_contra outside
      rw [samplesIn_of_untouched frame.grid.columns_pos touched (by omega)] at positive
      cases positive
    have made := coverageRow?_eq_some (fit_lineSpans width edges y) touched y
    refine ⟨_, mem_coverageRows_of_coverageRow? clip made, rfl, ?_⟩
    simp only [List.length_map, List.length_range']
    omega
  · cases positive

/-! ## The box of some rows -/

/-- If the boxes of rows are the smallest ones of their pixels, then so is their union. -/
theorem hull_boxOf {rows : List CoverageRow} (hulls : ∀ row ∈ rows, Hull row.HasPixel row.box) :
    Hull? (fun x y => ∃ row ∈ rows, row.HasPixel x y) (boxOf rows) := by
  induction rows using List.reverseRecOn with
  | nil =>
      rintro x y ⟨row, member, _⟩
      cases member
  | append_singleton rows row inductionHypothesis =>
      have earlier := inductionHypothesis fun other member =>
        hulls other (List.mem_append_left _ member)
      have here := hulls row (List.mem_append_right _ List.mem_cons_self)
      have split : (fun x y => ∃ other ∈ rows ++ [row], other.HasPixel x y) =
          fun x y => (∃ other ∈ rows, other.HasPixel x y) ∨ row.HasPixel x y := by
        funext x y
        simp only [List.mem_append, List.mem_singleton, or_and_right, exists_or, exists_eq_left]
      rw [boxOf_append, split]
      cases before : boxOf rows with
      | none =>
          rw [before] at earlier
          have only : (fun x y => (∃ other ∈ rows, other.HasPixel x y) ∨ row.HasPixel x y) =
              row.HasPixel := by
            funext x y
            exact propext (or_iff_right (earlier x y))
          rw [only]
          exact here
      | some box =>
          rw [before] at earlier
          exact earlier.union here

/-- The corners of a row of coverage do not saturate. -/
structure RowsFit (rows : List CoverageRow) : Prop where
  right : ∀ row ∈ rows, Word.Fits32 (row.x + row.values.length)
  bottom : ∀ row ∈ rows, Word.Fits32 (row.y + 1)

/-- The box of a row of coverage is the smallest one of its pixels. -/
theorem hull_box_of_mem_coverageRows
    (width : frame.clip.width = frame.clip.right - frame.clip.left)
    (fits : RowsFit (coverageRows frame edges)) {row : CoverageRow}
    (member : row ∈ coverageRows frame edges) : Hull row.HasPixel row.box :=
  CoverageRow.hull_box (values_ne_nil_of_mem_coverageRows width member) (fits.right row member)
    (fits.bottom row member)

/-- The box of the rows of coverage is the smallest one of the pixels that have a sample. -/
theorem hull_boxOf_coverageRows
    (width : frame.clip.width = frame.clip.right - frame.clip.left)
    (fits : RowsFit (coverageRows frame edges)) :
    Hull? (fun x y => 0 < samplesAt frame edges x y) (boxOf (coverageRows frame edges)) := by
  have union := hull_boxOf fun row => hull_box_of_mem_coverageRows width fits
  cases box : boxOf (coverageRows frame edges) with
  | none =>
      rw [box] at union
      exact fun x y positive => union x y (exists_hasPixel_of_samplesAt_pos width positive)
  | some smallest =>
      rw [box] at union
      apply union.of_subset
      · exact fun x y positive => exists_hasPixel_of_samplesAt_pos width positive
      · -- A box around the ends of a row holds the whole row.
        rintro other around x y ⟨row, member, rfl, begun, notEnded⟩
        obtain ⟨first, last, _, left, right, _, _, firstPos, lastPos⟩ :=
          samplesAt_of_mem_coverageRows width member
        have leftEnd := around _ _ firstPos
        have rightEnd := around _ _ lastPos
        rw [PixelBox.contains_iff] at leftEnd rightEnd ⊢
        omega
      · obtain ⟨_, _, row, member, _⟩ := union.inhabited
        obtain ⟨first, _, _, _, _, _, _, firstPos, _⟩ := samplesAt_of_mem_coverageRows width member
        exact ⟨_, _, firstPos⟩

end Sweep

namespace CellRect

/-- The number of cells in a pixel. -/
def samplesAt (grid : Grid) (cells : CellRect) (x y : Int) : Nat :=
  samplesIn grid.columns cells.left cells.right x * samplesIn grid.rows cells.top cells.bottom y

theorem samplesIn_pos_iff {perPixel : Nat} (positive : 0 < perPixel) (first stop pixel : Int) :
    0 < samplesIn perPixel first stop pixel ↔
      first < stop ∧ first / perPixel ≤ pixel ∧ pixel < (stop - 1) / perPixel + 1 := by
  have scale : (0 : Int) < perPixel := by exact_mod_cast positive
  have wider : pixel * perPixel < (pixel + 1) * perPixel := by
    rw [Int.add_mul]
    omega
  have begins : first / perPixel ≤ pixel ↔ first < (pixel + 1) * perPixel := by
    rw [← Int.lt_add_one_iff, Int.ediv_lt_iff_lt_mul scale]
  have ends : pixel < (stop - 1) / perPixel + 1 ↔ pixel * perPixel < stop := by
    rw [Int.lt_add_one_iff, Int.le_ediv_iff_mul_le scale]
    omega
  rw [begins, ends, samplesIn]
  omega

/-- The pixels with a cell are those of the box. -/
theorem samplesAt_pos_iff {grid : Grid} {cells : CellRect} {x y : Int} :
    0 < cells.samplesAt grid x y ↔
      cells.isEmpty = false ∧ (cells.box grid).contains x y = true := by
  rw [samplesAt, CanonicallyOrderedAdd.mul_pos, samplesIn_pos_iff grid.columns_pos,
    samplesIn_pos_iff grid.rows_pos, PixelBox.contains_iff, isEmpty, Bool.or_eq_false_iff,
    decide_eq_false_iff_not, decide_eq_false_iff_not, Int.not_le, Int.not_le]
  simp only [box]
  tauto

/-- The box of the cells of a rectangle is the smallest one of the pixels with a cell, all of
which lie in the clip box. -/
theorem hull_box {frame : ScanFrame} (ordered : frame.clip.left ≤ frame.clip.right)
    (topOrdered : frame.clip.top ≤ frame.clip.bottom) {rect : Rect} {cells : CellRect}
    (made : ofRect frame.grid frame.clip rect = cells) :
    Hull? (fun x y => 0 < cells.samplesAt frame.grid x y)
        (if cells.isEmpty then none else some (cells.box frame.grid)) ∧
      ∀ x y, 0 < cells.samplesAt frame.grid x y → frame.clip.contains x y = true := by
  cases nonempty : cells.isEmpty with
  | true =>
      have nowhere : ∀ x y, ¬ 0 < cells.samplesAt frame.grid x y := by
        intro x y
        rw [samplesAt_pos_iff, nonempty]
        simp
      rw [if_pos rfl]
      exact ⟨nowhere, fun x y positive => absurd positive (nowhere x y)⟩
  | false =>
      have encloses := Sweep.encloses_ofRect ordered topOrdered made nonempty
      obtain ⟨⟨left, wide, right⟩, top, tall, bottom⟩ := encloses.box
      have holds : ∀ x y, 0 < cells.samplesAt frame.grid x y ↔
          (cells.box frame.grid).contains x y = true := by
        intro x y
        rw [samplesAt_pos_iff, and_iff_right nonempty]
      rw [if_neg Bool.false_ne_true]
      refine ⟨PixelBox.hull_of_contains_iff wide tall holds, ?_⟩
      intro x y positive
      have inBox := (holds x y).mp positive
      rw [PixelBox.contains_iff] at inBox ⊢
      omega

end CellRect

namespace Scanner

/-- The number of samples that a closed path gives to a pixel. -/
def samplesAt (scanner : Scanner) (x y : Int) : Nat :=
  match scanner.filledRect? with
  | some (rect, _) =>
      (CellRect.ofRect scanner.grid scanner.clip rect).samplesAt scanner.grid x y
  | none => Sweep.samplesAt scanner.frame scanner.edges.toList x y

/-- The box of the pixels that a closed path touches. -/
def pathBox (scanner : Scanner) : Option PixelBox :=
  match scanner.filledRect? with
  | some (rect, _) =>
      let cells := CellRect.ofRect scanner.grid scanner.clip rect
      if cells.isEmpty then none else some (cells.box scanner.grid)
  | none => Sweep.boxOf scanner.coverageRows

theorem boundingBox_fillRect {scanner drawn : Scanner} {rect : Rect} {color : Color}
    (filled : scanner.filledRect? = some (rect, color))
    (done : scanner.fillRect rect color = .ok drawn) : drawn.boundingBox = scanner.pathBox := by
  simp only [pathBox, filled]
  simp only [fillRect] at done
  split at done
  · rename_i empty
    cases done
    rw [if_pos empty]
  · rename_i nonempty
    obtain ⟨touches, _, drew⟩ := exists_of_bind_eq_ok done
    cases drew
    rw [if_neg nonempty]
    rfl

theorem boundingBox_rasterize {scanner drawn : Scanner} (noRect : scanner.filledRect? = none)
    (sound : scanner.cache = none → scanner.paint.isDegenerate = false)
    (done : scanner.rasterize = .ok drawn) : drawn.boundingBox = scanner.pathBox := by
  simp only [pathBox, noRect]
  cases attached : scanner.cache with
  | some cache =>
      obtain ⟨scratch, recorded⟩ := exists_rasterize_of_cache attached
      rw [recorded] at done
      cases done
      rfl
  | none =>
      have answered := map_bare_rasterize attached (sound attached)
      rw [done] at answered
      obtain ⟨touches, _, same⟩ := exists_of_map_eq_ok answered.symm
      exact (congrArg Scanner.boundingBox same :).symm

/-- The end of a path reports the box of the pixels that it touches, unless it draws with a
degenerate paint. -/
theorem boundingBox_finish {scanner drawn : Scanner}
    (sound : scanner.cache = none → scanner.paint.isDegenerate = false)
    (finished : scanner.finish = .ok drawn) :
    drawn.boundingBox = scanner.closeSubpath.pathBox := by
  obtain ⟨edges, closed⟩ := scanner.exists_closeSubpath_eq
  have closedSound : scanner.closeSubpath.cache = none →
      scanner.closeSubpath.paint.isDegenerate = false := by
    rw [closed]
    exact sound
  cases rect : scanner.closeSubpath.filledRect? with
  | some filled =>
      obtain ⟨rect', color⟩ := filled
      simp only [finish, rect] at finished
      obtain ⟨covered, done, reset⟩ := exists_of_bind_eq_ok finished
      cases reset
      rw [← boundingBox_fillRect rect done]
      rfl
  | none =>
      rw [finish_of_noRect rect] at finished
      obtain ⟨rasterized, done, reset⟩ := exists_of_bind_eq_ok finished
      cases reset
      rw [← boundingBox_rasterize rect closedSound done]
      rfl

/-- The box of a closed path whose edges were clipped to the clip box is the smallest one of the
pixels that have a sample, all of which lie in the clip box. -/
theorem Ready.hull_pathBox {scanner : Scanner} (ready : scanner.Ready) {segments : List Segment}
    (traced : scanner.edges.toList =
      Edge.ofSegments scanner.frame.grid scanner.frame.clip segments) :
    Hull? (fun x y => 0 < scanner.samplesAt x y) scanner.pathBox ∧
      ∀ x y, 0 < scanner.samplesAt x y → scanner.clip.contains x y = true := by
  cases rect : scanner.filledRect? with
  | some filled =>
      have ordered : scanner.frame.clip.left ≤ scanner.frame.clip.right := ready.clip.left_le
      simp only [samplesAt, pathBox, rect]
      exact CellRect.hull_box ordered ready.clip.top_le rfl
  | none =>
      have bounds : ∀ row ∈ scanner.coverageRows,
          (scanner.clip.left ≤ row.x ∧ row.x + row.values.length ≤ scanner.clip.right) ∧
            scanner.clip.top ≤ row.y ∧ row.y < scanner.clip.bottom := by
        intro row member
        rw [coverageRows, traced] at member
        exact Sweep.bounds_of_mem_coverageRows ready.width_eq member
      have leftNonneg := ready.clip.left_nonneg
      have topNonneg := ready.clip.top_nonneg
      have rightLe : scanner.clip.right ≤ Word.max32 :=
        ready.clip.right_le.trans (Word.fits32_clamp32 _).2
      have bottomLe : scanner.clip.bottom ≤ Word.max32 :=
        ready.clip.bottom_le.trans (Word.fits32_clamp32 _).2
      have fits : Sweep.RowsFit (Sweep.coverageRows scanner.frame scanner.edges.toList) := by
        constructor
        · intro row member
          have inClip := bounds row member
          unfold Word.Fits32 Word.min32
          omega
        · intro row member
          have inClip := bounds row member
          unfold Word.Fits32 Word.min32
          omega
      simp only [samplesAt, pathBox, rect]
      refine ⟨Sweep.hull_boxOf_coverageRows ready.width_eq fits, ?_⟩
      intro x y positive
      obtain ⟨row, member, rfl, begun, notEnded⟩ :=
        Sweep.exists_hasPixel_of_samplesAt_pos ready.width_eq positive
      have inClip := bounds row member
      rw [PixelBox.contains_iff]
      omega

theorem Ready.hull_closeSubpath {scanner : Scanner} (ready : scanner.Ready) {trace : Trace}
    (follows : scanner.Follows trace) :
    Hull? (fun x y => 0 < scanner.closeSubpath.samplesAt x y) scanner.closeSubpath.pathBox ∧
      ∀ x y, 0 < scanner.closeSubpath.samplesAt x y → scanner.clip.contains x y = true := by
  have traced := follows.closeSubpath
  obtain ⟨edges, closed⟩ := scanner.exists_closeSubpath_eq
  rw [closed] at traced ⊢
  have closedReady : (scanner.withPath edges none scanner.probe).Ready :=
    ⟨ready.lgX_le, ready.lgY_le, ready.clip⟩
  exact closedReady.hull_pathBox traced

/-- The end of a path returns if it records or fills a rectangle, or if the paint lacks no colors
and no pixel has more samples than the grid gives it. -/
theorem Ready.exists_finish {scanner : Scanner} (ready : scanner.Ready) {trace : Trace}
    (follows : scanner.Follows trace)
    (counts : scanner.cache = none → scanner.closeSubpath.filledRect? = none →
      scanner.paint.IsWhole ∧
        ∀ x y, scanner.closeSubpath.samplesAt x y ≤ scanner.grid.maxCoverage) :
    ∃ drawn, scanner.finish = .ok drawn := by
  have traced := follows.closeSubpath
  obtain ⟨edges, closed⟩ := scanner.exists_closeSubpath_eq
  rw [closed] at traced counts
  have shown : ∀ row ∈ (scanner.withPath edges none scanner.probe).coverageRows,
      (scanner.withPath edges none scanner.probe).Shows row := by
    intro row member
    rw [coverageRows, traced] at member
    exact ready.shows member
  refine (exists_finish_iff closed shown).mpr ?_
  intro detached noRect sound row member
  obtain ⟨whole, atMost⟩ := counts detached noRect
  refine ⟨colors_of_isWhole whole sound row, ?_⟩
  intro value valueMember
  obtain ⟨first, last, _, _, _, _, values, _⟩ :=
    Sweep.samplesAt_of_mem_coverageRows ready.width_eq member
  rw [values] at valueMember
  obtain ⟨pixel, _, rfl⟩ := List.mem_map.mp valueMember
  have counted := atMost (scanner.clip.left + pixel) row.y
  rw [samplesAt, noRect] at counted
  exact (Nat.mod_le _ _).trans counted

/-- After any calls a path is received under one clip box and grid, and the paint is not
degenerate, or a cache is attached.  The end of the path returns if it records or fills a
rectangle, or if the paint lacks no colors and no pixel has more samples than the grid gives it.
Whenever it returns, the bounding box is the smallest box of the pixels that have a sample, and
lies in the clip box; if there is no such pixel, there is no box. -/
theorem boundingBox_tight {format : PixelFormat} {width height : Nat} {layout : Layout}
    {elements : Array Nat} {surface : Surface}
    (made : Surface.new? format width height layout elements = .ok surface)
    {before during : List Call} {started received : Scanner}
    (reached : (Scanner.new surface).performAll before = .ok started) (idle : started.Idle)
    (sent : started.performAll during = .ok received)
    (keep : ∀ call ∈ during, call.keepsFrame = true)
    (sound : received.cache = none → received.paint.isDegenerate = false) :
    ((received.cache = none → received.closeSubpath.filledRect? = none →
        received.paint.IsWhole ∧
          ∀ x y, received.closeSubpath.samplesAt x y ≤ received.grid.maxCoverage) →
      ∃ drawn, received.finish = .ok drawn) ∧
    ∀ drawn, received.finish = .ok drawn →
      Hull? (fun x y => 0 < received.closeSubpath.samplesAt x y) drawn.boundingBox ∧
        ∀ box, drawn.boundingBox = some box → box.Within received.clip := by
  have placed := ((placed_new (Surface.accepted_of_new? made)).performAll reached).performAll sent
  have clipped : received.Clipped := Clipped.performAll ⟨.empty, idle.follows⟩ keep sent
  obtain ⟨trace, follows⟩ := clipped
  refine ⟨placed.ready.exists_finish follows, ?_⟩
  intro drawn finished
  obtain ⟨hull, inClip⟩ := placed.ready.hull_closeSubpath follows
  rw [boundingBox_finish sound finished]
  refine ⟨hull, ?_⟩
  intro box reported
  rw [reported] at hull
  exact hull.within received.clip inClip

/-- A triangle of which the clip box leaves one row, with the bounding box that the end of the
path reports. -/
theorem boundingBox_tight_triangle :
    let before : List Call := [.setGrid 1 1, .setClip (some ⟨1, 1, 9, 2⟩)]
    let during : List Call := [.send [.moveTo ⟨0, 0⟩, .lineTo ⟨196608, 0⟩, .lineTo ⟨0, 196608⟩]]
    ∃ surface started received drawn, Surface.new? .gray8 4 3 (.packed 4) (Array.replicate 12 0) =
        .ok surface ∧ (Scanner.new surface).performAll before = .ok started ∧ started.Idle ∧
      started.performAll during = .ok received ∧ received.paint.isDegenerate = false ∧
      received.finish = .ok drawn ∧ drawn.boundingBox = some ⟨1, 1, 2, 2⟩ ∧
      Hull (fun x y => 0 < received.closeSubpath.samplesAt x y) ⟨1, 1, 2, 2⟩ := by
  obtain ⟨surface, made, started, reached, idle, received, sent, sound, reports⟩ :
      ∃ surface, Surface.new? .gray8 4 3 (.packed 4) (Array.replicate 12 0) = .ok surface ∧
        ∃ started, (Scanner.new surface).performAll
            [.setGrid 1 1, .setClip (some ⟨1, 1, 9, 2⟩)] = .ok started ∧ started.Idle ∧
          ∃ received, started.performAll
              [.send [.moveTo ⟨0, 0⟩, .lineTo ⟨196608, 0⟩, .lineTo ⟨0, 196608⟩]] =
                .ok received ∧ received.paint.isDegenerate = false ∧
            received.finish.map boundingBox = .ok (some ⟨1, 1, 2, 2⟩) :=
    ⟨_, rfl, _, rfl, ⟨rfl, rfl, rfl⟩, _, rfl, rfl, by decide +kernel⟩
  obtain ⟨drawn, finished, box⟩ := exists_of_map_eq_ok reports
  have hull := ((boundingBox_tight made reached idle sent (by decide) fun _ => sound).2 drawn
    finished).1
  rw [box] at hull
  exact ⟨surface, started, received, drawn, made, reached, idle, sent, sound, finished, box, hull⟩

end Scanner

end Raster
