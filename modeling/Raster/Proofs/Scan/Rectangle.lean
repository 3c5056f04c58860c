import Mathlib
import Raster.Proofs.Scan.Overlap
import Raster.Proofs.Scan.Probing
import Raster.Proofs.Scan.Sides

/-!
# Filling rectangles

The rows of coverage of a rectangle hold the products that filling it computes, and the
rows of both lie in the same box.  Filling a probed rectangle therefore draws exactly what
rasterizing the path draws.
-/

namespace Raster

namespace CellRect

/-- The coverage of a line of cells. -/
def row (grid : Grid) (cells : CellRect) (y : Int) : CoverageRow :=
  { x := cells.left / grid.columns
    y := y
    values := (pixels (cells.left / grid.columns) ((cells.right - 1) / grid.columns)).map fun x =>
      samplesIn grid.columns cells.left cells.right x *
        samplesIn grid.rows cells.top cells.bottom y }

theorem le_maxCoverage_of_mem_row {grid : Grid} {cells : CellRect} {y : Int} {value : Nat}
    (member : value ∈ (cells.row grid y).values) : value ≤ grid.maxCoverage := by
  obtain ⟨x, _, rfl⟩ := List.mem_map.mp member
  exact Nat.mul_le_mul (samplesIn_le grid.columns cells.left cells.right x)
    (samplesIn_le grid.rows cells.top cells.bottom y)

end CellRect

namespace Sweep

variable {frame : ScanFrame} {cells : CellRect} {span : Span}

/-- There are cells, all of them in the clip box. -/
structure Encloses (frame : ScanFrame) (cells : CellRect) : Prop where
  left : frame.clip.left * frame.grid.columns ≤ cells.left
  top : frame.clip.top * frame.grid.rows ≤ cells.top
  columns : cells.left < cells.right
  rows : cells.top < cells.bottom
  right : cells.right ≤ frame.clip.right * frame.grid.columns
  bottom : cells.bottom ≤ frame.clip.bottom * frame.grid.rows

/-- The cells of a rectangle lie in the clip box. -/
theorem encloses_ofRect (ordered : frame.clip.left ≤ frame.clip.right)
    (topOrdered : frame.clip.top ≤ frame.clip.bottom) {rect : Rect}
    (made : CellRect.ofRect frame.grid frame.clip rect = cells)
    (nonempty : cells.isEmpty = false) : Encloses frame cells := by
  have inClip : ∀ (perPixel : Nat) (low high coordinate : Int), low ≤ high →
      low * perPixel ≤ CellRect.cell perPixel low high coordinate ∧
        CellRect.cell perPixel low high coordinate ≤ high * perPixel := by
    intro perPixel low high coordinate ordered
    have scaled : low * perPixel ≤ high * perPixel :=
      Int.mul_le_mul_of_nonneg_right ordered (by omega)
    unfold CellRect.cell
    omega
  simp only [CellRect.isEmpty, Bool.or_eq_false_iff, decide_eq_false_iff_not] at nonempty
  subst made
  exact
    { left := (inClip _ _ _ _ ordered).1
      top := (inClip _ _ _ _ topOrdered).1
      columns := Int.not_le.mp nonempty.1
      rows := Int.not_le.mp nonempty.2
      right := (inClip _ _ _ _ ordered).2
      bottom := (inClip _ _ _ _ topOrdered).2 }

/-- The pixel of a cell, counted from the left edge of the clip box. -/
theorem left_add_div {columns : Nat} (positive : 0 < columns) {left cell : Int}
    (le : left * columns ≤ cell) :
    left + (((cell - left * columns).toNat / columns : Nat) : Int) = cell / columns := by
  have shifted : (cell - left * columns) / columns = cell / columns - left := by
    rw [sub_eq_add_neg, ← neg_mul, Int.add_mul_ediv_right _ _ (by omega)]
    ring
  rw [Int.natCast_ediv, Int.toNat_of_nonneg (by omega), shifted]
  ring

/-- The first pixel of the span is that of the left cell. -/
theorem Encloses.firstPixel (encloses : Encloses frame cells)
    (spanned : cells.span? frame.grid frame.clip = some span) :
    frame.clip.left + span.firstPixel frame.grid.columns = cells.left / frame.grid.columns := by
  rw [CellRect.span?, if_pos encloses.columns] at spanned
  obtain rfl := Option.some.inj spanned
  exact left_add_div frame.grid.columns_pos encloses.left

/-- The last pixel of the span is that of the right cell. -/
theorem Encloses.lastPixel (encloses : Encloses frame cells)
    (spanned : cells.span? frame.grid frame.clip = some span) :
    frame.clip.left + span.lastPixel frame.grid.columns =
      (cells.right - 1) / frame.grid.columns := by
  obtain ⟨left, _, nonempty, _, _, _⟩ := encloses
  rw [CellRect.span?, if_pos nonempty] at spanned
  obtain rfl := Option.some.inj spanned
  have last : (cells.right - frame.clip.left * frame.grid.columns).toNat - 1 =
      (cells.right - 1 - frame.clip.left * frame.grid.columns).toNat := by omega
  rw [Span.lastPixel, last]
  exact left_add_div frame.grid.columns_pos (by omega)

/-- A pixel of the span has as many samples as a pixel of the cells. -/
theorem Encloses.samplesIn_eq (encloses : Encloses frame cells)
    (spanned : cells.span? frame.grid frame.clip = some span) (pixel : Nat) :
    span.samplesIn frame.grid.columns pixel =
      CellRect.samplesIn frame.grid.columns cells.left cells.right (frame.clip.left + pixel) := by
  obtain ⟨left, _, nonempty, _, right, _⟩ := encloses
  rw [CellRect.span?, if_pos nonempty] at spanned
  obtain rfl := Option.some.inj spanned
  have here : (frame.clip.left + pixel) * frame.grid.columns =
      frame.clip.left * frame.grid.columns + ((pixel * frame.grid.columns : Nat) : Int) := by
    push_cast
    ring
  have next : (frame.clip.left + pixel + 1) * frame.grid.columns =
      frame.clip.left * frame.grid.columns + (((pixel + 1) * frame.grid.columns : Nat) : Int) := by
    push_cast
    ring
  simp only [Span.samplesIn, CellRect.samplesIn, here, next]
  omega

theorem Encloses.fit (encloses : Encloses frame cells)
    (width : frame.clip.width = frame.clip.right - frame.clip.left)
    (spanned : cells.span? frame.grid frame.clip = some span) (count : Nat) :
    Fit frame.grid.columns frame.clip.width.toNat (List.replicate count span) := by
  obtain ⟨left, _, nonempty, _, right, _⟩ := encloses
  have columns : (0 : Int) < frame.grid.columns := by exact_mod_cast frame.grid.columns_pos
  have ordered : frame.clip.left ≤ frame.clip.right :=
    Int.le_of_mul_le_mul_right (by omega) columns
  rw [CellRect.span?, if_pos nonempty] at spanned
  obtain rfl := Option.some.inj spanned
  intro other member
  obtain rfl := List.eq_of_mem_replicate member
  have inside : (cells.right - frame.clip.left * frame.grid.columns).toNat ≤
      frame.clip.width.toNat * frame.grid.columns := by
    zify
    rw [width, Int.toNat_of_nonneg (by omega), Int.toNat_of_nonneg (by omega), sub_mul]
    omega
  refine ⟨?_, inside⟩
  simp only
  omega

/-- The spans of a line of cells make its row of coverage. -/
theorem coverageRow?_replicate (encloses : Encloses frame cells)
    (width : frame.clip.width = frame.clip.right - frame.clip.left)
    (fits : frame.grid.maxCoverage < 256)
    (spanned : cells.span? frame.grid frame.clip = some span) {y : Int}
    (reached : 0 < CellRect.samplesIn frame.grid.rows cells.top cells.bottom y) :
    coverageRow? frame y
        (List.replicate (CellRect.samplesIn frame.grid.rows cells.top cells.bottom y) span) =
      some (cells.row frame.grid y) := by
  obtain ⟨count, counted⟩ : ∃ count,
      CellRect.samplesIn frame.grid.rows cells.top cells.bottom y = count + 1 :=
    ⟨CellRect.samplesIn frame.grid.rows cells.top cells.bottom y - 1, by omega⟩
  have first := encloses.firstPixel spanned
  have last := encloses.lastPixel spanned
  have touched : touched? frame.grid.columns (List.replicate (count + 1) span) =
      some (span.firstPixel frame.grid.columns, span.lastPixel frame.grid.columns) := by
    rw [touched?_eq_some_iff]
    simp
  rw [counted, coverageRow?_eq_some (encloses.fit width spanned _) touched, CellRect.row, first]
  congr 2
  have length : ((cells.right - 1) / frame.grid.columns + 1 -
      cells.left / frame.grid.columns).toNat =
        span.lastPixel frame.grid.columns + 1 - span.firstPixel frame.grid.columns := by omega
  rw [CellRect.pixels, length, List.range'_eq_map_range, List.map_map, List.map_map]
  apply List.map_congr_left
  intro index _
  have bounded := Nat.mul_le_mul
    (CellRect.samplesIn_le frame.grid.columns cells.left cells.right
      (cells.left / frame.grid.columns + index))
    (CellRect.samplesIn_le frame.grid.rows cells.top cells.bottom y)
  have pixel : frame.clip.left + ((span.firstPixel frame.grid.columns + index : Nat) : Int) =
      cells.left / frame.grid.columns + index := by
    push_cast
    omega
  simp only [Function.comp_apply, samplesIn, List.map_replicate, List.sum_replicate, smul_eq_mul,
    encloses.samplesIn_eq spanned, pixel, ← counted]
  rw [Nat.mul_comm]
  exact Nat.mod_eq_of_lt (bounded.trans_lt fits)

/-! ## All lines of a rectangle -/

/-- Upright edges on the same rows cross the lines of those rows. -/
theorem linesOf_upright (grid : Grid) (x x' firstRow stopRow dy direction direction' : Int) :
    linesOf grid
        [Edge.upright x firstRow stopRow dy direction,
          Edge.upright x' firstRow stopRow dy direction'] =
      CellRect.pixels (firstRow / grid.rows) ((stopRow - 1) / grid.rows) := by
  have least : ([firstRow, firstRow] : List Int).min? = some firstRow := by simp [List.min?]
  have greatest : ([stopRow, stopRow] : List Int).max? = some stopRow := by simp [List.max?]
  simp only [linesOf, List.map_cons, List.map_nil, Edge.upright, least, greatest]
  rfl

/-- The lines of cells have a sample. -/
theorem Encloses.samplesIn_pos (encloses : Encloses frame cells) {y : Int}
    (line : y ∈ CellRect.pixels (cells.top / frame.grid.rows)
      ((cells.bottom - 1) / frame.grid.rows)) :
    0 < CellRect.samplesIn frame.grid.rows cells.top cells.bottom y := by
  have positive : (0 : Int) < frame.grid.rows := by exact_mod_cast frame.grid.rows_pos
  have filled := encloses.rows
  obtain ⟨atLeast, atMost⟩ := (mem_interval _ _ y).mp line
  have below : cells.top < (y + 1) * frame.grid.rows :=
    Int.lt_mul_of_ediv_lt positive (Int.lt_add_one_iff.mpr atLeast)
  have above : y * frame.grid.rows ≤ cells.bottom - 1 :=
    Int.mul_le_of_le_ediv positive (Int.lt_add_one_iff.mp atMost)
  have taller : y * frame.grid.rows < (y + 1) * frame.grid.rows := by
    rw [Int.add_mul]
    omega
  unfold CellRect.samplesIn
  omega

/-- The sides of a rectangle have the rows of coverage of its cells. -/
theorem coverageRows_sides {a b c d : Point} {rect : Rect}
    (found : RectProbe.rectOf? a b c d = some rect)
    (made : CellRect.ofRect frame.grid frame.clip rect = cells)
    (ordered : frame.clip.left ≤ frame.clip.right)
    (topOrdered : frame.clip.top ≤ frame.clip.bottom)
    (width : frame.clip.width = frame.clip.right - frame.clip.left)
    (fits : frame.grid.maxCoverage < 256) (nonempty : cells.isEmpty = false) :
    coverageRows frame
        (Edge.ofSegments frame.grid frame.clip [⟨a, b⟩, ⟨b, c⟩, ⟨c, d⟩, ⟨d, a⟩]) =
      (CellRect.pixels (cells.top / frame.grid.rows)
        ((cells.bottom - 1) / frame.grid.rows)).map (cells.row frame.grid) := by
  have encloses := encloses_ofRect ordered topOrdered made nonempty
  have columns : (0 : Int) < frame.grid.columns := by exact_mod_cast frame.grid.columns_pos
  have rows : (0 : Int) < frame.grid.rows := by exact_mod_cast frame.grid.rows_pos
  have clipNonempty : frame.clip.isEmpty = false := by
    obtain ⟨left, top, wide, high, right, bottom⟩ := encloses
    have beside : frame.clip.left < frame.clip.right :=
      Int.lt_of_mul_lt_mul_right (by omega) (Int.le_of_lt columns)
    have above : frame.clip.top < frame.clip.bottom :=
      Int.lt_of_mul_lt_mul_right (by omega) (Int.le_of_lt rows)
    simp only [PixelBox.isEmpty, Bool.or_eq_false_iff, decide_eq_false_iff_not]
    omega
  have lines : linesOf frame.grid
      (Edge.ofSegments frame.grid frame.clip [⟨a, b⟩, ⟨b, c⟩, ⟨c, d⟩, ⟨d, a⟩]) =
        CellRect.pixels (cells.top / frame.grid.rows)
          ((cells.bottom - 1) / frame.grid.rows) := by
    obtain ⟨crossedIff, rowsOf⟩ := @CellRect.rows_iff _ _ topOrdered rect _ _ rfl rfl
    rw [made] at crossedIff rowsOf
    have crossed := crossedIff.mpr encloses.rows
    obtain ⟨top, bottom⟩ := rowsOf crossed
    obtain ⟨_, _, meet⟩ := Edge.ofSegments_sides found rfl rfl
    obtain ⟨x, x', dy, direction, _, _, _, edges⟩ := meet crossed
    rw [edges, linesOf_upright, top, bottom]
  obtain ⟨span, spanned⟩ : ∃ span, cells.span? frame.grid frame.clip = some span :=
    ⟨_, if_pos encloses.columns⟩
  rw [coverageRows_eq, clipNonempty, if_neg Bool.false_ne_true, lines, List.map_eq_flatMap]
  apply List.flatMap_congr
  intro y line
  have filled := lineSpans_sides ordered topOrdered found made y
  simp only [spanned] at filled
  rw [filled, coverageRow?_replicate encloses width fits spanned (encloses.samplesIn_pos line)]
  rfl

/-- Without cells the sides of a rectangle have no coverage. -/
theorem coverageRows_sides_of_isEmpty {a b c d : Point} {rect : Rect}
    (found : RectProbe.rectOf? a b c d = some rect)
    (made : CellRect.ofRect frame.grid frame.clip rect = cells)
    (ordered : frame.clip.left ≤ frame.clip.right)
    (topOrdered : frame.clip.top ≤ frame.clip.bottom) (empty : cells.isEmpty = true) :
    coverageRows frame
        (Edge.ofSegments frame.grid frame.clip [⟨a, b⟩, ⟨b, c⟩, ⟨c, d⟩, ⟨d, a⟩]) = [] := by
  simp only [CellRect.isEmpty, Bool.or_eq_true, decide_eq_true_eq] at empty
  rw [coverageRows_eq]
  split
  · rfl
  · apply List.flatMap_eq_nil_iff.mpr
    intro y _
    have filled := lineSpans_sides ordered topOrdered found made y
    have nothing : lineSpans frame
        (Edge.ofSegments frame.grid frame.clip [⟨a, b⟩, ⟨b, c⟩, ⟨c, d⟩, ⟨d, a⟩]) y = [] := by
      rw [filled]
      rcases empty with narrow | flat
      · rw [CellRect.span?, if_neg (Int.not_lt.mpr narrow)]
      · have none : CellRect.samplesIn frame.grid.rows cells.top cells.bottom y = 0 := by
          unfold CellRect.samplesIn
          omega
        rw [none]
        split <;> rfl
    rw [nothing]
    rfl

/-! ## The box of a rectangle -/

theorem boxOf_append (rows : List CoverageRow) (row : CoverageRow) :
    boxOf (rows ++ [row]) =
      match boxOf rows with
      | some box => some (box.union row.box)
      | none => some row.box := by
  rw [boxOf, List.foldl_append]
  rfl

/-- Rows of one width on neighboring lines fill a box. -/
theorem boxOf_map_interval {rowOf : Int → CoverageRow} {left right first stop : Int}
    (wide : left < right) (ordered : first < stop)
    (boxes : ∀ y, first ≤ y → y < stop → (rowOf y).box = ⟨left, y, right, y + 1⟩) :
    boxOf ((interval first stop).map rowOf) = some ⟨left, first, right, stop⟩ := by
  obtain ⟨count, rfl⟩ : ∃ count : Nat, stop = first + 1 + count :=
    ⟨(stop - first - 1).toNat, by omega⟩
  clear ordered
  induction count with
  | zero =>
      have one : first + 1 + ((0 : Nat) : Int) = first + 1 := by omega
      rw [one] at boxes ⊢
      rw [interval_succ (Int.le_refl _), interval_of_le (Int.le_refl _)]
      exact congrArg some (boxes first (by omega) (by omega))
  | succ count inductionHypothesis =>
      have next : first + 1 + ((count + 1 : Nat) : Int) = first + 1 + (count : Int) + 1 := by omega
      have earlier := inductionHypothesis fun y atLeast below => boxes y atLeast (by omega)
      have last := boxes (first + 1 + count) (by omega) (by omega)
      have neither : ∀ top bottom : Int, top < bottom →
          PixelBox.isEmpty ⟨left, top, right, bottom⟩ = false := by
        intro top bottom tall
        simp only [PixelBox.isEmpty, Bool.or_eq_false_iff, decide_eq_false_iff_not]
        omega
      rw [next, interval_succ (by omega), List.map_append, List.map_cons, List.map_nil,
        boxOf_append, earlier]
      have before := neither first (first + 1 + count) (by omega)
      have here := neither (first + 1 + count) (first + 1 + count + 1) (by omega)
      simp only [last, PixelBox.union, before, here, Bool.false_eq_true, if_false,
        Int.min_self, Int.max_self, Option.some.injEq, PixelBox.mk.injEq, true_and]
      omega

/-- The box of the cells lies in the clip box. -/
theorem Encloses.box (encloses : Encloses frame cells) :
    (frame.clip.left ≤ (cells.box frame.grid).left ∧
      (cells.box frame.grid).left < (cells.box frame.grid).right ∧
        (cells.box frame.grid).right ≤ frame.clip.right) ∧
    frame.clip.top ≤ (cells.box frame.grid).top ∧
      (cells.box frame.grid).top < (cells.box frame.grid).bottom ∧
        (cells.box frame.grid).bottom ≤ frame.clip.bottom := by
  have inside : ∀ {perPixel : Nat} {low first stop high : Int}, 0 < perPixel →
      low * perPixel ≤ first → first < stop → stop ≤ high * perPixel →
        low ≤ first / perPixel ∧ first / perPixel < (stop - 1) / perPixel + 1 ∧
          (stop - 1) / perPixel + 1 ≤ high := by
    intro perPixel low first stop high positive begins nonempty ends
    have scale : (0 : Int) < perPixel := by exact_mod_cast positive
    refine ⟨Int.le_ediv_of_mul_le scale begins, ?_, ?_⟩
    · exact Int.lt_add_one_iff.mpr (Int.ediv_le_ediv scale (by omega))
    · exact Int.add_one_le_of_lt (Int.ediv_lt_of_lt_mul scale (by omega))
  exact ⟨inside frame.grid.columns_pos encloses.left encloses.columns encloses.right,
    inside frame.grid.rows_pos encloses.top encloses.rows encloses.bottom⟩

/-- On a surface the rows of coverage of a rectangle fill the box of its cells. -/
theorem boxOf_rows {surface : Surface} (holds : surface.Holds frame.clip)
    (encloses : Encloses frame cells) :
    boxOf ((CellRect.pixels (cells.top / frame.grid.rows)
      ((cells.bottom - 1) / frame.grid.rows)).map (cells.row frame.grid)) =
        some (cells.box frame.grid) := by
  obtain ⟨⟨left, wide, right⟩, top, tall, bottom⟩ := encloses.box
  obtain ⟨leftNonneg, topNonneg, _, _, rightLe, bottomLe⟩ := holds
  have widest : surface.bounds.right ≤ Word.max32 := (Word.fits32_clamp32 _).2
  have tallest : surface.bounds.bottom ≤ Word.max32 := (Word.fits32_clamp32 _).2
  have unsaturated : ∀ {coordinate : Int}, 0 ≤ coordinate → coordinate ≤ Word.max32 →
      Word.clamp32 coordinate = coordinate := by
    intro coordinate nonneg atMost
    apply Word.clamp32_eq_self
    unfold Word.Fits32
    unfold Word.min32
    omega
  apply boxOf_map_interval wide tall
  intro y atLeast below
  have across : cells.left / frame.grid.columns + ((cells.row frame.grid y).values.length : Int) =
      (cells.box frame.grid).right := by
    simp only [CellRect.row, CellRect.pixels, List.length_map, List.length_range]
    simp only [CellRect.box] at wide ⊢
    omega
  have rowBox : (cells.row frame.grid y).box =
      { left := (cells.box frame.grid).left
        top := y
        right := Word.clamp32
          (cells.left / frame.grid.columns + ((cells.row frame.grid y).values.length : Int))
        bottom := Word.clamp32 (y + 1) } := rfl
  rw [rowBox, across, unsaturated (by omega) (by omega), unsaturated (by omega) (by omega)]

end Sweep

/-! ## Drawing a rectangle -/

/-- Values that are given by column lie at their columns. -/
theorem RowTarget.place_map_pixels {α : Type} (value : Int → α) (first last : Int) :
    place first ((CellRect.pixels first last).map value) =
      (CellRect.pixels first last).map fun x => (x, value x) := by
  apply List.ext_getElem
  · simp [place, CellRect.pixels]
  · intro index _ _
    simp [place, CellRect.pixels]

namespace CellRect

/-- The touches of all pixels with a cell, in one color. -/
def allTouches (grid : Grid) (cells : CellRect) (alphas : Array Nat) (argb : Nat) : List Touch :=
  (pixels (cells.top / grid.rows) ((cells.bottom - 1) / grid.rows)).flatMap fun y =>
    (pixels (cells.left / grid.columns) ((cells.right - 1) / grid.columns)).map fun x =>
      ⟨x, y, alphas[samplesIn grid.columns cells.left cells.right x *
        samplesIn grid.rows cells.top cells.bottom y]?.getD 0, argb⟩

/-- On the surface all pixels with a cell are filled. -/
theorem touches_of_box {grid : Grid} {cells : CellRect} {width height : Nat}
    (nonempty : cells.isEmpty = false) (left : 0 ≤ (cells.box grid).left)
    (top : 0 ≤ (cells.box grid).top) (right : (cells.box grid).right ≤ width)
    (bottom : (cells.box grid).bottom ≤ height) {alphas : Array Nat}
    (complete : grid.maxCoverage < alphas.size) (argb : Nat) :
    cells.touches grid width height alphas argb = .ok (cells.allTouches grid alphas argb) := by
  have lines : pixels (max (cells.box grid).top 0)
      (min ((cells.box grid).bottom - 1) (height - 1)) =
        pixels (cells.top / grid.rows) ((cells.bottom - 1) / grid.rows) := by
    rw [Int.max_eq_left top, Int.min_eq_left (by omega), box, Int.add_sub_cancel]
  have columns : pixels (max (cells.box grid).left 0)
      (min ((cells.box grid).right - 1) (width - 1)) =
        pixels (cells.left / grid.columns) ((cells.right - 1) / grid.columns) := by
    rw [Int.max_eq_left left, Int.min_eq_left (by omega), box, Int.add_sub_cancel]
  rw [touches_eq_ok nonempty complete, lines, columns, List.map_flatMap, allTouches]
  simp only [List.map_map, Function.comp_def]

/-- In one color the rows of coverage of the cells touch the same pixels. -/
theorem flatMap_touchesOf_row (grid : Grid) (cells : CellRect) {target : RowTarget}
    {alphas : Array Nat} {argb : Nat} (table : target.alphas = alphas)
    (flat : target.source = .flat argb) :
    ((pixels (cells.top / grid.rows) ((cells.bottom - 1) / grid.rows)).flatMap fun y =>
      target.touchesOf (cells.row grid y).x y (cells.row grid y).values
        (target.source.colors (cells.row grid y).values.length)) =
      cells.allTouches grid alphas argb := by
  apply List.flatMap_congr
  intro y _
  have colors : List.replicate (cells.row grid y).values.length argb =
      (pixels (cells.left / grid.columns) ((cells.right - 1) / grid.columns)).map
        fun _ => argb := by
    simp [row]
  simp only [RowTarget.touchesOf, flat, table, RowSource.colors, colors]
  simp only [row, List.zip_map', RowTarget.place_map_pixels, List.map_map]
  apply List.map_congr_left
  intro x _
  simp only [Function.comp_apply, RowTarget.touchOf, flat, RowSource.opacity]

end CellRect

namespace Scanner

theorem isDegenerate_of_solidColor? {paint : Paint} {color : Color}
    (solid : paint.solidColor? = some color) : paint.isDegenerate = false := by
  cases paint with
  | solid color => rfl
  | linear gradient => cases solid
  | radial gradient => cases solid
  | image texture => cases solid

/-- Filling cells in the color of the paint draws their rows of coverage. -/
theorem map_bare_fillRect_of_encloses {scanner : Scanner} (ready : scanner.Ready) {color : Color}
    (solid : scanner.paint.solidColor? = some color) {rect : Rect} {cells : CellRect}
    (made : CellRect.ofRect scanner.grid scanner.clip rect = cells)
    (nonempty : cells.isEmpty = false) {boxed : Scanner} {scratch : Scratch}
    (boxing : boxed =
      { scanner with boundingBox := some (cells.box scanner.grid), scratch := scratch })
    {rows : List CoverageRow}
    (filled : rows = (CellRect.pixels (cells.top / scanner.grid.rows)
      ((cells.bottom - 1) / scanner.grid.rows)).map (cells.row scanner.grid))
    (shown : ∀ row ∈ rows, boxed.Shows row) :
    (scanner.fillRect rect color).map bare =
      (rows.foldlM (drawRow (scanner.alphas scanner.grid.maxCoverage)) boxed).map bare := by
  let table := Alpha.table scanner.grid.maxCoverage color.alpha.toNat
  have alphas : scanner.alphas scanner.grid.maxCoverage = table := by
    rw [alphas_eq]
    simp only [sourceAlpha, solid, table]
  have complete : scanner.grid.maxCoverage < table.size := by
    simp only [table, Alpha.size_table]
    omega
  have inTable : ∀ row ∈ rows, ∀ value ∈ row.values, value < table.size := by
    rw [filled]
    intro row member value valueMember
    obtain ⟨y, _, rfl⟩ := List.mem_map.mp member
    exact Nat.lt_of_le_of_lt (CellRect.le_maxCoverage_of_mem_row valueMember) complete
  have encloses : Sweep.Encloses scanner.frame cells :=
    Sweep.encloses_ofRect ready.clip.left_le ready.clip.top_le made nonempty
  obtain ⟨⟨left, _, right⟩, top, _, bottom⟩ := encloses.box
  have clip := ready.clip
  have size := scanner.surface.bounds_le
  have onSurface : cells.touches scanner.grid scanner.surface.width scanner.surface.height
      table color.argb = .ok (cells.allTouches scanner.grid table color.argb) :=
    CellRect.touches_of_box nonempty (Int.le_trans clip.left_nonneg left)
      (Int.le_trans clip.top_nonneg top) (Int.le_trans right (Int.le_trans clip.right_le size.1))
      (Int.le_trans bottom (Int.le_trans clip.bottom_le size.2)) complete color.argb
  have flat : boxed.paint.solidColor? = some color := by
    rw [boxing]
    exact solid
  have sound : boxed.paint.isDegenerate = false := isDegenerate_of_solidColor? flat
  -- In a flat color all rows have the same target.
  have answers := mapM_eq_ok (f := boxed.rowTouches table) fun row member => by
    rw [rowTouches, touchesOver, Paint.rowSource, flat]
    exact CoverageRow.touches_eq_ok (shown row member table (.flat color.argb))
      (inTable row member)
  have touched := @CellRect.flatMap_touchesOf_row scanner.grid cells
    (boxed.target table (.flat color.argb)) table color.argb rfl rfl
  rw [List.flatMap_def] at touched
  rw [alphas, map_bare_foldlM_drawRow table sound, answers, filled, List.map_map]
  simp only [fillRect, made, nonempty, Bool.false_eq_true, if_false, alphaTable_eq]
  change (cells.touches _ _ _ table color.argb >>= _).map bare = _
  rw [onSurface]
  change Except.ok _ = Except.ok (boxed.draw _).bare
  rw [boxing] at touched ⊢
  rw [← touched]
  rfl

theorem exists_closeSubpath_eq (scanner : Scanner) :
    ∃ edges, scanner.closeSubpath = scanner.withPath edges none scanner.probe :=
  ⟨_, closeSubpath_eq scanner⟩

/-- Filling a rectangle is rasterizing its sides. -/
theorem map_bare_fillRect_of_sides {scanner : Scanner} (ready : scanner.Ready)
    (detached : scanner.cache = none) {color : Color}
    (solid : scanner.paint.solidColor? = some color) {a b c d : Point} {rect : Rect}
    (isRect : RectProbe.rectOf? a b c d = some rect)
    (sides : scanner.edges.toList =
      Edge.ofSegments scanner.grid scanner.clip [⟨a, b⟩, ⟨b, c⟩, ⟨c, d⟩, ⟨d, a⟩]) :
    (scanner.fillRect rect color).map bare = scanner.rasterize.map bare := by
  have clip := ready.clip
  have rows : scanner.coverageRows = Sweep.coverageRows scanner.frame
      (Edge.ofSegments scanner.grid scanner.clip [⟨a, b⟩, ⟨b, c⟩, ⟨c, d⟩, ⟨d, a⟩]) := by
    rw [coverageRows, sides]
  obtain ⟨cells, made⟩ : ∃ cells, CellRect.ofRect scanner.grid scanner.clip rect = cells :=
    ⟨_, rfl⟩
  obtain ⟨scratch, rasterized⟩ :=
    exists_rasterize_of_detached detached (isDegenerate_of_solidColor? solid)
  rw [rasterized]
  cases nonempty : cells.isEmpty with
  | true =>
      have none : scanner.coverageRows = [] :=
        rows.trans (Sweep.coverageRows_sides_of_isEmpty isRect made clip.left_le clip.top_le
          nonempty)
      simp only [fillRect, made, nonempty, if_true, boxed, none]
      rfl
  | false =>
      have filled := rows.trans (Sweep.coverageRows_sides isRect made clip.left_le clip.top_le
        clip.width_eq ready.maxCoverage_lt nonempty)
      have encloses : Sweep.Encloses scanner.frame cells :=
        Sweep.encloses_ofRect clip.left_le clip.top_le made nonempty
      have box : Sweep.boxOf scanner.coverageRows = some (cells.box scanner.grid) := by
        rw [filled]
        exact Sweep.boxOf_rows clip encloses
      have boxing : { scanner.boxed with scratch := scratch } =
          { scanner with boundingBox := some (cells.box scanner.grid), scratch := scratch } := by
        rw [boxed, box]
      apply map_bare_fillRect_of_encloses ready solid made nonempty boxing filled
      intro row member
      rw [rows] at member
      exact ready.shows member

/-- Filling the rectangle that the probe has found is rasterizing the path. -/
theorem Probes.map_bare_fillRect {scanner : Scanner} (ready : scanner.Ready)
    (probes : scanner.Probes) (detached : scanner.cache = none) {color : Color}
    (solid : scanner.paint.solidColor? = some color) {rect : Rect}
    (found : scanner.probe.rect? = some rect) :
    (scanner.closeSubpath.fillRect rect color).map bare =
      scanner.closeSubpath.rasterize.map bare := by
  obtain ⟨a, b, c, d, isRect, sides⟩ := probes.exists_sides found
  obtain ⟨edges, closed⟩ := scanner.exists_closeSubpath_eq
  have closedReady : (scanner.withPath edges none scanner.probe).Ready :=
    ⟨ready.lgX_le, ready.lgY_le, ready.clip⟩
  rw [closed] at sides ⊢
  exact map_bare_fillRect_of_sides closedReady detached solid isRect sides

/-- After any commands that leave the probe with a rectangle, filling it in the color of the
paint and rasterizing the closed path are both no fault and draw the same.  The scanners that
they leave differ in nothing but the buffers of the sweep. -/
theorem fillRect_and_rasterize_agree {scanner received : Scanner} (ready : scanner.Ready)
    (idle : scanner.Idle) (detached : scanner.cache = none) {color : Color}
    (solid : scanner.paint = .solid color) {commands : List LineCommand}
    (sent : scanner.send commands = .ok received) {rect : Rect}
    (found : received.probe.rect? = some rect) :
    ∃ drawn scratch, received.closeSubpath.fillRect rect color = .ok drawn ∧
      received.closeSubpath.rasterize = .ok { drawn with scratch := scratch } := by
  have receivedSolid : received.paint.solidColor? = some color := by
    rw [paint_of_send sent, solid]
    rfl
  obtain ⟨drawn, filled⟩ := received.closeSubpath.exists_fillRect rect color
  have agree := (idle.probes.send sent).map_bare_fillRect (ready.send sent)
    (cache_of_send detached sent) receivedSolid found
  rw [filled] at agree
  obtain ⟨rasterized, done, same⟩ := exists_of_map_eq_ok agree.symm
  exact ⟨drawn, rasterized.scratch, filled, done.trans (congrArg _ (eq_of_bare_eq same))⟩

/-- A rectangle whose upper left part lies outside the surface, with its first corner
repeated. -/
theorem fillRect_and_rasterize_agree_clipped :
    let scanner := Scanner.new ⟨.gray8, 2, 2, .packed 2, #[0, 0, 0, 0]⟩
    let commands : List LineCommand :=
      [.moveTo ⟨-40000, -65536⟩, .lineTo ⟨-40000, 98304⟩, .lineTo ⟨80000, 98304⟩,
        .lineTo ⟨80000, -65536⟩, .close]
    scanner.Ready ∧ scanner.Idle ∧ scanner.cache = none ∧ scanner.paint = .solid .black ∧
      ∃ received drawn scratch, scanner.send commands = .ok received ∧
        received.probe.rect? = some ⟨-40000, -65536, 80000, 98304⟩ ∧
        received.closeSubpath.fillRect ⟨-40000, -65536, 80000, 98304⟩ .black = .ok drawn ∧
        received.closeSubpath.rasterize = .ok { drawn with scratch := scratch } := by
  have ready := ready_new ⟨.gray8, 2, 2, .packed 2, #[0, 0, 0, 0]⟩
  obtain ⟨received, sent, found⟩ : ∃ received,
      (Scanner.new ⟨.gray8, 2, 2, .packed 2, #[0, 0, 0, 0]⟩).send
          [.moveTo ⟨-40000, -65536⟩, .lineTo ⟨-40000, 98304⟩, .lineTo ⟨80000, 98304⟩,
            .lineTo ⟨80000, -65536⟩, .close] = .ok received ∧
        received.probe.rect? = some ⟨-40000, -65536, 80000, 98304⟩ := ⟨_, rfl, by decide⟩
  obtain ⟨drawn, scratch, filled, rasterized⟩ :=
    fillRect_and_rasterize_agree ready ⟨rfl, rfl, rfl⟩ rfl rfl sent found
  exact ⟨ready, ⟨rfl, rfl, rfl⟩, rfl, rfl, received, drawn, scratch, sent, found, filled,
    rasterized⟩

end Scanner

end Raster
