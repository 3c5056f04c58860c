import Mathlib
import Raster.Proofs.Scan.Counting
import Raster.Proofs.Scan.Winding

/-!
# The sides of a rectangle

The sides of a rectangle have two upright edges of opposite directions.  Between them lies
one span on every row from the top to the bottom cell, from the left to the right cell.
-/

namespace Raster

namespace Edge

/-- An edge that crosses every row at the same position. -/
def upright (x firstRow stopRow dy direction : Int) : Edge :=
  ⟨firstRow, stopRow, x, 0, 0, 0, dy, direction⟩

theorem between_upright (x ya yb firstRow stopRow direction : Int) :
    between x ya x yb firstRow stopRow direction =
      upright x firstRow stopRow (yb - ya) direction := by
  simp [between, upright]

theorem onRow_upright {x firstRow stopRow dy direction : Int} (positive : 0 < dy) (row : Int) :
    (upright x firstRow stopRow dy direction).onRow row =
      upright x firstRow stopRow dy direction := by
  have still : (upright x firstRow stopRow dy direction).advance =
      upright x firstRow stopRow dy direction := by
    simp only [advance]
    split
    · rename_i whole
      simp only [upright] at whole
      omega
    · simp [upright]
  exact Function.iterate_fixed still _

theorem column_upright (x firstRow stopRow dy direction : Int) :
    (upright x firstRow stopRow dy direction).column = sampleAtOrAfter x := by
  simp [column, upright, sampleAtOrAfter]

/-- A vertical segment has an upright edge. -/
theorem ofSegment?_vertical (grid : Grid) (clip : PixelBox) (x ya yb : Int) :
    ofSegment? grid clip ⟨x, ya⟩ ⟨x, yb⟩ =
      let firstRow := max (sampleAtOrAfter (min ya yb * grid.rows)) (clip.top * grid.rows)
      let stopRow := min (sampleAtOrAfter (max ya yb * grid.rows)) (clip.bottom * grid.rows)
      if firstRow < stopRow then
        some (upright (x * grid.columns) firstRow stopRow
          (max ya yb * grid.rows - min ya yb * grid.rows) (if ya ≤ yb then 1 else -1))
      else
        none := by
  have edge := ofSegment?_eq grid clip ⟨⟨x, ya⟩, ⟨x, yb⟩⟩
  rw [edge]
  simp only [Segment.upper, Segment.lower, Segment.direction]
  rcases Int.le_total ya yb with down | up
  · simp only [down, if_true, between_upright, min_eq_left, max_eq_right]
  · rcases Int.lt_or_eq_of_le up with rises | level
    · simp only [Int.not_le.mpr rises, if_false, between_upright, min_eq_right up, max_eq_left up]
    · simp only [level, le_refl, if_true, between_upright, min_self, max_self]

/-- Two vertical segments, one down and one up, have upright edges of opposite directions on
the same rows. -/
theorem ofSegment?_opposite {grid : Grid} {clip : PixelBox} {y y' firstRow stopRow : Int}
    (begins : firstRow =
      max (sampleAtOrAfter (min y y' * grid.rows)) (clip.top * grid.rows))
    (ends : stopRow =
      min (sampleAtOrAfter (max y y' * grid.rows)) (clip.bottom * grid.rows)) (x x' : Int) :
    (¬ firstRow < stopRow →
      ofSegment? grid clip ⟨x, y⟩ ⟨x, y'⟩ = none ∧ ofSegment? grid clip ⟨x', y'⟩ ⟨x', y⟩ = none) ∧
    (firstRow < stopRow →
      ∃ dy direction, 0 < dy ∧ (direction = 1 ∨ direction = -1) ∧
        ofSegment? grid clip ⟨x, y⟩ ⟨x, y'⟩ =
          some (upright (x * grid.columns) firstRow stopRow dy direction) ∧
        ofSegment? grid clip ⟨x', y'⟩ ⟨x', y⟩ =
          some (upright (x' * grid.columns) firstRow stopRow dy (-direction))) := by
  simp only [ofSegment?_vertical, min_comm y' y, max_comm y' y, ← begins, ← ends]
  constructor
  · intro uncrossed
    exact ⟨if_neg uncrossed, if_neg uncrossed⟩
  · intro crossed
    have falls : min y y' * grid.rows < max y y' * grid.rows := by
      by_contra level
      have := sampleAtOrAfter_mono (Int.not_lt.mp level)
      omega
    have apart : y ≠ y' := by
      rintro rfl
      simp at falls
    have opposite : (if y' ≤ y then 1 else -1 : Int) = -(if y ≤ y' then 1 else -1) := by
      split <;> split <;> omega
    have sign : (if y ≤ y' then 1 else -1 : Int) = 1 ∨ (if y ≤ y' then 1 else -1 : Int) = -1 := by
      split <;> simp
    rw [opposite]
    exact ⟨_, _, by omega, sign, if_pos crossed, if_pos crossed⟩

/-- The sides of a rectangle have two upright edges of opposite directions, or none if no
sample row lies between top and bottom. -/
theorem ofSegments_sides {a b c d : Point} {rect : Rect}
    (found : RectProbe.rectOf? a b c d = some rect) {grid : Grid} {clip : PixelBox}
    {firstRow stopRow : Int}
    (begins : firstRow = max (sampleAtOrAfter (rect.top * grid.rows)) (clip.top * grid.rows))
    (ends : stopRow =
      min (sampleAtOrAfter (rect.bottom * grid.rows)) (clip.bottom * grid.rows)) :
    rect.left ≤ rect.right ∧
      (¬ firstRow < stopRow →
        Edge.ofSegments grid clip [⟨a, b⟩, ⟨b, c⟩, ⟨c, d⟩, ⟨d, a⟩] = []) ∧
      (firstRow < stopRow →
        ∃ x x' dy direction, 0 < dy ∧ (direction = 1 ∨ direction = -1) ∧
          (x = rect.left ∧ x' = rect.right ∨ x = rect.right ∧ x' = rect.left) ∧
          Edge.ofSegments grid clip [⟨a, b⟩, ⟨b, c⟩, ⟨c, d⟩, ⟨d, a⟩] =
            [upright (x * grid.columns) firstRow stopRow dy direction,
              upright (x' * grid.columns) firstRow stopRow dy (-direction)]) := by
  obtain ⟨ax, ay⟩ := a
  obtain ⟨bx, bY⟩ := b
  obtain ⟨cx, cy⟩ := c
  obtain ⟨dx, dY⟩ := d
  have level : ∀ x x' y, ofSegment? grid clip ⟨x, y⟩ ⟨x', y⟩ = none := by
    intro x x' y
    apply ofSegment?_of_level
    rfl
  simp only [RectProbe.rectOf?] at found
  split at found
  · rename_i aligned
    obtain rfl := Option.some.inj found
    have horizontal : min ax cx ≤ max ax cx := by omega
    have corners : ∀ x x' : Int, x = min x x' ∧ x' = max x x' ∨ x = max x x' ∧ x' = min x x' := by
      intro x x'
      omega
    rw [ofSegments, List.filterMap_eq_flatMap_toList]
    rcases aligned with ⟨rfl, rfl, rfl, rfl⟩ | ⟨_, rfl, rfl, rfl, rfl⟩
    · obtain ⟨apart, meet⟩ := ofSegment?_opposite begins ends bx dx
      refine ⟨horizontal, fun uncrossed => ?_, fun crossed => ?_⟩
      · obtain ⟨none, none'⟩ := apart uncrossed
        simp [level, none, none']
      · obtain ⟨dy, direction, falls, sign, one, other⟩ := meet crossed
        refine ⟨bx, dx, dy, direction, falls, sign, ?_, by simp [level, one, other]⟩
        rw [min_comm, max_comm]
        exact corners bx dx
    · obtain ⟨apart, meet⟩ := ofSegment?_opposite begins ends ax cx
      refine ⟨horizontal, fun uncrossed => ?_, fun crossed => ?_⟩
      · obtain ⟨none, none'⟩ := apart uncrossed
        simp [level, none, none']
      · obtain ⟨dy, direction, falls, sign, one, other⟩ := meet crossed
        exact ⟨ax, cx, dy, direction, falls, sign, corners ax cx, by simp [level, one, other]⟩
  · cases found

end Edge

namespace CellRect

/-- The rows of the cells are those on which the sides have edges. -/
theorem rows_iff {grid : Grid} {clip : PixelBox} (ordered : clip.top ≤ clip.bottom) {rect : Rect}
    {firstRow stopRow : Int}
    (begins : firstRow = max (sampleAtOrAfter (rect.top * grid.rows)) (clip.top * grid.rows))
    (ends : stopRow =
      min (sampleAtOrAfter (rect.bottom * grid.rows)) (clip.bottom * grid.rows)) :
    (firstRow < stopRow ↔ (ofRect grid clip rect).top < (ofRect grid clip rect).bottom) ∧
      (firstRow < stopRow →
        (ofRect grid clip rect).top = firstRow ∧ (ofRect grid clip rect).bottom = stopRow) := by
  have low : clip.top * grid.rows ≤ clip.bottom * grid.rows :=
    Int.mul_le_mul_of_nonneg_right ordered (by omega)
  have topCell : (ofRect grid clip rect).top = min firstRow (clip.bottom * grid.rows) := by
    rw [begins]
    rfl
  have bottomCell : (ofRect grid clip rect).bottom = max stopRow (clip.top * grid.rows) := by
    rw [ends]
    simp only [ofRect, cell]
    omega
  omega

/-- The samples of the cells on a row. -/
def span? (grid : Grid) (clip : PixelBox) (cells : CellRect) : Option Span :=
  if cells.left < cells.right then
    some
      { first := (cells.left - clip.left * grid.columns).toNat
        stop := (cells.right - clip.left * grid.columns).toNat }
  else
    none

end CellRect

namespace Sweep

/-- Between two upright edges lie the cells of the rectangle. -/
theorem spanBetween?_upright {frame : ScanFrame} {rect : Rect}
    (ordered : frame.clip.left ≤ frame.clip.right) {left right : Edge}
    (leftColumn : left.column = sampleAtOrAfter (rect.left * frame.grid.columns))
    (rightColumn : right.column = sampleAtOrAfter (rect.right * frame.grid.columns)) :
    spanBetween? frame left right =
      (CellRect.ofRect frame.grid frame.clip rect).span? frame.grid frame.clip := by
  have low : frame.clip.left * frame.grid.columns ≤ frame.clip.right * frame.grid.columns :=
    Int.mul_le_mul_of_nonneg_right ordered (by omega)
  have leftCell : (CellRect.ofRect frame.grid frame.clip rect).left =
      min (max left.column (frame.clip.left * frame.grid.columns))
        (frame.clip.right * frame.grid.columns) := by
    rw [leftColumn]
    rfl
  have rightCell : (CellRect.ofRect frame.grid frame.clip rect).right =
      min (max right.column (frame.clip.left * frame.grid.columns))
        (frame.clip.right * frame.grid.columns) := by
    rw [rightColumn]
    rfl
  simp only [spanBetween?, CellRect.span?]
  by_cases nonempty : max left.column (frame.clip.left * frame.grid.columns) <
      min right.column (frame.clip.right * frame.grid.columns)
  · have first : (CellRect.ofRect frame.grid frame.clip rect).left =
        max left.column (frame.clip.left * frame.grid.columns) := by omega
    have stop : (CellRect.ofRect frame.grid frame.clip rect).right =
        min right.column (frame.clip.right * frame.grid.columns) := by omega
    rw [first, stop]
  · rw [if_neg nonempty, if_neg (by omega)]

/-- Around every sample between two edges the path winds once. -/
theorem spans_pair (frame : ScanFrame) {left right : Edge}
    (sign : left.direction = 1 ∨ left.direction = -1) :
    spans frame 0 [left, right] = (spanBetween? frame left right).toList := by
  have inside : frame.rule.isInside (0 + left.direction) = true := by
    rcases sign with down | up
    · rw [down]
      cases frame.rule <;> rfl
    · rw [up]
      cases frame.rule <;> rfl
  simp only [spans, inside, if_true, List.append_nil]

/-- Two upright edges of opposite directions, whose order is not known, enclose one span. -/
theorem spans_upright {frame : ScanFrame} {rect : Rect}
    (ordered : frame.clip.left ≤ frame.clip.right) (rectOrdered : rect.left ≤ rect.right)
    {x x' firstRow stopRow dy direction : Int} (sign : direction = 1 ∨ direction = -1)
    (sides : x = rect.left ∧ x' = rect.right ∨ x = rect.right ∧ x' = rect.left)
    {active : List Edge} (sorted : IsSorted active)
    (perm : active.Perm
      [Edge.upright (x * frame.grid.columns) firstRow stopRow dy direction,
        Edge.upright (x' * frame.grid.columns) firstRow stopRow dy (-direction)]) :
    spans frame 0 active =
      ((CellRect.ofRect frame.grid frame.clip rect).span? frame.grid frame.clip).toList := by
  have columns : (0 : Int) < frame.grid.columns := by exact_mod_cast frame.grid.columns_pos
  rcases List.perm_pair.mp perm with rfl | rfl
  · have rising : x * frame.grid.columns ≤ x' * frame.grid.columns :=
      (List.pairwise_cons.mp sorted).1 _ List.mem_cons_self
    have le := Int.le_of_mul_le_mul_right rising columns
    obtain ⟨rfl, rfl⟩ : x = rect.left ∧ x' = rect.right := by omega
    rw [spans_pair frame sign, spanBetween?_upright ordered (Edge.column_upright _ _ _ _ _)
      (Edge.column_upright _ _ _ _ _)]
  · have rising : x' * frame.grid.columns ≤ x * frame.grid.columns :=
      (List.pairwise_cons.mp sorted).1 _ List.mem_cons_self
    have le := Int.le_of_mul_le_mul_right rising columns
    have opposite : -direction = 1 ∨ -direction = -1 := by omega
    obtain ⟨rfl, rfl⟩ : x' = rect.left ∧ x = rect.right := by omega
    rw [spans_pair frame opposite, spanBetween?_upright ordered (Edge.column_upright _ _ _ _ _)
      (Edge.column_upright _ _ _ _ _)]

/-- A row of a rectangle has one span if it lies between the top and the bottom cell. -/
theorem spansAt_sides {frame : ScanFrame} (ordered : frame.clip.left ≤ frame.clip.right)
    (topOrdered : frame.clip.top ≤ frame.clip.bottom) {a b c d : Point} {rect : Rect}
    (found : RectProbe.rectOf? a b c d = some rect) (row : Int) :
    spansAt frame
        (Edge.ofSegments frame.grid frame.clip [⟨a, b⟩, ⟨b, c⟩, ⟨c, d⟩, ⟨d, a⟩]) row =
      if (CellRect.ofRect frame.grid frame.clip rect).top ≤ row ∧
          row < (CellRect.ofRect frame.grid frame.clip rect).bottom then
        ((CellRect.ofRect frame.grid frame.clip rect).span? frame.grid frame.clip).toList
      else
        [] := by
  obtain ⟨firstRow, begins⟩ : ∃ firstRow, firstRow =
      max (sampleAtOrAfter (rect.top * frame.grid.rows)) (frame.clip.top * frame.grid.rows) :=
    ⟨_, rfl⟩
  obtain ⟨stopRow, ends⟩ : ∃ stopRow, stopRow =
      min (sampleAtOrAfter (rect.bottom * frame.grid.rows)) (frame.clip.bottom * frame.grid.rows) :=
    ⟨_, rfl⟩
  obtain ⟨crossedIff, cells⟩ := CellRect.rows_iff topOrdered begins ends
  have perm := activeAt_perm frame
    (Edge.ofSegments frame.grid frame.clip [⟨a, b⟩, ⟨b, c⟩, ⟨c, d⟩, ⟨d, a⟩]) row
  have sorted := isSorted_activeAt frame
    (Edge.ofSegments frame.grid frame.clip [⟨a, b⟩, ⟨b, c⟩, ⟨c, d⟩, ⟨d, a⟩]) row
  by_cases crossed : firstRow < stopRow
  · obtain ⟨top, bottom⟩ := cells crossed
    obtain ⟨rectOrdered, _, meet⟩ := Edge.ofSegments_sides found begins ends
    obtain ⟨x, x', dy, direction, falls, sign, sides, edges⟩ := meet crossed
    rw [top, bottom]
    by_cases within : firstRow ≤ row ∧ row < stopRow
    · have crossesRow : ∀ x direction,
          (Edge.upright x firstRow stopRow dy direction).Crosses row := fun _ _ => within
      have both : crossing
          [Edge.upright (x * frame.grid.columns) firstRow stopRow dy direction,
            Edge.upright (x' * frame.grid.columns) firstRow stopRow dy (-direction)] row =
          [Edge.upright (x * frame.grid.columns) firstRow stopRow dy direction,
            Edge.upright (x' * frame.grid.columns) firstRow stopRow dy (-direction)] := by
        simp [crossing, crossesRow, Edge.onRow_upright falls]
      rw [edges] at perm sorted
      rw [both] at perm
      rw [if_pos within, spansAt, edges]
      exact spans_upright ordered rectOrdered sign sides sorted perm
    · rw [if_neg within]
      apply spansAt_eq_nil
      rw [edges]
      intro edge member crosses
      simp only [List.mem_cons, List.not_mem_nil, or_false] at member
      rcases member with rfl | rfl
      · exact within crosses
      · exact within crosses
  · have none := (Edge.ofSegments_sides found begins ends).2.1 crossed
    have noRow : ¬ ((CellRect.ofRect frame.grid frame.clip rect).top ≤ row ∧
        row < (CellRect.ofRect frame.grid frame.clip rect).bottom) := by
      have level := mt crossedIff.mpr crossed
      omega
    rw [if_neg noRow, none]
    exact spansAt_eq_nil fun _ member => absurd member List.not_mem_nil

/-! ## Rows of a rectangle -/

/-- Collecting a value on some of the integers of an interval repeats it. -/
theorem flatMap_interval_ite {α : Type} (value : α) (low high first stop : Int) :
    ((interval first stop).flatMap fun row => if low ≤ row ∧ row < high then [value] else []) =
      List.replicate (min high stop - max low first).toNat value := by
  rcases Int.le_total stop first with empty | ordered
  · have none : (min high stop - max low first).toNat = 0 := by omega
    rw [interval_of_le empty, none]
    rfl
  · obtain ⟨count, rfl⟩ : ∃ count : Nat, stop = first + count :=
      ⟨(stop - first).toNat, by omega⟩
    clear ordered
    induction count with
    | zero =>
        have none : (min high (first + ((0 : Nat) : Int)) - max low first).toNat = 0 := by omega
        rw [interval_of_le (by omega), none]
        rfl
    | succ count inductionHypothesis =>
        have next : first + ((count + 1 : Nat) : Int) = first + (count : Int) + 1 := by omega
        rw [next, interval_succ (by omega), List.flatMap_append, inductionHypothesis,
          List.flatMap_cons, List.flatMap_nil, List.append_nil]
        split
        · have more : (min high (first + (count : Int) + 1) - max low first).toNat =
              (min high (first + (count : Int)) - max low first).toNat + 1 := by omega
          rw [more, List.replicate_succ']
        · have same : (min high (first + (count : Int) + 1) - max low first).toNat =
              (min high (first + (count : Int)) - max low first).toNat := by omega
          rw [same, List.append_nil]

/-- A line of a rectangle has its span as often as it has rows between top and bottom. -/
theorem lineSpans_sides {frame : ScanFrame} (ordered : frame.clip.left ≤ frame.clip.right)
    (topOrdered : frame.clip.top ≤ frame.clip.bottom) {a b c d : Point} {rect : Rect}
    (found : RectProbe.rectOf? a b c d = some rect) {cells : CellRect}
    (made : CellRect.ofRect frame.grid frame.clip rect = cells) (y : Int) :
    lineSpans frame
        (Edge.ofSegments frame.grid frame.clip [⟨a, b⟩, ⟨b, c⟩, ⟨c, d⟩, ⟨d, a⟩]) y =
      match cells.span? frame.grid frame.clip with
      | none => []
      | some span =>
          List.replicate (CellRect.samplesIn frame.grid.rows cells.top cells.bottom y) span := by
  subst made
  have rowSpans := funext (spansAt_sides ordered topOrdered found)
  rw [lineSpans, rowSpans]
  cases (CellRect.ofRect frame.grid frame.clip rect).span? frame.grid frame.clip with
  | none => simp
  | some span =>
      simp only [Option.toList_some]
      exact flatMap_interval_ite span _ _ _ _

end Sweep

end Raster
