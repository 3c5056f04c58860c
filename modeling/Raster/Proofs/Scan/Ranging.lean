import Raster.Proofs.Scan.Confining
import Raster.Proofs.Scan.Winding
import Raster.Proofs.Word

/-!
# Edges in words

Positions of edges are 64-bit words, rows are 32-bit words, and what is divided is a 128-bit word.
Nothing leaves its range while the edge of a segment is set up on a clip box and stepped down its
rows, so that on each row the edge has the quotient and the remainder of the exact crossing.  These
depend on the segment, the grid and the row, but not on where the clip box cut the edge.
-/

namespace Raster

namespace Word

/-- A value far from the ends of the range is a 64-bit word. -/
theorem word64?_of_bounds {value : Int} (low : -4503599627370496 ≤ value)
    (high : value ≤ 4503599627370496) : word64? value = some value := by
  apply word64?_eq_some
  unfold Fits64 min64 max64
  omega

/-- A value far from the ends of the range is a 32-bit word. -/
theorem word32?_of_bounds {value : Int} (low : -1048576 ≤ value) (high : value ≤ 1048576) :
    word32? value = some value := by
  apply word32?_eq_some
  unfold Fits32 min32 max32
  omega

end Word

namespace Edge

/-! ## Words -/

/-- The edge between two points on some rows, in words. -/
def betweenWords? (xa ya xb yb firstRow stopRow direction : Int) : Option Edge := do
  let dy ← Word.word64? (yb - ya)
  let dx ← Word.word64? (xb - xa)
  let top ← Word.word64? (firstRow * 65536)
  let center ← Word.word64? (top + 32768)
  let below ← Word.word64? (center - ya)
  let offset ← Word.word128? (below * dx)
  let moved ← Word.word64? (offset / dy)
  let x ← Word.word64? (xa + moved)
  let remainder ← Word.word64? (offset % dy)
  let rise ← Word.word128? (dx * 65536)
  let step ← Word.word64? (rise / dy)
  let stepRemainder ← Word.word64? (rise % dy)
  pure
    { firstRow := firstRow
      stopRow := stopRow
      x := x
      remainder := remainder
      step := step
      stepRemainder := stepRemainder
      dy := dy
      direction := direction }

/-- The edge between two points on the rows of a clip box, in words. -/
def clippedWords? (grid : Grid) (clip : PixelBox) (xa ya xb yb direction : Int) :
    Option (Option Edge) := do
  let clipFirst ← Word.word32? (clip.top * grid.rows)
  let clipStop ← Word.word32? (clip.bottom * grid.rows)
  let upper ← Word.word64? (ya + 32767)
  let upperRow ← Word.word32? (upper / 65536)
  let lower ← Word.word64? (yb + 32767)
  let lowerRow ← Word.word32? (lower / 65536)
  let firstRow := max upperRow clipFirst
  let stopRow := min lowerRow clipStop
  if firstRow < stopRow then
    let edge ← betweenWords? xa ya xb yb firstRow stopRow direction
    pure (some edge)
  else
    pure none

/-- The edge of a segment on the rows of a clip box, in words; there is no answer if one of them
overflows. -/
def ofSegmentWords? (grid : Grid) (clip : PixelBox) (source target : Point) :
    Option (Option Edge) := do
  let xs ← Word.word64? (source.x * grid.columns)
  let ys ← Word.word64? (source.y * grid.rows)
  let xt ← Word.word64? (target.x * grid.columns)
  let yt ← Word.word64? (target.y * grid.rows)
  if ys ≤ yt then
    clippedWords? grid clip xs ys xt yt 1
  else
    clippedWords? grid clip xt yt xs ys (-1)

/-- The edge on the next row, in words. -/
def advanceWords? (edge : Edge) : Option Edge := do
  let x ← Word.word64? (edge.x + edge.step)
  let remainder ← Word.word64? (edge.remainder + edge.stepRemainder)
  if remainder ≥ edge.dy then
    let rest ← Word.word64? (remainder - edge.dy)
    let next ← Word.word64? (x + 1)
    pure { edge with x := next, remainder := rest }
  else
    pure { edge with x := x, remainder := remainder }

/-- The edge some rows later, in words. -/
def steppedWords? (edge : Edge) : Nat → Option Edge
  | 0 => some edge
  | count + 1 => steppedWords? edge count >>= advanceWords?

/-- The first sample column at or right of the crossing, in words. -/
def columnWords? (edge : Edge) : Option Int := do
  let half ← Word.word64? (edge.x + 32767)
  let above ← Word.word64? (half + (if edge.remainder > 0 then 1 else 0))
  Word.word64? (above / 65536)

/-! ## Bounds -/

/-- Positions in cells of points with 32-bit coordinates are not greater than this. -/
def farthest : Int := 17179869184

/-- The two points of an edge lie within the range of positions, the first one not below the
second. -/
structure Ranges (xa ya xb yb : Int) : Prop where
  xa_low : -farthest ≤ xa
  xa_high : xa ≤ farthest
  xb_low : -farthest ≤ xb
  xb_high : xb ≤ farthest
  ya_low : -farthest ≤ ya
  yb_high : yb ≤ farthest
  ordered : ya ≤ yb

/-- A row between the two points is at most as far below the first one as the second one is, and the
crossing has moved at most as far. -/
theorem moved_bounds {below dy : Int} (nonneg : 0 ≤ below) (short : below < dy) (dx : Int) :
    min dx 0 ≤ below * dx / dy ∧ below * dx / dy ≤ max dx 0 := by
  have positive : 0 < dy := by omega
  constructor
  · apply Int.le_ediv_of_mul_le positive
    rcases Int.le_total 0 dx with right | left
    · rw [min_eq_right right, zero_mul]
      exact mul_nonneg nonneg right
    · rw [min_eq_left left, mul_comm]
      exact mul_le_mul_of_nonpos_right short.le left
  · apply Int.ediv_le_of_le_mul positive
    rcases Int.le_total 0 dx with right | left
    · rw [max_eq_left right, mul_comm]
      exact mul_le_mul_of_nonneg_left short.le right
    · rw [max_eq_right left, zero_mul]
      exact mul_nonpos_of_nonneg_of_nonpos nonneg left

/-- A quotient is not farther from zero than what is divided. -/
theorem quotient_bounds (limit : Int) {step rest dy total : Int}
    (division : step * dy + rest = total)
    (nonneg : 0 ≤ rest) (short : rest < dy) (low : -limit ≤ total) (high : total ≤ limit) :
    -limit ≤ step ∧ step ≤ limit := by
  have quotient : step = total / dy := by
    rw [← division, Int.add_ediv_of_dvd_left (Int.dvd_mul_left ..),
      Int.mul_ediv_cancel _ (by omega), Int.ediv_eq_zero_of_lt nonneg short, Int.add_zero]
  have magnitude := Int.natAbs_ediv_le_natAbs total dy
  rw [← quotient] at magnitude
  omega

section Ranges

variable {xa ya xb yb row : Int}

/-- Setting an edge up on a row between its points overflows nowhere. -/
theorem Ranges.betweenWords?_eq (ranges : Ranges xa ya xb yb) (begun : ya ≤ row * 65536 + 32768)
    (notEnded : row * 65536 + 32768 < yb) (stopRow direction : Int) :
    betweenWords? xa ya xb yb row stopRow direction =
      some (between xa ya xb yb row stopRow direction) := by
  obtain ⟨xaLow, xaHigh, xbLow, xbHigh, yaLow, ybHigh, _⟩ := ranges
  unfold farthest at xaLow xaHigh xbLow xbHigh yaLow ybHigh
  have positive : 0 < yb - ya := by omega
  have moved := moved_bounds (Int.sub_nonneg.mpr begun) (Int.sub_lt_sub_right notEnded ya) (xb - xa)
  have product : |(row * 65536 + 32768 - ya) * (xb - xa)| ≤ 34359738368 * 34359738368 := by
    rw [abs_mul]
    exact mul_le_mul (abs_le.mpr ⟨by omega, by omega⟩) (abs_le.mpr ⟨by omega, by omega⟩)
      (abs_nonneg _) (by decide)
  have productFits : Word.Fits128 ((row * 65536 + 32768 - ya) * (xb - xa)) :=
    ⟨(by decide : Word.min128 ≤ _).trans (abs_le.mp product).1,
      (abs_le.mp product).2.trans (by decide)⟩
  have riseFits : Word.Fits128 ((xb - xa) * 65536) := by
    unfold Word.Fits128 Word.min128 Word.max128
    omega
  have left := Int.emod_nonneg ((row * 65536 + 32768 - ya) * (xb - xa)) positive.ne'
  have leftLt := Int.emod_lt_of_pos ((row * 65536 + 32768 - ya) * (xb - xa)) positive
  have stepLeft := Int.emod_nonneg ((xb - xa) * 65536) positive.ne'
  have stepLeftLt := Int.emod_lt_of_pos ((xb - xa) * 65536) positive
  have step := quotient_bounds 2251799813685248
    (Int.ediv_mul_add_emod ((xb - xa) * 65536) (yb - ya)) stepLeft stepLeftLt (by omega) (by omega)
  apply bind_eq_of_eq_some (Word.word64?_of_bounds (by omega) (by omega))
  apply bind_eq_of_eq_some (Word.word64?_of_bounds (by omega) (by omega))
  apply bind_eq_of_eq_some (Word.word64?_of_bounds (by omega) (by omega))
  apply bind_eq_of_eq_some (Word.word64?_of_bounds (by omega) (by omega))
  apply bind_eq_of_eq_some (Word.word64?_of_bounds (by omega) (by omega))
  apply bind_eq_of_eq_some (Word.word128?_eq_some productFits)
  apply bind_eq_of_eq_some (Word.word64?_of_bounds (by omega) (by omega))
  apply bind_eq_of_eq_some (Word.word64?_of_bounds (by omega) (by omega))
  apply bind_eq_of_eq_some (Word.word64?_of_bounds (by omega) (by omega))
  apply bind_eq_of_eq_some (Word.word128?_eq_some riseFits)
  apply bind_eq_of_eq_some (Word.word64?_of_bounds (by omega) (by omega))
  apply bind_eq_of_eq_some (Word.word64?_of_bounds (by omega) (by omega))
  rfl

/-- So does clipping it. -/
theorem Ranges.clippedWords?_eq (ranges : Ranges xa ya xb yb) {grid : Grid} {clip : PixelBox}
    (rows : grid.rows ≤ 8) (top : 0 ≤ clip.top) (ordered : clip.top ≤ clip.bottom)
    (bottom : clip.bottom ≤ 32768) (direction : Int) :
    clippedWords? grid clip xa ya xb yb direction =
      let firstRow := max (sampleAtOrAfter ya) (clip.top * grid.rows)
      let stopRow := min (sampleAtOrAfter yb) (clip.bottom * grid.rows)
      some (if firstRow < stopRow then
        some (between xa ya xb yb firstRow stopRow direction)
      else
        none) := by
  have yaLow := ranges.ya_low
  have ybHigh := ranges.yb_high
  have falls := ranges.ordered
  unfold farthest at yaLow ybHigh
  have clipFirst : 0 ≤ clip.top * grid.rows ∧ clip.top * grid.rows ≤ 262144 := by
    constructor <;> nlinarith
  have clipStop : 0 ≤ clip.bottom * grid.rows ∧ clip.bottom * grid.rows ≤ 262144 := by
    constructor <;> nlinarith
  have upper := lt_sampleAtOrAfter_iff ya
  have lower := lt_sampleAtOrAfter_iff yb
  apply bind_eq_of_eq_some (Word.word32?_of_bounds (by omega) (by omega))
  apply bind_eq_of_eq_some (Word.word32?_of_bounds (by omega) (by omega))
  apply bind_eq_of_eq_some (Word.word64?_of_bounds (by omega) (by omega))
  apply bind_eq_of_eq_some (Word.word32?_of_bounds (by omega) (by omega))
  apply bind_eq_of_eq_some (Word.word64?_of_bounds (by omega) (by omega))
  apply bind_eq_of_eq_some (Word.word32?_of_bounds (by omega) (by omega))
  change (if max (sampleAtOrAfter ya) _ < min (sampleAtOrAfter yb) _ then _ else _) = _
  simp only
  split
  · rename_i crosses
    exact bind_eq_of_eq_some (ranges.betweenWords?_eq
      ((sampleAtOrAfter_le_iff ya _).mp (Int.le_max_left ..))
      ((lt_sampleAtOrAfter_iff yb _).mp (crosses.trans_le (Int.min_le_left ..))) _ _) rfl
  · rfl

end Ranges

/-- A coordinate in cells of a pixel is within the range of positions. -/
theorem cells_bounds {coordinate : Int} (fits : Word.Fits32 coordinate) {count : Nat}
    (few : count ≤ 8) : -farthest ≤ coordinate * count ∧ coordinate * count ≤ farthest := by
  unfold Word.Fits32 Word.min32 Word.max32 at fits
  have product : |coordinate * (count : Int)| ≤ 2147483648 * 8 := by
    rw [abs_mul]
    exact mul_le_mul (abs_le.mpr ⟨by omega, by omega⟩) (abs_le.mpr ⟨by omega, by omega⟩)
      (abs_nonneg _) (by decide)
  exact abs_le.mp product

/-- The edge of a segment between points with 32-bit coordinates is set up without overflow. -/
theorem ofSegmentWords?_eq {grid : Grid} {clip : PixelBox} {source target : Point}
    (columns : grid.columns ≤ 8) (rows : grid.rows ≤ 8) (top : 0 ≤ clip.top)
    (ordered : clip.top ≤ clip.bottom) (bottom : clip.bottom ≤ 32768) (sourceFits : source.Fits32)
    (targetFits : target.Fits32) :
    ofSegmentWords? grid clip source target = some (ofSegment? grid clip source target) := by
  obtain ⟨xsLow, xsHigh⟩ := cells_bounds sourceFits.1 columns
  obtain ⟨ysLow, ysHigh⟩ := cells_bounds sourceFits.2 rows
  obtain ⟨xtLow, xtHigh⟩ := cells_bounds targetFits.1 columns
  obtain ⟨ytLow, ytHigh⟩ := cells_bounds targetFits.2 rows
  have position {value : Int} (low : -farthest ≤ value) (high : value ≤ farthest) :
      Word.word64? value = some value := by
    unfold farthest at low high
    exact Word.word64?_of_bounds (by omega) (by omega)
  apply bind_eq_of_eq_some (position xsLow xsHigh)
  apply bind_eq_of_eq_some (position ysLow ysHigh)
  apply bind_eq_of_eq_some (position xtLow xtHigh)
  apply bind_eq_of_eq_some (position ytLow ytHigh)
  by_cases downward : source.y * grid.rows ≤ target.y * grid.rows
  · have ranges : Ranges (source.x * grid.columns) (source.y * grid.rows)
        (target.x * grid.columns) (target.y * grid.rows) :=
      ⟨xsLow, xsHigh, xtLow, xtHigh, ysLow, ytHigh, downward⟩
    rw [if_pos downward, ranges.clippedWords?_eq rows top ordered bottom]
    simp only [ofSegment?, if_pos downward]
  · have ranges : Ranges (target.x * grid.columns) (target.y * grid.rows)
        (source.x * grid.columns) (source.y * grid.rows) :=
      ⟨xtLow, xtHigh, xsLow, xsHigh, ytLow, ysHigh, (Int.not_le.mp downward).le⟩
    rw [if_neg downward, ranges.clippedWords?_eq rows top ordered bottom]
    simp only [ofSegment?, if_neg downward]

/-! ## Stepping -/

section Stepping

variable {edge : Edge} {xa ya xb yb row : Int}

/-- Between its points an edge is not left of the left one and not right of the right one. -/
theorem IsExact.x_bounds (exact : edge.IsExact xa ya (xb - xa) row) (height : edge.dy = yb - ya)
    (begun : ya ≤ row * 65536 + 32768) (notEnded : row * 65536 + 32768 < yb) :
    min xa xb ≤ edge.x ∧ edge.x ≤ max xa xb := by
  obtain ⟨nonneg, below, crossing, _, _, _⟩ := exact
  rw [height] at below crossing
  have moved := moved_bounds (Int.sub_nonneg.mpr begun) (Int.sub_lt_sub_right notEnded ya) (xb - xa)
  have division : (row * 65536 + 32768 - ya) * (xb - xa) =
      edge.remainder + (edge.x - xa) * (yb - ya) := by
    linear_combination -crossing
  rw [division, Int.add_mul_ediv_right _ _ (by omega), Int.ediv_eq_zero_of_lt nonneg below] at moved
  omega

/-- The next row is reached without overflow, also the one after the last row. -/
theorem IsExact.advanceWords?_eq (exact : edge.IsExact xa ya (xb - xa) row)
    (height : edge.dy = yb - ya) (ranges : Ranges xa ya xb yb)
    (begun : ya ≤ row * 65536 + 32768) (notEnded : row * 65536 + 32768 < yb) :
    edge.advanceWords? = some edge.advance := by
  have bounds := exact.x_bounds height begun notEnded
  obtain ⟨nonneg, below, _, stepNonneg, stepBelow, slope⟩ := exact
  obtain ⟨xaLow, xaHigh, xbLow, xbHigh, yaLow, ybHigh, _⟩ := ranges
  unfold farthest at xaLow xaHigh xbLow xbHigh yaLow ybHigh
  have step := quotient_bounds 2251799813685248 slope stepNonneg stepBelow (by omega)
    (by omega)
  apply bind_eq_of_eq_some (Word.word64?_of_bounds (by omega) (by omega))
  apply bind_eq_of_eq_some (Word.word64?_of_bounds (by omega) (by omega))
  simp only [Edge.advance]
  split
  · apply bind_eq_of_eq_some (Word.word64?_of_bounds (by omega) (by omega))
    exact bind_eq_of_eq_some (Word.word64?_of_bounds (by omega) (by omega)) rfl
  · rfl

theorem IsExact.columnWords?_eq (exact : edge.IsExact xa ya (xb - xa) row)
    (height : edge.dy = yb - ya) (ranges : Ranges xa ya xb yb)
    (begun : ya ≤ row * 65536 + 32768) (notEnded : row * 65536 + 32768 < yb) :
    edge.columnWords? = some edge.column := by
  have bounds := exact.x_bounds height begun notEnded
  obtain ⟨xaLow, xaHigh, xbLow, xbHigh, _, _, _⟩ := ranges
  unfold farthest at xaLow xaHigh xbLow xbHigh
  have one : (0 : Int) ≤ (if edge.remainder > 0 then 1 else 0) ∧
      (if edge.remainder > 0 then 1 else 0) ≤ (1 : Int) := by
    split <;> decide
  apply bind_eq_of_eq_some (Word.word64?_of_bounds (by omega) (by omega))
  apply bind_eq_of_eq_some (Word.word64?_of_bounds (by omega) (by omega))
  exact Word.word64?_of_bounds (by omega) (by omega)

/-- The steps to a row of the edge. -/
theorem onRow_add (edge : Edge) (count : Nat) :
    edge.onRow (edge.firstRow + count) = advance^[count] edge := by
  have steps : (edge.firstRow + count - edge.firstRow).toNat = count := by omega
  rw [onRow, steps]

/-- All rows of an edge between its points are reached without overflow. -/
theorem steppedWords?_eq (exact : edge.IsExact xa ya (xb - xa) edge.firstRow)
    (height : edge.dy = yb - ya) (ranges : Ranges xa ya xb yb)
    (between : ∀ row, edge.Crosses row → ya ≤ row * 65536 + 32768 ∧ row * 65536 + 32768 < yb)
    {count : Nat} (notEnded : edge.firstRow + count ≤ edge.stopRow) :
    edge.steppedWords? count = some (advance^[count] edge) := by
  induction count with
  | zero => rfl
  | succ count inductionHypothesis =>
      have crosses : edge.Crosses (edge.firstRow + count) := ⟨by omega, by omega⟩
      have here := between _ crosses
      rw [Function.iterate_succ_apply', ← onRow_add]
      apply bind_eq_of_eq_some (inductionHypothesis (by omega))
      rw [← onRow_add]
      exact (exact.onRow crosses.1).advanceWords?_eq (by rw [dy_onRow, height]) ranges here.1
        here.2

end Stepping

end Edge

namespace Segment

/-! ## Segments in cells -/

section Cells

variable (segment : Segment) (grid : Grid)

/-- The height of a segment, in cells. -/
def fall : Int :=
  segment.lower.y * grid.rows - segment.upper.y * grid.rows

/-- How far a segment moves to the right while it falls, in cells. -/
def drift : Int :=
  segment.lower.x * grid.columns - segment.upper.x * grid.columns

/-- The numerator over `fall` of where the line through a segment crosses the centers of a sample
row, in cells. -/
def crossingNumerator (row : Int) : Int :=
  segment.upper.x * grid.columns * segment.fall grid +
    (row * 65536 + 32768 - segment.upper.y * grid.rows) * segment.drift grid

end Cells

/-- Points with 32-bit coordinates are within the range of positions. -/
theorem ranges {segment : Segment} (source : segment.source.Fits32)
    (target : segment.target.Fits32) {grid : Grid} (columns : grid.columns ≤ 8)
    (rows : grid.rows ≤ 8) :
    Edge.Ranges (segment.upper.x * grid.columns) (segment.upper.y * grid.rows)
      (segment.lower.x * grid.columns) (segment.lower.y * grid.rows) := by
  have ordered : segment.upper.y * grid.rows ≤ segment.lower.y * grid.rows := by
    apply Int.mul_le_mul_of_nonneg_right _ (Int.natCast_nonneg _)
    unfold upper lower
    split <;> omega
  have fits : segment.upper.Fits32 ∧ segment.lower.Fits32 := by
    unfold upper lower
    split
    · exact ⟨source, target⟩
    · exact ⟨target, source⟩
  obtain ⟨⟨upperX, upperY⟩, lowerX, lowerY⟩ := fits
  exact ⟨(Edge.cells_bounds upperX columns).1, (Edge.cells_bounds upperX columns).2,
    (Edge.cells_bounds lowerX columns).1, (Edge.cells_bounds lowerX columns).2,
    (Edge.cells_bounds upperY rows).1, (Edge.cells_bounds lowerY rows).2, ordered⟩

end Segment

namespace Scanner

theorem addEdge_eq_push_iff {scanner : Scanner} {source target : Point} {edge : Edge} :
    scanner.addEdge source target = { scanner with edges := scanner.edges.push edge } ↔
      Edge.ofSegment? scanner.grid scanner.clip source target = some edge := by
  rw [addEdge_eq]
  cases Edge.ofSegment? scanner.grid scanner.clip source target with
  | none =>
      constructor
      · intro pushed
        have sizes := congrArg (fun scanner => scanner.edges.size) pushed
        simp at sizes
      · intro made
        cases made
  | some other =>
      simp only [Option.toArray_some, Array.append_singleton, mk.injEq, true_and, and_true,
        Option.some.injEq, Array.push_eq_push, and_self]

/-- A segment between points with 32-bit coordinates is added in words without overflow, on the grid
and the clip box of any scanner that calls lead to.  If an edge is pushed, it crosses exactly the
rows of the clip box whose centers the segment reaches, and words suffice to step it down to the row
after its last one.  On each of its rows quotient and remainder are those of the exact crossing of
the segment, wherever the clip box cut the edge, and the column is the least one whose center does
not lie left of this crossing. -/
theorem pushed_edge_exact_in_words {scanner : Scanner} (placed : scanner.Placed)
    {segment : Segment} (source : segment.source.Fits32) (target : segment.target.Fits32) :
    Edge.ofSegmentWords? scanner.grid scanner.clip segment.source segment.target =
        some (Edge.ofSegment? scanner.grid scanner.clip segment.source segment.target) ∧
      ∀ edge, scanner.addEdge segment.source segment.target =
          { scanner with edges := scanner.edges.push edge } →
        (∀ row, edge.Crosses row ↔
          (scanner.clip.top * scanner.grid.rows ≤ row ∧
              row < scanner.clip.bottom * scanner.grid.rows) ∧
            segment.upper.y * scanner.grid.rows ≤ row * 65536 + 32768 ∧
              row * 65536 + 32768 < segment.lower.y * scanner.grid.rows) ∧
        (∀ count : Nat, edge.firstRow + count ≤ edge.stopRow →
          edge.steppedWords? count = some (Edge.advance^[count] edge)) ∧
        ∀ count : Nat, edge.firstRow + count < edge.stopRow →
          let stepped := Edge.advance^[count] edge
          let fall := segment.fall scanner.grid
          let numerator := segment.crossingNumerator scanner.grid (edge.firstRow + count)
          (0 ≤ stepped.remainder ∧ stepped.remainder < fall ∧ stepped.dy = fall) ∧
            stepped.x * fall + stepped.remainder = numerator ∧
            IsLeast {column : Int | (numerator : ℚ) / fall ≤ column * 65536 + 32768}
              stepped.column ∧
            stepped.columnWords? = some stepped.column := by
  obtain ⟨ready, accepted⟩ := placed
  have columns := ready.columns_le
  have rows := ready.rows_le
  have clip := ready.clip
  have bottom : scanner.clip.bottom ≤ 32768 :=
    clip.bottom_le.trans (scanner.surface.bounds_le.2.trans (Int.ofNat_le.mpr accepted.height_le))
  refine ⟨Edge.ofSegmentWords?_eq columns rows clip.top_nonneg clip.top_le bottom source target, ?_⟩
  intro edge pushed
  have made := addEdge_eq_push_iff.mp pushed
  have crosses := segment.crosses_iff made
  obtain ⟨exact, height⟩ : edge.IsExact (segment.upper.x * scanner.grid.columns)
      (segment.upper.y * scanner.grid.rows) (segment.drift scanner.grid) edge.firstRow ∧
      edge.dy = segment.fall scanner.grid := segment.isExact made
  have ranges := segment.ranges source target columns rows
  refine ⟨crosses, ?_, ?_⟩
  · intro count notEnded
    exact Edge.steppedWords?_eq exact height ranges (fun row here => ((crosses row).mp here).2)
      notEnded
  · intro count notEnded
    have here : edge.Crosses (edge.firstRow + count) := ⟨by omega, notEnded⟩
    have reached := ((crosses _).mp here).2
    have onRow := exact.onRow here.1
    have sameHeight : (edge.onRow (edge.firstRow + count)).dy = segment.fall scanner.grid := by
      rw [Edge.dy_onRow, height]
    have crossing := onRow.crossing
    have below := onRow.remainder_lt
    rw [sameHeight] at crossing below
    simp only [← Edge.onRow_add]
    refine ⟨⟨onRow.remainder_nonneg, below, sameHeight⟩, crossing, ?_,
      onRow.columnWords?_eq sameHeight ranges reached.1 reached.2⟩
    have positive : (0 : ℚ) < segment.fall scanner.grid := by
      exact_mod_cast onRow.remainder_nonneg.trans_lt below
    have atOrRight (column : Int) :
        (edge.onRow (edge.firstRow + count)).column ≤ column ↔
          (segment.crossingNumerator scanner.grid (edge.firstRow + count) : ℚ) /
            segment.fall scanner.grid ≤ column * 65536 + 32768 := by
      rw [Edge.column_le_iff onRow.remainder_nonneg onRow.remainder_lt, sameHeight, crossing,
        div_le_iff₀ positive]
      exact_mod_cast Iff.rfl
    exact ⟨(atOrRight _).mp (Int.le_refl _), fun column right => (atOrRight column).mpr right⟩

/-- A segment that rises to the left, cut by the clip box on both sides.  On the third of its rows
the crossing lies a little right of `x`. -/
theorem pushed_edge_exact_in_words_rising :
    let segment : Segment := ⟨⟨100000, 250000⟩, ⟨-30000, -50000⟩⟩
    ∃ scanner : Scanner, ∃ edge : Edge,
      scanner.Placed ∧ segment.source.Fits32 ∧ segment.target.Fits32 ∧
        scanner.addEdge segment.source segment.target =
          { scanner with edges := scanner.edges.push edge } ∧
        edge.firstRow = 2 ∧ edge.stopRow = 6 ∧ edge.firstRow + (2 : Nat) < edge.stopRow ∧
        Edge.ofSegmentWords? scanner.grid scanner.clip segment.source segment.target = some edge ∧
        edge.steppedWords? 2 = some (Edge.advance^[2] edge) ∧
        (Edge.advance^[2] edge).x * 600000 + (Edge.advance^[2] edge).remainder =
          segment.crossingNumerator scanner.grid 4 ∧
        0 < (Edge.advance^[2] edge).remainder := by
  intro segment
  obtain ⟨surface, made⟩ : ∃ surface, Surface.new? .gray8 2 4 (.packed 2) (Array.replicate 8 0) =
    .ok surface := ⟨_, rfl⟩
  have accepted := Surface.accepted_of_new? made
  have placed : (((Scanner.new surface).setGrid 1 1).setClip (some ⟨0, 1, 2, 3⟩)).Placed :=
    ⟨((ready_new surface).setGrid 1 1).setClip (some ⟨0, 1, 2, 3⟩), accepted⟩
  cases made
  have source : segment.source.Fits32 := by decide
  have target : segment.target.Fits32 := by decide
  obtain ⟨inWords, exact⟩ := pushed_edge_exact_in_words placed source target
  obtain ⟨_, stepped, onRows⟩ := exact _ (addEdge_eq_push_iff.mpr rfl)
  exact ⟨_, _, placed, source, target, addEdge_eq_push_iff.mpr rfl, rfl, rfl, by decide, inWords,
    stepped 2 (by decide), (onRows 2 (by decide)).2.1, by decide⟩

end Scanner

end Raster
