import Mathlib.Logic.Function.Iterate
import Mathlib.Tactic.LinearCombination
import Mathlib.Tactic.Linarith
import Raster.Scan.Edge

/-!
# Stepping edges

An edge on a later row is the edge stepped once for each row in between.  Its quotient
and remainder stay those of the exact crossing of its line with that row, wherever the
clip box cut the edge, and its column is the first one whose sample center does not lie
left of the exact crossing.
-/

namespace Raster

/-! ## Sample rows and columns -/

/-- A sample lies at or after a position exactly if its center does. -/
theorem sampleAtOrAfter_le_iff (position sample : Int) :
    sampleAtOrAfter position ≤ sample ↔ position ≤ sample * 65536 + 32768 := by
  unfold sampleAtOrAfter
  omega

theorem lt_sampleAtOrAfter_iff (position sample : Int) :
    sample < sampleAtOrAfter position ↔ sample * 65536 + 32768 < position := by
  unfold sampleAtOrAfter
  omega

theorem sampleAtOrAfter_mono {first second : Int} (ordered : first ≤ second) :
    sampleAtOrAfter first ≤ sampleAtOrAfter second := by
  unfold sampleAtOrAfter
  omega

namespace Grid

theorem columns_pos (grid : Grid) : 0 < grid.columns :=
  Nat.pow_pos (by decide)

theorem rows_pos (grid : Grid) : 0 < grid.rows :=
  Nat.pow_pos (by decide)

end Grid

namespace Edge

/-- The edge crosses a sample row. -/
def Crosses (edge : Edge) (row : Int) : Prop :=
  edge.firstRow ≤ row ∧ row < edge.stopRow

instance (edge : Edge) (row : Int) : Decidable (edge.Crosses row) :=
  inferInstanceAs (Decidable (_ ∧ _))

/-- The edge on a row, which is not before its first one. -/
def onRow (edge : Edge) (row : Int) : Edge :=
  advance^[(row - edge.firstRow).toNat] edge

/-! ## What stepping keeps -/

@[simp]
theorem stopRow_advance (edge : Edge) : edge.advance.stopRow = edge.stopRow := by
  simp only [advance]
  split <;> rfl

@[simp]
theorem dy_advance (edge : Edge) : edge.advance.dy = edge.dy := by
  simp only [advance]
  split <;> rfl

@[simp]
theorem direction_advance (edge : Edge) : edge.advance.direction = edge.direction := by
  simp only [advance]
  split <;> rfl

/-- What a single step keeps is the same on all rows. -/
theorem onRow_keeps {α : Type} (field : Edge → α)
    (kept : ∀ edge, field (advance edge) = field edge) (edge : Edge) (row : Int) :
    field (edge.onRow row) = field edge := by
  unfold onRow
  generalize (row - edge.firstRow).toNat = count
  induction count with
  | zero => rfl
  | succ count inductionHypothesis =>
      rw [Function.iterate_succ_apply', kept, inductionHypothesis]

@[simp]
theorem stopRow_onRow (edge : Edge) (row : Int) :
    (edge.onRow row).stopRow = edge.stopRow :=
  onRow_keeps stopRow stopRow_advance edge row

@[simp]
theorem dy_onRow (edge : Edge) (row : Int) : (edge.onRow row).dy = edge.dy :=
  onRow_keeps dy dy_advance edge row

@[simp]
theorem direction_onRow (edge : Edge) (row : Int) :
    (edge.onRow row).direction = edge.direction :=
  onRow_keeps direction direction_advance edge row

theorem onRow_of_le {edge : Edge} {row : Int} (early : row ≤ edge.firstRow) :
    edge.onRow row = edge := by
  have none : (row - edge.firstRow).toNat = 0 := by omega
  rw [onRow, none]
  rfl

/-- The next row takes one more step. -/
theorem onRow_succ {edge : Edge} {row : Int} (begun : edge.firstRow ≤ row) :
    edge.onRow (row + 1) = (edge.onRow row).advance := by
  have next : (row + 1 - edge.firstRow).toNat = (row - edge.firstRow).toNat + 1 := by omega
  rw [onRow, onRow, next, Function.iterate_succ_apply']

/-! ## Exact crossings -/

/-- The quotient and remainder of `edge` are those of the exact crossing of a row with
the line through `(xa, ya)` that moves by `dx` while it falls by `edge.dy`. -/
structure IsExact (edge : Edge) (xa ya dx row : Int) : Prop where
  remainder_nonneg : 0 ≤ edge.remainder
  remainder_lt : edge.remainder < edge.dy
  crossing : edge.x * edge.dy + edge.remainder =
    xa * edge.dy + (row * 65536 + 32768 - ya) * dx
  stepRemainder_nonneg : 0 ≤ edge.stepRemainder
  stepRemainder_lt : edge.stepRemainder < edge.dy
  slope : edge.step * edge.dy + edge.stepRemainder = dx * 65536

/-- Division sets an edge up exactly. -/
theorem isExact_between {xa ya xb yb firstRow stopRow direction : Int} (falls : ya < yb) :
    (between xa ya xb yb firstRow stopRow direction).IsExact xa ya (xb - xa) firstRow := by
  have positive : 0 < yb - ya := by omega
  constructor
  · exact Int.emod_nonneg _ (by omega)
  · exact Int.emod_lt_of_pos _ positive
  · simp only [between]
    have division := Int.mul_ediv_add_emod
      ((firstRow * 65536 + 32768 - ya) * (xb - xa)) (yb - ya)
    linear_combination division
  · exact Int.emod_nonneg _ (by omega)
  · exact Int.emod_lt_of_pos _ positive
  · simp only [between]
    have division := Int.mul_ediv_add_emod ((xb - xa) * 65536) (yb - ya)
    linear_combination division

/-- A step leads from the exact crossing of a row to that of the next one. -/
theorem IsExact.advance {edge : Edge} {xa ya dx row : Int}
    (exact : edge.IsExact xa ya dx row) : edge.advance.IsExact xa ya dx (row + 1) := by
  obtain ⟨nonneg, below, crossing, stepNonneg, stepBelow, slope⟩ := exact
  simp only [Edge.advance]
  split
  -- The remainders make a whole: one goes over to the quotient.
  · rename_i whole
    refine ⟨?_, ?_, ?_, stepNonneg, stepBelow, slope⟩
    · simp only
      omega
    · simp only
      omega
    · linear_combination crossing + slope
  · rename_i part
    refine ⟨?_, ?_, ?_, stepNonneg, stepBelow, slope⟩
    · simp only
      omega
    · simp only
      omega
    · linear_combination crossing + slope

/-- Stepping never loses exactness. -/
theorem IsExact.onRow {edge : Edge} {xa ya dx row : Int}
    (exact : edge.IsExact xa ya dx edge.firstRow) (begun : edge.firstRow ≤ row) :
    (edge.onRow row).IsExact xa ya dx row := by
  obtain ⟨count, rfl⟩ : ∃ count : Nat, row = edge.firstRow + count :=
    ⟨(row - edge.firstRow).toNat, by omega⟩
  clear begun
  induction count with
  | zero => simpa [onRow_of_le] using exact
  | succ count inductionHypothesis =>
      have step : edge.firstRow + ((count + 1 : Nat) : Int) =
          edge.firstRow + (count : Int) + 1 := by omega
      rw [step, onRow_succ (by omega)]
      exact inductionHypothesis.advance

/-! ## Columns -/

/-- The column of an edge is the first one whose center lies at or right of the
exact crossing. -/
theorem column_le_iff {edge : Edge} (nonneg : 0 ≤ edge.remainder)
    (below : edge.remainder < edge.dy) (column : Int) :
    edge.column ≤ column ↔
      edge.x * edge.dy + edge.remainder ≤ (column * 65536 + 32768) * edge.dy := by
  have rounded : edge.column ≤ column ↔
      edge.x + (if edge.remainder > 0 then 1 else 0) ≤ column * 65536 + 32768 := by
    unfold Edge.column
    split <;> omega
  rw [rounded]
  split
  · rename_i positive
    constructor
    · intro left
      nlinarith
    · intro left
      by_contra right
      have center : column * 65536 + 32768 ≤ edge.x := by omega
      nlinarith
  · rename_i zero
    constructor
    · intro left
      nlinarith
    · intro left
      by_contra right
      have center : column * 65536 + 32768 + 1 ≤ edge.x := by omega
      nlinarith

end Edge

end Raster
