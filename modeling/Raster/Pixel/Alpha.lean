import Raster.Error

/-!
# Coverage and opacity

The coverage of a pixel is the number of its samples inside a shape.  An alpha
map turns it into an opacity between `0`, which leaves a pixel alone, and
`full`, which stores the source exactly.
-/

namespace Raster.Alpha

/-- The opacity of a pixel that is covered completely by an opaque source. -/
def full : Nat := 256

/-- Half the opacity of a covered pixel. -/
def half : Nat := 128

/-- The opacity of one coverage value: the source's alpha scaled by the covered
share, rounded to nearest. -/
def ofCoverage (maxCoverage sourceAlpha coverage : Nat) : Nat :=
  let denominator := maxCoverage * 255
  (coverage * sourceAlpha * full + denominator / 2) / denominator

/-- The opacities of all coverage values from `0` to `maxCoverage`. -/
def table (maxCoverage sourceAlpha : Nat) : Array Nat :=
  let most := max maxCoverage 1
  ((List.range (most + 1)).map (ofCoverage most sourceAlpha)).toArray

/-- A table that was computed before, with what it was computed from.  No other table can be
kept: whoever keeps one shows that it is what would be computed anew. -/
structure Memo where
  maxCoverage : Nat
  sourceAlpha : Nat
  table : Array Nat
  computed : table = Alpha.table maxCoverage sourceAlpha
deriving Repr, DecidableEq

namespace Memo

/-- The memo of a table that is computed now. -/
def compute (maxCoverage sourceAlpha : Nat) : Memo :=
  ⟨maxCoverage, sourceAlpha, Alpha.table maxCoverage sourceAlpha, rfl⟩

/-- The memo of the table that is asked for: the last one, unless it is stale. -/
def ofLast (last : Option Memo) (maxCoverage sourceAlpha : Nat) : Memo :=
  match last with
  | none => compute maxCoverage sourceAlpha
  | some memo =>
      if memo.maxCoverage ≠ maxCoverage ∨ memo.sourceAlpha ≠ sourceAlpha then
        compute maxCoverage sourceAlpha
      else
        memo

end Memo

/-- The opacity of a coverage value; one beyond the table is a fault. -/
def lookup (table : Array Nat) (coverage : Nat) : Except Fault Nat :=
  match table[coverage]? with
  | some opacity => .ok opacity
  | none => .error .coverageBeyondTable

/-- An opacity scaled by the alpha channel of a paint, rounded to nearest. -/
def modulate (opacity paintAlpha : Nat) : Nat :=
  (opacity * paintAlpha + 127) / 255

@[simp]
theorem size_table (maxCoverage sourceAlpha : Nat) :
    (table maxCoverage sourceAlpha).size = max maxCoverage 1 + 1 := by
  simp [table]

/-- Whatever table was computed last, the one that is asked for is kept or computed. -/
@[simp]
theorem Memo.table_ofLast (last : Option Memo) (maxCoverage sourceAlpha : Nat) :
    (ofLast last maxCoverage sourceAlpha).table = Alpha.table maxCoverage sourceAlpha := by
  cases last with
  | none => rfl
  | some memo =>
      rw [ofLast]
      split
      · rfl
      · rename_i fresh
        obtain ⟨sameCoverage, sameAlpha⟩ := not_or.mp fresh
        rw [memo.computed, Decidable.not_not.mp sameCoverage, Decidable.not_not.mp sameAlpha]

theorem getElem?_table {maxCoverage sourceAlpha coverage : Nat}
    (bound : coverage ≤ max maxCoverage 1) :
    (table maxCoverage sourceAlpha)[coverage]? =
      some (ofCoverage (max maxCoverage 1) sourceAlpha coverage) := by
  simp [table, Nat.lt_succ_of_le bound]

theorem lookup_table {maxCoverage sourceAlpha coverage : Nat}
    (bound : coverage ≤ max maxCoverage 1) :
    lookup (table maxCoverage sourceAlpha) coverage =
      .ok (ofCoverage (max maxCoverage 1) sourceAlpha coverage) := by
  simp [lookup, getElem?_table bound]

end Raster.Alpha
