import Raster.Fixed

/-!
# Cycles

A gradient assigns colors to fractions between zero and one.  A cycle folds every
other fraction into that range.
-/

namespace Raster

/-- How a fraction outside the range of a gradient is folded back. -/
inductive Cycle where
  /-- To the nearest end. -/
  | clamp
  /-- By whole periods. -/
  | wrap
  /-- By whole periods, every other one of which runs backward. -/
  | reflect
deriving Repr, DecidableEq, Inhabited

namespace Cycle

/-- The fraction between zero and one that stands for `fraction`. -/
def fold : Cycle → Int → Int
  | clamp, fraction => min (max fraction 0) Fixed.one
  | wrap, fraction => fraction % Fixed.one
  | reflect, fraction =>
      let phase : Int := fraction.natAbs % 131072
      min phase (131072 - phase)

/-- A folded fraction lies between zero and one. -/
theorem fold_bounds (cycle : Cycle) (fraction : Int) :
    0 ≤ cycle.fold fraction ∧ cycle.fold fraction ≤ Fixed.one := by
  cases cycle <;> simp only [fold, Fixed.one] <;> omega

end Cycle

end Raster
