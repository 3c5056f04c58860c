/-!
# Rounding real numbers to integers

Double-precision numbers become integers by truncation or by rounding to the
nearest integer.  All three functions are total: not-a-number becomes `0`, and a
magnitude beyond 64 bits becomes the greatest 64-bit one, so that limiting the
result to a word afterwards saturates.
-/

namespace Raster.Scalar

/-- The whole part of the magnitude of a nonnegative number. -/
def wholePart (x : Float) : Nat :=
  x.toUInt64.toNat

/-- The integer part of `x`, rounding toward zero. -/
def truncate (x : Float) : Int :=
  if x < 0 then -(wholePart (-x) : Int) else wholePart x

/-- A nonnegative number rounded to the nearest integer, a half upward. -/
def nearestMagnitude (x : Float) : Nat :=
  let whole := x.toUInt64
  if x - whole.toFloat ≥ 0.5 then whole.toNat + 1 else whole.toNat

/-- `x` rounded to the nearest integer, a half away from zero. -/
def nearest (x : Float) : Int :=
  if x < 0 then -(nearestMagnitude (-x) : Int) else nearestMagnitude x

/-- The least natural number that is at least `x`. -/
def ceilNat (x : Float) : Nat :=
  let whole := x.toUInt64
  if whole.toFloat < x then whole.toNat + 1 else whole.toNat

/-- The greater of two numbers; a number wins over not-a-number. -/
def larger (x y : Float) : Float :=
  if x < y || x.isNaN then y else x

/-- The lesser of two numbers; a number wins over not-a-number. -/
def smaller (x y : Float) : Float :=
  if y < x || x.isNaN then y else x

/-- The ratio of a circle's circumference to its diameter. -/
def pi : Float := 3.141592653589793

/-- An angle in degrees, in radians. -/
def radians (degrees : Float) : Float :=
  degrees * (pi / 180.0)

end Raster.Scalar
