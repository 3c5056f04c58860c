import Raster.Scalar
import Raster.Word

/-!
# Fixed-point numbers

A fixed-point number is a signed 32-bit integer that counts units of
`1 / 65536`.  Operations whose exact result does not fit saturate.
-/

namespace Raster.Fixed

/-- The number one. -/
def one : Int := 65536

/-- The number one half. -/
def half : Int := 32768

/-- A whole number as a fixed-point number. -/
def ofInt (value : Int) : Int :=
  Word.clamp32 (value * one)

/-- The fixed-point number nearest to `x`, a half unit away from zero. -/
def ofFloat (x : Float) : Int :=
  Word.clamp32 (Scalar.nearest (x * 65536.0))

/-- The fixed-point number nearest to a single-precision one. -/
def ofFloat32 (x : Float32) : Int :=
  ofFloat x.toFloat

/-- The value of a fixed-point number, which double precision holds exactly. -/
def toFloat (raw : Int) : Float :=
  Float.ofInt raw / 65536.0

/-- The value of a fixed-point number, rounded to single precision. -/
def toFloat32 (raw : Int) : Float32 :=
  (toFloat raw).toFloat32

/-- The greatest whole number that is at most `raw`. -/
def floor (raw : Int) : Int :=
  raw / one

/-- The least whole number that is at least `raw`. -/
def ceil (raw : Int) : Int :=
  (raw + (one - 1)) / one

/-- The product, rounded down. -/
def mul (x y : Int) : Int :=
  Word.clamp32 (x * y / one)

/-- The quotient, rounded toward zero; there is none by zero. -/
def div? (x y : Int) : Option Int :=
  if y = 0 then none else some (Word.clamp32 ((x * one).tdiv y))

theorem fits32_ofInt (value : Int) : Word.Fits32 (ofInt value) :=
  Word.fits32_clamp32 _

theorem fits32_ofFloat (x : Float) : Word.Fits32 (ofFloat x) :=
  Word.fits32_clamp32 _

theorem fits32_mul (x y : Int) : Word.Fits32 (mul x y) :=
  Word.fits32_clamp32 _

@[simp]
theorem div?_eq_none_iff (x y : Int) : div? x y = none ↔ y = 0 := by
  by_cases zero : y = 0 <;> simp [div?, zero]

end Raster.Fixed
