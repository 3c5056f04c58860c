import Raster.Paint.Ramp
import Raster.Paint.Space

/-!
# Linear gradients

The fraction of a linear gradient grows along the line from one point of paint
space to another.  On the device it is an affine function of the pixel, whose
coefficients are quantized once per drawing transformation.
-/

namespace Raster

/-- The fraction `perX * x + perY * y + base` at the pixel `(x, y)`. -/
structure FractionPlane where
  perX : Int
  perY : Int
  base : Int
deriving Repr, DecidableEq

/-- The fraction at a pixel, as a signed 64-bit integer. -/
def FractionPlane.fraction (plane : FractionPlane) (x y : Int) : Int :=
  Word.wrap64 (x * plane.perX + y * plane.perY + plane.base)

/-- A gradient from `source`, at fraction zero, to `target`, at fraction one. -/
structure LinearGradient where
  source : Point
  target : Point
  ramp : Ramp
  space : PaintSpace
  /-- There is none if the gradient has no length or its space no inverse. -/
  plane : Option FractionPlane
deriving Repr, DecidableEq

namespace LinearGradient

/-- A coefficient in fixed-point units. -/
def quantize (x : Float) : Int :=
  Word.clamp64 (Scalar.nearest (x * 65536.0))

/-- The fraction as a function of the pixel, evaluated at pixel centers. -/
def planeOf (source target : Point) (space : PaintSpace) : Option FractionPlane :=
  let vx := Fixed.toFloat target.x - Fixed.toFloat source.x
  let vy := Fixed.toFloat target.y - Fixed.toFloat source.y
  let lengthSq := vx * vx + vy * vy
  if lengthSq == 0.0 then
    none
  else
    match space.fromDevice with
    | none => none
    | some inverse =>
        let a := Fixed.toFloat inverse.xx
        let b := Fixed.toFloat inverse.xy
        let c := Fixed.toFloat inverse.yx
        let d := Fixed.toFloat inverse.yy
        let e := Fixed.toFloat inverse.dx
        let f := Fixed.toFloat inverse.dy
        let perX := (vx * a + vy * c) / lengthSq
        let perY := (vx * b + vy * d) / lengthSq
        let corner :=
          (vx * (e - Fixed.toFloat source.x) + vy * (f - Fixed.toFloat source.y)) / lengthSq
        let center := corner + 0.5 * (perX + perY)
        some ⟨quantize perX, quantize perY, quantize center⟩

/-- The gradient under another drawing transformation. -/
def draw (gradient : LinearGradient) (drawing : Affine) : LinearGradient :=
  let space := gradient.space.draw drawing
  { gradient with
    space := space
    plane := planeOf gradient.source gradient.target space }

/-- The gradient of a ramp between two points of a space. -/
def new (source target : Point) (ramp : Ramp) (toUser : Affine) : LinearGradient :=
  let space := PaintSpace.new toUser
  ⟨source, target, ramp, space, planeOf source target space⟩

/-- Whether the gradient cannot produce colors. -/
def isDegenerate (gradient : LinearGradient) : Bool :=
  gradient.plane.isNone

/-- The colors of `count` pixels from `(x, y)` onward.  The fraction is stepped from
pixel to pixel. -/
def row? (gradient : LinearGradient) (x y : Int) (count : Nat) : Option (List Nat) :=
  gradient.plane.map fun plane =>
    (Word.steps plane.perX count (plane.fraction x y)).map gradient.ramp.lookup

end LinearGradient

end Raster
