import Raster.Paint.Ramp
import Raster.Paint.Space

/-!
# Radial gradients

The fraction of a radial gradient is zero at the focus, one on the circle, and
grows evenly along each ray from the focus.  A ray in direction `d` from the focus
meets the circle at the positive root `t` of `|offset + t * d| = radius`, where
`offset` leads from the center to the focus.  The fraction is the inverse of that
root, `u + sqrt v` with

* `u = (offset · d) / denominator`,
* `v = ((offset · d) ^ 2 + |d| ^ 2 * denominator) / denominator ^ 2`,
* `denominator = radius ^ 2 - |offset| ^ 2`.

Along a row of pixels `u` is linear and `v` quadratic, so both are stepped by
forward differences.
-/

namespace Raster

/-- What the fraction of a radial gradient depends on, for one drawing
transformation. -/
structure RadialSetup where
  fromDevice : Affine
  focus : Vec
  /-- From the center to the focus. -/
  offset : Vec
  denominator : Float
deriving Repr, DecidableEq

/-- The two terms of the fraction and their differences between neighboring
pixels of a row. -/
structure RadialWalk where
  u : Float
  du : Float
  v : Float
  dv : Float
  ddv : Float
deriving Repr, DecidableEq

namespace RadialWalk

/-- The fraction at the current pixel, in fixed-point units. -/
def fraction (walk : RadialWalk) : Int :=
  Word.clamp64 (Scalar.truncate ((walk.u + (Scalar.larger walk.v 0.0).sqrt) * 65536.0))

/-- The walk at the next pixel. -/
def next (walk : RadialWalk) : RadialWalk :=
  { walk with
    u := walk.u + walk.du
    v := walk.v + walk.dv
    dv := walk.dv + walk.ddv }

/-- The fractions of the next `count` pixels. -/
def fractions : Nat → RadialWalk → List Int
  | 0, _ => []
  | count + 1, walk => walk.fraction :: fractions count walk.next

end RadialWalk

/-- The walk that starts at the pixel `(x, y)`. -/
def RadialSetup.walk (setup : RadialSetup) (x y : Int) : RadialWalk :=
  let linear := setup.fromDevice.linear
  let shift : Vec := ⟨Fixed.toFloat setup.fromDevice.dx, Fixed.toFloat setup.fromDevice.dy⟩
  let pixel : Vec := ⟨Float.ofInt x + 0.5, Float.ofInt y + 0.5⟩
  let d := linear.apply pixel + shift - setup.focus
  let step := linear.first
  let denominator := setup.denominator
  let denominatorSq := denominator * denominator
  let ed := setup.offset.dot d
  let es := setup.offset.dot step
  let ds := d.dot step
  let ss := step.normSq
  { u := ed / denominator
    du := es / denominator
    v := (ed * ed + d.normSq * denominator) / denominatorSq
    dv := (2.0 * ed * es + es * es + denominator * (2.0 * ds + ss)) / denominatorSq
    ddv := 2.0 * (es * es + denominator * ss) / denominatorSq }

/-- A gradient between a focus and a circle. -/
structure RadialGradient where
  center : Point
  focus : Point
  radius : Int
  ramp : Ramp
  space : PaintSpace
  /-- There is none without a positive radius and an inverse of the space. -/
  setup : Option RadialSetup
deriving Repr, DecidableEq

namespace RadialGradient

/-- The focus is kept within this share of the radius, so that every ray from it
meets the circle once. -/
def focusShare : Float := 0.97

/-- The setup for a circle and a focus in a space. -/
def setupOf (center focus : Point) (radius : Int) (space : PaintSpace) : Option RadialSetup :=
  let r := Fixed.toFloat radius
  if r ≤ 0.0 then
    none
  else
    match space.fromDevice with
    | none => none
    | some inverse =>
        let center := Vec.ofPoint center
        let asked := Vec.ofPoint focus - center
        let distance := asked.norm
        let offset :=
          if distance > r * focusShare then asked * (r * focusShare / distance) else asked
        some
          { fromDevice := inverse
            focus := center + offset
            offset := offset
            denominator := r * r - offset.normSq }

/-- The gradient under another drawing transformation. -/
def draw (gradient : RadialGradient) (drawing : Affine) : RadialGradient :=
  let space := gradient.space.draw drawing
  { gradient with
    space := space
    setup := setupOf gradient.center gradient.focus gradient.radius space }

/-- The gradient of a ramp in a circle of a space. -/
def new (center focus : Point) (radius : Int) (ramp : Ramp) (toUser : Affine) :
    RadialGradient :=
  let space := PaintSpace.new toUser
  ⟨center, focus, radius, ramp, space, setupOf center focus radius space⟩

/-- Whether the gradient cannot produce colors. -/
def isDegenerate (gradient : RadialGradient) : Bool :=
  gradient.setup.isNone

/-- The colors of `count` pixels from `(x, y)` onward. -/
def row? (gradient : RadialGradient) (x y : Int) (count : Nat) : Option (List Nat) :=
  gradient.setup.map fun setup =>
    (RadialWalk.fractions count (setup.walk x y)).map gradient.ramp.lookup

end RadialGradient

end Raster
