import Raster.Plane

/-!
# Affine transformations

An affine transformation has six fixed-point coefficients and maps `(x, y)` to
`(xx * x + xy * y + dx, yx * x + yy * y + dy)`.  Points are mapped in integer
arithmetic: the sum of products is rounded down and the result saturates.
Inversion is done in double precision on the homogeneous matrix and quantized.
-/

namespace Raster

/-- Three doubles: a column of a homogeneous matrix. -/
structure Column where
  x : Float
  y : Float
  z : Float
deriving Repr, DecidableEq

namespace Column

/-- The vector product. -/
def cross (a b : Column) : Column :=
  ⟨a.y * b.z - a.z * b.y, a.z * b.x - a.x * b.z, a.x * b.y - a.y * b.x⟩

instance : HDiv Column Float Column :=
  ⟨fun a divisor => ⟨a.x / divisor, a.y / divisor, a.z / divisor⟩⟩

end Column

/-- A three-by-three matrix of doubles, given by its columns. -/
structure Matrix where
  first : Column
  second : Column
  third : Column
deriving Repr, DecidableEq

namespace Matrix

/-- The determinant, expanded along the first row. -/
def determinant (m : Matrix) : Float :=
  m.first.x * (m.second.y * m.third.z - m.third.y * m.second.z)
    - m.second.x * (m.first.y * m.third.z - m.third.y * m.first.z)
    + m.third.x * (m.first.y * m.second.z - m.second.y * m.first.z)

/-- The matrix with rows and columns exchanged. -/
def transpose (m : Matrix) : Matrix :=
  { first := ⟨m.first.x, m.second.x, m.third.x⟩
    second := ⟨m.first.y, m.second.y, m.third.y⟩
    third := ⟨m.first.z, m.second.z, m.third.z⟩ }

/-- The inverse matrix, unless the determinant vanishes. -/
def inverse? (m : Matrix) : Option Matrix :=
  let det := m.determinant
  if det == 0 then
    none
  else
    some
      (transpose
        { first := m.second.cross m.third / det
          second := m.third.cross m.first / det
          third := m.first.cross m.second / det })

end Matrix

/-- An affine transformation of the plane with fixed-point coefficients. -/
@[ext]
structure Affine where
  xx : Int
  xy : Int
  yx : Int
  yy : Int
  dx : Int
  dy : Int
deriving Repr, DecidableEq, Inhabited

namespace Affine

/-- The transformation that moves nothing. -/
def identity : Affine := ⟨Fixed.one, 0, 0, Fixed.one, 0, 0⟩

/-- The transformation that adds `(dx, dy)`. -/
def shift (dx dy : Int) : Affine := ⟨Fixed.one, 0, 0, Fixed.one, dx, dy⟩

/-- The transformation that multiplies the coordinates by `sx` and `sy`. -/
def scale (sx sy : Int) : Affine := ⟨sx, 0, 0, sy, 0, 0⟩

/-- The rotation by an angle in radians. -/
def rotation (angle : Float) : Affine :=
  let sine := angle.sin
  let cosine := angle.cos
  ⟨Fixed.ofFloat cosine, Fixed.ofFloat (-sine), Fixed.ofFloat sine, Fixed.ofFloat cosine, 0, 0⟩

/-- Whether the transformation is the identity. -/
def isIdentity (t : Affine) : Bool :=
  t = identity

/-- Whether the linear part only scales the axes. -/
def isAxisAligned (t : Affine) : Bool :=
  t.xy = 0 && t.yx = 0

/-- The product of a row `(a, b)` with a column `(x, y)`, rounded down.  The sum
of products is a signed 64-bit integer. -/
def rowProduct (a b x y : Int) : Int :=
  Word.wrap64 (a * x + b * y) / Fixed.one

/-- The transformation that applies `inner` first and `outer` second. -/
def concat (outer inner : Affine) : Affine :=
  { xx := Word.clamp32 (rowProduct outer.xx outer.xy inner.xx inner.yx)
    xy := Word.clamp32 (rowProduct outer.xx outer.xy inner.xy inner.yy)
    yx := Word.clamp32 (rowProduct outer.yx outer.yy inner.xx inner.yx)
    yy := Word.clamp32 (rowProduct outer.yx outer.yy inner.xy inner.yy)
    dx := Word.clamp32 (rowProduct outer.xx outer.xy inner.dx inner.dy + outer.dx)
    dy := Word.clamp32 (rowProduct outer.yx outer.yy inner.dx inner.dy + outer.dy) }

/-- The image of a point. -/
def apply (t : Affine) (point : Point) : Point :=
  { x := Word.clamp32 (rowProduct t.xx t.xy point.x point.y + t.dx)
    y := Word.clamp32 (rowProduct t.yx t.yy point.x point.y + t.dy) }

/-- The image of a displacement, to which nothing is added. -/
def applyVector (t : Affine) (vector : Point) : Point :=
  { x := Word.clamp32 (rowProduct t.xx t.xy vector.x vector.y)
    y := Word.clamp32 (rowProduct t.yx t.yy vector.x vector.y) }

/-- The linear part in double precision. -/
def linear (t : Affine) : LinearMap :=
  { first := ⟨Fixed.toFloat t.xx, Fixed.toFloat t.yx⟩
    second := ⟨Fixed.toFloat t.xy, Fixed.toFloat t.yy⟩ }

/-- The factor by which areas grow. -/
def determinant (t : Affine) : Float :=
  Fixed.toFloat t.xx * Fixed.toFloat t.yy - Fixed.toFloat t.xy * Fixed.toFloat t.yx

/-- The homogeneous matrix. -/
def toMatrix (t : Affine) : Matrix :=
  { first := ⟨Fixed.toFloat t.xx, Fixed.toFloat t.yx, 0.0⟩
    second := ⟨Fixed.toFloat t.xy, Fixed.toFloat t.yy, 0.0⟩
    third := ⟨Fixed.toFloat t.dx, Fixed.toFloat t.dy, 1.0⟩ }

/-- The transformation nearest to the first two rows of a homogeneous matrix. -/
def ofMatrix (m : Matrix) : Affine :=
  { xx := Fixed.ofFloat m.first.x
    xy := Fixed.ofFloat m.second.x
    yx := Fixed.ofFloat m.first.y
    yy := Fixed.ofFloat m.second.y
    dx := Fixed.ofFloat m.third.x
    dy := Fixed.ofFloat m.third.y }

/-- Whether the first two rows of a matrix hold only finite numbers. -/
def isFiniteMatrix (m : Matrix) : Bool :=
  m.first.x.isFinite && m.second.x.isFinite && m.first.y.isFinite
    && m.second.y.isFinite && m.third.x.isFinite && m.third.y.isFinite

/-- The inverse, quantized; a singular transformation has none. -/
def inverse? (t : Affine) : Option Affine :=
  match t.toMatrix.inverse? with
  | none => none
  | some inverted => if isFiniteMatrix inverted then some (ofMatrix inverted) else none

/-- The image of a point is a pair of signed 32-bit integers. -/
theorem fits32_apply (t : Affine) (point : Point) : (t.apply point).Fits32 :=
  ⟨Word.fits32_clamp32 _, Word.fits32_clamp32 _⟩

end Affine

end Raster
