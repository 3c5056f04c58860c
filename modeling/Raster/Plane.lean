import Raster.Fixed

/-!
# Points, vectors and linear maps of the plane

`Point` has fixed-point coordinates and is what paths are made of.  `Vec` has
double-precision coordinates; outlines, pens and gradients are computed with it
and quantized once.  `LinearMap` is a two-by-two matrix of doubles.
-/

namespace Raster

/-- A point with fixed-point coordinates. -/
@[ext]
structure Point where
  x : Int
  y : Int
deriving Repr, DecidableEq, Inhabited

namespace Point

/-- The origin. -/
def origin : Point := ⟨0, 0⟩

/-- Both coordinates are signed 32-bit integers. -/
def Fits32 (point : Point) : Prop :=
  Word.Fits32 point.x ∧ Word.Fits32 point.y

instance (point : Point) : Decidable point.Fits32 :=
  inferInstanceAs (Decidable (_ ∧ _))

/-- The point with the given whole-number coordinates. -/
def ofInts (x y : Int) : Point :=
  ⟨Fixed.ofInt x, Fixed.ofInt y⟩

/-- The point nearest to single-precision coordinates. -/
def ofFloat32s (x y : Float32) : Point :=
  ⟨Fixed.ofFloat32 x, Fixed.ofFloat32 y⟩

end Point

/-- A point or displacement with double-precision coordinates. -/
@[ext]
structure Vec where
  x : Float
  y : Float
deriving Repr, DecidableEq, Inhabited

namespace Vec

instance : Add Vec := ⟨fun a b => ⟨a.x + b.x, a.y + b.y⟩⟩
instance : Sub Vec := ⟨fun a b => ⟨a.x - b.x, a.y - b.y⟩⟩
instance : Neg Vec := ⟨fun a => ⟨-a.x, -a.y⟩⟩
instance : HMul Vec Float Vec := ⟨fun a factor => ⟨a.x * factor, a.y * factor⟩⟩
instance : HDiv Vec Float Vec := ⟨fun a divisor => ⟨a.x / divisor, a.y / divisor⟩⟩

/-- The scalar product. -/
def dot (a b : Vec) : Float :=
  a.x * b.x + a.y * b.y

/-- The signed area of the parallelogram spanned by `a` and `b`. -/
def cross (a b : Vec) : Float :=
  a.x * b.y - a.y * b.x

/-- The squared length. -/
def normSq (a : Vec) : Float :=
  a.dot a

/-- The length. -/
def norm (a : Vec) : Float :=
  a.normSq.sqrt

/-- The value of a point. -/
def ofPoint (point : Point) : Vec :=
  ⟨Fixed.toFloat point.x, Fixed.toFloat point.y⟩

/-- The point nearest to a vector. -/
def toPoint (a : Vec) : Point :=
  ⟨Fixed.ofFloat a.x, Fixed.ofFloat a.y⟩

end Vec

/-- A linear map of the plane, given by the images of the two unit vectors. -/
structure LinearMap where
  first : Vec
  second : Vec
deriving Repr, DecidableEq

namespace LinearMap

/-- The image of a vector. -/
def apply (map : LinearMap) (v : Vec) : Vec :=
  ⟨map.first.x * v.x + map.second.x * v.y, map.first.y * v.x + map.second.y * v.y⟩

/-- The signed factor by which areas grow. -/
def determinant (map : LinearMap) : Float :=
  map.first.x * map.second.y - map.second.x * map.first.y

/-- The inverse map, unless the determinant vanishes. -/
def inverse? (map : LinearMap) : Option LinearMap :=
  let det := map.determinant
  if det == 0 then
    none
  else
    some
      { first := ⟨map.second.y / det, -map.first.y / det⟩
        second := ⟨-map.second.x / det, map.first.x / det⟩ }

end LinearMap

end Raster
