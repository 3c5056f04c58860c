import Raster.Plane

/-!
# Recognizing rectangles

While a path is received, a probe keeps its vertices as long as the path may still
be an axis-aligned rectangle, which can be filled without scanning.
-/

namespace Raster

/-- A rectangle with fixed-point coordinates. -/
structure Rect where
  left : Int
  top : Int
  right : Int
  bottom : Int
deriving Repr, DecidableEq

/-- The vertices of a path so far; there are none once it cannot be a rectangle. -/
structure RectProbe where
  vertices : Option (List Point)
deriving Repr, DecidableEq

namespace RectProbe

/-- The probe of a path without vertices. -/
def fresh : RectProbe := ⟨some []⟩

/-- The probe of a path that is no rectangle. -/
def failed : RectProbe := ⟨none⟩

/-- More vertices than this make no rectangle. -/
def maxVertices : Nat := 5

/-- Whether the path may be a rectangle and has no vertices yet. -/
def isFresh (probe : RectProbe) : Bool :=
  probe = fresh

/-- The probe after one more vertex. -/
def push (probe : RectProbe) (vertex : Point) : RectProbe :=
  match probe.vertices with
  | none => failed
  | some vertices =>
      if vertices.length < maxVertices then ⟨some (vertices ++ [vertex])⟩ else failed

/-- The rectangle with the given corners, if its sides are alternately horizontal
and vertical. -/
def rectOf? (a b c d : Point) : Option Rect :=
  let horizontalFirst := a.y = b.y ∧ b.x = c.x ∧ c.y = d.y ∧ d.x = a.x
  let verticalFirst := a.y ≠ b.y ∧ a.x = b.x ∧ b.y = c.y ∧ c.x = d.x ∧ d.y = a.y
  if horizontalFirst ∨ verticalFirst then
    some ⟨min a.x c.x, min a.y c.y, max a.x c.x, max a.y c.y⟩
  else
    none

/-- The path as a rectangle, if it is one: four corners, after which the first may
be repeated. -/
def rect? (probe : RectProbe) : Option Rect :=
  match probe.vertices with
  | some [a, b, c, d] => rectOf? a b c d
  | some [a, b, c, d, e] => if e = a then rectOf? a b c d else none
  | _ => none

end RectProbe

end Raster
