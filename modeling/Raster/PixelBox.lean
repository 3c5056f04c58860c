import Raster.Plane

/-!
# Boxes of whole pixels

A box holds the pixels from `left`, `top` up to but excluding `right`, `bottom`.
Empty boxes may have any corners; `union` ignores them and `intersection?`
answers `none` instead of one.
-/

namespace Raster

/-- An axis-aligned rectangle of whole pixels. -/
@[ext]
structure PixelBox where
  left : Int
  top : Int
  right : Int
  bottom : Int
deriving Repr, DecidableEq, Inhabited

namespace PixelBox

/-- The box at the origin that holds no pixel. -/
def zero : PixelBox := ⟨0, 0, 0, 0⟩

/-- The box with a given corner and size; the far corner saturates. -/
def ofSize (x y width height : Int) : PixelBox :=
  ⟨x, y, Word.clamp32 (x + width), Word.clamp32 (y + height)⟩

/-- The extent along x, saturated. -/
def width (box : PixelBox) : Int :=
  Word.clamp32 (box.right - box.left)

/-- The extent along y, saturated. -/
def height (box : PixelBox) : Int :=
  Word.clamp32 (box.bottom - box.top)

/-- Whether the box holds no pixel. -/
def isEmpty (box : PixelBox) : Bool :=
  box.right ≤ box.left || box.bottom ≤ box.top

/-- Whether the box holds the pixel `(x, y)`. -/
def contains (box : PixelBox) (x y : Int) : Bool :=
  box.left ≤ x && box.top ≤ y && x < box.right && y < box.bottom

/-- The pixels that both boxes hold, if there are any. -/
def intersection? (box other : PixelBox) : Option PixelBox :=
  let common : PixelBox :=
    { left := max box.left other.left
      top := max box.top other.top
      right := min box.right other.right
      bottom := min box.bottom other.bottom }
  if common.isEmpty then none else some common

/-- The smallest box that holds the pixels of both boxes. -/
def union (box other : PixelBox) : PixelBox :=
  if box.isEmpty then
    other
  else if other.isEmpty then
    box
  else
    { left := min box.left other.left
      top := min box.top other.top
      right := max box.right other.right
      bottom := max box.bottom other.bottom }

theorem contains_iff (box : PixelBox) (x y : Int) :
    box.contains x y = true ↔
      (box.left ≤ x ∧ x < box.right) ∧ box.top ≤ y ∧ y < box.bottom := by
  simp only [contains, Bool.and_eq_true, decide_eq_true_eq]
  omega

/-- An empty box holds no pixel. -/
theorem contains_eq_false_of_isEmpty {box : PixelBox} (empty : box.isEmpty = true)
    (x y : Int) : box.contains x y = false := by
  rw [Bool.eq_false_iff, Ne, contains_iff]
  simp only [isEmpty, Bool.or_eq_true, decide_eq_true_eq] at empty
  omega

/-- A pixel of the intersection is a pixel of both boxes. -/
theorem contains_of_intersection? {box other common : PixelBox}
    (meet : box.intersection? other = some common) (x y : Int) :
    common.contains x y = (box.contains x y && other.contains x y) := by
  simp only [intersection?] at meet
  split at meet
  · exact absurd meet (by simp)
  · have equal := Option.some.inj meet
    subst equal
    rw [Bool.eq_iff_iff]
    simp only [Bool.and_eq_true, contains_iff]
    omega

end PixelBox

end Raster
