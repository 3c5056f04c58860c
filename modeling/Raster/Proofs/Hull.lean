import Raster.PixelBox

/-!
# Smallest boxes

A box around some pixels is tight if no smaller box holds all of them.  Tight boxes are put
together by `PixelBox.union`, and they do not change when pixels between others are left out.
-/

namespace Raster.PixelBox

/-- No corner of the box lies beyond that of the other one. -/
structure Within (box other : PixelBox) : Prop where
  left : other.left ≤ box.left
  top : other.top ≤ box.top
  right : box.right ≤ other.right
  bottom : box.bottom ≤ other.bottom

/-- There are pixels, the box holds all of them, and it lies within every box that does. -/
structure Hull (pixels : Int → Int → Prop) (box : PixelBox) : Prop where
  inhabited : ∃ x y, pixels x y
  contains : ∀ x y, pixels x y → box.contains x y = true
  within : ∀ other : PixelBox, (∀ x y, pixels x y → other.contains x y = true) →
    box.Within other

/-- The smallest box of some pixels; without pixels there is none. -/
def Hull? (pixels : Int → Int → Prop) : Option PixelBox → Prop
  | none => ∀ x y, ¬ pixels x y
  | some box => Hull pixels box

/-- A box that holds the corner pixels of another one holds all of it. -/
theorem within_of_contains {box other : PixelBox}
    (first : other.contains box.left box.top = true)
    (last : other.contains (box.right - 1) (box.bottom - 1) = true) : box.Within other := by
  rw [contains_iff] at first last
  constructor <;> omega

/-- A box that is not empty is the smallest one of its own pixels. -/
theorem hull_of_contains_iff {pixels : Int → Int → Prop} {box : PixelBox}
    (wide : box.left < box.right) (tall : box.top < box.bottom)
    (holds : ∀ x y, pixels x y ↔ box.contains x y = true) : Hull pixels box := by
  have first : pixels box.left box.top := by
    rw [holds, contains_iff]
    omega
  have last : pixels (box.right - 1) (box.bottom - 1) := by
    rw [holds, contains_iff]
    omega
  exact
    { inhabited := ⟨_, _, first⟩
      contains := fun x y => (holds x y).mp
      within := fun other around => within_of_contains (around _ _ first) (around _ _ last) }

/-- Pixels that lie in every box around the others may be left out. -/
theorem Hull.of_subset {pixels fewer : Int → Int → Prop} {box : PixelBox}
    (hull : Hull pixels box) (subset : ∀ x y, fewer x y → pixels x y)
    (between : ∀ other : PixelBox, (∀ x y, fewer x y → other.contains x y = true) →
      ∀ x y, pixels x y → other.contains x y = true)
    (inhabited : ∃ x y, fewer x y) : Hull fewer box where
  inhabited := inhabited
  contains x y member := hull.contains x y (subset x y member)
  within other around := hull.within other (between other around)

theorem Hull.isEmpty_eq_false {pixels : Int → Int → Prop} {box : PixelBox}
    (hull : Hull pixels box) : box.isEmpty = false := by
  obtain ⟨x, y, member⟩ := hull.inhabited
  rw [Bool.eq_false_iff]
  intro empty
  have contained := hull.contains x y member
  rw [contains_eq_false_of_isEmpty empty] at contained
  exact Bool.false_ne_true contained

/-- The union of smallest boxes is the smallest box of all their pixels. -/
theorem Hull.union {first second : Int → Int → Prop} {box other : PixelBox}
    (hull : Hull first box) (otherHull : Hull second other) :
    Hull (fun x y => first x y ∨ second x y) (box.union other) := by
  simp only [PixelBox.union, hull.isEmpty_eq_false, otherHull.isEmpty_eq_false,
    Bool.false_eq_true, if_false]
  refine ⟨?_, ?_, ?_⟩
  · obtain ⟨x, y, member⟩ := hull.inhabited
    exact ⟨x, y, .inl member⟩
  · intro x y member
    rw [contains_iff]
    rcases member with here | there
    · have contained := (contains_iff _ x y).mp (hull.contains x y here)
      simp only
      omega
    · have contained := (contains_iff _ x y).mp (otherHull.contains x y there)
      simp only
      omega
  · intro around holds
    obtain ⟨left, top, right, bottom⟩ := hull.within around fun x y member =>
      holds x y (.inl member)
    obtain ⟨left', top', right', bottom'⟩ := otherHull.within around fun x y member =>
      holds x y (.inr member)
    constructor <;> simp only <;> omega

end Raster.PixelBox
