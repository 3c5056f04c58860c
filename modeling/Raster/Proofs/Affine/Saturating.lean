import Mathlib.Algebra.Order.Ring.Abs
import Raster.Affine
import Raster.Proofs.Word

/-!
# Saturation of images

A coordinate of an image is a row of coefficients times a column, rounded down, plus the offset of
the row, and it saturates.  The columns of a composition are images of columns, so that they are
rows times columns too.  All of it is computed in 64-bit words.  They hold every product of two
coordinates, and every sum of two products but one: with the least coordinate in all four places the
sum is one too great.  It wraps, and the coordinate ends up at the wrong end of its range.
-/

namespace Raster

namespace Affine

/-! ## Columns -/

/-- The image of the first unit vector. -/
def first (t : Affine) : Point := ⟨t.xx, t.yx⟩

/-- The image of the second unit vector. -/
def second (t : Affine) : Point := ⟨t.xy, t.yy⟩

/-- The image of the origin. -/
def offset (t : Affine) : Point := ⟨t.dx, t.dy⟩

/-- All coefficients are signed 32-bit integers. -/
structure Fits32 (t : Affine) : Prop where
  first : t.first.Fits32
  second : t.second.Fits32
  offset : t.offset.Fits32

/-- The columns of a composition are the images of the inner columns. -/
theorem first_concat (outer inner : Affine) :
    (outer.concat inner).first = outer.applyVector inner.first :=
  rfl

theorem second_concat (outer inner : Affine) :
    (outer.concat inner).second = outer.applyVector inner.second :=
  rfl

theorem offset_concat (outer inner : Affine) :
    (outer.concat inner).offset = outer.apply inner.offset :=
  rfl

/-! ## Rows -/

/-- A row of coefficients times a column, rounded down, plus the offset of the row. -/
def rowImage (a b offset x y : Int) : Int :=
  (a * x + b * y) / Fixed.one + offset

/-- The same in 64-bit words. -/
def rowImage? (a b offset x y : Int) : Option Int := do
  let first ← Word.word64? (a * x)
  let second ← Word.word64? (b * y)
  let sum ← Word.word64? (first + second)
  Word.word64? (sum / Fixed.one + offset)

/-- All factors of a row and a column are the least coordinate. -/
def AllLeast (a b x y : Int) : Prop :=
  a = Word.min32 ∧ b = Word.min32 ∧ x = Word.min32 ∧ y = Word.min32

instance (a b x y : Int) : Decidable (AllLeast a b x y) :=
  inferInstanceAs (Decidable (_ ∧ _))

/-- `value` is the saturated coordinate that a row and a column have, and all operations on the
way to it have results, unless all factors are the least coordinate.  Then the sum of products does
not fit, and `value` is the least coordinate in place of the greatest. -/
structure Saturates (a b offset x y value : Int) : Prop where
  exact : ¬ AllLeast a b x y →
    value = Word.clamp32 (rowImage a b offset x y) ∧
      rowImage? a b offset x y = some (rowImage a b offset x y)
  wrapped : AllLeast a b x y →
    value = Word.min32 ∧ Word.clamp32 (rowImage a b offset x y) = Word.max32 ∧
      rowImage? a b offset x y = none

section Row

variable {a b offset x y : Int}

theorem abs_le_of_fits32 (fits : Word.Fits32 a) : |a| ≤ 2147483648 := by
  unfold Word.Fits32 Word.min32 Word.max32 at fits
  exact abs_le.mpr (by omega)

theorem abs_mul_le_of_fits32 (aFits : Word.Fits32 a) (xFits : Word.Fits32 x) :
    |a * x| ≤ 4611686018427387904 := by
  rw [abs_mul]
  exact mul_le_mul (abs_le_of_fits32 aFits) (abs_le_of_fits32 xFits) (abs_nonneg x) (by decide)

/-- Only the least coordinate times itself is as great as products may be; none is as small. -/
theorem abs_mul_lt_of_ne (aFits : Word.Fits32 a) (xFits : Word.Fits32 x)
    (other : ¬ (a = Word.min32 ∧ x = Word.min32)) : |a * x| < 4611686018427387904 := by
  have aLe := abs_le_of_fits32 aFits
  have xLe := abs_le_of_fits32 xFits
  have shorter {value : Int} (fits : Word.Fits32 value) (ne : value ≠ Word.min32) :
      |value| ≤ 2147483647 := by
    unfold Word.Fits32 Word.min32 Word.max32 at *
    exact abs_le.mpr (by omega)
  rw [abs_mul]
  by_cases aLeast : a = Word.min32
  · have xShorter := shorter xFits fun xLeast => other ⟨aLeast, xLeast⟩
    exact lt_of_le_of_lt (mul_le_mul aLe xShorter (abs_nonneg x) (by decide)) (by decide)
  · exact lt_of_le_of_lt (mul_le_mul (shorter aFits aLeast) xLe (abs_nonneg x) (by decide))
      (by decide)

/-- A sum of two products fits 64 bits, unless both are the greatest product. -/
theorem fits64_sum (aFits : Word.Fits32 a) (bFits : Word.Fits32 b) (xFits : Word.Fits32 x)
    (yFits : Word.Fits32 y) (other : ¬ AllLeast a b x y) : Word.Fits64 (a * x + b * y) := by
  have first := abs_le.mp (abs_mul_le_of_fits32 aFits xFits)
  have second := abs_le.mp (abs_mul_le_of_fits32 bFits yFits)
  unfold Word.Fits64 Word.min64 Word.max64
  by_cases firstLeast : a = Word.min32 ∧ x = Word.min32
  · have shorter := abs_lt.mp (abs_mul_lt_of_ne bFits yFits fun secondLeast =>
      other ⟨firstLeast.1, secondLeast.1, firstLeast.2, secondLeast.2⟩)
    omega
  · have shorter := abs_lt.mp (abs_mul_lt_of_ne aFits xFits firstLeast)
    omega

theorem rowImage?_eq (aFits : Word.Fits32 a) (bFits : Word.Fits32 b)
    (offsetFits : Word.Fits32 offset) (xFits : Word.Fits32 x) (yFits : Word.Fits32 y) :
    rowImage? a b offset x y =
      if AllLeast a b x y then none else some (rowImage a b offset x y) := by
  have fits64 {value : Int} (bound : |value| ≤ 4611686018427387904) : Word.Fits64 value := by
    rw [abs_le] at bound
    unfold Word.Fits64 Word.min64 Word.max64
    omega
  have first := abs_mul_le_of_fits32 aFits xFits
  have second := abs_mul_le_of_fits32 bFits yFits
  apply bind_eq_of_eq_some (Word.word64?_eq_some (fits64 first))
  apply bind_eq_of_eq_some (Word.word64?_eq_some (fits64 second))
  split
  · rename_i least
    obtain ⟨rfl, rfl, rfl, rfl⟩ := least
    rfl
  · rename_i other
    apply bind_eq_of_eq_some (Word.word64?_eq_some (fits64_sum aFits bFits xFits yFits other))
    apply Word.word64?_eq_some
    rw [abs_le] at first second
    unfold Word.Fits32 Word.min32 Word.max32 at offsetFits
    unfold Word.Fits64 Word.min64 Word.max64 Fixed.one
    omega

/-- A coordinate that is computed in 64 bits and then saturates. -/
theorem saturates_rowProduct (aFits : Word.Fits32 a) (bFits : Word.Fits32 b)
    (offsetFits : Word.Fits32 offset) (xFits : Word.Fits32 x) (yFits : Word.Fits32 y) :
    Saturates a b offset x y (Word.clamp32 (rowProduct a b x y + offset)) := by
  have inWords := rowImage?_eq aFits bFits offsetFits xFits yFits
  constructor
  · intro other
    rw [if_neg other] at inWords
    rw [rowProduct, Word.wrap64_eq_self (fits64_sum aFits bFits xFits yFits other)]
    exact ⟨rfl, inWords⟩
  · intro least
    rw [if_pos least] at inWords
    obtain ⟨rfl, rfl, rfl, rfl⟩ := least
    have sum : rowProduct Word.min32 Word.min32 Word.min32 Word.min32 = -140737488355328 := by
      decide
    have exact : rowImage Word.min32 Word.min32 offset Word.min32 Word.min32 =
        140737488355328 + offset := rfl
    rw [sum, exact]
    unfold Word.Fits32 Word.min32 Word.max32 at offsetFits
    refine ⟨?_, ?_, inWords⟩
    · rw [Word.clamp32, if_neg (by unfold Word.max32; omega),
        if_pos (by unfold Word.min32; omega)]
    · rw [Word.clamp32, if_pos (by unfold Word.max32; omega)]

end Row

/-! ## Images -/

/-- The coordinates of `value` are those of the image of a point. -/
structure MapsPoint (t : Affine) (point value : Point) : Prop where
  x : Saturates t.xx t.xy t.dx point.x point.y value.x
  y : Saturates t.yx t.yy t.dy point.x point.y value.y

/-- The coordinates of `value` are those of the image of a displacement. -/
structure MapsVector (t : Affine) (vector value : Point) : Prop where
  x : Saturates t.xx t.xy 0 vector.x vector.y value.x
  y : Saturates t.yx t.yy 0 vector.x vector.y value.y

section Images

variable {t inner : Affine} {point : Point}

theorem mapsPoint_apply (fits : t.Fits32) (pointFits : point.Fits32) :
    t.MapsPoint point (t.apply point) := by
  constructor
  · exact saturates_rowProduct fits.first.1 fits.second.1 fits.offset.1 pointFits.1 pointFits.2
  · exact saturates_rowProduct fits.first.2 fits.second.2 fits.offset.2 pointFits.1 pointFits.2

theorem mapsVector_applyVector (fits : t.Fits32) (pointFits : point.Fits32) :
    t.MapsVector point (t.applyVector point) := by
  have zero : Word.Fits32 0 := by decide
  constructor
  · have saturates := saturates_rowProduct fits.first.1 fits.second.1 zero pointFits.1 pointFits.2
    rwa [Int.add_zero] at saturates
  · have saturates := saturates_rowProduct fits.first.2 fits.second.2 zero pointFits.1 pointFits.2
    rwa [Int.add_zero] at saturates

/-- Images of points and displacements, and all coefficients of compositions, saturate, and nothing
overflows on the way to them, except in a row and a column of least coordinates. -/
theorem saturates_unless_all_least (fits : t.Fits32) (innerFits : inner.Fits32)
    (pointFits : point.Fits32) :
    t.MapsPoint point (t.apply point) ∧ t.MapsVector point (t.applyVector point) ∧
      t.MapsVector inner.first (t.concat inner).first ∧
      t.MapsVector inner.second (t.concat inner).second ∧
      t.MapsPoint inner.offset (t.concat inner).offset := by
  rw [first_concat, second_concat, offset_concat]
  exact ⟨mapsPoint_apply fits pointFits, mapsVector_applyVector fits pointFits,
    mapsVector_applyVector fits innerFits.first, mapsVector_applyVector fits innerFits.second,
    mapsPoint_apply fits innerFits.offset⟩

/-- Three of four least coordinates are no exception: the sum of products fits, and the image
saturates at the end of the range that it is beyond. -/
theorem saturates_unless_all_least_extremes :
    let t : Affine := ⟨Word.min32, Word.min32, Word.max32, Word.max32, Word.max32, 0⟩
    let point : Point := ⟨Word.min32, -1⟩
    t.Fits32 ∧ point.Fits32 ∧ t.apply point = ⟨Word.max32, Word.min32⟩ ∧
      rowImage? t.xx t.xy t.dx point.x point.y = some 70370891694079 := by
  intro t point
  have fits : t.Fits32 := ⟨by decide, by decide, by decide⟩
  have pointFits : point.Fits32 := by decide
  have mapsPoint := (saturates_unless_all_least fits fits pointFits).1
  have x := mapsPoint.x.exact (by decide)
  have y := mapsPoint.y.exact (by decide)
  exact ⟨fits, pointFits, Point.ext (x.1.trans (by decide)) (y.1.trans (by decide)),
    x.2.trans (by decide)⟩

/-- With the least coordinate in all four places, the sum of products is beyond the upper end of 64
bits, and the image is at the lower end of 32 bits. -/
theorem apply_wraps_of_all_least :
    (⟨Word.min32, Word.min32, 0, 0, 0, 0⟩ : Affine).apply ⟨Word.min32, Word.min32⟩ =
        ⟨Word.min32, 0⟩ ∧
      Word.clamp32 (rowImage Word.min32 Word.min32 0 Word.min32 Word.min32) = Word.max32 ∧
      ¬ Word.Fits64 (Word.min32 * Word.min32 + Word.min32 * Word.min32) := by
  decide

end Images

end Affine

end Raster
