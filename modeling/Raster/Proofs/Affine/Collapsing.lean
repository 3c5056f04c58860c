import Mathlib.Tactic.LinearCombination
import Raster.Proofs.Affine.Saturating
import Raster.Proofs.Path.Storing

/-!
# Collapsing chains of transformations

Two transformations in a row are replaced by their composition.  Mapping a point twice rounds the
point in between, which the outer coefficients scale; the composition rounds coefficients, which the
point scales.  As long as nothing saturates, the two results are therefore no farther apart than a
rounding unit of each coefficient and each coordinate, and two roundings of the results.  They are
the same if the outer transformation only moves points, since its coefficients are then whole.
-/

namespace Raster

namespace Affine

/-! ## Rows -/

section Row

variable {a b offset x y : Int}

/-- Rounding down takes away less than one unit. -/
theorem exists_rounding (a b offset x y : Int) :
    ∃ rest, 0 ≤ rest ∧ rest < Fixed.one ∧
      Fixed.one * rowImage a b offset x y = a * x + b * y + Fixed.one * offset - rest := by
  refine ⟨(a * x + b * y) % Fixed.one, Int.emod_nonneg _ (by decide),
    Int.emod_lt_of_pos _ (by decide), ?_⟩
  have parts := Int.mul_ediv_add_emod (a * x + b * y) Fixed.one
  unfold rowImage
  linear_combination parts

theorem rowImage_one_zero (offset x y : Int) : rowImage Fixed.one 0 offset x y = x + offset := by
  rw [rowImage, Int.zero_mul, Int.add_zero, Int.mul_ediv_cancel_left x (by decide)]

theorem rowImage_zero_one (offset x y : Int) : rowImage 0 Fixed.one offset x y = y + offset := by
  rw [rowImage, Int.zero_mul, Int.zero_add, Int.mul_ediv_cancel_left y (by decide)]

theorem rowImage_add (a b offset other x y : Int) :
    rowImage a b (offset + other) x y = rowImage a b offset x y + other :=
  (Int.add_assoc ..).symm

/-- An error below one unit is scaled by no more than the size of its factor. -/
theorem abs_mul_rounding_le {rest : Int} (nonneg : 0 ≤ rest) (small : rest < Fixed.one)
    (factor : Int) : |factor * rest| ≤ Fixed.one * |factor| := by
  rw [abs_mul, abs_of_nonneg nonneg, mul_comm]
  exact mul_le_mul_of_nonneg_right small.le (abs_nonneg factor)

/-- A row of a composition against the same row of the outer transformation, which gets the two
coordinates that the inner one makes. -/
theorem abs_composed_sub_nested_lt (a b offset a₀ b₀ offset₀ a₁ b₁ offset₁ x y : Int) :
    Fixed.one * |rowImage (rowImage a b 0 a₀ a₁) (rowImage a b 0 b₀ b₁)
          (rowImage a b offset offset₀ offset₁) x y -
        rowImage a b offset (rowImage a₀ b₀ offset₀ x y) (rowImage a₁ b₁ offset₁ x y)| <
      |a| + |b| + |x| + |y| + 2 * Fixed.one := by
  obtain ⟨e₀, e₀Nonneg, e₀Small, inner₀⟩ := exists_rounding a₀ b₀ offset₀ x y
  obtain ⟨e₁, e₁Nonneg, e₁Small, inner₁⟩ := exists_rounding a₁ b₁ offset₁ x y
  obtain ⟨d₀, d₀Nonneg, d₀Small, first⟩ := exists_rounding a b 0 a₀ a₁
  obtain ⟨d₁, d₁Nonneg, d₁Small, second⟩ := exists_rounding a b 0 b₀ b₁
  obtain ⟨d₂, d₂Nonneg, d₂Small, shifted⟩ := exists_rounding a b offset offset₀ offset₁
  generalize rowImage a₀ b₀ offset₀ x y = q₀ at *
  generalize rowImage a₁ b₁ offset₁ x y = q₁ at *
  generalize rowImage a b 0 a₀ a₁ = c₀ at *
  generalize rowImage a b 0 b₀ b₁ = c₁ at *
  generalize rowImage a b offset offset₀ offset₁ = c₂ at *
  obtain ⟨r, rNonneg, rSmall, nested⟩ := exists_rounding a b offset q₀ q₁
  obtain ⟨s, sNonneg, sSmall, composed⟩ := exists_rounding c₀ c₁ c₂ x y
  generalize rowImage a b offset q₀ q₁ = q at *
  generalize rowImage c₀ c₁ c₂ x y = c at *
  -- What the roundings of the coefficients and of the point in between change.
  have scaled : Fixed.one * (c₀ * x + c₁ * y - a * (q₀ - offset₀) - b * (q₁ - offset₁)) =
      a * e₀ + b * e₁ - x * d₀ - y * d₁ := by
    linear_combination x * first + y * second - a * inner₀ - b * inner₁
  have difference : Fixed.one * (c - q) =
      c₀ * x + c₁ * y - a * (q₀ - offset₀) - b * (q₁ - offset₁) - d₂ - s + r := by
    linear_combination composed - nested + shifted
  have ofA := abs_le.mp (abs_mul_rounding_le e₀Nonneg e₀Small a)
  have ofB := abs_le.mp (abs_mul_rounding_le e₁Nonneg e₁Small b)
  have ofX := abs_le.mp (abs_mul_rounding_le d₀Nonneg d₀Small x)
  have ofY := abs_le.mp (abs_mul_rounding_le d₁Nonneg d₁Small y)
  have size : Fixed.one * |c - q| = |Fixed.one * (c - q)| := by
    rw [abs_mul, abs_of_pos (show 0 < Fixed.one by decide)]
  rw [size, difference, abs_lt]
  unfold Fixed.one at *
  omega

/-- Products that saturation leaves alone are small enough not to wrap. -/
theorem clamp32_rowProduct (offsetFits : Word.Fits32 offset)
    (fits : Word.Fits32 (rowImage a b offset x y)) :
    Word.clamp32 (rowProduct a b x y + offset) = rowImage a b offset x y := by
  have sum : Word.wrap64 (a * x + b * y) = a * x + b * y := by
    apply Word.wrap64_eq_self
    unfold Word.Fits32 Word.min32 Word.max32 at *
    unfold Word.Fits64 Word.min64 Word.max64
    unfold rowImage Fixed.one at fits
    omega
  rw [rowProduct, sum]
  exact Word.clamp32_eq_self fits

end Row

/-! ## Points -/

/-- The image of a point, without bounds. -/
def image (t : Affine) (point : Point) : Point :=
  ⟨rowImage t.xx t.xy t.dx point.x point.y, rowImage t.yx t.yy t.dy point.x point.y⟩

/-- The image of a displacement, without bounds. -/
def imageVector (t : Affine) (vector : Point) : Point :=
  ⟨rowImage t.xx t.xy 0 vector.x vector.y, rowImage t.yx t.yy 0 vector.x vector.y⟩

/-- The linear part is the identity. -/
structure MovesOnly (t : Affine) : Prop where
  first : t.first = ⟨Fixed.one, 0⟩
  second : t.second = ⟨0, Fixed.one⟩

/-- No coordinate saturates when two transformations are composed and a point is mapped, by one
after the other or by the composition. -/
structure Unsaturated (outer inner : Affine) (point : Point) : Prop where
  between : (inner.image point).Fits32
  nested : (outer.image (inner.apply point)).Fits32
  first : (outer.imageVector inner.first).Fits32
  second : (outer.imageVector inner.second).Fits32
  offset : (outer.image inner.offset).Fits32
  composed : ((outer.concat inner).image point).Fits32

/-- How far the image of `source` under a composition may be from its image under `outer` after
another transformation, coordinate by coordinate. -/
structure Near (outer : Affine) (source composed nested : Point) : Prop where
  x : Fixed.one * |composed.x - nested.x| <
    |outer.xx| + |outer.xy| + |source.x| + |source.y| + 2 * Fixed.one
  y : Fixed.one * |composed.y - nested.y| <
    |outer.yx| + |outer.yy| + |source.x| + |source.y| + 2 * Fixed.one

section Points

variable {t outer inner : Affine} {point : Point}

theorem apply_eq_image (fits : t.Fits32) (unsaturated : (t.image point).Fits32) :
    t.apply point = t.image point :=
  Point.ext (clamp32_rowProduct fits.offset.1 unsaturated.1)
    (clamp32_rowProduct fits.offset.2 unsaturated.2)

theorem applyVector_eq_imageVector (unsaturated : (t.imageVector point).Fits32) :
    t.applyVector point = t.imageVector point := by
  have zero : Word.Fits32 0 := by decide
  have x := clamp32_rowProduct zero unsaturated.1
  have y := clamp32_rowProduct zero unsaturated.2
  rw [Int.add_zero] at x y
  exact Point.ext x y

theorem fits32_concat (outer inner : Affine) : (outer.concat inner).Fits32 :=
  ⟨⟨Word.fits32_clamp32 _, Word.fits32_clamp32 _⟩, ⟨Word.fits32_clamp32 _, Word.fits32_clamp32 _⟩,
    ⟨Word.fits32_clamp32 _, Word.fits32_clamp32 _⟩⟩

/-- Without saturation, a composition is the one on integers. -/
theorem Unsaturated.concat_eq (unsaturated : outer.Unsaturated inner point)
    (outerFits : outer.Fits32) :
    outer.concat inner =
      { xx := rowImage outer.xx outer.xy 0 inner.xx inner.yx
        xy := rowImage outer.xx outer.xy 0 inner.xy inner.yy
        yx := rowImage outer.yx outer.yy 0 inner.xx inner.yx
        yy := rowImage outer.yx outer.yy 0 inner.xy inner.yy
        dx := rowImage outer.xx outer.xy outer.dx inner.dx inner.dy
        dy := rowImage outer.yx outer.yy outer.dy inner.dx inner.dy } := by
  have first := (first_concat outer inner).trans (applyVector_eq_imageVector unsaturated.first)
  have second := (second_concat outer inner).trans (applyVector_eq_imageVector unsaturated.second)
  have offset := (offset_concat outer inner).trans (apply_eq_image outerFits unsaturated.offset)
  exact Affine.ext (congrArg Point.x first) (congrArg Point.x second) (congrArg Point.y first)
    (congrArg Point.y second) (congrArg Point.x offset) (congrArg Point.y offset)

theorem Unsaturated.near (unsaturated : outer.Unsaturated inner point) (outerFits : outer.Fits32)
    (innerFits : inner.Fits32) :
    outer.Near point ((outer.concat inner).apply point) (outer.apply (inner.apply point)) := by
  rw [apply_eq_image (fits32_concat outer inner) unsaturated.composed,
    apply_eq_image outerFits unsaturated.nested, apply_eq_image innerFits unsaturated.between,
    unsaturated.concat_eq outerFits]
  exact ⟨abs_composed_sub_nested_lt .., abs_composed_sub_nested_lt ..⟩

theorem Unsaturated.apply_concat (unsaturated : outer.Unsaturated inner point)
    (outerFits : outer.Fits32) (innerFits : inner.Fits32) (movesOnly : outer.MovesOnly) :
    (outer.concat inner).apply point = outer.apply (inner.apply point) := by
  obtain ⟨first, second⟩ := movesOnly
  have xx : outer.xx = Fixed.one := congrArg Point.x first
  have yx : outer.yx = 0 := congrArg Point.y first
  have xy : outer.xy = 0 := congrArg Point.x second
  have yy : outer.yy = Fixed.one := congrArg Point.y second
  rw [apply_eq_image (fits32_concat outer inner) unsaturated.composed,
    apply_eq_image outerFits unsaturated.nested, apply_eq_image innerFits unsaturated.between,
    unsaturated.concat_eq outerFits]
  simp only [image, xx, xy, yx, yy, rowImage_one_zero, rowImage_zero_one, Int.add_zero,
    rowImage_add]

end Points

end Affine

/-! ## Commands -/

namespace PathCommand

/-- Three commands of one kind, related point by point. -/
inductive Pointwise (related : Point → Point → Point → Prop) :
    PathCommand → PathCommand → PathCommand → Prop where
  | moveTo {p q r : Point} : related p q r → Pointwise related (moveTo p) (moveTo q) (moveTo r)
  | lineJoin : Pointwise related lineJoin lineJoin lineJoin
  | lineTo {p q r : Point} : related p q r → Pointwise related (lineTo p) (lineTo q) (lineTo r)
  | close : Pointwise related close close close
  | finish : Pointwise related finish finish finish
  | quadTo {p₁ p₂ q₁ q₂ r₁ r₂ : Point} : related p₁ q₁ r₁ → related p₂ q₂ r₂ →
      Pointwise related (quadTo p₁ p₂) (quadTo q₁ q₂) (quadTo r₁ r₂)
  | cubicTo {p₁ p₂ p₃ q₁ q₂ q₃ r₁ r₂ r₃ : Point} :
      related p₁ q₁ r₁ → related p₂ q₂ r₂ → related p₃ q₃ r₃ →
      Pointwise related (cubicTo p₁ p₂ p₃) (cubicTo q₁ q₂ q₃) (cubicTo r₁ r₂ r₃)

/-- Mapping the points of a command by two functions. -/
theorem pointwise_mapPoints {related : Point → Point → Point → Prop} {f g : Point → Point}
    {command : PathCommand} (each : ∀ point ∈ command.points, related point (f point) (g point)) :
    Pointwise related command (command.mapPoints f) (command.mapPoints g) := by
  cases command with
  | line command =>
      cases command with
      | moveTo point => exact .moveTo (each point (by simp [points]))
      | lineJoin => exact .lineJoin
      | lineTo point => exact .lineTo (each point (by simp [points]))
      | close => exact .close
      | finish => exact .finish
  | quadTo control point =>
      exact .quadTo (each control (by simp [points])) (each point (by simp [points]))
  | cubicTo control₁ control₂ point =>
      exact .cubicTo (each control₁ (by simp [points])) (each control₂ (by simp [points]))
        (each point (by simp [points]))

theorem Pointwise.eq {command first second : PathCommand}
    (same : Pointwise (fun _ q r => q = r) command first second) : first = second := by
  cases same with
  | moveTo here => rw [here]
  | lineJoin => rfl
  | lineTo here => rw [here]
  | close => rfl
  | finish => rfl
  | quadTo control point => rw [control, point]
  | cubicTo control₁ control₂ point => rw [control₁, control₂, point]

end PathCommand

namespace Affine

/-- A composition maps points, and commands, close to where its parts map them one after the other,
and to the same place if the outer part only moves. -/
theorem composed_near_nested {outer inner : Affine} (outerFits : outer.Fits32)
    (innerFits : inner.Fits32) :
    (∀ point, outer.Unsaturated inner point →
      outer.Near point ((outer.concat inner).apply point) (outer.apply (inner.apply point)) ∧
      (outer.MovesOnly → (outer.concat inner).apply point = outer.apply (inner.apply point))) ∧
    ∀ command : PathCommand, (∀ point ∈ command.points, outer.Unsaturated inner point) →
      command.Pointwise outer.Near (command.transform (outer.concat inner))
        ((command.transform inner).transform outer) ∧
      (outer.MovesOnly →
        command.transform (outer.concat inner) = (command.transform inner).transform outer) := by
  constructor
  · intro point unsaturated
    exact ⟨unsaturated.near outerFits innerFits, unsaturated.apply_concat outerFits innerFits⟩
  · intro command unsaturated
    have nested : (command.transform inner).transform outer =
        command.mapPoints (outer.apply ∘ inner.apply) := command.mapPoints_mapPoints ..
    rw [nested]
    constructor
    · exact PathCommand.pointwise_mapPoints fun point member =>
        (unsaturated point member).near outerFits innerFits
    · intro movesOnly
      exact PathCommand.Pointwise.eq (PathCommand.pointwise_mapPoints fun point member =>
        (unsaturated point member).apply_concat outerFits innerFits movesOnly)

/-- An eighth of a turn after a stretch, far from the origin: the second coordinates are 125 units
apart.  A shift after the same stretch leaves no difference. -/
theorem composed_near_nested_far :
    let turn : Affine := ⟨46341, -46341, 46341, 46341, 65536, 0⟩
    let stretch : Affine := ⟨98304, 1, -1, 32769, 5, 7⟩
    let bias : Affine := ⟨65536, 0, 0, 65536, 32768, -32768⟩
    let point : Point := ⟨6553600, 3276801⟩
    turn.Fits32 ∧ stretch.Fits32 ∧ bias.Fits32 ∧ bias.MovesOnly ∧
      turn.Unsaturated stretch point ∧ bias.Unsaturated stretch point ∧
      (turn.concat stretch).apply point = ⟨5858183, 8109558⟩ ∧
      turn.apply (stretch.apply point) = ⟨5858230, 8109683⟩ ∧
      turn.Near point ((turn.concat stretch).apply point) (turn.apply (stretch.apply point)) ∧
      (PathCommand.quadTo .origin point).transform (bias.concat stretch) =
        ((PathCommand.quadTo .origin point).transform stretch).transform bias := by
  intro turn stretch bias point
  have turnFits : turn.Fits32 := ⟨by decide, by decide, by decide⟩
  have stretchFits : stretch.Fits32 := ⟨by decide, by decide, by decide⟩
  have biasFits : bias.Fits32 := ⟨by decide, by decide, by decide⟩
  have movesOnly : bias.MovesOnly := ⟨rfl, rfl⟩
  have turned : turn.Unsaturated stretch point :=
    ⟨by decide, by decide, by decide, by decide, by decide, by decide⟩
  have biased : ∀ member ∈ (PathCommand.quadTo .origin point).points,
      bias.Unsaturated stretch member := by
    simp only [PathCommand.points, List.forall_mem_cons, List.not_mem_nil, false_implies,
      implies_true, and_true]
    exact ⟨⟨by decide, by decide, by decide, by decide, by decide, by decide⟩,
      ⟨by decide, by decide, by decide, by decide, by decide, by decide⟩⟩
  exact ⟨turnFits, stretchFits, biasFits, movesOnly, turned,
    biased point (by simp [PathCommand.points]), by decide, by decide,
    ((composed_near_nested turnFits stretchFits).1 point turned).1,
    ((composed_near_nested biasFits stretchFits).2 _ biased).2 movesOnly⟩

end Affine

end Raster
