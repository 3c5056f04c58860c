import Mathlib.Analysis.Complex.Basic
import Raster.Proofs.Path.Shrinking

/-!
# Pieces follow their curve

The points of the exact curve with some control points are found by blending the control points
again and again.  Without rounding, both halves of a curve would be parts of it.  Rounding a half
moves its control points, and so every point of it, by less than five quarters of a unit: after
some halvings a piece still runs along a part of the curve, at a distance of as many times as much.
-/

namespace Raster

/-- A point of the plane. -/
def Point.toComplex (point : Point) : ℂ :=
  ⟨point.x, point.y⟩

namespace Curve

/-! ## Exact curves -/

/-- The point that is a share `t` of the way from one point to another. -/
noncomputable def blend (t : ℝ) (a b : ℂ) : ℂ :=
  (1 - t) * a + t * b

/-- The point at `t` of the quadratic curve with some control points. -/
noncomputable def quadAt (a b c : ℂ) (t : ℝ) : ℂ :=
  blend t (blend t a b) (blend t b c)

/-- The point at `t` of the cubic curve with some control points. -/
noncomputable def cubicAt (a b c d : ℂ) (t : ℝ) : ℂ :=
  blend t (quadAt a b c t) (quadAt b c d t)

noncomputable def Quad.pointAt (quad : Quad) : ℝ → ℂ :=
  quadAt quad.start.toComplex quad.control.toComplex quad.stop.toComplex

noncomputable def Cubic.pointAt (cubic : Cubic) : ℝ → ℂ :=
  cubicAt cubic.start.toComplex cubic.control₁.toComplex cubic.control₂.toComplex
    cubic.stop.toComplex

@[simp]
theorem re_blend (t : ℝ) (a b : ℂ) : (blend t a b).re = (1 - t) * a.re + t * b.re := by
  simp [blend]

@[simp]
theorem im_blend (t : ℝ) (a b : ℂ) : (blend t a b).im = (1 - t) * a.im + t * b.im := by
  simp [blend]

variable {reach t : ℝ} {a b c d a' b' c' d' : ℂ}

theorem norm_sub_self_le (nonneg : 0 ≤ reach) (z : ℂ) : ‖z - z‖ ≤ reach := by
  rw [sub_self, norm_zero]
  exact nonneg

/-- Moving two points moves the points between them by no more. -/
theorem norm_blend_sub_le (unit : t ∈ Set.Icc (0 : ℝ) 1) (first : ‖a - a'‖ ≤ reach)
    (second : ‖b - b'‖ ≤ reach) : ‖blend t a b - blend t a' b'‖ ≤ reach := by
  obtain ⟨nonneg, atMostOne⟩ := unit
  have moved : blend t a b - blend t a' b' =
      ((1 - t : ℝ) : ℂ) * (a - a') + (t : ℂ) * (b - b') := by
    rw [blend, blend]
    push_cast
    ring
  calc ‖blend t a b - blend t a' b'‖
      ≤ ‖((1 - t : ℝ) : ℂ) * (a - a')‖ + ‖(t : ℂ) * (b - b')‖ := by
        rw [moved]
        exact norm_add_le _ _
    _ = (1 - t) * ‖a - a'‖ + t * ‖b - b'‖ := by
        rw [norm_mul, norm_mul, Complex.norm_of_nonneg (sub_nonneg.mpr atMostOne),
          Complex.norm_of_nonneg nonneg]
    _ ≤ (1 - t) * reach + t * reach :=
        add_le_add (mul_le_mul_of_nonneg_left first (sub_nonneg.mpr atMostOne))
          (mul_le_mul_of_nonneg_left second nonneg)
    _ = reach := by ring

/-- Points that are not farther away from some points are not farther away from the middle of two
of them. -/
theorem norm_sub_blend_half_le {z : ℂ} {r s : ℝ} (first : ‖z - a‖ ≤ r) (second : ‖z - b‖ ≤ s) :
    ‖z - blend (1 / 2) a b‖ ≤ (r + s) / 2 := by
  have mean : z - blend (1 / 2) a b = (1 / 2 : ℝ) * ((z - a) + (z - b)) := by
    unfold blend
    push_cast
    ring
  rw [mean, norm_mul, Complex.norm_of_nonneg (by norm_num)]
  linarith [norm_add_le (z - a) (z - b)]

theorem norm_quadAt_sub_le (unit : t ∈ Set.Icc (0 : ℝ) 1) (first : ‖a - a'‖ ≤ reach)
    (second : ‖b - b'‖ ≤ reach) (third : ‖c - c'‖ ≤ reach) :
    ‖quadAt a b c t - quadAt a' b' c' t‖ ≤ reach :=
  norm_blend_sub_le unit (norm_blend_sub_le unit first second)
    (norm_blend_sub_le unit second third)

theorem norm_cubicAt_sub_le (unit : t ∈ Set.Icc (0 : ℝ) 1) (first : ‖a - a'‖ ≤ reach)
    (second : ‖b - b'‖ ≤ reach) (third : ‖c - c'‖ ≤ reach) (fourth : ‖d - d'‖ ≤ reach) :
    ‖cubicAt a b c d t - cubicAt a' b' c' d' t‖ ≤ reach :=
  norm_blend_sub_le unit (norm_quadAt_sub_le unit first second third)
    (norm_quadAt_sub_le unit second third fourth)

/-! ## Rounding -/

/-- Rounding down moves a quotient by less than a unit: a small divisor leaves a remainder that is
smaller still. -/
theorem abs_cast_ediv_sub_le (numerator : Int) {divisor : Int} (positive : 0 < divisor)
    (small : divisor ≤ 8) :
    |((numerator / divisor : Int) : ℝ) - (numerator : ℝ) / divisor| ≤ 7 / 8 := by
  have divisorPositive : (0 : ℝ) < divisor := Int.cast_pos.mpr positive
  have remainder : 8 * (numerator % divisor) ≤ 7 * divisor := by
    have below := Int.emod_lt_of_pos numerator positive
    omega
  have remainderNonneg : (0 : ℝ) ≤ (numerator % divisor : Int) :=
    Int.cast_nonneg (Int.emod_nonneg numerator positive.ne')
  have remainderSmall : 8 * ((numerator % divisor : Int) : ℝ) ≤ 7 * divisor := by
    exact_mod_cast remainder
  have division : (numerator : ℝ) =
      divisor * (numerator / divisor : Int) + (numerator % divisor : Int) := by
    exact_mod_cast (Int.mul_ediv_add_emod numerator divisor).symm
  have lost : ((numerator / divisor : Int) : ℝ) - (numerator : ℝ) / divisor =
      -(((numerator % divisor : Int) : ℝ) / divisor) := by
    field_simp
    linarith
  rw [lost, abs_neg, abs_of_nonneg (div_nonneg remainderNonneg divisorPositive.le),
    div_le_iff₀ divisorPositive]
  linarith

/-- How far rounding moves a point at most. -/
noncomputable def roundoff : ℝ := 5 / 4

theorem norm_le_roundoff {z : ℂ} (re : |z.re| ≤ 7 / 8) (im : |z.im| ≤ 7 / 8) : ‖z‖ ≤ roundoff := by
  have squares : ‖z‖ ^ 2 ≤ roundoff ^ 2 := by
    rw [Complex.sq_norm, Complex.normSq_apply, roundoff, ← abs_mul_abs_self z.re,
      ← abs_mul_abs_self z.im]
    have reSquare := mul_self_le_mul_self (abs_nonneg z.re) re
    have imSquare := mul_self_le_mul_self (abs_nonneg z.im) im
    linarith
  exact (sq_le_sq₀ (norm_nonneg z) (by unfold roundoff; norm_num)).mp squares

/-- Rounding down a mean of points moves it by no more than that. -/
theorem norm_toComplex_sub_le (sum : Point) {divisor : Int} (positive : 0 < divisor)
    (small : divisor ≤ 8) {exact : ℂ} (re : exact.re = (sum.x : ℝ) / divisor)
    (im : exact.im = (sum.y : ℝ) / divisor) :
    ‖Point.toComplex ⟨sum.x / divisor, sum.y / divisor⟩ - exact‖ ≤ roundoff := by
  apply norm_le_roundoff
  · rw [Complex.sub_re, re]
    exact abs_cast_ediv_sub_le sum.x positive small
  · rw [Complex.sub_im, im]
    exact abs_cast_ediv_sub_le sum.y positive small

theorem norm_middle₂_sub_le (p q : Point) :
    ‖(middle₂ p q).toComplex - blend (1 / 2) p.toComplex q.toComplex‖ ≤ roundoff := by
  refine norm_toComplex_sub_le ⟨p.x + q.x, p.y + q.y⟩ (by decide) (by decide) ?_ ?_
  all_goals
    simp only [re_blend, im_blend, Point.toComplex]
    push_cast
    ring

theorem norm_middle₃_sub_le (p q r : Point) :
    ‖(middle₃ p q r).toComplex - quadAt p.toComplex q.toComplex r.toComplex (1 / 2)‖ ≤
      roundoff := by
  refine norm_toComplex_sub_le ⟨p.x + 2 * q.x + r.x, p.y + 2 * q.y + r.y⟩ (by decide) (by decide)
    ?_ ?_
  all_goals
    simp only [quadAt, re_blend, im_blend, Point.toComplex]
    push_cast
    ring

theorem norm_middle₄_sub_le (p q r s : Point) :
    ‖(middle₄ p q r s).toComplex -
      cubicAt p.toComplex q.toComplex r.toComplex s.toComplex (1 / 2)‖ ≤ roundoff := by
  refine norm_toComplex_sub_le
    ⟨p.x + 3 * q.x + 3 * r.x + s.x, p.y + 3 * q.y + 3 * r.y + s.y⟩ (by decide) (by decide) ?_ ?_
  all_goals
    simp only [cubicAt, quadAt, re_blend, im_blend, Point.toComplex]
    push_cast
    ring

/-! ## Parts of curves -/

/-- Between two points of a unit there are only points of it. -/
theorem share_mem_unit {t lower upper : ℝ} (unit : t ∈ Set.Icc (0 : ℝ) 1)
    (lowerUnit : lower ∈ Set.Icc (0 : ℝ) 1) (upperUnit : upper ∈ Set.Icc (0 : ℝ) 1) :
    (1 - t) * lower + t * upper ∈ Set.Icc (0 : ℝ) 1 := by
  have rest : 0 ≤ 1 - t := sub_nonneg.mpr unit.2
  constructor
  · exact add_nonneg (mul_nonneg rest lowerUnit.1) (mul_nonneg unit.1 upperUnit.1)
  · calc (1 - t) * lower + t * upper
        ≤ (1 - t) * 1 + t * 1 :=
          add_le_add (mul_le_mul_of_nonneg_left lowerUnit.2 rest)
            (mul_le_mul_of_nonneg_left upperUnit.2 unit.1)
      _ = 1 := by ring

/-- One curve runs along a part of another one. -/
def RunsAlong (reach : ℝ) (whole part : ℝ → ℂ) : Prop :=
  ∃ lower ∈ Set.Icc (0 : ℝ) 1, ∃ upper ∈ Set.Icc (0 : ℝ) 1, ∀ t ∈ Set.Icc (0 : ℝ) 1,
    ‖part t - whole ((1 - t) * lower + t * upper)‖ ≤ reach

namespace RunsAlong

variable {more : ℝ} {whole part smaller : ℝ → ℂ}

theorem refl (whole : ℝ → ℂ) : RunsAlong 0 whole whole := by
  refine ⟨0, Set.left_mem_Icc.mpr zero_le_one, 1, Set.right_mem_Icc.mpr zero_le_one, ?_⟩
  intro t _
  rw [mul_zero, zero_add, mul_one, sub_self, norm_zero]

theorem mono (along : RunsAlong reach whole part) (farther : reach ≤ more) :
    RunsAlong more whole part := by
  obtain ⟨lower, lowerUnit, upper, upperUnit, near⟩ := along
  exact ⟨lower, lowerUnit, upper, upperUnit, fun t unit => (near t unit).trans farther⟩

/-- A part of a part is a part, and both distances add up. -/
theorem trans (outer : RunsAlong reach whole part) (inner : RunsAlong more part smaller) :
    RunsAlong (reach + more) whole smaller := by
  obtain ⟨lower, lowerUnit, upper, upperUnit, outerNear⟩ := outer
  obtain ⟨first, firstUnit, last, lastUnit, innerNear⟩ := inner
  refine ⟨(1 - first) * lower + first * upper, share_mem_unit firstUnit lowerUnit upperUnit,
    (1 - last) * lower + last * upper, share_mem_unit lastUnit lowerUnit upperUnit, ?_⟩
  intro t unit
  have outerHere := outerNear _ (share_mem_unit unit firstUnit lastUnit)
  have place : (1 - ((1 - t) * first + t * last)) * lower + ((1 - t) * first + t * last) * upper =
      (1 - t) * ((1 - first) * lower + first * upper) +
        t * ((1 - last) * lower + last * upper) := by ring
  rw [place] at outerHere
  rw [add_comm reach]
  exact norm_sub_le_norm_sub_add_norm_sub _ _ _ |>.trans (add_le_add (innerNear t unit) outerHere)

/-- What is near to a point of the part is near to a point of the whole. -/
theorem exists_near (along : RunsAlong reach whole part) {z : ℂ}
    (near : ∃ t ∈ Set.Icc (0 : ℝ) 1, ‖z - part t‖ ≤ more) :
    ∃ t ∈ Set.Icc (0 : ℝ) 1, ‖z - whole t‖ ≤ more + reach := by
  obtain ⟨lower, lowerUnit, upper, upperUnit, partNear⟩ := along
  obtain ⟨t, unit, here⟩ := near
  refine ⟨_, share_mem_unit unit lowerUnit upperUnit, ?_⟩
  exact norm_sub_le_norm_sub_add_norm_sub _ (part t) _ |>.trans (add_le_add here (partNear t unit))

end RunsAlong

theorem quadAt_one (a b c : ℂ) : quadAt a b c 1 = c := by
  unfold quadAt blend
  push_cast
  ring

theorem cubicAt_one (a b c d : ℂ) : cubicAt a b c d 1 = d := by
  unfold cubicAt quadAt blend
  push_cast
  ring

/-! ## Halves -/

theorem quadAt_first_half (a b c : ℂ) (t : ℝ) :
    quadAt a (blend (1 / 2) a b) (quadAt a b c (1 / 2)) t =
      quadAt a b c ((1 - t) * 0 + t * (1 / 2)) := by
  unfold quadAt blend
  push_cast
  ring

theorem quadAt_second_half (a b c : ℂ) (t : ℝ) :
    quadAt (quadAt a b c (1 / 2)) (blend (1 / 2) b c) c t =
      quadAt a b c ((1 - t) * (1 / 2) + t * 1) := by
  unfold quadAt blend
  push_cast
  ring

theorem cubicAt_first_half (a b c d : ℂ) (t : ℝ) :
    cubicAt a (blend (1 / 2) a b) (quadAt a b c (1 / 2)) (cubicAt a b c d (1 / 2)) t =
      cubicAt a b c d ((1 - t) * 0 + t * (1 / 2)) := by
  unfold cubicAt quadAt blend
  push_cast
  ring

theorem cubicAt_second_half (a b c d : ℂ) (t : ℝ) :
    cubicAt (cubicAt a b c d (1 / 2)) (quadAt b c d (1 / 2)) (blend (1 / 2) c d) d t =
      cubicAt a b c d ((1 - t) * (1 / 2) + t * 1) := by
  unfold cubicAt quadAt blend
  push_cast
  ring

namespace Kind

variable {κ : Type} {kind : Kind κ} {pointAt : κ → ℝ → ℂ}

/-- Halves run along parts of their piece, but for rounding. -/
structure Follows (kind : Kind κ) (pointAt : κ → ℝ → ℂ) : Prop where
  first : ∀ piece, RunsAlong roundoff (pointAt piece) (pointAt (kind.first piece))
  second : ∀ piece, RunsAlong roundoff (pointAt piece) (pointAt (kind.second piece))

/-- A leaf runs along a part of its curve, and every halving adds to their distance. -/
theorem Follows.runsAlong (follows : kind.Follows pointAt) {flatness : Int} {limit : Nat}
    {curve : κ} {leaf : Leaf κ} (member : leaf ∈ kind.leavesFrom flatness limit 0 curve) :
    RunsAlong (leaf.depth * roundoff) (pointAt curve) (pointAt leaf.piece) := by
  refine forall_mem_leavesFrom
    (fun depth piece => RunsAlong (depth * roundoff) (pointAt curve) (pointAt piece)) ?_ ?_ leaf
    member
  · intro depth piece _ along
    rw [Nat.cast_succ, add_mul, one_mul]
    exact ⟨along.trans (follows.first piece), along.trans (follows.second piece)⟩
  · rw [Nat.cast_zero, zero_mul]
    exact RunsAlong.refl _

end Kind

theorem norm_sub_self_le_roundoff (z : ℂ) : ‖z - z‖ ≤ roundoff :=
  norm_sub_self_le (by unfold roundoff; norm_num) z

theorem Quad.follows : kind.Follows pointAt where
  first quad := by
    refine ⟨0, by norm_num, 1 / 2, by norm_num, ?_⟩
    intro t unit
    rw [pointAt, pointAt, ← quadAt_first_half]
    exact norm_quadAt_sub_le unit (norm_sub_self_le_roundoff _) (norm_middle₂_sub_le _ _)
      (norm_middle₃_sub_le _ _ _)
  second quad := by
    refine ⟨1 / 2, by norm_num, 1, by norm_num, ?_⟩
    intro t unit
    rw [pointAt, pointAt, ← quadAt_second_half]
    exact norm_quadAt_sub_le unit (norm_middle₃_sub_le _ _ _) (norm_middle₂_sub_le _ _)
      (norm_sub_self_le_roundoff _)

theorem Cubic.follows : kind.Follows pointAt where
  first cubic := by
    refine ⟨0, by norm_num, 1 / 2, by norm_num, ?_⟩
    intro t unit
    rw [pointAt, pointAt, ← cubicAt_first_half]
    exact norm_cubicAt_sub_le unit (norm_sub_self_le_roundoff _) (norm_middle₂_sub_le _ _)
      (norm_middle₃_sub_le _ _ _) (norm_middle₄_sub_le _ _ _ _)
  second cubic := by
    refine ⟨1 / 2, by norm_num, 1, by norm_num, ?_⟩
    intro t unit
    rw [pointAt, pointAt, ← cubicAt_second_half]
    exact norm_cubicAt_sub_le unit (norm_middle₄_sub_le _ _ _ _) (norm_middle₃_sub_le _ _ _)
      (norm_middle₂_sub_le _ _) (norm_sub_self_le_roundoff _)

end Curve

end Raster
