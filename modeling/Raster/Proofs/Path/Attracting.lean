import Mathlib.Topology.Order.IntermediateValue
import Raster.Proofs.Path.Following

/-!
# Control points attract their curve

Seen from the chord of a curve, a control point has a place along the chord and a deviation from
it.  Somewhere the curve passes the place of a control point that does not point out of the ends of
the chord, and there it is pulled to the side of the control point, if no other one pulls it to the
opposite side.  So the curve comes nearer to a control point than the deviation says, by more than
all roundings amount to.
-/

namespace Raster

namespace Curve

open ComplexConjugate

/-! ## The frame of a chord -/

/-- A point in the frame of a chord: the real part goes along the chord from its start, the
imaginary part away from it. -/
noncomputable def framed (start stop z : ℂ) : ℂ :=
  (z - start) * conj (stop - start) / ‖stop - start‖

variable {start stop : ℂ}

/-- Frames keep distances. -/
theorem norm_framed_sub (distinct : ‖stop - start‖ ≠ 0) (z w : ℂ) :
    ‖framed start stop z - framed start stop w‖ = ‖z - w‖ := by
  have difference : framed start stop z - framed start stop w =
      (z - w) * conj (stop - start) / ‖stop - start‖ := by
    unfold framed
    ring
  rw [difference, norm_div, norm_mul, Complex.norm_conj, Complex.norm_real, norm_norm,
    mul_div_cancel_right₀ _ distinct]

theorem framed_blend (t : ℝ) (a b : ℂ) :
    framed start stop (blend t a b) = blend t (framed start stop a) (framed start stop b) := by
  unfold framed blend
  ring

theorem framed_quadAt (a b c : ℂ) (t : ℝ) :
    framed start stop (quadAt a b c t) =
      quadAt (framed start stop a) (framed start stop b) (framed start stop c) t := by
  rw [quadAt, framed_blend, framed_blend, framed_blend, quadAt]

theorem framed_cubicAt (a b c d : ℂ) (t : ℝ) :
    framed start stop (cubicAt a b c d t) =
      cubicAt (framed start stop a) (framed start stop b) (framed start stop c)
        (framed start stop d) t := by
  rw [cubicAt, framed_blend, framed_quadAt, framed_quadAt, cubicAt]

theorem framed_start (start stop : ℂ) : framed start stop start = 0 := by
  rw [framed, sub_self, zero_mul, zero_div]

theorem framed_stop (distinct : ‖stop - start‖ ≠ 0) :
    framed start stop stop = (‖stop - start‖ : ℝ) := by
  rw [framed, Complex.mul_conj, Complex.normSq_eq_norm_sq, ← Complex.ofReal_div, sq,
    mul_div_cancel_right₀ _ distinct]

theorem exists_near_of_framed {z : ℂ} {curve framedCurve : ℝ → ℂ} {reach : ℝ}
    (distinct : ‖stop - start‖ ≠ 0) (same : ∀ t, framed start stop (curve t) = framedCurve t)
    (near : ∃ t ∈ Set.Icc (0 : ℝ) 1, ‖framed start stop z - framedCurve t‖ ≤ reach) :
    ∃ t ∈ Set.Icc (0 : ℝ) 1, ‖z - curve t‖ ≤ reach := by
  obtain ⟨t, unit, here⟩ := near
  refine ⟨t, unit, ?_⟩
  rw [← same, norm_framed_sub distinct] at here
  exact here

/-! ## Control points in the frame of a chord -/

/-- A continuous function that is hardly above a value at first and hardly below it at last is
hardly away from it somewhere. -/
theorem exists_nearly_attained (f : ℝ → ℝ) (continuous : Continuous f)
    {lower upper value slack : ℝ} (ordered : lower ≤ upper) (nonneg : 0 ≤ slack)
    (first : f lower - value ≤ slack) (last : value - f upper ≤ slack) :
    ∃ t ∈ Set.Icc lower upper, |value - f t| ≤ slack := by
  by_cases early : value ≤ f lower
  · refine ⟨lower, Set.left_mem_Icc.mpr ordered, ?_⟩
    rw [abs_of_nonpos (sub_nonpos.mpr early), neg_sub]
    exact first
  by_cases late : f upper ≤ value
  · refine ⟨upper, Set.right_mem_Icc.mpr ordered, ?_⟩
    rw [abs_of_nonneg (sub_nonneg.mpr late)]
    exact last
  obtain ⟨t, between, attained⟩ := intermediate_value_Icc ordered continuous.continuousOn
    ⟨(not_le.mp early).le, (not_le.mp late).le⟩
  refine ⟨t, between, ?_⟩
  rw [attained, sub_self, abs_zero]
  exact nonneg

/-- Deviations to the same side cancel in part. -/
theorem abs_mul_sub_mul_le {first second bound more less : ℝ} (sameSide : 0 ≤ first * second)
    (firstBound : |first| ≤ bound) (secondBound : |second| ≤ bound) (nonneg : 0 ≤ less)
    (ordered : less ≤ more) : |more * first - less * second| ≤ more * bound := by
  obtain ⟨firstLower, firstUpper⟩ := abs_le.mp firstBound
  obtain ⟨secondLower, secondUpper⟩ := abs_le.mp secondBound
  have moreNonneg : 0 ≤ more := nonneg.trans ordered
  have boundNonneg : 0 ≤ bound := (abs_nonneg first).trans firstBound
  have lessBound : less * bound ≤ more * bound := mul_le_mul_of_nonneg_right ordered boundNonneg
  have firstHigh := mul_le_mul_of_nonneg_left firstUpper moreNonneg
  have firstLow := mul_le_mul_of_nonneg_left firstLower moreNonneg
  have secondHigh := mul_le_mul_of_nonneg_left secondUpper nonneg
  have secondLow := mul_le_mul_of_nonneg_left secondLower nonneg
  rw [abs_le]
  rcases mul_nonneg_iff.mp sameSide with
    ⟨firstPositive, secondPositive⟩ | ⟨firstNegative, secondNegative⟩
  · have kept := mul_nonneg moreNonneg firstPositive
    have lost := mul_nonneg nonneg secondPositive
    constructor <;> linarith
  · have kept := mul_nonpos_of_nonneg_of_nonpos moreNonneg firstNegative
    have lost := mul_nonpos_of_nonneg_of_nonpos nonneg secondNegative
    constructor <;> linarith

/-- What a chord has to be so that rounding cannot move its control points out of `reach`. -/
structure IsChord (length reach : ℝ) : Prop where
  notShort : 3 ≤ length
  notLong : length ≤ 1048576
  wide : 32768 ≤ reach

section Controls

variable {length reach : ℝ} {u v : ℂ}

theorem re_quadAt (u : ℂ) (length t : ℝ) :
    (quadAt 0 u length t).re = 2 * t * (1 - t) * u.re + t ^ 2 * length := by
  simp only [quadAt, re_blend, Complex.zero_re, Complex.ofReal_re]
  ring

theorem im_quadAt (u : ℂ) (length t : ℝ) :
    (quadAt 0 u length t).im = 2 * t * (1 - t) * u.im := by
  simp only [quadAt, im_blend, Complex.zero_im, Complex.ofReal_im]
  ring

theorem re_cubicAt (u v : ℂ) (length t : ℝ) :
    (cubicAt 0 u v length t).re =
      3 * t * (1 - t) ^ 2 * u.re + 3 * t ^ 2 * (1 - t) * v.re + t ^ 3 * length := by
  simp only [cubicAt, quadAt, re_blend, Complex.zero_re, Complex.ofReal_re]
  ring

theorem im_cubicAt (u v : ℂ) (length t : ℝ) :
    (cubicAt 0 u v length t).im =
      3 * t * (1 - t) ^ 2 * u.im + 3 * t ^ 2 * (1 - t) * v.im := by
  simp only [cubicAt, quadAt, im_blend, Complex.zero_im, Complex.ofReal_im]
  ring

theorem IsChord.pos (chord : IsChord length reach) : 0 < length :=
  lt_of_lt_of_le (by norm_num) chord.notShort

theorem IsChord.short_deviation (chord : IsChord length reach) {deviation : ℝ}
    (bounded : deviation ≤ reach + 65536 / length) : deviation ≤ reach + 21846 := by
  have rounding : 65536 / length ≤ 21846 := by
    rw [div_le_iff₀ chord.pos]
    linarith [chord.notShort]
  linarith

theorem long_deviation (long : 2048 ≤ length) {deviation : ℝ}
    (bounded : deviation ≤ reach + 65536 / length) : deviation ≤ reach + 32 := by
  have rounding : 65536 / length ≤ 32 := by
    rw [div_le_iff₀ (by linarith)]
    linarith
  linarith

/-- A control point of a quadratic curve that does not point out of the ends of the chord is near
to the curve. -/
theorem exists_near_quad_control (chord : IsChord length reach) (afterStart : 0 ≤ u.re)
    (beforeStop : u.re ≤ length) (close : |u.im| ≤ reach + 65536 / length) :
    ∃ t ∈ Set.Icc (0 : ℝ) 1, ‖u - quadAt 0 u length t‖ ≤ reach - 25 := by
  have notLong := chord.notLong
  have wide := chord.wide
  have across (t : ℝ) : u.im - (quadAt 0 u length t).im = (1 - 2 * t * (1 - t)) * u.im := by
    rw [im_quadAt]
    ring
  by_cases short : length ≤ 2048
  · refine ⟨1 / 2, by norm_num, (Complex.norm_le_abs_re_add_abs_im _).trans ?_⟩
    have deviation := chord.short_deviation close
    have re : |(u - quadAt 0 u length (1 / 2)).re| ≤ 1024 := by
      rw [Complex.sub_re, re_quadAt, abs_le]
      constructor <;> linarith
    have im : |(u - quadAt 0 u length (1 / 2)).im| ≤ 1 / 2 * (reach + 21846) := by
      rw [Complex.sub_im, across, abs_mul, abs_of_nonneg (by norm_num)]
      linarith
    linarith
  · have deviation := long_deviation (not_le.mp short).le close
    have first : (quadAt 0 u length (1 / 512)).re - u.re ≤ 16 := by
      rw [re_quadAt]
      linarith
    have last : u.re - (quadAt 0 u length (511 / 512)).re ≤ 16 := by
      rw [re_quadAt]
      linarith
    have continuous : Continuous fun t => (quadAt 0 u length t).re := by
      simp only [re_quadAt]
      fun_prop
    obtain ⟨t, ⟨lower, upper⟩, re⟩ :=
      exists_nearly_attained _ continuous (by norm_num) (by norm_num) first last
    refine ⟨t, ⟨by linarith, by linarith⟩, (Complex.norm_le_abs_re_add_abs_im _).trans ?_⟩
    -- The control point attracts this point of the curve, which makes up for all roundings.
    have weight : 1 / 300 ≤ 2 * t * (1 - t) := by nlinarith
    have im : |(u - quadAt 0 u length t).im| ≤ (1 - 1 / 300) * (reach + 32) := by
      rw [Complex.sub_im, across, abs_mul, abs_of_nonneg (by nlinarith)]
      exact mul_le_mul (by linarith) deviation (abs_nonneg _) (by norm_num)
    rw [Complex.sub_re]
    linarith

/-- The control points of a cubic curve, which advance along the chord on one side of it. -/
structure Advance (length reach : ℝ) (u v : ℂ) : Prop where
  chord : IsChord length reach
  afterStart : 0 ≤ u.re
  ordered : u.re ≤ v.re
  beforeStop : v.re ≤ length
  sameSide : 0 ≤ u.im * v.im
  firstClose : |u.im| ≤ reach + 65536 / length
  secondClose : |v.im| ≤ reach + 65536 / length

/-- The curve can be drawn from its other end. -/
theorem Advance.reverse (advance : Advance length reach u v) :
    Advance length reach (length - v) (length - u) := by
  have re (w : ℂ) : ((length : ℂ) - w).re = length - w.re := rfl
  have im (w : ℂ) : ((length : ℂ) - w).im = -w.im := zero_sub _
  constructor
  · exact advance.chord
  · rw [re]
    exact sub_nonneg.mpr advance.beforeStop
  · rw [re, re]
    exact sub_le_sub_left advance.ordered length
  · rw [re]
    exact sub_le_self length advance.afterStart
  · rw [im, im, neg_mul_neg, mul_comm]
    exact advance.sameSide
  · rw [im, abs_neg]
    exact advance.secondClose
  · rw [im, abs_neg]
    exact advance.firstClose

/-- The first control point is near to the curve. -/
theorem Advance.exists_near_first (advance : Advance length reach u v) :
    ∃ t ∈ Set.Icc (0 : ℝ) 1, ‖u - cubicAt 0 u v length t‖ ≤ reach - 25 := by
  obtain ⟨chord, afterStart, ordered, beforeStop, sameSide, firstClose, secondClose⟩ := advance
  have notLong := chord.notLong
  have wide := chord.wide
  have across (t : ℝ) : u.im - (cubicAt 0 u v length t).im =
      (1 - 3 * t * (1 - t) ^ 2) * u.im - 3 * t ^ 2 * (1 - t) * v.im := by
    rw [im_cubicAt]
    ring
  by_cases short : length ≤ 2048
  · refine ⟨1 / 3, by norm_num, (Complex.norm_le_abs_re_add_abs_im _).trans ?_⟩
    have firstDeviation := chord.short_deviation firstClose
    have secondDeviation := chord.short_deviation secondClose
    have re : |(u - cubicAt 0 u v length (1 / 3)).re| ≤ 2048 := by
      rw [Complex.sub_re, re_cubicAt, abs_le]
      constructor <;> linarith
    have im : |(u - cubicAt 0 u v length (1 / 3)).im| ≤
        (1 - 3 * (1 / 3) * (1 - 1 / 3) ^ 2) * (reach + 21846) := by
      rw [Complex.sub_im, across]
      exact abs_mul_sub_mul_le sameSide firstDeviation secondDeviation (by norm_num) (by norm_num)
    linarith
  · have firstDeviation := long_deviation (not_le.mp short).le firstClose
    have secondDeviation := long_deviation (not_le.mp short).le secondClose
    have first : (cubicAt 0 u v length (1 / 128)).re - u.re ≤ 256 := by
      rw [re_cubicAt]
      linarith
    have last : u.re - (cubicAt 0 u v length (15 / 16)).re ≤ 256 := by
      rw [re_cubicAt]
      linarith
    have continuous : Continuous fun t => (cubicAt 0 u v length t).re := by
      simp only [re_cubicAt]
      fun_prop
    obtain ⟨t, ⟨lower, upper⟩, re⟩ :=
      exists_nearly_attained _ continuous (by norm_num) (by norm_num) first last
    have unit : t ∈ Set.Icc (0 : ℝ) 1 := ⟨by linarith, by linarith⟩
    refine ⟨t, unit, (Complex.norm_le_abs_re_add_abs_im _).trans ?_⟩
    have rest : 0 ≤ 1 - t := sub_nonneg.mpr unit.2
    -- The control point attracts this point of the curve, which makes up for all roundings.
    have weight : 1 / 100 ≤ 3 * t * (1 - t) ^ 2 := by
      have inside := mul_nonneg (mul_nonneg (sub_nonneg.mpr lower) (sub_nonneg.mpr upper))
        (show (0 : ℝ) ≤ 135 / 128 - t by linarith)
      nlinarith
    have weights : 3 * t ^ 2 * (1 - t) ≤ 1 - 3 * t * (1 - t) ^ 2 := by
      have others : 0 ≤ (1 - t) ^ 3 + t ^ 3 := add_nonneg (pow_nonneg rest 3) (pow_nonneg unit.1 3)
      linarith
    have im : |(u - cubicAt 0 u v length t).im| ≤ (1 - 3 * t * (1 - t) ^ 2) * (reach + 32) := by
      rw [Complex.sub_im, across]
      exact abs_mul_sub_mul_le sameSide firstDeviation secondDeviation
        (mul_nonneg (mul_nonneg (by norm_num) (sq_nonneg t)) rest) weights
    have attracted : (1 - 3 * t * (1 - t) ^ 2) * (reach + 32) ≤ (1 - 1 / 100) * (reach + 32) :=
      mul_le_mul_of_nonneg_right (by linarith) (by linarith)
    rw [Complex.sub_re]
    linarith

theorem cubicAt_reverse (u v : ℂ) (length t : ℝ) :
    cubicAt 0 u v length (1 - t) = length - cubicAt 0 (length - v) (length - u) length t := by
  unfold cubicAt quadAt blend
  push_cast
  ring

/-- So is the second one. -/
theorem Advance.exists_near_second (advance : Advance length reach u v) :
    ∃ t ∈ Set.Icc (0 : ℝ) 1, ‖v - cubicAt 0 u v length t‖ ≤ reach - 25 := by
  obtain ⟨t, ⟨nonneg, atMostOne⟩, near⟩ := advance.reverse.exists_near_first
  refine ⟨1 - t, ⟨sub_nonneg.mpr atMostOne, sub_le_self 1 nonneg⟩, ?_⟩
  have mirrored : v - cubicAt 0 u v length (1 - t) =
      -(length - v - cubicAt 0 (length - v) (length - u) length t) := by
    rw [cubicAt_reverse]
    ring
  rw [mirrored, norm_neg]
  exact near

end Controls

end Curve

end Raster
