import Mathlib.Algebra.Order.Round
import Mathlib.Data.Rat.Floor
import Mathlib.Tactic.Linarith
import Mathlib.Tactic.Positivity
import Mathlib.Tactic.Ring
import Raster.Fixed
import Raster.Proofs.Paint.Blending

/-!
# Colors between texels

Texels cover the unit squares of an unbounded plane.  The color at a position is that of the texel
which covers it, or it is interpolated between the four texels whose centers are nearest around it.
Positions are exact rational numbers here.  Interpolation rounds each channel to the nearest integer
along the two rows of centers and again between them, which keeps it within one of the exact value.
-/

namespace Raster

/-- The value at a share of the way from `first` to `second`. -/
def between (first second share : ℚ) : ℚ :=
  first + (second - first) * share

section Between

variable {first second share : ℚ}

theorem between_eq (first second share : ℚ) :
    between first second share = first * (1 - share) + second * share := by
  unfold between
  ring

theorem between_le {high : ℚ} (nonneg : 0 ≤ share) (unit : share ≤ 1) (firstBelow : first ≤ high)
    (secondBelow : second ≤ high) : between first second share ≤ high := by
  have kept : first * (1 - share) ≤ high * (1 - share) :=
    mul_le_mul_of_nonneg_right firstBelow (sub_nonneg.mpr unit)
  have taken : second * share ≤ high * share := mul_le_mul_of_nonneg_right secondBelow nonneg
  rw [between_eq]
  linarith

/-- Values that are off at both ends by no more than `slack` are off by no more in between. -/
theorem abs_between_sub_le {firstOff secondOff slack : ℚ} (nonneg : 0 ≤ share) (unit : share ≤ 1)
    (firstNear : |firstOff - first| ≤ slack) (secondNear : |secondOff - second| ≤ slack) :
    |between firstOff secondOff share - between first second share| ≤ slack := by
  have difference : between firstOff secondOff share - between first second share =
      between (firstOff - first) (secondOff - second) share := by
    unfold between
    ring
  have opposite : -between (firstOff - first) (secondOff - second) share =
      between (-(firstOff - first)) (-(secondOff - second)) share := by
    unfold between
    ring
  rw [abs_le] at firstNear secondNear
  rw [difference, abs_le']
  constructor
  · exact between_le nonneg unit firstNear.2 secondNear.2
  · rw [opposite]
    exact between_le nonneg unit (by linarith) (by linarith)

end Between

/-- Texels of an unbounded plane, as packed colors by column and row. -/
abbrev Texels : Type :=
  Int → Int → Nat

namespace Texels

/-- The column or row of texel centers before a coordinate. -/
def centerBefore (coordinate : ℚ) : Int :=
  ⌊coordinate - 1 / 2⌋

/-- How far a coordinate is on the way from the center before it to the next one. -/
def shareOf (coordinate : ℚ) : ℚ :=
  Int.fract (coordinate - 1 / 2)

/-- The four texels whose centers are around a position. -/
def around (texels : Texels) (x y : ℚ) : List Nat :=
  [texels (centerBefore x) (centerBefore y), texels (centerBefore x + 1) (centerBefore y),
    texels (centerBefore x) (centerBefore y + 1), texels (centerBefore x + 1) (centerBefore y + 1)]

section Levels

variable (texels : Texels) (channel : Channel) (x y : ℚ)

/-- A channel along a row of centers. -/
def alongRow (row : Int) : ℚ :=
  between (channel.ofWord (texels (centerBefore x) row))
    (channel.ofWord (texels (centerBefore x + 1) row)) (shareOf x)

/-- The exact bilinear value of a channel. -/
def bilinear : ℚ :=
  between (alongRow texels channel x (centerBefore y))
    (alongRow texels channel x (centerBefore y + 1)) (shareOf y)

/-- The bilinear value, rounded to the nearest integer along the rows and between them. -/
def rounded : Int :=
  round (between (round (alongRow texels channel x (centerBefore y)))
    (round (alongRow texels channel x (centerBefore y + 1))) (shareOf y))

/-- Roundings shift the bilinear value by no more than one. -/
theorem abs_rounded_sub_bilinear_le :
    |(rounded texels channel x y : ℚ) - bilinear texels channel x y| ≤ 1 := by
  have nonneg : 0 ≤ shareOf y := Int.fract_nonneg _
  have unit : shareOf y ≤ 1 := (Int.fract_lt_one _).le
  have last : |(rounded texels channel x y : ℚ) -
      between (round (alongRow texels channel x (centerBefore y)))
        (round (alongRow texels channel x (centerBefore y + 1))) (shareOf y)| ≤ 1 / 2 := by
    rw [abs_sub_comm]
    exact abs_sub_round _
  have rows : |between (round (alongRow texels channel x (centerBefore y)))
        (round (alongRow texels channel x (centerBefore y + 1))) (shareOf y) -
      bilinear texels channel x y| ≤ 1 / 2 := by
    apply abs_between_sub_le nonneg unit
    · rw [abs_sub_comm]
      exact abs_sub_round _
    · rw [abs_sub_comm]
      exact abs_sub_round _
  have whole := abs_sub_le (rounded texels channel x y : ℚ) (between
    (round (alongRow texels channel x (centerBefore y)))
    (round (alongRow texels channel x (centerBefore y + 1))) (shareOf y))
    (bilinear texels channel x y)
  linarith

end Levels

/-- The color interpolated between the four texels around a position. -/
def interpolated (texels : Texels) (x y : ℚ) : Nat :=
  Argb.pack (rounded texels .alpha x y).toNat (rounded texels .red x y).toNat
    (rounded texels .green x y).toNat (rounded texels .blue x y).toNat

/-- The color at a position of the plane. -/
def colorAt (texels : Texels) (interpolates : Bool) (x y : ℚ) : Nat :=
  if interpolates then texels.interpolated x y else texels ⌊x⌋ ⌊y⌋

/-! ## Fixed-point positions -/

section FixedPoint

theorem floor_fixed (raw : Int) : ⌊(raw : ℚ) / 65536⌋ = raw / 65536 :=
  Rat.floor_intCast_div_natCast raw 65536

theorem sub_half_fixed (raw : Int) :
    (raw : ℚ) / 65536 - 1 / 2 = ((raw - Fixed.half : Int) : ℚ) / 65536 := by
  rw [Fixed.half]
  push_cast
  ring

theorem centerBefore_fixed (raw : Int) :
    centerBefore ((raw : ℚ) / 65536) = (raw - Fixed.half) / 65536 := by
  rw [centerBefore, sub_half_fixed, floor_fixed]

theorem shareOf_fixed (raw : Int) :
    shareOf ((raw : ℚ) / 65536) = (((raw - Fixed.half) % 65536 : Int) : ℚ) / 65536 := by
  rw [shareOf, sub_half_fixed, Int.fract, floor_fixed, Int.emod_def]
  push_cast
  ring

/-- Blending two channels rounds the exact value between them to the nearest integer. -/
theorem lerp_eq_round {first second : Nat} {share : Int} (nonneg : 0 ≤ share)
    (unit : share ≤ 65536) :
    (Argb.lerp first second share : Int) = round (between first second (share / 65536)) := by
  have numerator : between first second (share / 65536) + 1 / 2 =
      ((first * 65536 + ((second : Int) - first) * share + 32768 : Int) : ℚ) / 65536 := by
    unfold between
    push_cast
    ring
  have bounded : 0 ≤ (first : Int) * 65536 + ((second : Int) - first) * share := by
    rw [Argb.scaled_between]
    exact add_nonneg (mul_nonneg (by omega) (by omega)) (mul_nonneg (by omega) nonneg)
  rw [round_eq, numerator, floor_fixed, Argb.lerp]
  omega

theorem share_bounds (raw : Int) :
    0 ≤ (raw - Fixed.half) % 65536 ∧ (raw - Fixed.half) % 65536 ≤ 65536 := by
  omega

variable (texels : Texels) (x y : Int)

/-- The four texels around a fixed-point position, blended along the rows and between them. -/
def blended : Nat :=
  let left := (x - Fixed.half) / 65536
  let top := (y - Fixed.half) / 65536
  let across := (x - Fixed.half) % 65536
  Argb.lerpWord (Argb.lerpWord (texels left top) (texels (left + 1) top) across)
    (Argb.lerpWord (texels left (top + 1)) (texels (left + 1) (top + 1)) across)
    ((y - Fixed.half) % 65536)

theorem ofWord_blended (channel : Channel) :
    (channel.ofWord (texels.blended x y) : Int) =
      texels.rounded channel ((x : ℚ) / 65536) ((y : ℚ) / 65536) := by
  have across := share_bounds x
  have down := share_bounds y
  have row (line : Int) :
      ((channel.ofWord (Argb.lerpWord (texels ((x - Fixed.half) / 65536) line)
        (texels ((x - Fixed.half) / 65536 + 1) line) ((x - Fixed.half) % 65536)) : Int)) =
        round (texels.alongRow channel ((x : ℚ) / 65536) line) := by
    rw [Argb.ofWord_lerpWord across.1 across.2, lerp_eq_round across.1 across.2, alongRow,
      centerBefore_fixed, shareOf_fixed]
  rw [blended, Argb.ofWord_lerpWord down.1 down.2, lerp_eq_round down.1 down.2, rounded,
    centerBefore_fixed, shareOf_fixed, ← row, ← row]
  norm_cast

theorem blended_lt : texels.blended x y < 4294967296 := by
  simp only [blended]
  exact Argb.lerpWord_lt (share_bounds y).1 (share_bounds y).2 _ _

theorem interpolated_eq_blended :
    texels.interpolated ((x : ℚ) / 65536) ((y : ℚ) / 65536) = texels.blended x y := by
  have level (channel : Channel) :
      (texels.rounded channel ((x : ℚ) / 65536) ((y : ℚ) / 65536)).toNat =
        channel.ofWord (texels.blended x y) := by
    rw [← ofWord_blended, Int.toNat_natCast]
  have channels := Argb.pack_channels (texels.blended_lt x y)
  generalize texels.blended x y = word at level channels
  rw [interpolated, level, level, level, level]
  exact channels

/-- A color between the four texels around a position: each channel lies between the least and the
greatest of theirs, is within one of the exact bilinear value, and stays inside its field. -/
structure Interpolates (texels : Texels) (x y : ℚ) (word : Nat) : Prop where
  fits : word < 4294967296
  within : ∀ channel : Channel, channel.Within (texels.around x y) word
  near : ∀ channel : Channel, |(channel.ofWord word : ℚ) - texels.bilinear channel x y| ≤ 1

theorem interpolates_blended :
    texels.Interpolates ((x : ℚ) / 65536) ((y : ℚ) / 65536) (texels.blended x y) := by
  have across := share_bounds x
  have down := share_bounds y
  constructor
  · exact texels.blended_lt x y
  · intro channel
    simp only [around, centerBefore_fixed, blended]
    apply (Argb.within_lerpWord down.1 down.2 _ _ channel).trans
    intro row member
    rcases List.mem_pair.mp member with rfl | rfl
    · exact (Argb.within_lerpWord across.1 across.2 _ _ channel).mono (by simp)
    · exact (Argb.within_lerpWord across.1 across.2 _ _ channel).mono (by simp)
  · intro channel
    have exact := texels.abs_rounded_sub_bilinear_le channel ((x : ℚ) / 65536) ((y : ℚ) / 65536)
    rwa [← ofWord_blended] at exact

end FixedPoint

end Texels

end Raster
