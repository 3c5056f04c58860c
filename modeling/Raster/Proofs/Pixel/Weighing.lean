import Mathlib.Algebra.Order.Field.Rat
import Mathlib.Tactic.NormNum
import Mathlib.Tactic.Ring
import Raster.Proofs.Coverage.Layering
import Raster.Proofs.Paint.Blending
import Raster.Proofs.Word

/-!
# Weights of target and source

The source-over rule divides by a denominator that depends on the alpha of the target.  The division
is replaced by a product with its reciprocal, which is rounded down to 24 bits, and the product is
rounded down again.  Either rounding takes away less than one from a color channel, so that what is
drawn is at most the exact value and greater than the exact value less two.  Hence no channel has to
be limited, and all numbers on the way fit their words.
-/

namespace Raster

/-! ## Rounded reciprocals -/

section Reciprocal

variable {numerator denominator scale : Nat}

/-- A quotient by way of the rounded reciprocal is at most the exact one. -/
theorem reciprocal_mul_le (positive : 0 < denominator) (inRange : denominator ≤ scale) :
    numerator * (scale / denominator) / scale * denominator ≤ numerator := by
  have reciprocalPos : 0 < scale / denominator := Nat.div_pos inRange positive
  apply Nat.le_of_mul_le_mul_right _ reciprocalPos
  calc numerator * (scale / denominator) / scale * denominator * (scale / denominator)
      = numerator * (scale / denominator) / scale * (scale / denominator * denominator) := by
        rw [Nat.mul_assoc, Nat.mul_comm denominator]
    _ ≤ numerator * (scale / denominator) / scale * scale :=
        Nat.mul_le_mul_left _ (Nat.div_mul_le_self scale denominator)
    _ ≤ numerator * (scale / denominator) := Nat.div_mul_le_self _ scale

/-- A numerator within the scale loses less than one to the reciprocal and less than one to the
last rounding. -/
theorem lt_reciprocal_add_two_mul (positive : 0 < denominator) (inRange : numerator ≤ scale)
    (scalePos : 0 < scale) :
    numerator < (numerator * (scale / denominator) / scale + 2) * denominator := by
  have last : numerator * (scale / denominator) <
      (numerator * (scale / denominator) / scale + 1) * scale := by
    rw [← Nat.div_lt_iff_lt_mul scalePos]
    exact Nat.lt_succ_self _
  have first : scale ≤ (scale / denominator + 1) * denominator := by
    exact (Nat.div_lt_iff_lt_mul positive).mp (Nat.lt_succ_self _) |>.le
  generalize numerator * (scale / denominator) / scale = value at *
  apply Nat.lt_of_mul_lt_mul_right (a := scale)
  calc numerator * scale
      ≤ numerator * ((scale / denominator + 1) * denominator) := Nat.mul_le_mul_left _ first
    _ = (numerator * (scale / denominator) + numerator) * denominator := by ring
    _ < ((value + 1) * scale + scale) * denominator :=
        Nat.mul_lt_mul_of_pos_right (Nat.add_lt_add_of_lt_of_le last inRange) positive
    _ = (value + 2) * denominator * scale := by ring

end Reciprocal

namespace PixelFormat

/-! ## The denominator -/

section Denominator

variable {opacity : Nat}

theorem blendDenominator_eq (partly : opacity ≤ 255) (target : Nat) :
    blendDenominator target opacity =
      (256 - opacity) * Argb.alpha target + 255 * opacity := by
  obtain ⟨clear, clearEq⟩ := Nat.exists_eq_add_of_le (Argb.alpha_le target)
  obtain ⟨left, leftEq⟩ := Nat.exists_eq_add_of_le (Nat.le_succ_of_le partly)
  have remaining : 256 - opacity = left := by omega
  have transparent : 255 - Argb.alpha target = clear := by omega
  rw [blendDenominator, remaining, transparent]
  generalize Argb.alpha target = alpha at *
  calc 256 * alpha + opacity * clear = (opacity + left) * alpha + opacity * clear := by rw [← leftEq]
    _ = left * alpha + (alpha + clear) * opacity := by ring
    _ = left * alpha + 255 * opacity := by rw [← clearEq]

/-- The denominator is at least that of a target without alpha, and at most that of an opaque
one. -/
theorem blendDenominator_bounds (visible : 1 ≤ opacity) (partly : opacity ≤ 255) (target : Nat) :
    255 ≤ blendDenominator target opacity ∧ blendDenominator target opacity ≤ 65280 := by
  constructor
  · rw [blendDenominator_eq partly]
    omega
  · have alphaLe := Argb.alpha_le target
    have added : opacity * (255 - Argb.alpha target) ≤ 256 * (255 - Argb.alpha target) :=
      Nat.mul_le_mul_right _ (by omega)
    unfold blendDenominator
    omega

end Denominator

/-! ## Channels -/

/-- What the weights make of a channel of target and source, before the division. -/
def weighted (target source opacity : Nat) (channel : Channel) : Nat :=
  (256 - opacity) * Argb.alpha target * channel.ofWord target +
    255 * opacity * channel.ofWord source

/-- The exact value of a color channel. -/
def exactOver (target source opacity : Nat) (channel : Channel) : ℚ :=
  ((256 - opacity) * Argb.alpha target * channel.ofWord target +
      255 * opacity * channel.ofWord source) /
    ((256 - opacity) * Argb.alpha target + 255 * opacity)

/-- The channels of a blended color. -/
def blendLevels (target source opacity : Nat) : Channel → Nat
  | .alpha => blendDenominator target opacity / 256
  | channel =>
      weighted target source opacity channel *
        (16777216 / blendDenominator target opacity) / 16777216

section Levels

variable {opacity : Nat}

theorem blendLevels_of_ne_alpha (target source opacity : Nat) {channel : Channel}
    (color : channel ≠ .alpha) :
    blendLevels target source opacity channel = weighted target source opacity channel *
      (16777216 / blendDenominator target opacity) / 16777216 := by
  cases channel with
  | alpha => exact absurd rfl color
  | red => rfl
  | green => rfl
  | blue => rfl

/-- The reciprocal may be multiplied to the weights first. -/
theorem weights_mul_eq (target source reciprocal : Nat) (channel : Channel) :
    (256 - opacity) * Argb.alpha target * reciprocal * channel.ofWord target +
        255 * opacity * reciprocal * channel.ofWord source =
      weighted target source opacity channel * reciprocal := by
  unfold weighted
  ring

/-- The weights add up to the denominator, so that a bound of both channels bounds the sum. -/
theorem weighted_le_mul {target source level : Nat} {channel : Channel} (partly : opacity ≤ 255)
    (targetLe : channel.ofWord target ≤ level) (sourceLe : channel.ofWord source ≤ level) :
    weighted target source opacity channel ≤ level * blendDenominator target opacity := by
  rw [blendDenominator_eq partly, Nat.mul_add, Nat.mul_comm level, Nat.mul_comm level]
  exact Nat.add_le_add (Nat.mul_le_mul_left _ targetLe) (Nat.mul_le_mul_left _ sourceLe)

theorem mul_le_weighted {target source level : Nat} {channel : Channel} (partly : opacity ≤ 255)
    (targetGe : level ≤ channel.ofWord target) (sourceGe : level ≤ channel.ofWord source) :
    level * blendDenominator target opacity ≤ weighted target source opacity channel := by
  rw [blendDenominator_eq partly, Nat.mul_add, Nat.mul_comm level, Nat.mul_comm level]
  exact Nat.add_le_add (Nat.mul_le_mul_left _ targetGe) (Nat.mul_le_mul_left _ sourceGe)

theorem weighted_le (partly : opacity ≤ 255) (target source : Nat) (channel : Channel) :
    weighted target source opacity channel ≤ 255 * blendDenominator target opacity :=
  weighted_le_mul partly (Nat.le_of_lt_succ (channel.ofWord_lt target))
    (Nat.le_of_lt_succ (channel.ofWord_lt source))

theorem weighted_le_scale (visible : 1 ≤ opacity) (partly : opacity ≤ 255) (target source : Nat)
    (channel : Channel) : weighted target source opacity channel ≤ 16777216 := by
  have below := weighted_le partly target source channel
  have bounds := blendDenominator_bounds visible partly target
  omega

theorem blendLevels_lt (visible : 1 ≤ opacity) (partly : opacity ≤ 255) (target source : Nat)
    (channel : Channel) : blendLevels target source opacity channel < 256 := by
  have bounds := blendDenominator_bounds visible partly target
  by_cases color : channel = .alpha
  · subst color
    change blendDenominator target opacity / 256 < 256
    omega
  · have below := weighted_le partly target source channel
    rw [blendLevels_of_ne_alpha target source opacity color]
    have product : _ * blendDenominator target opacity ≤ _ :=
      (reciprocal_mul_le (by omega) (by omega : _ ≤ 16777216)).trans below
    exact Nat.lt_succ_of_le (Nat.le_of_mul_le_mul_right product (by omega))

/-- A channel is weighed by the product with the reciprocal, and is not limited. -/
theorem weigh_eq (visible : 1 ≤ opacity) (partly : opacity ≤ 255) (target source : Nat)
    (channel : Channel) (color : channel ≠ .alpha) :
    weigh ((256 - opacity) * Argb.alpha target * (16777216 / blendDenominator target opacity))
        (255 * opacity * (16777216 / blendDenominator target opacity)) (channel.ofWord target)
        (channel.ofWord source) = blendLevels target source opacity channel := by
  have small := blendLevels_lt visible partly target source channel
  rw [blendLevels_of_ne_alpha target source opacity color] at small ⊢
  rw [weigh, weights_mul_eq]
  exact Nat.min_eq_right (Nat.le_of_lt_succ small)

theorem blendArgb_eq (visible : 1 ≤ opacity) (partly : opacity ≤ 255) (target source : Nat) :
    blendArgb target source opacity =
      Argb.pack (blendLevels target source opacity .alpha) (blendLevels target source opacity .red)
        (blendLevels target source opacity .green) (blendLevels target source opacity .blue) := by
  have nonzero := blendDenominator_ne_zero (Nat.ne_of_gt visible) target
  rw [← weigh_eq visible partly target source .red (by decide),
    ← weigh_eq visible partly target source .green (by decide),
    ← weigh_eq visible partly target source .blue (by decide)]
  exact if_neg nonzero

theorem ofWord_blendArgb (visible : 1 ≤ opacity) (partly : opacity ≤ 255) (target source : Nat)
    (channel : Channel) :
    channel.ofWord (blendArgb target source opacity) =
      blendLevels target source opacity channel := by
  rw [blendArgb_eq visible partly]
  exact Channel.ofWord_pack _ (blendLevels_lt visible partly target source) channel

theorem exactOver_eq (partly : opacity ≤ 255) (target source : Nat) (channel : Channel) :
    exactOver target source opacity channel =
      (weighted target source opacity channel : ℚ) / (blendDenominator target opacity : ℚ) := by
  have remaining : ((256 - opacity : Nat) : ℚ) = 256 - opacity :=
    Nat.cast_sub (Nat.le_succ_of_le partly)
  rw [blendDenominator_eq partly, exactOver, weighted]
  push_cast
  rw [remaining]

theorem blendLevels_near (visible : 1 ≤ opacity) (partly : opacity ≤ 255) (target source : Nat)
    {channel : Channel} (color : channel ≠ .alpha) :
    (blendLevels target source opacity channel : ℚ) ≤ exactOver target source opacity channel ∧
      exactOver target source opacity channel - 2 < blendLevels target source opacity channel := by
  have bounds := blendDenominator_bounds visible partly target
  have positive : (0 : ℚ) < blendDenominator target opacity := by
    exact_mod_cast (by omega : 0 < blendDenominator target opacity)
  rw [exactOver_eq partly, blendLevels_of_ne_alpha target source opacity color]
  constructor
  · rw [le_div_iff₀ positive]
    exact_mod_cast reciprocal_mul_le (by omega) (by omega)
  · rw [sub_lt_iff_lt_add, div_lt_iff₀ positive]
    exact_mod_cast lt_reciprocal_add_two_mul (by omega)
      (weighted_le_scale visible partly target source channel) (by decide)

end Levels

/-! ## Words -/

/-- A value as the field of a channel, if it is one. -/
def field? (value : Int) : Option Nat :=
  if 0 ≤ value ∧ value ≤ 255 then some value.toNat else none

/-- Two words joined bit by bit, if no bit is set in both. -/
def join? (first second : Nat) : Option Nat :=
  if first &&& second = 0 then some (first ||| second) else none

/-- A channel of the source-over rule in 64-bit words.  It is not limited to its field. -/
def weighWords? (targetWeight sourceWeight : Int) (target source : Nat) : Option Nat := do
  let kept ← Word.word64? (targetWeight * target)
  let laid ← Word.word64? (sourceWeight * source)
  let sum ← Word.word64? (kept + laid)
  field? (sum / 16777216)

/-- The source-over rule for a source of some opacity, in 64-bit words.  The channels are shifted to
their fields and joined. -/
def blendWords? (target source opacity : Nat) : Option Nat := do
  let whole ← Word.word64? (256 * (Argb.alpha target : Int))
  let clear ← Word.word64? (255 - (Argb.alpha target : Int))
  let covered ← Word.word64? (opacity * clear)
  let denominator ← Word.word64? (whole + covered)
  let reciprocal ← Word.word64? (16777216 / denominator)
  let left ← Word.word64? (256 - (opacity : Int))
  let kept ← Word.word64? (left * Argb.alpha target)
  let targetWeight ← Word.word64? (kept * reciprocal)
  let laid ← Word.word64? (255 * (opacity : Int))
  let sourceWeight ← Word.word64? (laid * reciprocal)
  let alpha ← field? (denominator / 256)
  let red ← weighWords? targetWeight sourceWeight (Argb.red target) (Argb.red source)
  let green ← weighWords? targetWeight sourceWeight (Argb.green target) (Argb.green source)
  let blue ← weighWords? targetWeight sourceWeight (Argb.blue target) (Argb.blue source)
  let alphaRed ← join? (alpha <<< 24) (red <<< 16)
  let upper ← join? alphaRed (green <<< 8)
  join? upper blue

theorem field?_eq_some (level : Nat) {value : Int} (exact : value = level) (small : level < 256) :
    field? value = some level := by
  subst exact
  exact if_pos (by omega)

/-- Nothing is lost by joining a word to one that is shifted far enough. -/
theorem join?_shiftLeft (first : Nat) {second bits : Nat} (fits : second < Nat.pow 2 bits) :
    join? (first <<< bits) second = some (first <<< bits + second) := by
  have disjoint : first <<< bits &&& second = 0 := by
    apply Nat.eq_of_testBit_eq
    intro place
    rw [Nat.testBit_and, Nat.testBit_shiftLeft, Nat.zero_testBit]
    by_cases low : place < bits
    · simp [Nat.not_le.mpr low]
    · have above : second < Nat.pow 2 place :=
        Nat.lt_of_lt_of_le fits (Nat.pow_le_pow_right (by decide) (Nat.not_lt.mp low))
      rw [Nat.testBit_lt_two_pow above, Bool.and_false]
  rw [join?, if_pos disjoint, Nat.shiftLeft_add_eq_or_of_lt fits]

/-- A natural number far below the end of the range is a word. -/
theorem word64?_natCast (number : Nat) {value : Int} (exact : value = number)
    (small : number ≤ 4294967296) : Word.word64? value = some (number : Int) := by
  subst exact
  apply Word.word64?_eq_some
  unfold Word.Fits64 Word.min64 Word.max64
  omega

/-- Four fields are joined to a packed color. -/
theorem join_levels {levels : Channel → Nat} (small : ∀ channel, levels channel < 256) :
    (do let alphaRed ← join? (levels .alpha <<< 24) (levels .red <<< 16)
        let upper ← join? alphaRed (levels .green <<< 8)
        join? upper (levels .blue)) =
      some (Argb.pack (levels .alpha) (levels .red) (levels .green) (levels .blue)) := by
  have red := small .red
  have green := small .green
  have blue := small .blue
  have alphaRed : levels .alpha <<< 24 + levels .red <<< 16 =
      (levels .alpha <<< 8 + levels .red) <<< 16 := by
    simp only [Nat.shiftLeft_eq]
    omega
  have upper : (levels .alpha <<< 8 + levels .red) <<< 16 + levels .green <<< 8 =
      ((levels .alpha <<< 8 + levels .red) <<< 8 + levels .green) <<< 8 := by
    simp only [Nat.shiftLeft_eq]
    omega
  have alphaRedFits : levels .red <<< 16 < Nat.pow 2 24 := by
    rw [Nat.shiftLeft_eq]
    change _ < 16777216
    omega
  have upperFits : levels .green <<< 8 < Nat.pow 2 16 := by
    rw [Nat.shiftLeft_eq]
    change _ < 65536
    omega
  apply bind_eq_of_eq_some (join?_shiftLeft _ alphaRedFits)
  rw [alphaRed]
  apply bind_eq_of_eq_some (join?_shiftLeft _ upperFits)
  rw [upper, join?_shiftLeft _ blue]
  simp only [Nat.shiftLeft_eq, Argb.pack, Option.some.injEq]
  omega

section Words

variable {opacity : Nat}

theorem mul_reciprocal_le (bound : Nat) {numerator denominator : Nat}
    (within : numerator ≤ bound * denominator) :
    numerator * (16777216 / denominator) ≤ bound * 16777216 :=
  calc numerator * (16777216 / denominator)
      ≤ bound * denominator * (16777216 / denominator) := Nat.mul_le_mul_right _ within
    _ = bound * (denominator * (16777216 / denominator)) := Nat.mul_assoc ..
    _ ≤ bound * 16777216 := Nat.mul_le_mul_left _ (Nat.mul_div_le 16777216 denominator)

/-- The weights are shares of the whole in 24 bits. -/
theorem weights_le (partly : opacity ≤ 255) (target : Nat) :
    (256 - opacity) * Argb.alpha target * (16777216 / blendDenominator target opacity) ≤
        16777216 ∧
      255 * opacity * (16777216 / blendDenominator target opacity) ≤ 16777216 := by
  have whole := blendDenominator_eq partly target
  constructor
  · exact mul_reciprocal_le 1 (by omega)
  · exact mul_reciprocal_le 1 (by omega)

theorem weighWords?_eq (visible : 1 ≤ opacity) (partly : opacity ≤ 255) (target source : Nat)
    (channel : Channel) (color : channel ≠ .alpha) :
    weighWords?
        ((256 - opacity) * Argb.alpha target * (16777216 / blendDenominator target opacity) : Nat)
        (255 * opacity * (16777216 / blendDenominator target opacity) : Nat)
        (channel.ofWord target) (channel.ofWord source) =
      some (blendLevels target source opacity channel) := by
  have weights := weights_le partly target
  have targetLe := Nat.le_of_lt_succ (channel.ofWord_lt target)
  have sourceLe := Nat.le_of_lt_succ (channel.ofWord_lt source)
  have sumLe := mul_reciprocal_le 255 (weighted_le partly target source channel)
  rw [← weights_mul_eq] at sumLe
  have keptLe := Nat.mul_le_mul weights.1 targetLe
  have laidLe := Nat.mul_le_mul weights.2 sourceLe
  apply bind_eq_of_eq_some (word64?_natCast _ (Int.natCast_mul ..).symm (by omega))
  apply bind_eq_of_eq_some (word64?_natCast _ (Int.natCast_mul ..).symm (by omega))
  apply bind_eq_of_eq_some (word64?_natCast _ (Int.natCast_add ..).symm (by omega))
  apply field?_eq_some _ _ (blendLevels_lt visible partly target source channel)
  rw [weights_mul_eq, blendLevels_of_ne_alpha target source opacity color]
  exact (Int.natCast_ediv ..).symm

/-- Nothing overflows, no channel leaves its field, and no fields overlap. -/
theorem blendWords?_eq (visible : 1 ≤ opacity) (partly : opacity ≤ 255) (target source : Nat) :
    blendWords? target source opacity = some (blendArgb target source opacity) := by
  have alphaLe := Argb.alpha_le target
  have bounds := blendDenominator_bounds visible partly target
  have whole := blendDenominator_eq partly target
  have weights := weights_le partly target
  have covered : opacity * (255 - Argb.alpha target) ≤ blendDenominator target opacity :=
    Nat.le_add_left ..
  apply bind_eq_of_eq_some (word64?_natCast (256 * Argb.alpha target)
    (by omega) (by omega))
  apply bind_eq_of_eq_some (word64?_natCast (255 - Argb.alpha target)
    (by omega) (by omega))
  apply bind_eq_of_eq_some (word64?_natCast _ (Int.natCast_mul ..).symm (by omega))
  apply bind_eq_of_eq_some (word64?_natCast (blendDenominator target opacity)
    (Int.natCast_add ..).symm (by omega))
  apply bind_eq_of_eq_some (word64?_natCast _ (Int.natCast_ediv ..).symm
    ((Nat.div_le_self ..).trans (by decide)))
  apply bind_eq_of_eq_some (word64?_natCast (256 - opacity) (by omega) (by omega))
  apply bind_eq_of_eq_some (word64?_natCast _ (Int.natCast_mul ..).symm (by omega))
  apply bind_eq_of_eq_some (word64?_natCast _ (Int.natCast_mul ..).symm
    (weights.1.trans (by decide)))
  apply bind_eq_of_eq_some (word64?_natCast (255 * opacity) (by omega) (by omega))
  apply bind_eq_of_eq_some (word64?_natCast _ (Int.natCast_mul ..).symm
    (weights.2.trans (by decide)))
  apply bind_eq_of_eq_some (field?_eq_some (blendLevels target source opacity .alpha)
    (Int.natCast_ediv ..).symm (blendLevels_lt visible partly target source .alpha))
  apply bind_eq_of_eq_some
    (weighWords?_eq visible partly target source .red (by decide))
  apply bind_eq_of_eq_some
    (weighWords?_eq visible partly target source .green (by decide))
  apply bind_eq_of_eq_some
    (weighWords?_eq visible partly target source .blue (by decide))
  rw [join_levels (blendLevels_lt visible partly target source), blendArgb_eq visible partly]

/-- A source of some opacity, blended over any target with non-premultiplied colors: the alpha is
exact and not below that of the target, the color channels are less than two below the exact values
and not above them, and words and fields suffice. -/
theorem blend_argb_near_exact (visible : 1 ≤ opacity) (partly : opacity ≤ 255)
    (target source : Nat) :
    Argb.alpha (argb8888.blend target source opacity) =
        ((256 - opacity) * Argb.alpha target + 255 * opacity) / 256 ∧
      Argb.alpha target ≤ Argb.alpha (argb8888.blend target source opacity) ∧
      (∀ channel ≠ Channel.alpha,
        (channel.ofWord (argb8888.blend target source opacity) : ℚ) ≤
            exactOver target source opacity channel ∧
          exactOver target source opacity channel - 2 <
            channel.ofWord (argb8888.blend target source opacity)) ∧
      blendWords? target source opacity = some (argb8888.blend target source opacity) := by
  change Argb.alpha (blendArgb target source opacity) = _ ∧ _ ≤ Argb.alpha (blendArgb _ _ _) ∧
    (∀ channel ≠ Channel.alpha, (channel.ofWord (blendArgb _ _ _) : ℚ) ≤ _ ∧
      _ < (channel.ofWord (blendArgb _ _ _) : ℚ)) ∧ _ = some (blendArgb _ _ _)
  refine ⟨?_, alpha_le_alpha_blendArgb (Nat.ne_of_gt visible) (Nat.lt_succ_of_le partly) target
    source, ?_, blendWords?_eq visible partly target source⟩
  · rw [← blendDenominator_eq partly]
    exact ofWord_blendArgb visible partly target source .alpha
  · intro channel color
    rw [ofWord_blendArgb visible partly]
    exact blendLevels_near visible partly target source color

/-- Over a target that is hardly visible, a blue channel of almost 253 is drawn as 251. -/
theorem blend_argb_near_exact_faint :
    1 ≤ 240 ∧ 240 ≤ 255 ∧ argb8888.blend 45101339 4294363133 240 = 4025861883 ∧
      252 < exactOver 45101339 4294363133 240 .blue ∧
      (Channel.blue.ofWord (argb8888.blend 45101339 4294363133 240) : ℚ) ≤
        exactOver 45101339 4294363133 240 .blue ∧
      exactOver 45101339 4294363133 240 .blue - 2 <
        Channel.blue.ofWord (argb8888.blend 45101339 4294363133 240) ∧
      blendWords? 45101339 4294363133 240 = some 4025861883 := by
  obtain ⟨_, _, near, inWords⟩ :=
    blend_argb_near_exact (by decide : 1 ≤ 240) (by decide) 45101339 4294363133
  obtain ⟨atMost, above⟩ := near .blue (by decide)
  have blended : argb8888.blend 45101339 4294363133 240 = 4025861883 := by decide
  have exact : exactOver 45101339 4294363133 240 .blue = 15484464 / 61232 := by
    have targetAlpha : Argb.alpha 45101339 = 2 := by decide
    have targetBlue : Channel.blue.ofWord 45101339 = 27 := by decide
    have sourceBlue : Channel.blue.ofWord 4294363133 = 253 := by decide
    rw [exactOver, targetAlpha, targetBlue, sourceBlue]
    norm_num
  refine ⟨by decide, by decide, blended, ?_, atMost, above, blended ▸ inWords⟩
  rw [exact]
  norm_num

end Words

end PixelFormat

end Raster
