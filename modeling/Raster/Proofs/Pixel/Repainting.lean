import Raster.Proofs.Pixel.Mixing

/-!
# Painting a color over itself

A channel that is mixed with itself stays as it is, so that a format without alpha keeps a color
that it is painted with again.  The source-over rule divides by way of a rounded reciprocal, which
takes one level from every channel above zero unless the denominator divides `2 ^ 24`.  Over an
opaque target no further level is lost, because the channel then lies within the last rounding.
-/

namespace Raster

/-! ## Rounded reciprocals -/

section Reciprocal

variable {denominator scale : Nat}

/-- The product with the rounded reciprocal falls short of the scale by the remainder. -/
theorem mul_reciprocal_eq (denominator scale : Nat) :
    denominator * (scale / denominator) = scale - scale % denominator := by
  have divided := Nat.div_add_mod scale denominator
  omega

/-- A multiple of the denominator loses one to the rounded reciprocal, unless that is exact. -/
theorem multiple_mul_reciprocal_div (positive : 0 < denominator) (scalePos : 0 < scale)
    {value : Nat} (inRange : value * denominator ≤ scale) :
    value * denominator * (scale / denominator) / scale =
      if value = 0 ∨ denominator ∣ scale then value else value - 1 := by
  rw [Nat.mul_assoc, mul_reciprocal_eq]
  split
  · rename_i kept
    rcases kept with rfl | exact
    · simp
    · rw [Nat.mod_eq_zero_of_dvd exact, Nat.sub_zero, Nat.mul_div_cancel _ scalePos]
  · rename_i lost
    obtain ⟨nonzero, inexact⟩ := not_or.mp lost
    have remainderPos : 0 < scale % denominator := Nat.emod_pos_of_not_dvd inexact
    have missing : value * (scale % denominator) ≤ scale :=
      (Nat.mul_le_mul_left value (Nat.mod_lt scale positive).le).trans inRange
    have missingPos : 0 < value * (scale % denominator) :=
      Nat.mul_pos (Nat.pos_of_ne_zero nonzero) remainderPos
    have last : value * scale = (value - 1) * scale + scale := by
      rw [← Nat.succ_mul, Nat.succ_eq_add_one, Nat.sub_add_cancel (Nat.pos_of_ne_zero nonzero)]
    rw [Nat.mul_sub]
    apply Nat.div_eq_of_lt_le
    · omega
    · rw [Nat.succ_mul]
      omega

end Reciprocal

namespace PixelFormat

/-- The color channels of an element are those of the prepared color, whatever its alpha. -/
def HasColor (format : PixelFormat) (element argb : Nat) : Prop :=
  (format.colorFields.map fun field => field.read element) = format.prepare argb

instance (format : PixelFormat) (element argb : Nat) : Decidable (format.HasColor element argb) :=
  inferInstanceAs (Decidable (_ = _))

/-- An element has a color if it holds what a stored color holds. -/
theorem hasColor_iff {format : PixelFormat} {element argb : Nat} :
    format.HasColor element argb ↔
      ∀ field ∈ format.colorFields, field.read element = field.read (format.encode argb) := by
  rw [HasColor, ← read_encode, List.map_inj_left]

theorem hasColor_encode (format : PixelFormat) (argb : Nat) :
    format.HasColor (format.encode argb) argb :=
  format.read_encode argb

/-! ## Formats without alpha -/

/-- A channel that is mixed with itself stays as it is. -/
theorem mix_self {opacity : Nat} (partly : opacity ≤ Alpha.full) (value : Nat) :
    mix value value opacity = value := by
  obtain ⟨low, high⟩ := liesBetween_mix partly value value
  rw [Nat.min_self] at low
  rw [Nat.max_self] at high
  exact Nat.le_antisymm high low

/-- Three bytes and what is above them are all of an element. -/
theorem eq_of_bytes {first second : Nat} (above : first / 16777216 = second / 16777216)
    (bytes : ∀ field ∈ rgb888.colorFields, field.read first = field.read second) :
    first = second := by
  obtain ⟨red, green, blue⟩ := forall_colorFields_rgb888.mp bytes
  change first / 65536 % 256 = second / 65536 % 256 at red
  change first / 256 % 256 = second / 256 % 256 at green
  change first / 1 % 256 = second / 1 % 256 at blue
  omega

/-- The color fields and what is above them are all of an element. -/
theorem eq_of_fields {format : PixelFormat} {first second : Nat}
    (above : format.aboveColor first = format.aboveColor second)
    (fields : ∀ field ∈ format.colorFields, field.read first = field.read second) :
    first = second := by
  cases format with
  | rgb888 => exact eq_of_bytes above fields
  | argb8888 => exact eq_of_bytes above fields
  | rgb565 =>
      obtain ⟨red, green, blue⟩ := forall_colorFields_rgb565.mp fields
      change first / 65536 = second / 65536 at above
      change first / 2048 % 32 = second / 2048 % 32 at red
      change first / 32 % 64 = second / 32 % 64 at green
      change first / 1 % 32 = second / 1 % 32 at blue
      omega
  | gray8 =>
      have level := fields ⟨0, 8⟩ List.mem_cons_self
      change first / 256 = second / 256 at above
      change first / 1 % 256 = second / 1 % 256 at level
      omega

/-- An element that has the color becomes the element that stores it. -/
theorem blend_of_hasColor {format : PixelFormat} (noAlpha : format ≠ argb8888)
    {target argb opacity : Nat} (fits : target < Nat.pow 2 format.bits)
    (has : format.HasColor target argb) (partly : opacity ≤ Alpha.full) :
    format.blend target (format.encode argb) opacity = format.encode argb := by
  apply eq_of_fields (aboveColor_blend noAlpha fits partly argb)
  intro field member
  rw [read_blend noAlpha fits (encode_lt noAlpha argb) partly field member,
    hasColor_iff.mp has field member, mix_self partly]

/-! ## The source-over rule -/

/-- The color channels of an element with alpha are its bytes below the alpha. -/
theorem hasColor_argb8888_iff {element argb : Nat} :
    argb8888.HasColor element argb ↔
      ∀ channel : Channel, channel ≠ .alpha → channel.ofWord element = channel.ofWord argb := by
  rw [hasColor_iff]
  refine forall_colorFields_rgb888.trans ?_
  rw [read_lowest, read_lowest]
  constructor
  · rintro ⟨red, green, blue⟩ channel color
    cases channel with
    | alpha => exact absurd rfl color
    | red => exact red
    | green => exact green
    | blue => exact blue
  · intro same
    exact ⟨same .red (by decide), same .green (by decide), same .blue (by decide)⟩

/-- No color channel of the element is above that of the color. -/
def Faded (argb element : Nat) : Prop :=
  ∀ channel : Channel, channel ≠ .alpha → channel.ofWord element ≤ channel.ofWord argb

/-- The element is opaque, and each of its color channels is that of the color or one below. -/
def FadedOnce (argb element : Nat) : Prop :=
  Argb.alpha element = 255 ∧ Faded argb element ∧
    ∀ channel : Channel, channel ≠ .alpha → channel.ofWord argb ≤ channel.ofWord element + 1

section SourceOver

variable {target source opacity level : Nat} {channel : Channel}

theorem mul_blendDenominator_le (visible : 1 ≤ opacity) (partly : opacity ≤ 255)
    (small : level ≤ 255) :
    level * blendDenominator target opacity ≤ 16777216 := by
  have bounds := blendDenominator_bounds visible partly target
  calc level * blendDenominator target opacity
      ≤ 255 * 65280 := Nat.mul_le_mul small bounds.2
    _ ≤ 16777216 := by decide

variable (visible : 1 ≤ opacity) (partly : opacity ≤ 255) (color : channel ≠ .alpha)
include visible partly color

/-- A channel does not rise above both that of the target and that of the source. -/
theorem ofWord_blendArgb_le (targetLe : channel.ofWord target ≤ level)
    (sourceLe : channel.ofWord source ≤ level) :
    channel.ofWord (blendArgb target source opacity) ≤ level := by
  have bounds := blendDenominator_bounds visible partly target
  rw [ofWord_blendArgb visible partly, blendLevels_of_ne_alpha _ _ _ color]
  have inRange : blendDenominator target opacity ≤ 16777216 := by omega
  have product := (reciprocal_mul_le (by omega) inRange).trans
    (weighted_le_mul partly targetLe sourceLe)
  exact Nat.le_of_mul_le_mul_right product (by omega)

/-- A channel that has the level of the source keeps it if the reciprocal of the denominator is
exact, and else loses one, unless there is nothing to lose. -/
theorem ofWord_blendArgb_of_eq (same : channel.ofWord target = channel.ofWord source) :
    channel.ofWord (blendArgb target source opacity) =
      if channel.ofWord source = 0 ∨ blendDenominator target opacity ∣ 16777216 then
        channel.ofWord source
      else
        channel.ofWord source - 1 := by
  have bounds := blendDenominator_bounds visible partly target
  have small := Nat.le_of_lt_succ (channel.ofWord_lt source)
  have whole : weighted target source opacity channel =
      channel.ofWord source * blendDenominator target opacity :=
    Nat.le_antisymm (weighted_le_mul partly same.le (Nat.le_refl _))
      (mul_le_weighted partly same.ge (Nat.le_refl _))
  rw [ofWord_blendArgb visible partly, blendLevels_of_ne_alpha _ _ _ color, whole]
  exact multiple_mul_reciprocal_div (by omega) (by decide)
    (mul_blendDenominator_le visible partly small)

/-- Over an opaque target, a channel one level below that of the source sinks no further. -/
theorem le_ofWord_blendArgb_succ_of_opaque (solid : Argb.alpha target = 255)
    (near : channel.ofWord source ≤ channel.ofWord target + 1) :
    channel.ofWord source ≤ channel.ofWord (blendArgb target source opacity) + 1 := by
  have denominator : blendDenominator target opacity = 65280 := by
    rw [blendDenominator, solid]
    omega
  have small := Nat.le_of_lt_succ (channel.ofWord_lt source)
  rw [ofWord_blendArgb visible partly, blendLevels_of_ne_alpha _ _ _ color, denominator]
  unfold weighted
  rw [solid]
  generalize channel.ofWord source = level at *
  -- With `level = before + 1` the weighted sum is at least `65280 * before + 255 * opacity`.
  obtain rfl | ⟨before, rfl⟩ : level = 0 ∨ ∃ before, level = before + 1 := by
    cases level with
    | zero => exact .inl rfl
    | succ before => exact .inr ⟨before, rfl⟩
  · exact Nat.zero_le _
  · apply Nat.succ_le_succ
    rw [Nat.le_div_iff_mul_le (by decide)]
    obtain ⟨left, leftEq⟩ := Nat.exists_eq_add_of_le (Nat.le_succ_of_le partly)
    have remaining : 256 - opacity = left := by omega
    have kept : left * 255 * before ≤ left * 255 * channel.ofWord target :=
      Nat.mul_le_mul_left _ (Nat.le_of_succ_le_succ near)
    have sum : left * 255 * before + 255 * opacity * (before + 1) =
        (opacity + left) * 255 * before + 255 * opacity := by ring
    rw [remaining]
    rw [← leftEq] at sum
    omega

end SourceOver

/-- White fades by one level over opaque white.  Over white that is not opaque, the faintest paint
goes on to take levels from white. -/
theorem white_fades_of_repainting :
    argb8888.HasColor 4294967295 4294967295 ∧
      argb8888.blend 4294967295 4294967295 128 = 4294901502 ∧
      ¬ argb8888.HasColor (argb8888.blend 4294967295 4294967295 128) 4294967295 ∧
      argb8888.HasColor 3942645759 4294967295 ∧
      (List.replicate 115 1).foldl (argb8888.blend · 4294967295 ·) 3942645759 =
        Argb.pack 234 140 140 140 := by
  decide +kernel

/-! ## Repainting -/

/-- What drawing a color keeps true of an element. -/
def Survives (format : PixelFormat) (argb : Nat) (property : Nat → Prop) : Prop :=
  ∀ target opacity, Alpha.Bounds (Argb.alpha argb) opacity → property target →
    property (format.composite target (format.encode argb) opacity)

/-- Without alpha, an element that has the color keeps it. -/
theorem survives_hasColor {format : PixelFormat} (noAlpha : format ≠ argb8888) (argb : Nat) :
    format.Survives argb fun element =>
      element < Nat.pow 2 format.bits ∧ format.HasColor element argb := by
  have stored := And.intro (encode_lt noAlpha argb) (format.hasColor_encode argb)
  intro target opacity bounds holds
  rcases format.composite_cases target (format.encode argb) opacity with
    same | ⟨_, _, same⟩ | ⟨_, same⟩
  · rw [same]
    exact holds
  · rw [same, blend_of_hasColor noAlpha holds.1 holds.2 bounds.opacity_le]
    exact stored
  · rw [same]
    exact stored

theorem Faded.blend {argb target opacity : Nat} (faded : Faded argb target)
    (visible : 1 ≤ opacity) (partly : opacity ≤ 255) :
    Faded argb (blendArgb target argb opacity) := by
  intro channel color
  exact ofWord_blendArgb_le visible partly color (faded channel color) (Nat.le_refl _)

/-- With alpha, a channel that is not above that of the color never rises above it. -/
theorem survives_faded (argb : Nat) : argb8888.Survives argb (Faded argb) := by
  intro target opacity bounds faded
  change Faded argb (argb8888.composite target argb opacity)
  rcases argb8888.composite_cases target argb opacity with
    same | ⟨visible, partly, same⟩ | ⟨_, same⟩
  · rw [same]
    exact faded
  · rw [same]
    exact faded.blend visible partly
  · rw [same]
    exact fun _ _ => Nat.le_refl _

/-- An opaque element loses no more than one level, however often it is drawn over. -/
theorem survives_fadedOnce (argb : Nat) : argb8888.Survives argb (FadedOnce argb) := by
  intro target opacity bounds holds
  obtain ⟨solid, faded, near⟩ := holds
  change FadedOnce argb (argb8888.composite target argb opacity)
  rcases argb8888.composite_cases target argb opacity with
    same | ⟨visible, partly, same⟩ | ⟨covered, same⟩
  · rw [same]
    exact ⟨solid, faded, near⟩
  · have raised := alpha_le_alpha_blendArgb (Nat.ne_of_gt visible) (Nat.lt_succ_of_le partly)
      target argb
    rw [solid] at raised
    rw [same]
    refine ⟨Nat.le_antisymm (Argb.alpha_le _) raised, faded.blend visible partly, ?_⟩
    intro channel color
    exact le_ofWord_blendArgb_succ_of_opaque visible partly color solid (near channel color)
  · have solidSource := bounds.alpha_eq (Nat.le_antisymm bounds.opacity_le covered)
    rw [same]
    exact ⟨solidSource, fun _ _ => Nat.le_refl _, fun _ _ => Nat.le_succ _⟩

end PixelFormat

end Raster
