import Raster.Proofs.Pixel.Weighing

/-!
# Mixing channels without alpha

Where a format has no alpha, each channel of an element moves on its own from the channel of the
target to that of the source.  It never leaves the interval between the two, and hence not its
field, although differences are negative half of the time and the fields have different widths.
-/

namespace Raster

/-- The value is one of the two bounds or lies between them, whichever is the lower one. -/
def LiesBetween (first second value : Nat) : Prop :=
  min first second ≤ value ∧ value ≤ max first second

/-- The level moves from that of the target to that of the source while the opacity grows: it only
ever comes closer to the source, without passing it. -/
structure Interpolates (target source : Nat) (level : Nat → Nat) : Prop where
  clear : level 0 = target
  full : level Alpha.full = source
  between : ∀ opacity ≤ Alpha.full, LiesBetween target source (level opacity)
  toward : ∀ less more, less ≤ more → more ≤ Alpha.full →
    LiesBetween (level less) source (level more)

/-- Neighboring bits of an element. -/
structure BitField where
  /-- The number of bits below the field. -/
  below : Nat
  width : Nat
deriving Repr, DecidableEq

/-- What an element holds in the field. -/
def BitField.read (field : BitField) (element : Nat) : Nat :=
  element / Nat.pow 2 field.below % Nat.pow 2 field.width

namespace PixelFormat

/-- The fields of the color channels, from red to blue or only that of the luminance. -/
def colorFields : PixelFormat → List BitField
  | rgb888 => [⟨16, 8⟩, ⟨8, 8⟩, ⟨0, 8⟩]
  | argb8888 => [⟨16, 8⟩, ⟨8, 8⟩, ⟨0, 8⟩]
  | rgb565 => [⟨11, 5⟩, ⟨5, 6⟩, ⟨0, 5⟩]
  | gray8 => [⟨0, 8⟩]

/-- What an element holds above its color fields. -/
def aboveColor : PixelFormat → Nat → Nat
  | rgb888, element => element / 16777216
  | argb8888, element => element / 16777216
  | rgb565, element => element / 65536
  | gray8, element => element / 256

/-- The channels of a packed color in the ranges of the fields. -/
def prepare : PixelFormat → Nat → List Nat
  | rgb888, argb => [Argb.red argb, Argb.green argb, Argb.blue argb]
  | argb8888, argb => [Argb.red argb, Argb.green argb, Argb.blue argb]
  | rgb565, argb =>
      [narrow 31 (Argb.red argb), narrow 63 (Argb.green argb), narrow 31 (Argb.blue argb)]
  | gray8, argb => [luminance (Argb.red argb) (Argb.green argb) (Argb.blue argb)]

/-! ## One channel -/

section Mix

variable {target source opacity : Nat}

/-- The shares of a channel are those of a color, in steps of `1 / 256`. -/
theorem mix_eq_lerp (target source opacity : Nat) :
    mix target source opacity = Argb.lerp target source (opacity * 256) := by
  -- Both sums are rounded up by half a step before they are rounded down.
  have scaled : (target : Int) * 65536 + (source - target) * (opacity * 256) + 32768 =
      (target * 256 + (source - target) * opacity + 128) * 256 := by
    ring
  rw [mix, Argb.lerp, scaled]
  congr 1
  omega

theorem mix_le {high : Nat} (partly : opacity ≤ Alpha.full) (targetBelow : target ≤ high)
    (sourceBelow : source ≤ high) : mix target source opacity ≤ high := by
  unfold Alpha.full at partly
  rw [mix_eq_lerp]
  exact Argb.lerp_le (by omega) (by omega) targetBelow sourceBelow

theorem le_mix {low : Nat} (partly : opacity ≤ Alpha.full) (targetAbove : low ≤ target)
    (sourceAbove : low ≤ source) : low ≤ mix target source opacity := by
  unfold Alpha.full at partly
  rw [mix_eq_lerp]
  exact Argb.le_lerp (by omega) (by omega) targetAbove sourceAbove

theorem liesBetween_mix (partly : opacity ≤ Alpha.full) (target source : Nat) :
    LiesBetween target source (mix target source opacity) :=
  ⟨le_mix partly (Nat.min_le_left ..) (Nat.min_le_right ..),
    mix_le partly (Nat.le_max_left ..) (Nat.le_max_right ..)⟩

theorem mix_clear (target source : Nat) : mix target source 0 = target := by
  rw [mix_eq_lerp]
  exact Argb.lerp_zero target source

theorem mix_full (target source : Nat) : mix target source Alpha.full = source := by
  rw [mix_eq_lerp]
  exact Argb.lerp_one target source

theorem interpolates_mix (target source : Nat) :
    Interpolates target source (mix target source) where
  clear := mix_clear target source
  full := mix_full target source
  between _ partly := liesBetween_mix partly target source
  toward less more farther partly := by
    have share : (less : Int) * 256 ≤ more * 256 := by omega
    rcases Nat.le_total target source with rising | falling
    · have moved : mix target source less ≤ mix target source more := by
        rw [mix_eq_lerp, mix_eq_lerp]
        exact Argb.lerp_le_lerp rising share
      exact ⟨(Nat.min_le_left ..).trans moved,
        (mix_le partly rising (Nat.le_refl _)).trans (Nat.le_max_right ..)⟩
    · have moved : mix target source more ≤ mix target source less := by
        rw [mix_eq_lerp, mix_eq_lerp]
        exact Argb.lerp_le_lerp_of_ge falling share
      exact ⟨(Nat.min_le_right ..).trans (le_mix partly falling (Nat.le_refl _)),
        moved.trans (Nat.le_max_left ..)⟩

/-- A mixed channel fits the field that both channels fit. -/
theorem mix_lt_of_lt {limit : Nat} (partly : opacity ≤ Alpha.full) (targetFits : target < limit)
    (sourceFits : source < limit) : mix target source opacity < limit := by
  have below := mix_le partly (Nat.le_pred_of_lt targetFits) (Nat.le_pred_of_lt sourceFits)
  exact Nat.lt_of_le_pred (Nat.zero_lt_of_lt targetFits) below

theorem mix_mod_lt {limit : Nat} (partly : opacity ≤ Alpha.full) (positive : 0 < limit)
    (first second : Nat) : mix (first % limit) (second % limit) opacity < limit :=
  mix_lt_of_lt partly (Nat.mod_lt first positive) (Nat.mod_lt second positive)

end Mix

/-! ## The fields of an element -/

section Fields

variable {red green blue : Nat}

theorem forall_colorFields_rgb888 {property : BitField → Prop} :
    (∀ field ∈ rgb888.colorFields, property field) ↔
      property ⟨16, 8⟩ ∧ property ⟨8, 8⟩ ∧ property ⟨0, 8⟩ := by
  simp [colorFields]

theorem forall_colorFields_rgb565 {property : BitField → Prop} :
    (∀ field ∈ rgb565.colorFields, property field) ↔
      property ⟨11, 5⟩ ∧ property ⟨5, 6⟩ ∧ property ⟨0, 5⟩ := by
  simp [colorFields]

/-- The lowest field is read without a shift. -/
theorem read_lowest (width element : Nat) :
    BitField.read ⟨0, width⟩ element = element % Nat.pow 2 width :=
  congrArg (· % Nat.pow 2 width) (Nat.div_one element)

theorem read_pack (redFits : red < 256) (greenFits : green < 256) (blueFits : blue < 256)
    (alpha : Nat) :
    BitField.read ⟨16, 8⟩ (Argb.pack alpha red green blue) = red ∧
      BitField.read ⟨8, 8⟩ (Argb.pack alpha red green blue) = green ∧
      BitField.read ⟨0, 8⟩ (Argb.pack alpha red green blue) = blue :=
  ⟨Argb.red_pack redFits greenFits blueFits, Argb.green_pack greenFits blueFits,
    (read_lowest ..).trans (Argb.blue_pack blueFits)⟩

theorem read_pack565 (redFits : red < 32) (greenFits : green < 64) (blueFits : blue < 32) :
    BitField.read ⟨11, 5⟩ (pack565 red green blue) = red ∧
      BitField.read ⟨5, 6⟩ (pack565 red green blue) = green ∧
      BitField.read ⟨0, 5⟩ (pack565 red green blue) = blue := by
  rw [read_lowest]
  change (_ / 2048 % 32 = red) ∧ (_ / 32 % 64 = green) ∧ _ % 32 = blue
  unfold pack565
  omega

theorem pack_div (redFits : red < 256) (greenFits : green < 256) (blueFits : blue < 256)
    (alpha : Nat) : Argb.pack alpha red green blue / 16777216 = alpha := by
  unfold Argb.pack
  omega

theorem pack565_lt (redFits : red < 32) (greenFits : green < 64) (blueFits : blue < 32) :
    pack565 red green blue < 65536 := by
  unfold pack565
  omega

theorem color_lt (argb : Nat) :
    Argb.red argb < 256 ∧ Argb.green argb < 256 ∧ Argb.blue argb < 256 :=
  ⟨Channel.ofWord_lt .red argb, Channel.ofWord_lt .green argb, Channel.ofWord_lt .blue argb⟩

theorem narrow_lt {top channel : Nat} (fits : channel < 256) : narrow top channel < top + 1 := by
  have scaled : channel * top ≤ 255 * top := Nat.mul_le_mul_right top (Nat.le_of_lt_succ fits)
  unfold narrow
  omega

theorem luminance_lt (red green blue : Nat) : luminance red green blue < 256 := by
  unfold luminance
  omega

end Fields

/-! ## All channels of an element -/

/-- A stored color has the prepared channels in its fields. -/
theorem read_encode (format : PixelFormat) (argb : Nat) :
    (format.colorFields.map fun field => field.read (format.encode argb)) =
      format.prepare argb := by
  obtain ⟨redFits, greenFits, blueFits⟩ := color_lt argb
  cases format with
  | rgb888 =>
      obtain ⟨red, green, blue⟩ := read_pack redFits greenFits blueFits 255
      simp only [colorFields, List.map_cons, List.map_nil, encode, red, green, blue, prepare]
  | argb8888 =>
      simp only [colorFields, List.map_cons, List.map_nil, encode, read_lowest]
      rfl
  | rgb565 =>
      obtain ⟨red, green, blue⟩ :=
        read_pack565 (narrow_lt redFits) (narrow_lt greenFits) (narrow_lt blueFits)
      simp only [colorFields, List.map_cons, List.map_nil, encode, red, green, blue, prepare]
  | gray8 =>
      simp only [colorFields, List.map_cons, List.map_nil, encode, read_lowest, prepare]
      exact congrArg ([·]) (Nat.mod_eq_of_lt (luminance_lt ..))

/-- Blending mixes each channel on its own. -/
theorem read_blend {format : PixelFormat} (noAlpha : format ≠ argb8888)
    {target source opacity : Nat} (targetFits : target < Nat.pow 2 format.bits)
    (sourceFits : source < Nat.pow 2 format.bits) (partly : opacity ≤ Alpha.full) :
    ∀ field ∈ format.colorFields, field.read (format.blend target source opacity) =
      mix (field.read target) (field.read source) opacity := by
  have fits {limit : Nat} (positive : 0 < limit) := @mix_mod_lt opacity limit partly positive
  cases format with
  | rgb888 =>
      rw [forall_colorFields_rgb888, read_lowest 8 target, read_lowest 8 source]
      exact read_pack (fits (by decide) _ _) (fits (by decide) _ _) (fits (by decide) _ _) 255
  | argb8888 => exact absurd rfl noAlpha
  | rgb565 =>
      rw [forall_colorFields_rgb565, read_lowest 5 target, read_lowest 5 source]
      exact read_pack565 (fits (by decide) _ _) (fits (by decide) _ _) (fits (by decide) _ _)
  | gray8 =>
      intro field member
      obtain rfl := List.mem_singleton.mp member
      change target < Nat.pow 2 8 at targetFits
      change source < Nat.pow 2 8 at sourceFits
      rw [read_lowest, read_lowest, read_lowest, Nat.mod_eq_of_lt targetFits,
        Nat.mod_eq_of_lt sourceFits]
      exact Nat.mod_eq_of_lt (mix_lt_of_lt partly targetFits sourceFits)

/-- A stored color has only full alpha, if any, above its channels. -/
theorem encode_lt {format : PixelFormat} (noAlpha : format ≠ argb8888) (argb : Nat) :
    format.encode argb < Nat.pow 2 format.bits := by
  obtain ⟨redFits, greenFits, blueFits⟩ := color_lt argb
  cases format with
  | rgb888 =>
      have above := pack_div redFits greenFits blueFits 255
      change Argb.pack 255 _ _ _ < 4294967296
      omega
  | argb8888 => exact absurd rfl noAlpha
  | rgb565 =>
      exact pack565_lt (narrow_lt redFits) (narrow_lt greenFits) (narrow_lt blueFits)
  | gray8 => exact luminance_lt ..

/-- No channel reaches beyond the color fields. -/
theorem aboveColor_blend {format : PixelFormat} (noAlpha : format ≠ argb8888)
    {target opacity : Nat} (targetFits : target < Nat.pow 2 format.bits)
    (partly : opacity ≤ Alpha.full) (argb : Nat) :
    format.aboveColor (format.blend target (format.encode argb) opacity) =
      format.aboveColor (format.encode argb) := by
  have sourceFits := encode_lt noAlpha argb
  have fits {limit : Nat} (positive : 0 < limit) := @mix_mod_lt opacity limit partly positive
  cases format with
  | rgb888 =>
      obtain ⟨redFits, greenFits, blueFits⟩ := color_lt argb
      calc rgb888.blend target (rgb888.encode argb) opacity / 16777216
          = 255 := pack_div (fits (by decide) _ _) (fits (by decide) _ _) (fits (by decide) _ _) 255
        _ = rgb888.encode argb / 16777216 :=
          (pack_div redFits greenFits blueFits 255).symm
  | argb8888 => exact absurd rfl noAlpha
  | rgb565 =>
      have blendedFits : rgb565.blend target (rgb565.encode argb) opacity < 65536 :=
        pack565_lt (fits (by decide) _ _) (fits (by decide) _ _) (fits (by decide) _ _)
      exact (Nat.div_eq_of_lt blendedFits).trans (Nat.div_eq_of_lt sourceFits).symm
  | gray8 =>
      have blendedFits := mix_lt_of_lt partly targetFits sourceFits
      exact (Nat.div_eq_of_lt blendedFits).trans (Nat.div_eq_of_lt sourceFits).symm

/-! ## Words -/

/-- A value as the bits of a field, if it fits the field. -/
def bits? (width : Nat) (value : Int) : Option Nat :=
  if 0 ≤ value ∧ value < Nat.pow 2 width then some value.toNat else none

/-- A mixed channel in signed 32-bit words.  The sum is shifted to the right, which rounds it down
also if it is negative, and is not limited to its field. -/
def mixWords? (width target source opacity : Nat) : Option Nat := do
  let kept ← Word.word32? (target * 256)
  let difference ← Word.word32? ((source : Int) - target)
  let moved ← Word.word32? (difference * opacity)
  let sum ← Word.word32? (kept + moved)
  let biased ← Word.word32? (sum + 128)
  bits? width (biased / 256)

/-- Blending in words.  The channels are shifted to their fields and joined. -/
def blendFields? : PixelFormat → Nat → Nat → Nat → Option Nat
  | rgb888, target, source, opacity => do
      let red ← mixWords? 8 (Argb.red target) (Argb.red source) opacity
      let green ← mixWords? 8 (Argb.green target) (Argb.green source) opacity
      let blue ← mixWords? 8 (Argb.blue target) (Argb.blue source) opacity
      let alphaRed ← join? (255 <<< 24) (red <<< 16)
      let upper ← join? alphaRed (green <<< 8)
      join? upper blue
  | argb8888, target, source, opacity => blendWords? target source opacity
  | rgb565, target, source, opacity => do
      let red ← mixWords? 5 (target / 2048 % 32) (source / 2048 % 32) opacity
      let green ← mixWords? 6 (target / 32 % 64) (source / 32 % 64) opacity
      let blue ← mixWords? 5 (target % 32) (source % 32) opacity
      let upper ← join? (red <<< 11) (green <<< 5)
      join? upper blue
  | gray8, target, source, opacity => mixWords? 8 target source opacity

section Words

variable {width target source opacity : Nat}

/-- Channels of at most eight bits are mixed without an overflow and within their field. -/
theorem mixWords?_eq (small : width ≤ 8) (partly : opacity ≤ Alpha.full)
    (targetFits : target < Nat.pow 2 width) (sourceFits : source < Nat.pow 2 width) :
    mixWords? width target source opacity = some (mix target source opacity) := by
  have limit : Nat.pow 2 width ≤ 256 := Nat.pow_le_pow_right (by decide) small
  have mixedFits := mix_lt_of_lt partly targetFits sourceFits
  have split : ((source : Int) - target) * opacity = source * opacity - target * opacity :=
    Int.sub_mul ..
  have kept : (target : Int) * opacity ≤ target * 256 :=
    Int.mul_le_mul_of_nonneg_left (Int.ofNat_le.mpr partly) (Int.natCast_nonneg target)
  have laid : (source : Int) * opacity ≤ source * 256 :=
    Int.mul_le_mul_of_nonneg_left (Int.ofNat_le.mpr partly) (Int.natCast_nonneg source)
  have keptNonneg : (0 : Int) ≤ target * opacity := by positivity
  have laidNonneg : (0 : Int) ≤ source * opacity := by positivity
  -- Neither product exceeds `256 * 256`, whatever the sign of their difference.
  have word {value : Int} (low : -65536 ≤ value) (high : value ≤ 131200) :
      Word.word32? value = some value := by
    apply Word.word32?_eq_some
    unfold Word.Fits32 Word.min32 Word.max32
    omega
  apply bind_eq_of_eq_some (word (by omega) (by omega))
  apply bind_eq_of_eq_some (word (by omega) (by omega))
  apply bind_eq_of_eq_some (word (by omega) (by omega))
  apply bind_eq_of_eq_some (word (by omega) (by omega))
  apply bind_eq_of_eq_some (word (by omega) (by omega))
  exact if_pos ⟨by omega, by unfold mix at mixedFits; omega⟩

/-- The channels of an element below an alpha byte that is full. -/
def mixLevels (target source opacity : Nat) : Channel → Nat
  | .alpha => 255
  | channel => mix (channel.ofWord target) (channel.ofWord source) opacity

theorem mixLevels_lt (partly : opacity ≤ Alpha.full) (target source : Nat) (channel : Channel) :
    mixLevels target source opacity channel < 256 := by
  have mixed (channel : Channel) :
      mix (channel.ofWord target) (channel.ofWord source) opacity < 256 :=
    mix_lt_of_lt partly (channel.ofWord_lt target) (channel.ofWord_lt source)
  cases channel with
  | alpha => exact (by decide : 255 < 256)
  | red => exact mixed .red
  | green => exact mixed .green
  | blue => exact mixed .blue

/-- Three fields of five, six and five bits are joined to an element. -/
theorem join_fields565 {green blue : Nat} (greenFits : green < 64) (blueFits : blue < 32)
    (red : Nat) :
    (do let upper ← join? (red <<< 11) (green <<< 5)
        join? upper blue) = some (pack565 red green blue) := by
  have upper : red <<< 11 + green <<< 5 = (red <<< 6 + green) <<< 5 := by
    simp only [Nat.shiftLeft_eq]
    omega
  have greenShifted : green <<< 5 < Nat.pow 2 11 := by
    rw [Nat.shiftLeft_eq]
    change _ < 2048
    omega
  apply bind_eq_of_eq_some (join?_shiftLeft _ greenShifted)
  rw [upper, join?_shiftLeft _ blueFits]
  simp only [Nat.shiftLeft_eq, pack565, Option.some.injEq]
  omega

/-- Nothing overflows, no channel leaves its field, and no fields overlap. -/
theorem blendFields?_eq {format : PixelFormat} (noAlpha : format ≠ argb8888)
    (targetFits : target < Nat.pow 2 format.bits) (sourceFits : source < Nat.pow 2 format.bits)
    (partly : opacity ≤ Alpha.full) :
    blendFields? format target source opacity = some (format.blend target source opacity) := by
  have mixed {width limit : Nat} (small : width ≤ 8) (exact : Nat.pow 2 width = limit)
      (first second : Nat) : mixWords? width (first % limit) (second % limit) opacity =
        some (mix (first % limit) (second % limit) opacity) := by
    subst exact
    have positive : 0 < Nat.pow 2 width := Nat.pow_pos (by decide)
    exact mixWords?_eq small partly (Nat.mod_lt _ positive) (Nat.mod_lt _ positive)
  have fits {limit : Nat} (positive : 0 < limit) := @mix_mod_lt opacity limit partly positive
  cases format with
  | rgb888 =>
      apply bind_eq_of_eq_some (mixed (by decide) rfl _ _)
      apply bind_eq_of_eq_some (mixed (by decide) rfl _ _)
      apply bind_eq_of_eq_some (mixed (by decide) rfl _ _)
      have joined := join_levels (mixLevels_lt partly target source)
      simp only [mixLevels] at joined
      exact joined
  | argb8888 => exact absurd rfl noAlpha
  | rgb565 =>
      apply bind_eq_of_eq_some (mixed (by decide) rfl _ _)
      apply bind_eq_of_eq_some (mixed (by decide) rfl _ _)
      apply bind_eq_of_eq_some (mixed (by decide) rfl _ _)
      exact join_fields565 (fits (by decide) _ _) (fits (by decide) _ _) _
  | gray8 => exact mixWords?_eq (by decide) partly targetFits sourceFits

/-- In a format without alpha each channel of what is drawn interpolates between the channel of the
target and the prepared channel of the color, and words and fields suffice. -/
theorem opaque_blend_interpolates {format : PixelFormat} (noAlpha : format ≠ argb8888)
    {target : Nat} (targetFits : target < Nat.pow 2 format.bits) (argb : Nat) :
    (format.colorFields.map fun field => field.read (format.encode argb)) = format.prepare argb ∧
      (∀ field ∈ format.colorFields,
        Interpolates (field.read target) (field.read (format.encode argb)) fun opacity =>
          field.read (format.blend target (format.encode argb) opacity)) ∧
      ∀ opacity ≤ Alpha.full,
        blendFields? format target (format.encode argb) opacity =
            some (format.blend target (format.encode argb) opacity) ∧
          format.aboveColor (format.blend target (format.encode argb) opacity) =
            format.aboveColor (format.encode argb) := by
  have sourceFits := encode_lt noAlpha argb
  refine ⟨read_encode format argb, ?_, fun opacity partly =>
    ⟨blendFields?_eq noAlpha targetFits sourceFits partly,
      aboveColor_blend noAlpha targetFits partly argb⟩⟩
  intro field member
  have read (opacity : Nat) (partly : opacity ≤ Alpha.full) :=
    read_blend noAlpha targetFits sourceFits partly field member
  have mixes := interpolates_mix (field.read target) (field.read (format.encode argb))
  constructor
  · rw [read 0 (by decide)]
    exact mixes.clear
  · rw [read Alpha.full (Nat.le_refl _)]
    exact mixes.full
  · intro opacity partly
    rw [read opacity partly]
    exact mixes.between opacity partly
  · intro less more farther partly
    rw [read less (farther.trans partly), read more partly]
    exact mixes.toward less more farther partly

/-- White of five, six and five bits fades to dark red. -/
theorem opaque_blend_interpolates_darkening :
    rgb565 ≠ argb8888 ∧ 65535 < Nat.pow 2 rgb565.bits ∧
      rgb565.encode 4286578688 = 32768 ∧
      Interpolates (BitField.read ⟨5, 6⟩ 65535) (BitField.read ⟨5, 6⟩ 32768)
        (fun opacity => BitField.read ⟨5, 6⟩ (rgb565.blend 65535 32768 opacity)) ∧
      blendFields? rgb565 65535 32768 100 = some 52435 := by
  have encoded : rgb565.encode 4286578688 = 32768 := by decide
  obtain ⟨_, interpolates, words⟩ :=
    opaque_blend_interpolates (by decide : rgb565 ≠ argb8888) (by decide : 65535 < _) 4286578688
  have green := interpolates ⟨5, 6⟩ (by decide)
  have joined := (words 100 (by decide)).1
  rw [encoded] at green joined
  refine ⟨by decide, by decide, encoded, green, joined.trans (by decide)⟩

end Words

end PixelFormat

end Raster
