import Raster.Color
import Raster.Pixel.Alpha

/-!
# Pixel formats

A surface stores one element per pixel.  A format says how a packed color is
written as an element, how an element is read back, and how one element is
blended over another with an opacity.  Elements are carried as natural numbers
below `2 ^ bits`.
-/

namespace Raster

/-- How the pixels of a surface are stored. -/
inductive PixelFormat where
  /-- Three 8-bit channels below an alpha byte that is always `255`. -/
  | rgb888
  /-- Three 8-bit channels below a non-premultiplied alpha byte. -/
  | argb8888
  /-- Five, six and five bits of red, green and blue. -/
  | rgb565
  /-- Eight bits of luminance. -/
  | gray8
deriving Repr, DecidableEq, Inhabited

namespace PixelFormat

/-- The number of bits of an element. -/
def bits : PixelFormat → Nat
  | rgb888 => 32
  | argb8888 => 32
  | rgb565 => 16
  | gray8 => 8

/-- An 8-bit channel scaled to the range `0 .. top`, rounded to nearest. -/
def narrow (top channel : Nat) : Nat :=
  (channel * top + 127) / 255

/-- A channel in the range `0 .. top` scaled to 8 bits, rounded to nearest. -/
def widen (top channel : Nat) : Nat :=
  (channel * 255 + top / 2) / top

/-- The luminance of a color, as a weighted sum of its channels.  The weights sum
to slightly more than one, hence the limit. -/
def luminance (red green blue : Nat) : Nat :=
  min 255 ((19961 * red + 38666 * green + 7209 * blue) / 65536)

/-- The element that stores five, six and five bits. -/
def pack565 (red green blue : Nat) : Nat :=
  red * 2048 + green * 32 + blue

/-- The element that stores a packed color. -/
def encode : PixelFormat → Nat → Nat
  | rgb888, argb => Argb.pack 255 (Argb.red argb) (Argb.green argb) (Argb.blue argb)
  | argb8888, argb => argb
  | rgb565, argb =>
      pack565 (narrow 31 (Argb.red argb)) (narrow 63 (Argb.green argb))
        (narrow 31 (Argb.blue argb))
  | gray8, argb => luminance (Argb.red argb) (Argb.green argb) (Argb.blue argb)

/-- The packed color that an element stands for. -/
def decode : PixelFormat → Nat → Nat
  | rgb888, element =>
      Argb.pack 255 (Argb.red element) (Argb.green element) (Argb.blue element)
  | argb8888, element => element
  | rgb565, element =>
      Argb.pack 255 (widen 31 (element / 2048 % 32)) (widen 63 (element / 32 % 64))
        (widen 31 (element % 32))
  | gray8, element => Argb.pack 255 element element element

/-- A channel moved from `target` toward `source` by the share `opacity`,
rounded to nearest. -/
def mix (target source opacity : Nat) : Nat :=
  (((target : Int) * 256 + ((source : Int) - target) * opacity + 128) / 256).toNat

/-- A color channel of the source-over rule, with the weights of target and
source given as multiples of `2 ^ -24`. -/
def weigh (targetWeight sourceWeight target source : Nat) : Nat :=
  min 255 ((targetWeight * target + sourceWeight * source) / 16777216)

/-- The source-over rule for non-premultiplied colors.  The common denominator of
the channels is inverted once, to 24 bits, and rounded down. -/
def blendArgb (target source opacity : Nat) : Nat :=
  let targetAlpha := Argb.alpha target
  let denominator := 256 * targetAlpha + opacity * (255 - targetAlpha)
  if denominator = 0 then
    0
  else
    let reciprocal := 16777216 / denominator
    let targetWeight := (256 - opacity) * targetAlpha * reciprocal
    let sourceWeight := 255 * opacity * reciprocal
    Argb.pack (denominator / 256)
      (weigh targetWeight sourceWeight (Argb.red target) (Argb.red source))
      (weigh targetWeight sourceWeight (Argb.green target) (Argb.green source))
      (weigh targetWeight sourceWeight (Argb.blue target) (Argb.blue source))

/-- The element `target` with the element `source` blended over it. -/
def blend : PixelFormat → Nat → Nat → Nat → Nat
  | rgb888, target, source, opacity =>
      Argb.pack 255
        (mix (Argb.red target) (Argb.red source) opacity)
        (mix (Argb.green target) (Argb.green source) opacity)
        (mix (Argb.blue target) (Argb.blue source) opacity)
  | argb8888, target, source, opacity => blendArgb target source opacity
  | rgb565, target, source, opacity =>
      pack565
        (mix (target / 2048 % 32) (source / 2048 % 32) opacity)
        (mix (target / 32 % 64) (source / 32 % 64) opacity)
        (mix (target % 32) (source % 32) opacity)
  | gray8, target, source, opacity => mix target source opacity

/-- The element left by drawing `source` over `target`: nothing changes without
opacity, and a full opacity stores the source. -/
def composite (format : PixelFormat) (target source opacity : Nat) : Nat :=
  if opacity = 0 then
    target
  else if opacity < Alpha.full then
    format.blend target source opacity
  else
    source

@[simp]
theorem composite_zero (format : PixelFormat) (target source : Nat) :
    format.composite target source 0 = target := by
  simp [composite]

theorem composite_of_full_le (format : PixelFormat) (target source : Nat)
    {opacity : Nat} (full : Alpha.full ≤ opacity) :
    format.composite target source opacity = source := by
  unfold Alpha.full at full
  unfold composite Alpha.full
  rw [if_neg (by omega), if_neg (by omega)]

end PixelFormat

end Raster
