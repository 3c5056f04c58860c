/-!
# Colors

A color has four 8-bit channels.  Paints and surfaces exchange colors packed
into one 32-bit word, `0xAARRGGBB`, carried as a `Nat`.  Channels are taken out
of a word by division and put together by addition, so that words and channels
share one arithmetic.
-/

namespace Raster

/-- A color with non-premultiplied alpha. -/
@[ext]
structure Color where
  red : UInt8
  green : UInt8
  blue : UInt8
  alpha : UInt8
deriving Repr, DecidableEq, Inhabited

namespace Argb

/-- The word with the given channels. -/
def pack (alpha red green blue : Nat) : Nat :=
  alpha * 16777216 + red * 65536 + green * 256 + blue

/-- The alpha channel of a word. -/
def alpha (word : Nat) : Nat :=
  word / 16777216 % 256

/-- The red channel of a word. -/
def red (word : Nat) : Nat :=
  word / 65536 % 256

/-- The green channel of a word. -/
def green (word : Nat) : Nat :=
  word / 256 % 256

/-- The blue channel of a word. -/
def blue (word : Nat) : Nat :=
  word % 256

/-- A channel moved from `first` toward `second` by a fixed-point share, rounded to
nearest. -/
def lerp (first second : Nat) (share : Int) : Nat :=
  (((first : Int) * 65536 + ((second : Int) - first) * share + 32768) / 65536).toNat

/-- `lerp` on each channel of two words. -/
def lerpWord (first second : Nat) (share : Int) : Nat :=
  pack (lerp (alpha first) (alpha second) share) (lerp (red first) (red second) share)
    (lerp (green first) (green second) share) (lerp (blue first) (blue second) share)

section Channels

variable {a r g b : Nat}

theorem alpha_pack (ha : a < 256) (hr : r < 256) (hg : g < 256) (hb : b < 256) :
    alpha (pack a r g b) = a := by
  unfold alpha pack
  omega

theorem red_pack (hr : r < 256) (hg : g < 256) (hb : b < 256) :
    red (pack a r g b) = r := by
  unfold red pack
  omega

theorem green_pack (hg : g < 256) (hb : b < 256) : green (pack a r g b) = g := by
  unfold green pack
  omega

theorem blue_pack (hb : b < 256) : blue (pack a r g b) = b := by
  unfold blue pack
  omega

end Channels

/-- A word is determined by its channels. -/
theorem pack_channels {word : Nat} (bound : word < 4294967296) :
    pack (alpha word) (red word) (green word) (blue word) = word := by
  unfold pack alpha red green blue
  omega

end Argb

namespace Color

/-- Opaque black. -/
def black : Color := ⟨0, 0, 0, 255⟩

/-- The color as a packed word. -/
def argb (color : Color) : Nat :=
  Argb.pack color.alpha.toNat color.red.toNat color.green.toNat color.blue.toNat

theorem alpha_argb (color : Color) : Argb.alpha color.argb = color.alpha.toNat :=
  Argb.alpha_pack color.alpha.toNat_lt color.red.toNat_lt color.green.toNat_lt
    color.blue.toNat_lt

end Color

end Raster
