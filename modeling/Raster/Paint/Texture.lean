import Raster.Color
import Raster.Error
import Raster.Paint.Space

/-!
# Textures

A texture paints with an image, whose texel `(i, j)` covers one unit square of
paint space.  Outside the image it repeats or is transparent.  The image is kept
with a border one texel wide, which holds the neighbors that interpolation needs:
texels of the opposite edge if the texture repeats, of the same edge otherwise.
-/

namespace Raster

/-- An image paint. -/
structure Texture where
  width : Nat
  height : Nat
  /-- The image with its border, row by row, as packed colors. -/
  texels : Array Nat
  repeats : Bool
  /-- Whether texels are interpolated between their centers. -/
  interpolates : Bool
  space : PaintSpace
  /-- From device space to texture space; a singular space has none. -/
  inverse : Option Affine
deriving Repr, DecidableEq

namespace Texture

/-- The image coordinate that a coordinate of the bordered image shows, for an image
of `extent` texels. -/
def borderSource (repeats : Bool) (extent index : Nat) : Nat :=
  if index = 0 then
    if repeats then extent - 1 else 0
  else if index = extent + 1 then
    if repeats then 0 else extent - 1
  else
    index - 1

/-- A row of the bordered image, taken from the row of texels at `start`. -/
def borderedRow (data : Array Nat) (width : Nat) (repeats : Bool) (start : Nat) :
    Except Fault (List Nat) :=
  if start + width ≤ data.size then
    .ok ((List.range (width + 2)).map fun column =>
      data.getD (start + borderSource repeats width column) 0)
  else
    .error .texelsOutsideBuffer

/-- The number of texels of the bordered image, as a buffer index. -/
def borderedCount (width height : Nat) : Nat :=
  Word.wrapIndex ((width + 2) * (height + 2))

/-- The bordered image.  The number of its texels and the starts of rows are buffer
indices; only whole rows are filled, and texels behind the last one stay zero. -/
def bordered (data : Array Nat) (width height stride : Nat) (repeats : Bool) :
    Except Fault (Array Nat) :=
  let count := borderedCount width height
  if Word.maxLength < count then
    .error .bufferTooLarge
  else do
    let rows ← (List.range (count / (width + 2))).mapM fun row =>
      borderedRow data width repeats (Word.wrapIndex (borderSource repeats height row * stride))
    pure (rows.flatten ++ List.replicate (count % (width + 2)) 0).toArray

/-- A texture of `height` rows of `width` texels, which start `stride` elements
apart.  The length that this requires is a buffer index. -/
def new? (data : Array Nat) (width height stride : Nat) (repeats : Bool) (toUser : Affine) :
    Except Fault (Except Error Texture) :=
  if width = 0 ∨ height = 0 then
    .ok (.error .emptyTexture)
  else if stride < width then
    .ok (.error (.textureStrideTooSmall stride width))
  else
    let required := Word.wrapIndex (stride * (height - 1) + width)
    if data.size < required then
      .ok (.error (.textureBufferTooSmall required data.size))
    else do
      let texels ← bordered data width height stride repeats
      let space := PaintSpace.new toUser
      pure (.ok
        { width := width
          height := height
          texels := texels
          repeats := repeats
          interpolates := false
          space := space
          inverse := space.fromDevice })

/-- The texture with another quality, a fixed-point number; above one half, texels
are interpolated. -/
def setQuality (texture : Texture) (quality : Int) : Texture :=
  { texture with interpolates := quality > Fixed.half }

/-- The texture under another drawing transformation. -/
def draw (texture : Texture) (drawing : Affine) : Texture :=
  let space := texture.space.draw drawing
  { texture with space := space, inverse := space.fromDevice }

/-- Whether the texture cannot produce colors. -/
def isDegenerate (texture : Texture) : Bool :=
  texture.inverse.isNone

/-- The texel at a column and a row of the image, either of which may lie one
outside it.  Its place is a buffer index. -/
def texel? (texture : Texture) (column row : Int) : Option Nat :=
  texture.texels[Word.wrapIndex ((row + 1) * (texture.width + 2) + (column + 1)).toNat]?

/-- A fixed-point coordinate folded into an image of `extent` texels; outside a
texture that does not repeat there is none. -/
def fold? (repeats : Bool) (extent : Nat) (coordinate : Int) : Option Int :=
  let limit : Int := extent * 65536
  if repeats then
    some (coordinate % limit)
  else if coordinate < 0 ∨ limit ≤ coordinate then
    none
  else
    some coordinate

/-- The color between the four texels whose centers surround a position. -/
def interpolate? (texture : Texture) (x y : Int) : Option Nat := do
  let left := (x - Fixed.half) / 65536
  let top := (y - Fixed.half) / 65536
  let shareX := (x - Fixed.half) % 65536
  let shareY := (y - Fixed.half) % 65536
  let upper := Argb.lerpWord (← texture.texel? left top) (← texture.texel? (left + 1) top) shareX
  let lower :=
    Argb.lerpWord (← texture.texel? left (top + 1)) (← texture.texel? (left + 1) (top + 1)) shareX
  pure (Argb.lerpWord upper lower shareY)

/-- The color at a fixed-point position of texture space.  There is none only if a
texel is missing. -/
def sample? (texture : Texture) (x y : Int) : Option Nat :=
  match fold? texture.repeats texture.width x, fold? texture.repeats texture.height y with
  | some x, some y =>
      if texture.interpolates then
        texture.interpolate? x y
      else
        texture.texel? (x / 65536) (y / 65536)
  | _, _ => some 0

/-- The texture coordinate of the center of the pixel `(x, y)`, as a signed 64-bit
integer. -/
def coordinate (perX perY base x y : Int) : Int :=
  Word.wrap64 (perX * x + perY * y + base + perX / 2 + perY / 2)

/-- The positions of the centers of `count` pixels from `(x, y)` onward.  The position is
stepped from pixel to pixel. -/
def positions (inverse : Affine) (x y : Int) (count : Nat) : List (Int × Int) :=
  (Word.steps inverse.xx count (coordinate inverse.xx inverse.xy inverse.dx x y)).zip
    (Word.steps inverse.yx count (coordinate inverse.yx inverse.yy inverse.dy x y))

/-- The colors of `count` pixels from `(x, y)` onward, unless a texel is missing. -/
def row? (texture : Texture) (x y : Int) (count : Nat) : Option (List Nat) :=
  texture.inverse.bind fun inverse =>
    (positions inverse x y count).mapM fun (x, y) => texture.sample? x y

end Texture

end Raster
