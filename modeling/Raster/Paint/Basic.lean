import Raster.Paint.Linear
import Raster.Paint.Radial
import Raster.Paint.Texture

/-!
# Paints

A paint gives every pixel a packed color.  A paint that cannot, such as a gradient
without length, is degenerate: it has no rows, and drawing with it does nothing.
-/

namespace Raster

/-- The source of the colors of covered pixels. -/
inductive Paint where
  | solid (color : Color)
  | linear (gradient : LinearGradient)
  | radial (gradient : RadialGradient)
  | image (texture : Texture)
deriving Repr, DecidableEq

namespace Paint

/-- The paint in use until another is set. -/
def default : Paint := solid .black

/-- The color of a flat paint. -/
def solidColor? : Paint → Option Color
  | solid color => some color
  | _ => none

/-- Whether the paint cannot produce colors. -/
def isDegenerate : Paint → Bool
  | solid _ => false
  | linear gradient => gradient.isDegenerate
  | radial gradient => gradient.isDegenerate
  | image texture => texture.isDegenerate

/-- The paint under another drawing transformation. -/
def draw (paint : Paint) (drawing : Affine) : Paint :=
  match paint with
  | solid color => solid color
  | linear gradient => linear (gradient.draw drawing)
  | radial gradient => radial (gradient.draw drawing)
  | image texture => .image (texture.draw drawing)

/-- The paint with another texture quality; other paints have none. -/
def setQuality (paint : Paint) (quality : Int) : Paint :=
  match paint with
  | image texture => .image (texture.setQuality quality)
  | other => other

/-- The colors of `count` pixels from `(x, y)` onward.  A degenerate paint has none, and
neither has a texture if one of their texels is missing. -/
def row? (paint : Paint) (x y : Int) (count : Nat) : Option (List Nat) :=
  match paint with
  | solid color => some (List.replicate count color.argb)
  | linear gradient => gradient.row? x y count
  | radial gradient => gradient.row? x y count
  | image texture => texture.row? x y count

/-- Overwrites a row of colors with those of the pixels from `(x, y)` onward.  A degenerate
paint leaves it as it is, and a missing texel is a fault. -/
def paintRow (paint : Paint) (x y : Int) (row : List Nat) : Except Fault (List Nat) :=
  if paint.isDegenerate then
    .ok row
  else
    match paint.row? x y row.length with
    | some colors => .ok colors
    | none => .error .texelOutsideBorder

/-! ## Blocks of rows -/

/-- Overwrites elements from `start` onward. -/
def overwrite (target : Array Nat) (start : Nat) (colors : List Nat) : Array Nat :=
  (colors.zipIdx start).foldl (fun target (color, index) => target.setIfInBounds index color)
    target

/-- A block of colors to be filled: its corner on the device, its size, and the
first and last touched pixel of each row relative to the corner. -/
structure Block where
  x : Int
  y : Int
  width : Nat
  height : Nat
  touched : List (Int × Int)
  /-- The distance between the starts of rows in the buffer. -/
  stride : Nat
deriving Repr, DecidableEq

/-- Fills the touched pixels of row `index`.  A row that does not fit the buffer is
a fault, even if the paint is degenerate. -/
def fillRow (paint : Paint) (block : Block) (index : Nat) (touched : Int × Int)
    (buffer : Array Nat) : Except Fault (Array Nat) :=
  let first := max touched.1 0
  let stop := min (touched.2 + 1) (Word.wrap64 block.width)
  if stop ≤ first then
    .ok buffer
  else
    let start := Word.wrapIndex (index * block.stride)
    if start + stop.toNat ≤ buffer.size then do
      let place := start + first.toNat
      let row := (buffer.extract place (start + stop.toNat)).toList
      let x := Word.wrap32 (block.x + first)
      let y := Word.wrap32 (block.y + index)
      pure (overwrite buffer place (← paint.paintRow x y row))
    else
      .error .rowOutsideBuffer

/-- Fills the touched pixels of a block. -/
def fillBlock (paint : Paint) (block : Block) (buffer : Array Nat) :
    Except Fault (Array Nat) :=
  ((block.touched.take block.height).zipIdx).foldlM
    (fun buffer (touched, index) => paint.fillRow block index touched buffer) buffer

end Paint

end Raster
