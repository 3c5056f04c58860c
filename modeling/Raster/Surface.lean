import Raster.Error
import Raster.Pixel.Format
import Raster.PixelBox

/-!
# Surfaces

A surface is a rectangle of pixels in a buffer of elements.  A layout says at which
index each pixel lies; it may leave gaps and may even put two pixels at one index.
A surface is only built if its buffer holds every pixel.

Drawing is a list of touches: a touch blends one color over one pixel.
-/

namespace Raster

/-- Where pixels lie in a buffer, counted in elements. -/
structure Layout where
  offset : Nat
  /-- The distance between vertically neighboring pixels. -/
  rowStride : Nat
  /-- The distance between horizontally neighboring pixels. -/
  pixelStride : Nat
deriving Repr, DecidableEq

namespace Layout

/-- The layout of tightly packed rows. -/
def packed (width : Nat) : Layout := ⟨0, width, 1⟩

/-- The index of the pixel `(x, y)`, whose coordinates are not negative. -/
def index (layout : Layout) (x y : Int) : Nat :=
  layout.offset + y.toNat * layout.rowStride + x.toNat * layout.pixelStride

end Layout

/-- A rectangle of pixels in a buffer. -/
structure Surface where
  format : PixelFormat
  width : Nat
  height : Nat
  layout : Layout
  elements : Array Nat
deriving Repr, DecidableEq

/-- One pixel to be drawn: a packed color and its opacity. -/
structure Touch where
  x : Int
  y : Int
  opacity : Nat
  argb : Nat
deriving Repr, DecidableEq

namespace Surface

/-- The greatest width and height, so that pixel coordinates are fixed-point
numbers. -/
def maxSize : Nat := 32768

/-- A surface over a buffer, if it is not too large and the buffer holds the last
pixel of the layout. -/
def new? (format : PixelFormat) (width height : Nat) (layout : Layout)
    (elements : Array Nat) : Except Error Surface :=
  if width > maxSize ∨ height > maxSize then
    .error (.surfaceTooLarge width height)
  else if width = 0 ∨ height = 0 then
    .ok ⟨format, width, height, layout, elements⟩
  else
    let required :=
      layout.offset + (height - 1) * layout.rowStride + (width - 1) * layout.pixelStride + 1
    if required ≥ Word.indexLimit then
      .error .layoutOverflow
    else if elements.size < required then
      .error (.bufferTooSmall required elements.size)
    else
      .ok ⟨format, width, height, layout, elements⟩

/-- The pixels of the surface. -/
def bounds (surface : Surface) : PixelBox :=
  .ofSize 0 0 surface.width surface.height

/-- The packed color of a pixel of the surface. -/
def get? (surface : Surface) (x y : Int) : Option Nat :=
  if surface.bounds.contains x y then
    surface.elements[surface.layout.index x y]?.map surface.format.decode
  else
    none

/-- The surface with one pixel drawn. -/
def touch (surface : Surface) (touch : Touch) : Surface :=
  let format := surface.format
  { surface with
    elements := surface.elements.modify (surface.layout.index touch.x touch.y) fun element =>
      format.composite element (format.encode touch.argb) touch.opacity }

/-- The surface with some pixels drawn, in order. -/
def draw (surface : Surface) (touches : List Touch) : Surface :=
  touches.foldl Surface.touch surface

/-- The surface with one pixel overwritten. -/
def store (surface : Surface) (argb : Nat) (x y : Int) : Surface :=
  let element := surface.format.encode argb
  { surface with
    elements := surface.elements.modify (surface.layout.index x y) fun _ => element }

/-- The pixels of a box that lie on the surface, row by row. -/
def visible (surface : Surface) (box : PixelBox) : List (Int × Int) :=
  let left := max box.left 0
  let top := max box.top 0
  let right := min (Word.clamp32 (box.left + box.width)) surface.width
  let bottom := min (Word.clamp32 (box.top + box.height)) surface.height
  (List.range (bottom - top).toNat).flatMap fun (row : Nat) =>
    (List.range (right - left).toNat).map fun (column : Nat) => (left + column, top + row)

/-- The surface with the pixels of a box overwritten; pixels off the surface are left
out. -/
def fill (surface : Surface) (box : PixelBox) (argb : Nat) : Surface :=
  (surface.visible box).foldl (fun surface (x, y) => surface.store argb x y) surface

@[simp]
theorem draw_nil (surface : Surface) : surface.draw [] = surface :=
  rfl

@[simp]
theorem draw_cons (surface : Surface) (first : Touch) (rest : List Touch) :
    surface.draw (first :: rest) = (surface.touch first).draw rest :=
  rfl

theorem draw_append (surface : Surface) (first second : List Touch) :
    surface.draw (first ++ second) = (surface.draw first).draw second := by
  simp [draw]

@[simp]
theorem size_elements_touch (surface : Surface) (touch : Touch) :
    (surface.touch touch).elements.size = surface.elements.size := by
  simp [Surface.touch]

@[simp]
theorem layout_touch (surface : Surface) (touch : Touch) :
    (surface.touch touch).layout = surface.layout :=
  rfl

end Surface

end Raster
