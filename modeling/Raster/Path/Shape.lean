import Raster.Path.Outline

/-!
# Shapes

A shape is inscribed in a frame.  Shapes without area are not drawn, nor are those
with a side longer than a limit that keeps sums of sides within a word.
-/

namespace Raster

/-- The rectangle that a shape is inscribed in. -/
structure Frame where
  x : Int
  y : Int
  width : Int
  height : Int
deriving Repr, DecidableEq

namespace Frame

/-- The longest side of a frame: 16384 pixels. -/
def maxSide : Int := 1073741824

/-- Whether both sides are positive and within the limit. -/
def isDrawable (frame : Frame) : Bool :=
  0 < frame.width && 0 < frame.height && frame.width ≤ maxSide && frame.height ≤ maxSide

/-- The frame with its sides moved outward by half a line width. -/
def outset (frame : Frame) (line : Int) : Frame :=
  { x := Word.wrap32 (frame.x - line / 2)
    y := Word.wrap32 (frame.y - line / 2)
    width := Word.wrap32 (frame.width + line)
    height := Word.wrap32 (frame.height + line) }

/-- The frame with its sides moved inward by half a line width. -/
def inset (frame : Frame) (line : Int) : Frame :=
  { x := Word.wrap32 (frame.x + line / 2)
    y := Word.wrap32 (frame.y + line / 2)
    width := Word.wrap32 (frame.width - line)
    height := Word.wrap32 (frame.height - line) }

end Frame

/-- What is inscribed in a frame. -/
inductive ShapeKind where
  /-- The frame itself. -/
  | rect
  /-- The greatest ellipse. -/
  | oval
  /-- The frame with elliptical corners of the given diameters. -/
  | roundRect (arcWidth arcHeight : Int)
  /-- A part of the greatest ellipse; angles are in degrees. -/
  | arc (start extent : Int) (closure : ArcClosure)
deriving Repr, DecidableEq

/-- A shape. -/
structure Shape where
  frame : Frame
  kind : ShapeKind
deriving Repr, DecidableEq

namespace Shape

/-- The outline of a shape. -/
def outline (shape : Shape) : Outline :=
  let ⟨x, y, width, height⟩ := shape.frame
  match shape.kind with
  | .rect => .rect x y width height
  | .oval => .oval x y width height
  | .roundRect arcWidth arcHeight => .roundRect x y width height arcWidth arcHeight
  | .arc start extent closure => .arc x y width height start extent closure

/-- Whether there is anything to be drawn. -/
def isDrawable (shape : Shape) : Bool :=
  shape.frame.isDrawable &&
    match shape.kind with
    | .arc _ extent _ => extent ≠ 0
    | _ => true

end Shape

end Raster
