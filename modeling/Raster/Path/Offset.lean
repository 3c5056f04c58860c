import Raster.Path.Shape
import Raster.Path.Stroker

/-!
# Strokes of shapes by offsetting

The stroke of some shapes lies between two shapes of the same kind, whose frames
are half a line width larger and smaller.  Such a stroke is filled directly.
-/

namespace Raster

namespace StrokeStyle

/-- The miter ratio of a right angle, the square root of two. -/
def squareMiter : Int := 92682

/-- Whether lines are solid and have a width. -/
def isSolid (style : StrokeStyle) : Bool :=
  style.dash.isEmpty && 0 < style.width

/-- Whether lines are solid and right angles keep their miters. -/
def isSquare (style : StrokeStyle) : Bool :=
  style.join = .miter && squareMiter ≤ style.miterLimit && style.isSolid

end StrokeStyle

namespace Frame

/-- Whether both sides are longer than a line is wide. -/
def exceeds (frame : Frame) (line : Int) : Bool :=
  line < frame.width && line < frame.height

end Frame

namespace Shape

/-- The shape around a stroke and the shape inside it, which runs backward. -/
def nested (frame : Frame) (line : Int) (outer inner : ShapeKind) : List Outline :=
  [ (Shape.mk (frame.outset line) outer).outline
  , (Shape.mk (frame.inset line) inner).outline.reverse ]

/-- The outlines of the stroke of a shape, if offsetting the shape gives them: of a
rectangle with mitered corners, of a circle, and of a rectangle with equal round
corners.  A circle that is not wider than the line has no inside. -/
def strokeOutlines? (style : StrokeStyle) (shape : Shape) : Option (List Outline) :=
  let frame := shape.frame
  let line := style.width
  match shape.kind with
  | .rect =>
      if style.isSquare && frame.exceeds line then
        some (nested frame line .rect .rect)
      else
        none
  | .oval =>
      if frame.width = frame.height && style.isSolid then
        if line < frame.width then
          some (nested frame line .oval .oval)
        else
          some [(Shape.mk (frame.outset line) .oval).outline]
      else
        none
  | .roundRect arcWidth arcHeight =>
      if arcWidth = arcHeight && arcWidth ≤ min frame.width frame.height &&
          (0 < arcWidth || style.isSquare) && style.isSolid && frame.exceeds line then
        let outerArc := Word.wrap32 (arcWidth + line)
        let innerArc := max (Word.wrap32 (arcWidth - line)) 0
        some (nested frame line (.roundRect outerArc outerArc) (.roundRect innerArc innerArc))
      else
        none
  | .arc _ _ _ => none

end Shape

end Raster
