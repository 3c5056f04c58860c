import Raster.Canvas.Chain
import Raster.Scan.Scanner

/-!
# Canvases

A canvas is a scanner with the settings that drawing depends on: a transformation,
a stroke style, a winding rule, a clip box and a paint.  Its chains are built when
they are needed; a setting that a chain depends on drops the chain.
-/

namespace Raster

/-- How the path that a canvas receives is drawn. -/
inductive PathMode where
  | fill
  | stroke
deriving Repr, DecidableEq, Inhabited

/-- A scanner with settings and the path that is being drawn. -/
structure Canvas where
  config : Config
  scanner : Scanner
  /-- The map from user space to device space. -/
  transform : Affine
  stroke : StrokeStyle
  rule : WindingRule
  antialiasing : Bool
  /-- The pixels that may be drawn; without a box, the whole surface. -/
  clip : Option PixelBox
  color : Color
  /-- The ramp of the gradient that was set last, to be shared by the next one. -/
  ramp : Option Ramp
  mode : PathMode
  /-- Whether a path is being received. -/
  drawing : Bool
  /-- Whether the path has a subpath that is not closed. -/
  subpathOpen : Bool
  fillChain : Option FillChain
  strokeChain : Option StrokeChain
  /-- The chain of recorded paths. -/
  textChain : Option FillChain
  /-- What recorded paths are transformed by before they are in user space. -/
  textExtra : Option Affine
deriving Repr, DecidableEq

namespace Canvas

/-- The samples of a pixel with and without antialiasing. -/
def gridFor (config : Config) (antialiasing : Bool) : Grid :=
  if antialiasing then config.grid else .single

/-- A canvas on a surface. -/
def new (surface : Surface) (config : Config) : Canvas :=
  let grid := gridFor config config.antialiasing
  { config := config
    scanner := (Scanner.new surface).setGrid grid.lgX grid.lgY
    transform := .identity
    stroke := .default
    rule := .nonZero
    antialiasing := config.antialiasing
    clip := none
    color := .black
    ramp := none
    mode := .fill
    drawing := false
    subpathOpen := false
    fillChain := none
    strokeChain := none
    textChain := none
    textExtra := none }

/-- The surface with all that was drawn so far. -/
def surface (canvas : Canvas) : Surface :=
  canvas.scanner.surface

/-- The pixels that the last path touched. -/
def boundingBox (canvas : Canvas) : Option PixelBox :=
  canvas.scanner.boundingBox

/-- The paint in use. -/
def paint (canvas : Canvas) : Paint :=
  canvas.scanner.paint

/-! ## Settings -/

/-- The canvas without chains. -/
def dropChains (canvas : Canvas) : Canvas :=
  { canvas with fillChain := none, strokeChain := none, textChain := none }

/-- The canvas with another transformation from user space to device space. -/
def setTransform (canvas : Canvas) (transform : Affine) : Canvas :=
  { canvas.dropChains with
    transform := transform
    scanner := { canvas.scanner with paint := canvas.scanner.paint.draw transform } }

/-- The canvas with another stroke style. -/
def setStroke (canvas : Canvas) (style : StrokeStyle) : Canvas :=
  { canvas with stroke := style, strokeChain := none }

/-- The canvas with another winding rule for shapes and recorded paths. -/
def setRule (canvas : Canvas) (rule : WindingRule) : Canvas :=
  { canvas with rule := rule }

/-- The canvas with another path mode. -/
def setMode (canvas : Canvas) (mode : PathMode) : Canvas :=
  { canvas with mode := mode }

/-- The canvas with antialiasing on or off. -/
def setAntialiasing (canvas : Canvas) (antialiasing : Bool) : Canvas :=
  if canvas.antialiasing = antialiasing then
    canvas
  else
    let grid := gridFor canvas.config antialiasing
    { canvas.dropChains with
      antialiasing := antialiasing
      scanner := canvas.scanner.setGrid grid.lgX grid.lgY }

/-- A rectangle of pixels; a negative size counts as none. -/
def region (x y width height : Int) : PixelBox :=
  .ofSize x y (max width 0) (max height 0)

/-- The canvas with drawing restricted to a rectangle of pixels. -/
def setClip (canvas : Canvas) (x y width height : Int) : Canvas :=
  let box := region x y width height
  { canvas with clip := some box, scanner := canvas.scanner.setClip (some box) }

/-- The canvas with drawing restricted to the surface only. -/
def resetClip (canvas : Canvas) : Canvas :=
  { canvas with clip := none, scanner := canvas.scanner.setClip none }

/-! ## Paints -/

/-- The canvas with a paint that is defined in user space. -/
def setPaint (canvas : Canvas) (paint : Paint) : Canvas :=
  { canvas with scanner := { canvas.scanner with paint := paint.draw canvas.transform } }

/-- The canvas with a flat color. -/
def setColor (canvas : Canvas) (color : Color) : Canvas :=
  { canvas with
    color := color
    ramp := none
    scanner := { canvas.scanner with paint := .solid color } }

/-- The ramp of some stops, taken from the last gradient if it has the same. -/
def rampFor? (canvas : Canvas) (stops : List GradientStop) (cycle : Cycle) :
    Except Error Ramp :=
  match canvas.ramp with
  | some ramp => if ramp.isBuiltFrom stops cycle then .ok ramp else Ramp.new? stops cycle
  | none => Ramp.new? stops cycle

/-- The canvas with a gradient along a line. -/
def setLinear? (canvas : Canvas) (source target : Point) (stops : List GradientStop)
    (cycle : Cycle) (toUser : Affine) : Except Error Canvas := do
  let ramp ← canvas.rampFor? stops cycle
  pure ({ canvas with ramp := some ramp }.setPaint (.linear (.new source target ramp toUser)))

/-- The canvas with a gradient around a focus. -/
def setRadial? (canvas : Canvas) (center focus : Point) (radius : Int)
    (stops : List GradientStop) (cycle : Cycle) (toUser : Affine) : Except Error Canvas := do
  let ramp ← canvas.rampFor? stops cycle
  pure ({ canvas with ramp := some ramp }.setPaint
    (.radial (.new center focus radius ramp toUser)))

/-- The canvas with an image of packed colors. -/
def setTexture? (canvas : Canvas) (data : Array Nat) (width height stride : Nat)
    (repeats : Bool) (toUser : Affine) : Except Fault (Except Error Canvas) := do
  let texture ← Texture.new? data width height stride repeats toUser
  pure (texture.map fun texture => { canvas with ramp := none }.setPaint (.image texture))

/-- The canvas with another quality of its image; other paints have none. -/
def setQuality (canvas : Canvas) (quality : Int) : Canvas :=
  { canvas with
    scanner := { canvas.scanner with paint := canvas.scanner.paint.setQuality quality } }

end Canvas

end Raster
