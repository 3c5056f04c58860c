import Raster.Canvas.Basic
import Raster.Path.Data
import Raster.Path.Offset
import Raster.Path.Store

/-!
# Drawing on a canvas

A path is started, received command by command and finished; it is drawn when it is
finished.  Commands outside a path are ignored.  The subpaths of a filled path are
closed by the canvas.  Shapes and recorded paths are whole paths of their own.
-/

namespace Raster.Canvas

/-- The chain that a path is sent through. -/
inductive Route where
  | fill
  | stroke
  | text
deriving Repr, DecidableEq

/-- The route of the paths of a mode. -/
def routeOf : PathMode → Route
  | .fill => .fill
  | .stroke => .stroke

/-- What the mode of a route is. -/
def Route.mode : Route → PathMode
  | .fill => .fill
  | .stroke => .stroke
  | .text => .fill

/-! ## Sending commands -/

/-- The transformation of recorded paths. -/
def textTransform (canvas : Canvas) : Affine :=
  match canvas.textExtra with
  | some extra => canvas.transform.concat extra
  | none => canvas.transform

/-- The chain of filled paths, built if there is none. -/
def readyFill (canvas : Canvas) : FillChain :=
  canvas.fillChain.getD (.build canvas.config canvas.transform)

/-- The chain of stroked paths, built if there is none. -/
def readyStroke (canvas : Canvas) : StrokeChain :=
  canvas.strokeChain.getD (.build canvas.config canvas.transform canvas.stroke)

/-- The chain of recorded paths, built if there is none. -/
def readyText (canvas : Canvas) : FillChain :=
  canvas.textChain.getD (.build canvas.config canvas.textTransform)

/-- Sends commands through a chain to the scanner. -/
def send (canvas : Canvas) (route : Route) (commands : List PathCommand) :
    Except Fault Canvas := do
  match route with
  | .fill =>
      let (chain, lines) := Stage.run FillChain.step canvas.readyFill commands
      pure { canvas with fillChain := some chain, scanner := ← canvas.scanner.send lines }
  | .stroke =>
      let (chain, lines) := Stage.run StrokeChain.step canvas.readyStroke commands
      pure { canvas with strokeChain := some chain, scanner := ← canvas.scanner.send lines }
  | .text =>
      let (chain, lines) := Stage.run FillChain.step canvas.readyText commands
      pure { canvas with textChain := some chain, scanner := ← canvas.scanner.send lines }

/-! ## Paths -/

/-- The part of the clip box inside a region; without a region, all of it. -/
def clipWithin (clip : Option PixelBox) : Option PixelBox → Option PixelBox
  | none => clip
  | some region =>
      match clip with
      | none => some region
      | some clip => some ((region.intersection? clip).getD .zero)

/-- Starts a path inside a region.  Strokes are always drawn by the nonzero rule. -/
def startWith (canvas : Canvas) (region : Option PixelBox) (mode : PathMode)
    (rule : WindingRule) : Canvas :=
  let clipped := canvas.scanner.setClip (clipWithin canvas.clip region)
  { canvas with
    drawing := true
    subpathOpen := false
    scanner := { clipped with rule := if mode = .fill then rule else .nonZero } }

/-- Starts a path. -/
def start (canvas : Canvas) (rule : WindingRule) : Canvas :=
  canvas.startWith none canvas.mode rule

/-- Starts a path that is drawn inside a rectangle of pixels only. -/
def startRegion (canvas : Canvas) (x y width height : Int) (rule : WindingRule) : Canvas :=
  canvas.startWith (some (region x y width height)) canvas.mode rule

/-- The canvas after a path. -/
def leave (canvas : Canvas) : Canvas :=
  { canvas with drawing := false, scanner := canvas.scanner.setClip canvas.clip }

/-- Ends the path on a route and draws it. -/
def finishOn (canvas : Canvas) (route : Route) : Except Fault Canvas := do
  let closing : List PathCommand :=
    if route ≠ .stroke ∧ canvas.subpathOpen then [.close, .finish] else [.finish]
  let drawn ← canvas.send route closing
  pure { drawn with subpathOpen := false }.leave

/-- Ends the path and draws it. -/
def finish (canvas : Canvas) : Except Fault Canvas :=
  if canvas.drawing then canvas.finishOn (routeOf canvas.mode) else .ok canvas

/-- Starts a subpath.  The one before it is closed if the path is filled. -/
def moveTo (canvas : Canvas) (point : Point) : Except Fault Canvas := do
  let commands : List PathCommand :=
    if canvas.mode = .fill ∧ canvas.subpathOpen then
      [.close, .moveTo point]
    else
      [.moveTo point]
  let moved ← canvas.send (routeOf canvas.mode) commands
  pure { moved with subpathOpen := true }

/-- Returns to the start of the subpath. -/
def close (canvas : Canvas) : Except Fault Canvas := do
  let closed ← canvas.send (routeOf canvas.mode) [.close]
  pure { closed with subpathOpen := false }

/-- Answers one command.  Outside a path it is ignored, and so is a corner mark,
since flattening marks all corners. -/
def step (canvas : Canvas) (command : PathCommand) : Except Fault Canvas :=
  if canvas.drawing then
    match command with
    | .moveTo point => canvas.moveTo point
    | .lineJoin => .ok canvas
    | .close => canvas.close
    | .finish => canvas.finish
    | segment => canvas.send (routeOf canvas.mode) [segment]
  else
    .ok canvas

/-- Answers a list of commands. -/
def draw (canvas : Canvas) (commands : List PathCommand) : Except Fault Canvas :=
  commands.foldlM step canvas

/-- Answers the commands of path data. -/
def drawData (canvas : Canvas) (codes : List Nat) (coordinates : List Float32) :
    Except Fault Canvas :=
  canvas.draw (PathData.commands codes (PathData.points coordinates))

/-! ## Whole paths -/

/-- Fills a path that is given as path data. -/
def fillData (canvas : Canvas) (codes : List Nat) (coordinates : List Float32)
    (rule : WindingRule) : Except Fault Canvas := do
  let received ← (canvas.start rule).drawData codes coordinates
  received.finish

/-- Records the coverage of a path that is given as path data.  The cache is attached
to the scanner for this path only. -/
def recordData (canvas : Canvas) (codes : List Nat) (coordinates : List Float32)
    (rule : WindingRule) (cache : CoverageCache) : Except Fault (Canvas × CoverageCache) := do
  let attached := { canvas with scanner := { canvas.scanner with cache := some cache } }
  let recorded ← attached.fillData codes coordinates rule
  pure
    ({ recorded with scanner := { recorded.scanner with cache := none } },
      recorded.scanner.cache.getD cache)

/-- Draws a recorded path with the current paint. -/
def replay (canvas : Canvas) (cache : CoverageCache) : Except Fault Canvas := do
  pure { canvas with scanner := ← canvas.scanner.replay cache }

/-- Fills a path that is given as path data, whatever the mode.  A valid cache is
replayed and the data ignored; an invalid one is recorded from the data first. -/
def renderPath (canvas : Canvas) (codes : List Nat) (coordinates : List Float32)
    (rule : WindingRule) (cache : Option CoverageCache) :
    Except Fault (Canvas × Option CoverageCache) := do
  let filling := canvas.setMode .fill
  match cache with
  | none =>
      let drawn ← filling.fillData codes coordinates rule
      pure (drawn.setMode canvas.mode, none)
  | some cache =>
      let (ready, cache) ←
        if cache.isValid then
          pure (filling, cache)
        else
          filling.recordData codes coordinates rule cache
      let drawn ← ready.replay cache
      pure (drawn.setMode canvas.mode, some cache)

/-- The canvas for recorded paths with an extra transformation. -/
def withTextExtra (canvas : Canvas) (extra : Option Affine) : Canvas :=
  if canvas.textExtra = extra then
    canvas
  else
    { canvas with textExtra := extra, textChain := none }

/-- Fills a recorded path, which an extra transformation maps to user space. -/
def fillStore (canvas : Canvas) (store : PathStore) (extra : Option Affine) :
    Except Fault Canvas := do
  let ready := canvas.withTextExtra extra
  let closing : List PathCommand := if store.isTerminated then [] else [.finish]
  let drawn ← (ready.startWith none .fill ready.rule).send .text (store.commands ++ closing)
  pure drawn.leave

/-! ## Shapes -/

/-- Draws outlines as one path. -/
def drawOutlines (canvas : Canvas) (route : Route) (rule : WindingRule)
    (outlines : List Outline) : Except Fault Canvas := do
  let started := canvas.startWith none route.mode rule
  (← started.send route (outlines.flatMap Outline.commands)).finishOn route

/-- Fills a shape. -/
def fillShape (canvas : Canvas) (shape : Shape) : Except Fault Canvas :=
  if shape.isDrawable then
    canvas.drawOutlines .fill canvas.rule [shape.outline]
  else
    .ok canvas

/-- The outlines that a stroke of a shape fills, if there is no stroke bias and they
can be had without the stroker. -/
def strokeOutlines? (canvas : Canvas) (shape : Shape) : Option (List Outline) :=
  if canvas.config.strokeBias = .origin then
    shape.strokeOutlines? canvas.stroke
  else
    none

/-- Strokes a shape. -/
def strokeShape (canvas : Canvas) (shape : Shape) : Except Fault Canvas :=
  if shape.isDrawable then
    match canvas.strokeOutlines? shape with
    | some outlines => canvas.drawOutlines .fill .nonZero outlines
    | none => canvas.drawOutlines .stroke canvas.rule [shape.outline]
  else
    .ok canvas

/-- Strokes a line. -/
def strokeLine (canvas : Canvas) (source target : Point) : Except Fault Canvas := do
  let started := canvas.startWith none .stroke .nonZero
  (← started.send .stroke [.moveTo source, .lineTo target]).finishOn .stroke

/-- Overwrites a rectangle of pixels by the color that was set last. -/
def clearRect (canvas : Canvas) (x y width height : Int) : Canvas :=
  { canvas with scanner := canvas.scanner.clearRect x y width height canvas.color }

end Raster.Canvas
