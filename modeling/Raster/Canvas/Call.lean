import Raster.Canvas.Drawing

/-!
# Calls to a canvas

All that can be done to a canvas, as data.  A canvas is reachable if calls lead to it
from a new one.
-/

namespace Raster.Canvas

/-- An operation on a canvas with its arguments. -/
inductive Call where
  | setTransform (transform : Affine)
  | setStroke (style : StrokeStyle)
  | setRule (rule : WindingRule)
  | setMode (mode : PathMode)
  | setAntialiasing (antialiasing : Bool)
  | setClip (x y width height : Int)
  | resetClip
  | setColor (color : Color)
  | setLinear (source target : Point) (stops : List GradientStop) (cycle : Cycle)
      (toUser : Affine)
  | setRadial (center focus : Point) (radius : Int) (stops : List GradientStop)
      (cycle : Cycle) (toUser : Affine)
  | setTexture (data : Array Nat) (width height stride : Nat) (repeats : Bool)
      (toUser : Affine)
  | setQuality (quality : Int)
  | start (rule : WindingRule)
  | startRegion (x y width height : Int) (rule : WindingRule)
  | finish
  | draw (commands : List PathCommand)
  | drawData (codes : List Nat) (coordinates : List Float32)
  | renderPath (codes : List Nat) (coordinates : List Float32) (rule : WindingRule)
      (cache : Option CoverageCache)
  | fillStore (store : PathStore) (extra : Option Affine)
  | fillShape (shape : Shape)
  | strokeShape (shape : Shape)
  | strokeLine (source target : Point)
  | clearRect (x y width height : Int)

/-- What a call answers, apart from the canvas after it. -/
inductive Reply where
  | done
  /-- The paint could not be built, and the canvas is as it was. -/
  | refused (error : Error)
  /-- The cache that belongs to the path. -/
  | cached (cache : Option CoverageCache)
deriving Repr, DecidableEq

/-- The answer of a call that may be refused. -/
def orRefused (canvas : Canvas) : Except Error Canvas → Canvas × Reply
  | .ok next => (next, .done)
  | .error error => (canvas, .refused error)

/-- Performs a call. -/
def perform (canvas : Canvas) : Call → Except Fault (Canvas × Reply)
  | .setTransform transform => .ok (canvas.setTransform transform, .done)
  | .setStroke style => .ok (canvas.setStroke style, .done)
  | .setRule rule => .ok (canvas.setRule rule, .done)
  | .setMode mode => .ok (canvas.setMode mode, .done)
  | .setAntialiasing antialiasing => .ok (canvas.setAntialiasing antialiasing, .done)
  | .setClip x y width height => .ok (canvas.setClip x y width height, .done)
  | .resetClip => .ok (canvas.resetClip, .done)
  | .setColor color => .ok (canvas.setColor color, .done)
  | .setLinear source target stops cycle toUser =>
      .ok (canvas.orRefused (canvas.setLinear? source target stops cycle toUser))
  | .setRadial center focus radius stops cycle toUser =>
      .ok (canvas.orRefused (canvas.setRadial? center focus radius stops cycle toUser))
  | .setTexture data width height stride repeats toUser =>
      (canvas.setTexture? data width height stride repeats toUser).map canvas.orRefused
  | .setQuality quality => .ok (canvas.setQuality quality, .done)
  | .start rule => .ok (canvas.start rule, .done)
  | .startRegion x y width height rule =>
      .ok (canvas.startRegion x y width height rule, .done)
  | .finish => canvas.finish.map (·, .done)
  | .draw commands => (canvas.draw commands).map (·, .done)
  | .drawData codes coordinates => (canvas.drawData codes coordinates).map (·, .done)
  | .renderPath codes coordinates rule cache =>
      (canvas.renderPath codes coordinates rule cache).map fun (next, cache) =>
        (next, .cached cache)
  | .fillStore store extra => (canvas.fillStore store extra).map (·, .done)
  | .fillShape shape => (canvas.fillShape shape).map (·, .done)
  | .strokeShape shape => (canvas.strokeShape shape).map (·, .done)
  | .strokeLine source target => (canvas.strokeLine source target).map (·, .done)
  | .clearRect x y width height => .ok (canvas.clearRect x y width height, .done)

/-- Performs calls in order and leaves out their replies. -/
def performAll (canvas : Canvas) (calls : List Call) : Except Fault Canvas :=
  calls.foldlM (fun canvas call => (canvas.perform call).map Prod.fst) canvas

/-- A canvas that calls lead to from a new one. -/
def Reachable (canvas : Canvas) : Prop :=
  ∃ surface config calls, (new surface config).performAll calls = .ok canvas

theorem performAll_append (canvas : Canvas) (first second : List Call) :
    canvas.performAll (first ++ second) =
      (canvas.performAll first).bind (performAll · second) := by
  simp only [performAll, List.foldlM_append]
  rfl

/-- Calls lead from reachable canvases to reachable ones. -/
theorem Reachable.performAll {canvas next : Canvas} (reachable : canvas.Reachable)
    {calls : List Call} (run : canvas.performAll calls = .ok next) : next.Reachable := by
  obtain ⟨surface, config, before, reached⟩ := reachable
  refine ⟨surface, config, before ++ calls, ?_⟩
  rw [performAll_append, reached]
  exact run

end Raster.Canvas
