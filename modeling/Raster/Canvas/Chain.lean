import Raster.Canvas.Config
import Raster.Path.Dasher
import Raster.Path.Stroker
import Raster.Stage

/-!
# Chains

A chain takes a path in user space to a path without curves in device space.  A
filled path is transformed and flattened; a stroked path is also dashed, if there is
a dash pattern, and replaced by the outline of its stroke.
-/

namespace Raster

/-- The stages of a filled path. -/
structure FillChain where
  transform : Affine
  flattener : Flattener
deriving Repr, DecidableEq

namespace FillChain

/-- The chain for a configuration and a transformation. -/
def build (config : Config) (transform : Affine) : FillChain :=
  ⟨transform, .new config.fillFlatness⟩

/-- Answers one command. -/
def step (chain : FillChain) (command : PathCommand) : FillChain × List LineCommand :=
  let (flattener, lines) := chain.flattener.step (command.transform chain.transform)
  ({ chain with flattener := flattener }, lines)

/-- A command does not change how the next ones are transformed. -/
@[simp]
theorem transform_step (chain : FillChain) (command : PathCommand) :
    (chain.step command).1.transform = chain.transform :=
  rfl

/-- A command does not change how finely the next ones are flattened. -/
@[simp]
theorem flatness_step (chain : FillChain) (command : PathCommand) :
    (chain.step command).1.flattener.flatness = chain.flattener.flatness := by
  simp [step]

end FillChain

/-- The stages of a stroked path. -/
structure StrokeChain where
  transform : Affine
  flattener : Flattener
  dasher : Option Dasher
  stroker : Stroker
deriving Repr, DecidableEq

namespace StrokeChain

/-- The transformation of stroked paths: the bias is added in device space. -/
def biased (config : Config) (transform : Affine) : Affine :=
  (Affine.shift config.strokeBias.x config.strokeBias.y).concat transform

/-- The chain for a configuration, a transformation and a stroke style. -/
def build (config : Config) (transform : Affine) (style : StrokeStyle) : StrokeChain :=
  let biased := biased config transform
  { transform := biased
    flattener := .new config.strokeFlatness
    dasher := Dasher.new? style.dash style.dashPhase biased
    stroker := .new style biased }

/-- Answers one command. -/
def step (chain : StrokeChain) (command : PathCommand) : StrokeChain × List LineCommand :=
  let (flattener, lines) := chain.flattener.step (command.transform chain.transform)
  match chain.dasher with
  | none =>
      let (stroker, outlines) := Stage.run Stroker.step chain.stroker lines
      ({ chain with flattener := flattener, stroker := stroker }, outlines)
  | some dasher =>
      let (dasher, dashes) := Stage.run Dasher.step dasher lines
      let (stroker, outlines) := Stage.run Stroker.step chain.stroker dashes
      ({ chain with flattener := flattener, dasher := some dasher, stroker := stroker },
        outlines)

end StrokeChain

end Raster
