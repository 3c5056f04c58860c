import Raster.Path.Flattener
import Raster.Scan.Edge
import Raster.Text.Integer

/-!
# Configuration

The options of a canvas that are fixed when it is made.  Some of them can be
overridden by texts from the canvas's environment; a text that is no integer is
ignored.
-/

namespace Raster

/-- The options of a canvas. -/
structure Config where
  /-- The sample grid of antialiased drawing. -/
  grid : Grid
  fillFlatness : Int
  strokeFlatness : Int
  /-- What is added to stroked paths in device space. -/
  strokeBias : Point
  /-- Whether drawing is antialiased at first. -/
  antialiasing : Bool
deriving Repr, DecidableEq

namespace Config

/-- The options in use unless others are asked for. -/
def default : Config :=
  { grid := .finest
    fillFlatness := Flattener.fillFlatness
    strokeFlatness := Flattener.strokeFlatness
    strokeBias := .origin
    antialiasing := true }

/-- The configuration with another grid, limited to the finest one. -/
def withGrid (config : Config) (lgX lgY : Nat) : Config :=
  { config with grid := .limited lgX lgY }

/-- The configuration with another flatness of fills, which is at least one unit. -/
def withFillFlatness (config : Config) (flatness : Int) : Config :=
  { config with fillFlatness := max flatness 1 }

/-- The configuration with another flatness of strokes, which is at least one
unit. -/
def withStrokeFlatness (config : Config) (flatness : Int) : Config :=
  { config with strokeFlatness := max flatness 1 }

/-- The configuration with another stroke bias. -/
def withStrokeBias (config : Config) (x y : Int) : Config :=
  { config with strokeBias := ⟨x, y⟩ }

/-- The configuration with antialiasing on or off at first. -/
def withAntialiasing (config : Config) (antialiasing : Bool) : Config :=
  { config with antialiasing := antialiasing }

/-- Texts that override options. -/
structure Overrides where
  strokeBiasX : Option String
  strokeBiasY : Option String
  fillFlatness : Option String
deriving Repr, DecidableEq

/-- The integer that an override asks for. -/
def asked? (text : Option String) : Option Int :=
  text.bind Text.int32?

/-- The default configuration with some options overridden. -/
def ofOverrides (overrides : Overrides) : Config :=
  let base := default
  let biased := base.withStrokeBias
    ((asked? overrides.strokeBiasX).getD base.strokeBias.x)
    ((asked? overrides.strokeBiasY).getD base.strokeBias.y)
  match asked? overrides.fillFlatness with
  | some flatness => biased.withFillFlatness flatness
  | none => biased

/-- Texts that are no integers override nothing. -/
theorem ofOverrides_eq_default {overrides : Overrides}
    (x : asked? overrides.strokeBiasX = none) (y : asked? overrides.strokeBiasY = none)
    (flatness : asked? overrides.fillFlatness = none) :
    ofOverrides overrides = default := by
  simp [ofOverrides, x, y, flatness, withStrokeBias, default, Point.origin]

/-- The configurations that can be made: the default one, overridden or not, with
options set any number of times. -/
inductive Built : Config → Prop where
  | default : Built default
  | ofOverrides (overrides : Overrides) : Built (ofOverrides overrides)
  | withGrid {config : Config} (built : Built config) (lgX lgY : Nat) :
      Built (config.withGrid lgX lgY)
  | withFillFlatness {config : Config} (built : Built config) (flatness : Int) :
      Built (config.withFillFlatness flatness)
  | withStrokeFlatness {config : Config} (built : Built config) (flatness : Int) :
      Built (config.withStrokeFlatness flatness)
  | withStrokeBias {config : Config} (built : Built config) (x y : Int) :
      Built (config.withStrokeBias x y)
  | withAntialiasing {config : Config} (built : Built config) (antialiasing : Bool) :
      Built (config.withAntialiasing antialiasing)

/-- No configuration that can be made asks for a grid finer than the finest one. -/
theorem Built.limited_grid {config : Config} (built : Built config) :
    Grid.limited config.grid.lgX config.grid.lgY = config.grid := by
  induction built with
  | default => rfl
  | ofOverrides overrides =>
      unfold Config.ofOverrides
      split
      · rfl
      · rfl
  | withGrid _ lgX lgY _ =>
      simp only [Config.withGrid, Grid.limited, Nat.min_assoc, Nat.min_self]
  | withFillFlatness _ _ inductionHypothesis => exact inductionHypothesis
  | withStrokeFlatness _ _ inductionHypothesis => exact inductionHypothesis
  | withStrokeBias _ _ _ inductionHypothesis => exact inductionHypothesis
  | withAntialiasing _ _ inductionHypothesis => exact inductionHypothesis

end Config

end Raster
