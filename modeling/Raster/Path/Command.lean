import Raster.Affine

/-!
# Path commands

A path is a list of commands.  A line command belongs to a path without curves; a
path command is one of them or a curve.
-/

namespace Raster

/-- A command of a path without curves. -/
inductive LineCommand where
  /-- Starts a new subpath. -/
  | moveTo (point : Point)
  /-- Marks the current vertex as a corner that the path's author put there;
  vertices made inside a flattened curve have no mark. -/
  | lineJoin
  /-- Draws a straight line. -/
  | lineTo (point : Point)
  /-- Returns to the start of the subpath. -/
  | close
  /-- Ends the path. -/
  | finish
deriving Repr, DecidableEq, Inhabited

/-- A command of a path. -/
inductive PathCommand where
  /-- A straight-line command. -/
  | line (command : LineCommand)
  /-- Draws a quadratic curve with one control point. -/
  | quadTo (control point : Point)
  /-- Draws a cubic curve with two control points. -/
  | cubicTo (control₁ control₂ point : Point)
deriving Repr, DecidableEq, Inhabited

namespace PathCommand

/-- Starts a new subpath. -/
@[match_pattern]
abbrev moveTo (point : Point) : PathCommand := line (.moveTo point)

/-- Marks the current vertex as a corner. -/
@[match_pattern]
abbrev lineJoin : PathCommand := line .lineJoin

/-- Draws a straight line. -/
@[match_pattern]
abbrev lineTo (point : Point) : PathCommand := line (.lineTo point)

/-- Returns to the start of the subpath. -/
@[match_pattern]
abbrev close : PathCommand := line .close

/-- Ends the path. -/
@[match_pattern]
abbrev finish : PathCommand := line .finish

/-- The command with a function applied to each of its points. -/
def mapPoints (f : Point → Point) : PathCommand → PathCommand
  | moveTo point => moveTo (f point)
  | lineJoin => lineJoin
  | lineTo point => lineTo (f point)
  | close => close
  | finish => finish
  | quadTo control point => quadTo (f control) (f point)
  | cubicTo control₁ control₂ point => cubicTo (f control₁) (f control₂) (f point)

/-- The command in the space that a transformation maps to. -/
def transform (t : Affine) (command : PathCommand) : PathCommand :=
  command.mapPoints t.apply

/-- The straight-line command, if the command is one. -/
def toLine? : PathCommand → Option LineCommand
  | line command => some command
  | quadTo _ _ => none
  | cubicTo _ _ _ => none

@[simp]
theorem toLine?_line (command : LineCommand) : (line command).toLine? = some command :=
  rfl

theorem mapPoints_id (command : PathCommand) : command.mapPoints id = command := by
  cases command with
  | line command => cases command <;> rfl
  | quadTo control point => rfl
  | cubicTo control₁ control₂ point => rfl

theorem mapPoints_mapPoints (f g : Point → Point) (command : PathCommand) :
    (command.mapPoints f).mapPoints g = command.mapPoints (g ∘ f) := by
  cases command with
  | line command => cases command <;> rfl
  | quadTo control point => rfl
  | cubicTo control₁ control₂ point => rfl

end PathCommand

end Raster
