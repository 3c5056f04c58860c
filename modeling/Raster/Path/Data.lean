import Raster.Path.Command

/-!
# Path data

Path data is a path as two lists: the codes of its commands, and the coordinates
that they take from left to right.  A code that is not known takes nothing and is
skipped.  The first command whose points run out ends the path.
-/

namespace Raster

/-- What a code of path data asks for. -/
inductive PathCode where
  | move
  | line
  | quad
  | cubic
  | close
deriving Repr, DecidableEq

namespace PathCode

/-- The meaning of a code, if it is known. -/
def ofNat? : Nat → Option PathCode
  | 0 => some move
  | 1 => some line
  | 2 => some quad
  | 3 => some cubic
  | 4 => some close
  | _ => none

/-- The number of points that a command takes. -/
def arity : PathCode → Nat
  | move => 1
  | line => 1
  | quad => 2
  | cubic => 3
  | close => 0

/-- The command made of the first points of a list, with the points that are left,
if there are enough. -/
def take? : PathCode → List Point → Option (PathCommand × List Point)
  | move, point :: rest => some (.moveTo point, rest)
  | line, point :: rest => some (.lineTo point, rest)
  | quad, control :: point :: rest => some (.quadTo control point, rest)
  | cubic, control₁ :: control₂ :: point :: rest =>
      some (.cubicTo control₁ control₂ point, rest)
  | close, rest => some (.close, rest)
  | _, _ => none

/-- A command lacks points exactly if there are fewer than it takes. -/
theorem take?_eq_none_iff (code : PathCode) (points : List Point) :
    code.take? points = none ↔ points.length < code.arity := by
  cases code with
  | move => cases points <;> simp [take?, arity]
  | line => cases points <;> simp [take?, arity]
  | quad => rcases points with _ | ⟨_, _ | ⟨_, _⟩⟩ <;> simp [take?, arity]
  | cubic => rcases points with _ | ⟨_, _ | ⟨_, _ | ⟨_, _⟩⟩⟩ <;> simp [take?, arity]
  | close => simp [take?, arity]

end PathCode

namespace PathData

/-- The points of a list of coordinates in pairs; a coordinate without a partner is
dropped. -/
def points : List Float32 → List Point
  | x :: y :: rest => .ofFloat32s x y :: points rest
  | _ => []

/-- The commands of a list of codes that take their points from a list. -/
def commands : List Nat → List Point → List PathCommand
  | [], _ => []
  | code :: codes, points =>
      match PathCode.ofNat? code with
      | none => commands codes points
      | some known =>
          match known.take? points with
          | none => []
          | some (command, rest) => command :: commands codes rest

end PathData

end Raster
