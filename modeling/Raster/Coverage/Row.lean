import Raster.Surface

/-!
# Rows of coverage

A row of coverage belongs to neighboring pixels of one line.  It is explicit, with
a value per pixel, or encoded as runs of equal values.  Together with an alpha
table and a source of colors it becomes a list of touches; pixels off the surface
are left out.
-/

namespace Raster

/-- Where the colors of a row come from. -/
inductive RowSource where
  /-- One color, whose alpha is part of the alpha table. -/
  | flat (argb : Nat)
  /-- A color for each pixel of the row, whose alpha scales its opacity. -/
  | perPixel (colors : List Nat)
deriving Repr, DecidableEq

namespace RowSource

/-- The colors of the pixels of a row. -/
def colors (source : RowSource) (count : Nat) : List Nat :=
  match source with
  | flat argb => List.replicate count argb
  | perPixel colors => colors

/-- The opacity of a pixel whose coverage alone gives it `opacity`. -/
def opacity (source : RowSource) (opacity argb : Nat) : Nat :=
  match source with
  | flat _ => opacity
  | perPixel _ => Alpha.modulate opacity (Argb.alpha argb)

end RowSource

/-- What rows are drawn with: the size of the surface, the opacities of coverage
values, and the source of colors. -/
structure RowTarget where
  width : Nat
  height : Nat
  alphas : Array Nat
  source : RowSource
deriving Repr, DecidableEq

namespace RowTarget

/-- Whether the surface has the line `y`. -/
def hasLine (target : RowTarget) (y : Int) : Bool :=
  0 ≤ y && y < target.height

/-- Whether the surface has the column `x`. -/
def hasColumn (target : RowTarget) (x : Int) : Bool :=
  0 ≤ x && x < target.width

/-- Values beside the columns that they belong to, from `x` onward. -/
def place {α : Type} (x : Int) (values : List α) : List (Int × α) :=
  values.zipIdx.map fun (value, index) => (x + index, value)

/-- The touch of one pixel, given the opacity of its coverage. -/
def touchOf (target : RowTarget) (y : Int) (opacity : Nat) (x : Int) (argb : Nat) : Touch :=
  ⟨x, y, target.source.opacity opacity argb, argb⟩

end RowTarget

/-- The coverage of neighboring pixels from `(x, y)` rightward. -/
structure CoverageRow where
  x : Int
  y : Int
  values : List Nat
deriving Repr, DecidableEq

namespace CoverageRow

/-- The pixels of the row. -/
def box (row : CoverageRow) : PixelBox :=
  .ofSize row.x row.y row.values.length 1

/-- The touches that draw the visible pixels of the row. -/
def touches (row : CoverageRow) (target : RowTarget) : Except Fault (List Touch) :=
  if target.hasLine row.y then
    let pixels := RowTarget.place row.x
      (row.values.zip (target.source.colors row.values.length))
    (pixels.filter fun (x, _) => target.hasColumn x).mapM fun (x, coverage, argb) => do
      pure (target.touchOf row.y (← Alpha.lookup target.alphas coverage) x argb)
  else
    .ok []

end CoverageRow

/-- Runs of coverage from `(x, y)` rightward, each a value and a length. -/
structure RunRow where
  x : Int
  y : Int
  runs : List (Nat × Nat)
deriving Repr, DecidableEq

namespace RunRow

/-- The number of pixels of some runs. -/
def count : List (Nat × Nat) → Nat
  | [] => 0
  | (_, length) :: rest => length + count rest

/-- The coverage that some runs stand for. -/
def expand (runs : List (Nat × Nat)) : List Nat :=
  runs.flatMap fun (value, length) => List.replicate length value

/-- The touches of runs from column `x` onward, with a color for each of their
pixels.  The opacity of every run is looked up, even if none of its pixels is
visible; a run without opacity touches nothing. -/
def touchesFrom (target : RowTarget) (y : Int) :
    Int → List Nat → List (Nat × Nat) → Except Fault (List Touch)
  | _, _, [] => .ok []
  | x, colors, (value, length) :: rest => do
      let opacity ← Alpha.lookup target.alphas value
      let pixels := RowTarget.place x (colors.take length)
      let visible := pixels.filter fun (x, _) => target.hasColumn x
      let here :=
        if opacity = 0 then [] else visible.map fun (x, argb) => target.touchOf y opacity x argb
      let later ← touchesFrom target y (x + length) (colors.drop length) rest
      pure (here ++ later)

/-- The touches that draw the visible pixels of the row. -/
def touches (row : RunRow) (target : RowTarget) : Except Fault (List Touch) :=
  if target.hasLine row.y then
    touchesFrom target row.y row.x (target.source.colors (count row.runs)) row.runs
  else
    .ok []

@[simp]
theorem expand_cons (value length : Nat) (rest : List (Nat × Nat)) :
    expand ((value, length) :: rest) = List.replicate length value ++ expand rest := by
  simp [expand]

/-- Runs stand for as many values as they count pixels. -/
@[simp]
theorem length_expand (runs : List (Nat × Nat)) : (expand runs).length = count runs := by
  induction runs with
  | nil => rfl
  | cons run rest inductionHypothesis =>
      obtain ⟨value, length⟩ := run
      rw [expand_cons, List.length_append, inductionHypothesis]
      simp [count]

end RunRow

end Raster
