import Mathlib.Data.List.Rotate
import Raster.Path.Outline
import Raster.Proofs.Path.Storing

/-!
# Outlines traversed backward

A part of an outline does not know where it starts, so it is put beside the end of the part before
it.  A side made in this way can be turned around.  The reversed outline has the sides of the
outline turned around, from the last one to the first, and the line that closes it is turned around
as well.  Hence all points that are drawn come in the opposite order.
-/

namespace Raster.Outline

/-- A part of an outline with the point where it starts. -/
structure Side where
  source : Vec
  part : Part
deriving Repr, DecidableEq

/-- The same side traversed backward. -/
def Side.flip (side : Side) : Side :=
  ⟨side.part.stop, side.part.backTo side.source⟩

/-- Each part with the end of the part before it, and the first one with the start. -/
def sidesFrom (start : Vec) (parts : List Part) : List Side :=
  List.zipWith Side.mk (start :: parts.map Part.stop) parts

/-- The sides that are drawn one by one. -/
def sides (outline : Outline) : List Side :=
  sidesFrom outline.start outline.parts

/-- The point where the last part ends. -/
def stop (outline : Outline) : Vec :=
  stopOf outline.start outline.parts

/-- The line back to the start, if the outline is closed. -/
def closing (outline : Outline) : List Side :=
  if outline.closed then [⟨outline.stop, .line outline.start⟩] else []

/-- All sides in the order in which they are traversed. -/
def traversal (outline : Outline) : List Side :=
  outline.sides ++ outline.closing

/-! ## Sides -/

@[simp]
theorem Side.flip_flip (side : Side) : side.flip.flip = side := by
  obtain ⟨source, part⟩ := side
  cases part <;> rfl

@[simp]
theorem sidesFrom_nil (start : Vec) : sidesFrom start [] = [] :=
  rfl

@[simp]
theorem sidesFrom_cons (start : Vec) (part : Part) (rest : List Part) :
    sidesFrom start (part :: rest) = ⟨start, part⟩ :: sidesFrom part.stop rest :=
  rfl

@[simp]
theorem stopOf_cons (start : Vec) (part : Part) (rest : List Part) :
    stopOf start (part :: rest) = stopOf part.stop rest :=
  rfl

theorem stopOf_append (start : Vec) (first second : List Part) :
    stopOf start (first ++ second) = stopOf (stopOf start first) second :=
  List.foldl_append

theorem sidesFrom_append (start : Vec) (first second : List Part) :
    sidesFrom start (first ++ second) =
      sidesFrom start first ++ sidesFrom (stopOf start first) second := by
  induction first generalizing start with
  | nil => rfl
  | cons part rest inductionHypothesis =>
      rw [List.cons_append, sidesFrom_cons, inductionHypothesis, sidesFrom_cons, stopOf_cons,
        List.cons_append]

/-- Nothing but the points where the parts start is added to them. -/
theorem map_part_sidesFrom (start : Vec) (parts : List Part) :
    (sidesFrom start parts).map Side.part = parts := by
  induction parts generalizing start with
  | nil => rfl
  | cons part rest inductionHypothesis =>
      rw [sidesFrom_cons, List.map_cons, inductionHypothesis]

/-! ## The reversed outline -/

/-- The way back ends at the start. -/
theorem stopOf_reversedParts (start : Vec) (parts : List Part) :
    stopOf (stopOf start parts) (reversedParts start parts) = start := by
  cases parts with
  | nil => rfl
  | cons part rest =>
      rw [reversedParts, stopOf_append]
      cases part <;> rfl

theorem sidesFrom_reversedParts (start : Vec) (parts : List Part) :
    sidesFrom (stopOf start parts) (reversedParts start parts) =
      ((sidesFrom start parts).map Side.flip).reverse := by
  induction parts generalizing start with
  | nil => rfl
  | cons part rest inductionHypothesis =>
      have last : sidesFrom part.stop [part.backTo start] = [Side.flip ⟨start, part⟩] := rfl
      rw [reversedParts, stopOf_cons, sidesFrom_append, inductionHypothesis, stopOf_reversedParts,
        last, sidesFrom_cons start, List.map_cons, List.reverse_cons]

theorem sides_reverse (outline : Outline) :
    outline.reverse.sides = (outline.sides.map Side.flip).reverse :=
  sidesFrom_reversedParts outline.start outline.parts

theorem stop_reverse (outline : Outline) : outline.reverse.stop = outline.start :=
  stopOf_reversedParts outline.start outline.parts

theorem closing_reverse (outline : Outline) :
    outline.reverse.closing = outline.closing.map Side.flip := by
  have closed : outline.reverse.closed = outline.closed := rfl
  rw [closing, closing, closed, stop_reverse]
  split <;> rfl

theorem parts_eq_map_part (outline : Outline) : outline.parts = outline.sides.map Side.part :=
  (map_part_sidesFrom outline.start outline.parts).symm

theorem reverse_reverse (outline : Outline) : outline.reverse.reverse = outline := by
  have sides : outline.reverse.reverse.sides = outline.sides := by
    rw [sides_reverse, sides_reverse, List.map_reverse, List.reverse_reverse, List.map_map]
    exact (List.map_congr_left fun side _ => side.flip_flip).trans (List.map_id _)
  have parts : outline.reverse.reverse.parts = outline.parts := by
    rw [parts_eq_map_part, sides, ← parts_eq_map_part]
  have start : outline.reverse.reverse.start = outline.start := outline.stop_reverse
  calc outline.reverse.reverse
      = ⟨outline.reverse.reverse.start, outline.reverse.reverse.parts, outline.closed⟩ := rfl
    _ = outline := by rw [start, parts]

/-- The closing line is the last one on the way back too, although the exact way back begins with
it. -/
theorem traversal_reverse (outline : Outline) :
    outline.reverse.traversal =
      (outline.traversal.map Side.flip).reverse.rotate outline.closing.length := by
  have closingLength : outline.closing.length =
      (outline.closing.map Side.flip).reverse.length := by
    rw [List.length_reverse, List.length_map]
  have single : (outline.closing.map Side.flip).reverse = outline.closing.map Side.flip := by
    rw [closing]
    split <;> rfl
  rw [traversal, traversal, List.map_append, List.reverse_append, closingLength,
    List.rotate_append_length_eq, single, sides_reverse, closing_reverse]

/-! ## Commands -/

theorem commands_eq (outline : Outline) :
    outline.commands =
      .moveTo outline.start.toPoint :: outline.sides.map (fun side => side.part.toCommand) ++
        if outline.closed then [.close] else [] := by
  rw [commands, parts_eq_map_part outline, List.map_map]
  rfl

/-- The quantized control points of a part, in the order in which they are drawn. -/
def Part.controls : Part → List Point
  | .line _ => []
  | .cubic control₁ control₂ _ => [control₁.toPoint, control₂.toPoint]

theorem points_toCommand (part : Part) :
    part.toCommand.points = part.controls ++ [part.stop.toPoint] := by
  cases part <;> rfl

/-- A part traversed backward has its control points swapped. -/
theorem points_toCommand_backTo (source : Vec) (part : Part) :
    (part.backTo source).toCommand.points = part.controls.reverse ++ [source.toPoint] := by
  cases part <;> rfl

/-- The points of sides that are drawn one after the other, with the point where they start. -/
def drawnPoints (start : Vec) (sides : List Side) : List Point :=
  start.toPoint :: sides.flatMap fun side => side.part.toCommand.points

theorem drawnPoints_cons (start : Vec) (part : Part) (rest : List Part) :
    drawnPoints start (sidesFrom start (part :: rest)) =
      start.toPoint :: part.controls ++ drawnPoints part.stop (sidesFrom part.stop rest) := by
  rw [drawnPoints, sidesFrom_cons, List.flatMap_cons, points_toCommand, drawnPoints,
    List.append_assoc, List.cons_append]
  rfl

/-- The points of the sides on the way back are those of the way there. -/
theorem drawnPoints_flip (start : Vec) (parts : List Part) :
    drawnPoints (stopOf start parts) ((sidesFrom start parts).map Side.flip).reverse =
      (drawnPoints start (sidesFrom start parts)).reverse := by
  induction parts generalizing start with
  | nil => rfl
  | cons part rest inductionHypothesis =>
      have back : (Side.flip ⟨start, part⟩).part.toCommand.points =
          part.controls.reverse ++ [start.toPoint] :=
        points_toCommand_backTo start part
      calc drawnPoints (stopOf part.stop rest)
            ((sidesFrom start (part :: rest)).map Side.flip).reverse
          = drawnPoints (stopOf part.stop rest)
                ((sidesFrom part.stop rest).map Side.flip).reverse ++
              (Side.flip ⟨start, part⟩).part.toCommand.points := by
            rw [sidesFrom_cons, List.map_cons, List.reverse_cons, drawnPoints, List.flatMap_append,
              List.flatMap_singleton]
            rfl
        _ = (drawnPoints part.stop (sidesFrom part.stop rest)).reverse ++
              (part.controls.reverse ++ [start.toPoint]) := by
            rw [inductionHypothesis, back]
        _ = (drawnPoints start (sidesFrom start (part :: rest))).reverse := by
            rw [drawnPoints_cons, List.reverse_append, List.reverse_cons]

theorem flatMap_points_commands (outline : Outline) :
    outline.commands.flatMap PathCommand.points = drawnPoints outline.start outline.sides := by
  have closes : (if outline.closed then [PathCommand.close] else []).flatMap PathCommand.points =
      [] := by
    split <;> rfl
  rw [commands_eq, List.flatMap_append, closes, List.append_nil, List.flatMap_cons,
    List.flatMap_map]
  rfl

/-- A command on the way back leads to the point where its side starts. -/
theorem foldl_commands_reverse {σ : Type} (receive : σ → PathCommand → σ) (sink : σ)
    (outline : Outline) :
    outline.reverse.commands.foldl receive sink =
      let drawn := outline.sides.reverse.foldl
        (fun sink side => receive sink (side.part.backTo side.source).toCommand)
        (receive sink (.moveTo outline.stop.toPoint))
      if outline.closed then receive drawn .close else drawn := by
  have closed : outline.reverse.closed = outline.closed := rfl
  rw [commands_eq, sides_reverse, closed, List.foldl_append, List.foldl_cons, List.foldl_map,
    ← List.map_reverse, List.foldl_map]
  split <;> rfl

/-- Reversal is exact.  Reversed twice, an outline is itself.  The reversed outline has the sides
turned around, from the last one to the first, and its closing line turned around; as a whole it is
traversed backward from the point where the last part ends.  Whatever receives it gets the commands
of the sides turned around, and hence the quantized points in the opposite order. -/
theorem reverse_traverses_backward (outline : Outline) :
    outline.reverse.reverse = outline ∧
      outline.reverse.sides = (outline.sides.map Side.flip).reverse ∧
      outline.reverse.closing = outline.closing.map Side.flip ∧
      outline.reverse.traversal =
        (outline.traversal.map Side.flip).reverse.rotate outline.closing.length ∧
      outline.reverse.commands.flatMap PathCommand.points =
        (outline.commands.flatMap PathCommand.points).reverse ∧
      ∀ {σ : Type} (receive : σ → PathCommand → σ) (sink : σ),
        outline.reverse.commands.foldl receive sink =
          let drawn := outline.sides.reverse.foldl
            (fun sink side => receive sink (side.part.backTo side.source).toCommand)
            (receive sink (.moveTo outline.stop.toPoint))
          if outline.closed then receive drawn .close else drawn := by
  refine ⟨outline.reverse_reverse, outline.sides_reverse, outline.closing_reverse,
    outline.traversal_reverse, ?_, fun receive sink => foldl_commands_reverse receive sink outline⟩
  rw [flatMap_points_commands, flatMap_points_commands, sides_reverse]
  exact drawnPoints_flip outline.start outline.parts

end Raster.Outline
