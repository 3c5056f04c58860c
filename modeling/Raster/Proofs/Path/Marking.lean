import Raster.Proofs.Path.Fitting
import Raster.Stage

/-!
# Flattened paths

A path that is flattened remains connected: its lines lead from where the flattener is to where it
goes, and a curve ends where it should.  Every segment begins with the mark of a corner, and there
is none between the lines of a curve, which never leave the box around the curve's points.
-/

namespace Raster

/-! ## Where a path leads -/

/-- Where a path without curves has its pen: the start of its subpath and its current point. -/
structure Place where
  start : Point
  current : Point
deriving DecidableEq

namespace Place

/-- Where a command leads.  A path is nowhere until its first subpath starts. -/
def follow : Option Place → LineCommand → Option Place
  | _, .moveTo point => some ⟨point, point⟩
  | none, _ => none
  | some place, .lineTo point => some { place with current := point }
  | some place, .close => some { place with current := place.start }
  | some place, .lineJoin => some place
  | some place, .finish => some place

/-- Where the commands of a path lead. -/
def reached (commands : List LineCommand) : Option Place :=
  commands.foldl follow none

theorem reached_append (first second : List LineCommand) :
    reached (first ++ second) = second.foldl follow (reached first) :=
  List.foldl_append

/-- Lines lead to the last of their points. -/
theorem foldl_follow_lineTo (place : Place) (vertices : List Point) :
    (vertices.map LineCommand.lineTo).foldl follow (some place) =
      some { place with current := vertices.getLast?.getD place.current } := by
  induction vertices generalizing place with
  | nil => rfl
  | cons point rest inductionHypothesis =>
      rw [List.getLast?_cons]
      exact inductionHypothesis { place with current := point }

end Place

/-! ## Vertices of curves -/

namespace Curve

namespace Kind

variable {κ : Type} {kind : Kind κ} {flatness : Int}

/-- The vertices of all leaves lie in the box around the points of their curve. -/
theorem Contained.inBox_vertices (contained : kind.Contained) {limit depth : Nat} {curve : κ} :
    ∀ vertex ∈ (kind.leavesFrom flatness limit depth curve).flatMap
      (fun leaf => kind.vertices leaf.piece), vertex.InBox (kind.points curve) := by
  intro vertex member
  obtain ⟨leaf, leafMember, vertexMember⟩ := List.mem_flatMap.mp member
  exact contained.inBox_leavesFrom leafMember vertex (List.mem_of_mem_tail vertexMember)

end Kind

end Curve

namespace Flattener

/-! ## Answers -/

/-- An answer that draws a curve with some points: the mark of a corner, then nothing but lines,
which stay in the box around the points and end at the last of them. -/
def IsPolyline (points : List Point) (answer : List LineCommand) : Prop :=
  ∃ vertices : List Point, answer = .lineJoin :: vertices.map .lineTo ∧
    vertices.getLast? = points.getLast? ∧ ∀ vertex ∈ vertices, vertex.InBox points

/-- An answer to a command that is received at a point: straight segments are marked and otherwise
left as they are, curves become polylines, and all else is passed on. -/
def IsAnswer (current : Point) : PathCommand → List LineCommand → Prop
  | .line (.lineTo point), answer => answer = [.lineJoin, .lineTo point]
  | .line .close, answer => answer = [.lineJoin, .close]
  | .line command, answer => answer = [command]
  | .quadTo control point, answer => IsPolyline [current, control, point] answer
  | .cubicTo control₁ control₂ point, answer =>
      IsPolyline [current, control₁, control₂, point] answer

theorem isAnswer_step (flattener : Flattener) (command : PathCommand) :
    IsAnswer flattener.current command (flattener.step command).2 := by
  cases command with
  | line command => cases command <;> rfl
  | quadTo control point =>
      let quad : Curve.Quad := ⟨flattener.current, control, point⟩
      refine ⟨_, rfl, quad.getLast?_vertices _ _, ?_⟩
      rw [(Curve.Quad.draws flattener.flatness).eq_leaves Curve.maxDepth 0 quad]
      exact Curve.Quad.contained.inBox_vertices
  | cubicTo control₁ control₂ point =>
      let cubic : Curve.Cubic := ⟨flattener.current, control₁, control₂, point⟩
      refine ⟨_, rfl, cubic.getLast?_vertices _ _, ?_⟩
      rw [(Curve.Cubic.draws flattener.flatness).eq_leaves Curve.maxDepth 0 cubic]
      exact Curve.Cubic.contained.inBox_vertices

/-! ## Places -/

/-- Where the flattener is. -/
def place (flattener : Flattener) : Place :=
  ⟨flattener.start, flattener.current⟩

/-- From where the flattener is, its answer leads to where it goes. -/
theorem foldl_follow_step (flattener : Flattener) (command : PathCommand) :
    (flattener.step command).2.foldl Place.follow (some flattener.place) =
      some (flattener.step command).1.place := by
  cases command with
  | line command => cases command <;> rfl
  | quadTo control point =>
      refine (Place.foldl_follow_lineTo flattener.place _).trans ?_
      rw [Curve.Quad.getLast?_vertices _ _ ⟨flattener.current, control, point⟩]
      rfl
  | cubicTo control₁ control₂ point =>
      refine (Place.foldl_follow_lineTo flattener.place _).trans ?_
      rw [Curve.Cubic.getLast?_vertices _ _ ⟨flattener.current, control₁, control₂, point⟩]
      rfl

theorem foldl_follow_run (flattener : Flattener) (commands : List PathCommand) :
    (Stage.run step flattener commands).2.foldl Place.follow (some flattener.place) =
      some (Stage.run step flattener commands).1.place := by
  induction commands generalizing flattener with
  | nil => rfl
  | cons command rest inductionHypothesis =>
      rw [Stage.run_cons, List.foldl_append, foldl_follow_step]
      exact inductionHypothesis _

/-- The emitted path of a path that starts a subpath leads to where the flattener is, wherever the
flattener was before. -/
theorem reached_run (flattener : Flattener) (first : Point) (rest : List PathCommand) :
    Place.reached (Stage.run step flattener (.moveTo first :: rest)).2 =
      some (Stage.run step flattener (.moveTo first :: rest)).1.place := by
  rw [Stage.run_cons, Place.reached_append]
  exact foldl_follow_run { flattener with start := first, current := first } rest

/-! ## Runs in words -/

/-- Answers commands in words. -/
def run? : Flattener → List PathCommand → Option (Flattener × List LineCommand)
  | flattener, [] => some (flattener, [])
  | flattener, command :: rest => do
      let (middle, answer) ← flattener.step? command
      let (final, answers) ← middle.run? rest
      return (final, answer ++ answers)

theorem Fits32.run?_eq {flattener : Flattener} (fits : flattener.Fits32)
    {commands : List PathCommand} (commandsFit : ∀ command ∈ commands, command.Fits32) :
    flattener.run? commands = some (Stage.run Flattener.step flattener commands) := by
  induction commands generalizing flattener with
  | nil => rfl
  | cons command rest inductionHypothesis =>
      obtain ⟨here, later⟩ := List.forall_mem_cons.mp commandsFit
      rw [run?]
      apply bind_eq_of_eq_some (fits.step?_eq here)
      apply bind_eq_of_eq_some (inductionHypothesis (fits.step here) later)
      rfl

/-- A path that starts a subpath is flattened in words without overflow.  Each of its commands is
answered as `IsAnswer` says, and at each of them the path that was emitted so far leads to where
the flattener is. -/
theorem flattened_connected_contained_marked {flattener : Flattener}
    (word : Word.Fits32 flattener.flatness) {first : Point} {rest : List PathCommand}
    (fits : ∀ command ∈ PathCommand.moveTo first :: rest, command.Fits32) :
    flattener.run? (.moveTo first :: rest) =
        some (Stage.run step flattener (.moveTo first :: rest)) ∧
      ∀ before command after, .moveTo first :: rest = before ++ command :: after →
        IsAnswer (Stage.run step flattener before).1.current command
          ((Stage.run step flattener before).1.step command).2 ∧
        Place.reached (Stage.run step flattener (before ++ [command])).2 =
          some (Stage.run step flattener (before ++ [command])).1.place := by
  constructor
  · obtain ⟨firstFits, restFits⟩ := List.forall_mem_cons.mp fits
    have pointFits : first.Fits32 := firstFits first List.mem_cons_self
    have started : Fits32 { flattener with start := first, current := first } :=
      ⟨word, pointFits, pointFits⟩
    rw [run?]
    apply bind_eq_of_eq_some (show flattener.step? (.moveTo first) = _ from rfl)
    apply bind_eq_of_eq_some (started.run?_eq restFits)
    rfl
  · intro before command after split
    refine ⟨isAnswer_step _ command, ?_⟩
    cases before with
    | nil =>
        obtain ⟨rfl, _⟩ := List.cons.inj split
        exact reached_run flattener first []
    | cons head middle =>
        obtain ⟨rfl, _⟩ := List.cons.inj split
        exact reached_run flattener first (middle ++ [command])

/-- A curve between the ends of the coordinates, at no flatness at all, and a subpath that is closed
and goes on. -/
theorem flattened_connected_contained_marked_extremes :
    let flattener := new 0
    let rest : List PathCommand :=
      [.lineTo ⟨2147483647, -5⟩, .quadTo ⟨-2147483648, 2147483647⟩ ⟨2147483647, 7⟩, .close,
        .cubicTo ⟨0, 0⟩ ⟨32768, 9⟩ ⟨65536, 0⟩, .finish]
    Word.Fits32 flattener.flatness ∧
      (∀ command ∈ PathCommand.moveTo ⟨3, 4⟩ :: rest, command.Fits32) ∧
      (∃ flattened, flattener.run? (.moveTo ⟨3, 4⟩ :: rest) = some flattened) ∧
      IsPolyline [⟨2147483647, -5⟩, ⟨-2147483648, 2147483647⟩, ⟨2147483647, 7⟩]
        ((Stage.run step flattener [.moveTo ⟨3, 4⟩, .lineTo ⟨2147483647, -5⟩]).1.step
          (.quadTo ⟨-2147483648, 2147483647⟩ ⟨2147483647, 7⟩)).2 ∧
      Place.reached (Stage.run step flattener (.moveTo ⟨3, 4⟩ :: rest)).2 =
        some ⟨⟨3, 4⟩, ⟨65536, 0⟩⟩ := by
  intro flattener rest
  have word : Word.Fits32 flattener.flatness := by decide
  have fits : ∀ command ∈ PathCommand.moveTo ⟨3, 4⟩ :: rest, command.Fits32 := by decide
  obtain ⟨inWords, answers⟩ := flattened_connected_contained_marked word fits
  obtain ⟨curve, _⟩ := answers [.moveTo ⟨3, 4⟩, .lineTo ⟨2147483647, -5⟩]
    (.quadTo ⟨-2147483648, 2147483647⟩ ⟨2147483647, 7⟩) _ rfl
  obtain ⟨_, place⟩ := answers (.moveTo ⟨3, 4⟩ :: rest.dropLast) .finish [] rfl
  exact ⟨word, fits, ⟨_, inWords⟩, curve, place⟩

end Flattener

end Raster
