import Raster.Canvas.Chain

/-!
# Cleared chains

A chain consists of what it was built with and of what it knows of the path that it receives.
A cleared chain has only the former.  Every chain that was just built is cleared, and no
command changes what is left of a chain when it is cleared, so a used chain remains the one
that was built except for its path.
-/

namespace Raster

/-! ## Stages -/

namespace Flattener

/-- The flattener before it received anything. -/
def cleared (flattener : Flattener) : Flattener :=
  .new flattener.flatness

theorem cleared_step (flattener : Flattener) (command : PathCommand) :
    (flattener.step command).1.cleared = flattener.cleared := by
  rw [cleared, flatness_step]
  rfl

end Flattener

namespace Dasher

/-- The dasher before it received anything. -/
def cleared (dasher : Dasher) : Dasher :=
  dasher.restart .origin

theorem cleared_of_new? {pattern : List Int} {phase : Int} {transform : Affine} {dasher : Dasher}
    (built : new? pattern phase transform = some dasher) : dasher.cleared = dasher := by
  unfold new? at built
  split at built
  · cases built
  · simp only at built
    split at built
    · cases built
    · split at built
      · cases built
      · cases built
        rfl

theorem map_cleared_new? (pattern : List Int) (phase : Int) (transform : Affine) :
    (new? pattern phase transform).map cleared = new? pattern phase transform := by
  cases built : new? pattern phase transform with
  | none => rfl
  | some dasher => rw [Option.map_some, cleared_of_new? built]

/-- Intervals that are cut off move the place in the pattern only. -/
theorem cleared_cut (segment : Segment) (limit : Nat) (dasher : Dasher) (distance : Float)
    (pieces : Array LineCommand) :
    (cut segment limit dasher distance pieces).1.cleared = dasher.cleared := by
  induction limit generalizing dasher distance pieces with
  | zero => rfl
  | succ limit inductionHypothesis =>
      unfold cut
      simp only
      split
      · rfl
      · split
        · rfl
        · exact inductionHypothesis dasher.nextInterval _ _

theorem cleared_lineTo (dasher : Dasher) (point : Point) :
    (dasher.lineTo point).1.cleared = dasher.cleared := by
  unfold lineTo
  simp only
  split
  · rfl
  · exact cleared_cut _ cutLimit { dasher with corner := false } 0.0 #[]

theorem cleared_step (dasher : Dasher) (command : LineCommand) :
    (dasher.step command).1.cleared = dasher.cleared := by
  cases command with
  | moveTo point => rfl
  | lineJoin => rfl
  | lineTo point => exact dasher.cleared_lineTo point
  | close => exact dasher.cleared_lineTo dasher.start
  | finish => rfl

end Dasher

namespace Stroker

/-- The stroker before it received anything. -/
def cleared (stroker : Stroker) : Stroker :=
  { stroker with subpath := none, corner := false, vertices := [] }

/-- The buffer is used for each polygon, and nothing else. -/
theorem cleared_run_emit (stroker : Stroker) (polygons : List (List Vec)) :
    (Stage.run emit stroker polygons).1.cleared = stroker.cleared :=
  Stage.view_run (fun _ _ => rfl) stroker polygons

theorem cleared_segmentTo (stroker : Stroker) (subpath : Subpath) (point : Vec) :
    (stroker.segmentTo subpath point).1.cleared = stroker.cleared := by
  unfold segmentTo
  simp only
  split
  · rfl
  · split
    · rfl
    · rfl

theorem cleared_trace (stroker : Stroker) (command : LineCommand) :
    (stroker.trace command).1.cleared = stroker.cleared := by
  cases command with
  | moveTo point => rfl
  | lineJoin => rfl
  | lineTo point =>
      unfold trace
      simp only
      split
      · rfl
      · exact stroker.cleared_segmentTo _ _
  | close =>
      unfold trace
      simp only
      split
      · rfl
      · exact stroker.cleared_segmentTo _ _
  | finish => rfl

theorem cleared_step (stroker : Stroker) (command : LineCommand) :
    (stroker.step command).1.cleared = stroker.cleared :=
  (cleared_run_emit _ _).trans (stroker.cleared_trace command)

/-! ### The buffer -/

/-- From an empty buffer polygons are drawn one by one, and leave it empty. -/
theorem run_emit {stroker : Stroker} (empty : stroker.vertices = [])
    (polygons : List (List Vec)) :
    Stage.run emit stroker polygons = (stroker, polygons.flatMap polygon) := by
  induction polygons with
  | nil => rfl
  | cons vertices rest inductionHypothesis =>
      have emitted : stroker.emit vertices = (stroker, polygon vertices) := by
        rw [emit, empty, List.nil_append, ← empty]
      rw [Stage.run_cons, emitted, inductionHypothesis, List.flatMap_cons]

theorem vertices_segmentTo (stroker : Stroker) (subpath : Subpath) (point : Vec) :
    (stroker.segmentTo subpath point).1.vertices = stroker.vertices := by
  unfold segmentTo
  simp only
  split
  · rfl
  · split
    · rfl
    · rfl

/-- Following a command does not touch the buffer. -/
theorem vertices_trace (stroker : Stroker) (command : LineCommand) :
    (stroker.trace command).1.vertices = stroker.vertices := by
  cases command with
  | moveTo point => rfl
  | lineJoin => rfl
  | lineTo point =>
      unfold trace
      simp only
      split
      · rfl
      · exact stroker.vertices_segmentTo _ _
  | close =>
      unfold trace
      simp only
      split
      · rfl
      · exact stroker.vertices_segmentTo _ _
  | finish => rfl

/-- Every command finds the buffer empty and leaves it so. -/
theorem step_eq {stroker : Stroker} (empty : stroker.vertices = []) (command : LineCommand) :
    stroker.step command =
      ((stroker.trace command).1,
        (stroker.trace command).2.flatMap polygon ++
          if command = .finish then [.finish] else []) := by
  have traced := (stroker.vertices_trace command).trans empty
  simp only [step, run_emit traced]
  split
  · rfl
  · rw [List.append_nil]

theorem vertices_step {stroker : Stroker} (empty : stroker.vertices = [])
    (command : LineCommand) : (stroker.step command).1.vertices = [] := by
  rw [step_eq empty]
  exact (stroker.vertices_trace command).trans empty

/-- The end of a path leaves nothing of it. -/
theorem cleared_step_finish {stroker : Stroker} (empty : stroker.vertices = []) :
    (stroker.step .finish).1.cleared = (stroker.step .finish).1 := by
  rw [step_eq empty]
  simp only [trace, cleared, empty]

theorem vertices_run {stroker : Stroker} (empty : stroker.vertices = [])
    (commands : List LineCommand) : (Stage.run step stroker commands).1.vertices = [] := by
  induction commands generalizing stroker with
  | nil => exact empty
  | cons command rest inductionHypothesis => exact inductionHypothesis (vertices_step empty command)

end Stroker

/-! ## Chains -/

namespace FillChain

/-- The chain before it received anything. -/
def cleared (chain : FillChain) : FillChain :=
  ⟨chain.transform, chain.flattener.cleared⟩

theorem cleared_build (config : Config) (transform : Affine) :
    (build config transform).cleared = build config transform :=
  rfl

theorem cleared_step (chain : FillChain) (command : PathCommand) :
    (chain.step command).1.cleared = chain.cleared := by
  simp only [cleared, step, Flattener.cleared_step]

/-- A used chain is, except for its path, the one that was built. -/
theorem cleared_run (chain : FillChain) (commands : List PathCommand) :
    (Stage.run step chain commands).1.cleared = chain.cleared :=
  Stage.view_run cleared_step chain commands

end FillChain

namespace StrokeChain

/-- The chain before it received anything. -/
def cleared (chain : StrokeChain) : StrokeChain :=
  { transform := chain.transform
    flattener := chain.flattener.cleared
    dasher := chain.dasher.map Dasher.cleared
    stroker := chain.stroker.cleared }

theorem cleared_build (config : Config) (transform : Affine) (style : StrokeStyle) :
    (build config transform style).cleared = build config transform style := by
  simp only [cleared, build, Dasher.map_cleared_new?]
  rfl

theorem cleared_step (chain : StrokeChain) (command : PathCommand) :
    (chain.step command).1.cleared = chain.cleared := by
  obtain ⟨transform, flattener, dasher, stroker⟩ := chain
  have dashes := Stage.view_run Dasher.cleared_step
  have outlines := Stage.view_run Stroker.cleared_step
  cases dasher with
  | none => simp only [cleared, step, Flattener.cleared_step, outlines]
  | some dasher =>
      simp only [cleared, step, Flattener.cleared_step, outlines, dashes, Option.map_some]

theorem vertices_step {chain : StrokeChain} (empty : chain.stroker.vertices = [])
    (command : PathCommand) : (chain.step command).1.stroker.vertices = [] := by
  obtain ⟨transform, flattener, dasher, stroker⟩ := chain
  cases dasher with
  | none => exact Stroker.vertices_run empty _
  | some dasher => exact Stroker.vertices_run empty _

/-- The buffer of the stroker is empty between commands. -/
theorem vertices_run {chain : StrokeChain} (empty : chain.stroker.vertices = [])
    (commands : List PathCommand) :
    (Stage.run step chain commands).1.stroker.vertices = [] := by
  induction commands generalizing chain with
  | nil => exact empty
  | cons command rest inductionHypothesis => exact inductionHypothesis (vertices_step empty command)

/-- A used chain is, except for its path, the one that was built. -/
theorem cleared_run (chain : StrokeChain) (commands : List PathCommand) :
    (Stage.run step chain commands).1.cleared = chain.cleared :=
  Stage.view_run cleared_step chain commands

end StrokeChain

end Raster
