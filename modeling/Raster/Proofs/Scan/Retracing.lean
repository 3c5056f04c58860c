import Raster.Proofs.Path.Straying
import Raster.Proofs.Scan.Replaying

/-!
# Paths with the same edges

The end of a path draws the edges of its segments, and nothing else of the path matters.  So a
command may be left out or put in where it changes no edges: ahead of the first subpath no
command traces anything, and a subpath may be closed ahead of the next one, which closes it
anyway.
-/

namespace Raster

namespace Trace

/-! ## Commands without a current point -/

theorem step_of_continues {trace : Trace} (outside : trace.subpath = none)
    {command : LineCommand} (continues : command.continues = true) :
    trace.step command = trace := by
  cases command with
  | lineJoin => rfl
  | lineTo point => simp only [step, outside]
  | close => simp only [step, outside]
  | moveTo point => cases continues
  | finish => cases continues

/-- Ahead of the first subpath nothing is traced. -/
theorem foldl_step_of_continues {trace : Trace} (outside : trace.subpath = none)
    {commands : List LineCommand} (allContinue : ∀ command ∈ commands, command.continues = true) :
    commands.foldl step trace = trace := by
  induction commands with
  | nil => rfl
  | cons command rest inductionHypothesis =>
      rw [List.foldl_cons, step_of_continues outside (allContinue command List.mem_cons_self)]
      exact inductionHypothesis fun other member =>
        allContinue other (List.mem_cons_of_mem _ member)

/-! ## Equal edges -/

/-- Two traces have equal edges on the rows of a clip box, and they go on from the same point. -/
structure SameEdges (grid : Grid) (clip : PixelBox) (first second : Trace) : Prop where
  edges : Edge.ofSegments grid clip first.segments = Edge.ofSegments grid clip second.segments
  subpath : first.subpath = second.subpath

variable {grid : Grid} {clip : PixelBox} {first second : Trace}

theorem SameEdges.refl (trace : Trace) : SameEdges grid clip trace trace :=
  ⟨rfl, rfl⟩

theorem SameEdges.closed (same : SameEdges grid clip first second) :
    Edge.ofSegments grid clip first.closed = Edge.ofSegments grid clip second.closed := by
  obtain ⟨edges, subpath⟩ := same
  unfold Trace.closed
  rw [subpath]
  split
  · exact edges
  · rw [Edge.ofSegments_append, Edge.ofSegments_append, edges]

theorem SameEdges.step (same : SameEdges grid clip first second) (command : LineCommand) :
    SameEdges grid clip (first.step command) (second.step command) := by
  have closed := same.closed
  obtain ⟨edges, subpath⟩ := same
  cases command with
  | moveTo point => exact ⟨closed, rfl⟩
  | lineJoin => exact ⟨edges, subpath⟩
  | lineTo point =>
      simp only [Trace.step, subpath]
      split
      · exact ⟨edges, subpath⟩
      · refine ⟨?_, rfl⟩
        rw [Edge.ofSegments_append, Edge.ofSegments_append, edges]
  | close =>
      simp only [Trace.step, subpath]
      split
      · exact ⟨edges, subpath⟩
      · exact ⟨closed, rfl⟩
  | finish => exact .refl empty

theorem SameEdges.foldl (same : SameEdges grid clip first second)
    (commands : List LineCommand) :
    SameEdges grid clip (commands.foldl Trace.step first) (commands.foldl Trace.step second) := by
  induction commands generalizing first second with
  | nil => exact same
  | cons command rest inductionHypothesis => exact inductionHypothesis (same.step command)

/-- A subpath that is closed is not closed again: it has no extent any more. -/
theorem closed_step_close (grid : Grid) (clip : PixelBox) (trace : Trace) :
    Edge.ofSegments grid clip (trace.step .close).closed =
      Edge.ofSegments grid clip trace.closed := by
  obtain ⟨segments, subpath⟩ := trace
  cases subpath with
  | none => rfl
  | some subpath =>
      change Edge.ofSegments grid clip (_ ++ [⟨subpath.start, subpath.start⟩]) = _
      rw [Edge.ofSegments_append, Edge.ofSegments_singleton, Edge.ofSegment?_self,
        Option.toList_none, List.append_nil]
      rfl

/-- The start of a subpath closes the one before it, if that was not done before. -/
theorem SameEdges.close_moveTo (same : SameEdges grid clip first second) (point : Point) :
    SameEdges grid clip (first.step (.moveTo point)) ((second.step .close).step (.moveTo point)) :=
  ⟨same.closed.trans (closed_step_close grid clip second).symm, rfl⟩

end Trace

namespace Scanner

/-- Without a current point a scanner answers a command by nothing. -/
theorem step_of_continues {scanner : Scanner} (outside : scanner.subpath = none)
    {command : LineCommand} (continues : command.continues = true) :
    scanner.step command = .ok scanner := by
  cases command with
  | lineJoin => rfl
  | lineTo point => simp only [step, lineTo, outside]
  | close => simp only [step, close, outside]
  | moveTo point => cases continues
  | finish => cases continues

/-- Ahead of the first subpath commands may be left out. -/
theorem send_append_of_continues {scanner : Scanner} (outside : scanner.subpath = none)
    {before : List LineCommand} (allContinue : ∀ command ∈ before, command.continues = true)
    (commands : List LineCommand) : scanner.send (before ++ commands) = scanner.send commands := by
  induction before with
  | nil => rfl
  | cons command rest inductionHypothesis =>
      rw [List.cons_append, send, List.foldlM_cons,
        step_of_continues outside (allContinue command List.mem_cons_self)]
      exact inductionHypothesis fun other member =>
        allContinue other (List.mem_cons_of_mem _ member)

/-- What the end of a path leaves does not depend on the probe. -/
theorem map_bare_rasterize_withPath {scanner : Scanner} (detached : scanner.cache = none)
    (edges : Array Edge) (first second : RectProbe) :
    ((scanner.withPath edges none first).rasterize.map bare).map (·.reset) =
      ((scanner.withPath edges none second).rasterize.map bare).map (·.reset) := by
  have detachedPath : ∀ probe, (scanner.withPath edges none probe).cache = none :=
    fun _ => detached
  cases degenerate : scanner.paint.isDegenerate with
  | true =>
      have flat : ∀ probe, (scanner.withPath edges none probe).paint.isDegenerate = true :=
        fun _ => degenerate
      rw [rasterize_of_isDegenerate (detachedPath first) (flat first),
        rasterize_of_isDegenerate (detachedPath second) (flat second)]
      rfl
  | false =>
      have sound : ∀ probe, (scanner.withPath edges none probe).paint.isDegenerate = false :=
        fun _ => degenerate
      rw [map_bare_rasterize (detachedPath first) (sound first),
        map_bare_rasterize (detachedPath second) (sound second)]
      change (Except.map _ ((scanner.withPath edges none first).coverageRows.mapM
        (scanner.rowTouches (scanner.alphas scanner.grid.maxCoverage)))).map _ =
          (Except.map _ ((scanner.withPath edges none first).coverageRows.mapM
            (scanner.rowTouches (scanner.alphas scanner.grid.maxCoverage)))).map _
      cases (scanner.withPath edges none first).coverageRows.mapM
        (scanner.rowTouches (scanner.alphas scanner.grid.maxCoverage)) <;> rfl

/-- Paths with the same edges are drawn alike. -/
theorem send_finish_congr {scanner : Scanner} (ready : scanner.Ready) (idle : scanner.Idle)
    (detached : scanner.cache = none) {first second : List LineCommand}
    (firstUnfinished : .finish ∉ first) (secondUnfinished : .finish ∉ second)
    (same : Edge.ofSegments scanner.grid scanner.clip (segmentsOf first) =
      Edge.ofSegments scanner.grid scanner.clip (segmentsOf second)) :
    (scanner.send (first ++ [.finish])).map bare =
      (scanner.send (second ++ [.finish])).map bare := by
  have drawn : ∀ {commands : List LineCommand}, .finish ∉ commands → ∃ edges probe,
      edges.toList = Edge.ofSegments scanner.grid scanner.clip (segmentsOf commands) ∧
        (scanner.send (commands ++ [.finish])).map bare =
          ((scanner.withPath edges none probe).rasterize.map bare).map (·.reset) := by
    intro commands unfinished
    obtain ⟨received, edges, probe, sent, closed, traced⟩ := idle.exists_received unfinished
    refine ⟨edges, probe, traced, ?_⟩
    rw [send_finish sent, (idle.probes.send sent).map_bare_finish (ready.send sent)
      (cache_of_send detached sent), closed]
  obtain ⟨firstEdges, firstProbe, firstTraced, firstDrawn⟩ := drawn firstUnfinished
  obtain ⟨secondEdges, secondProbe, secondTraced, secondDrawn⟩ := drawn secondUnfinished
  obtain rfl : firstEdges = secondEdges := by
    rw [← Array.toList_inj, firstTraced, secondTraced, same]
  rw [firstDrawn, secondDrawn]
  exact map_bare_rasterize_withPath detached firstEdges firstProbe secondProbe

end Scanner

end Raster
