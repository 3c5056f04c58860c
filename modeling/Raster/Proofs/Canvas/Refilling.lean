import Raster.Proofs.Canvas.Forgetting
import Raster.Proofs.Scan.Retracing

/-!
# Filling recorded paths

A recorded path is filled as if its commands were received by the canvas, under the composed
transformation.  The canvas closes subpaths and leaves out corner marks, which adds no edges and
takes none away; and whatever the two chains still know of earlier paths, they agree from the
first subpath on.
-/

namespace Raster

namespace FillChain

/-! ## Two chains with one path -/

/-- Two chains that have received the same path so far, and the traces of their lines. -/
structure Retraces (grid : Grid) (clip : PixelBox) (begun : Bool) (first second : FillChain)
    (firstTrace secondTrace : Trace) : Prop where
  chains : first.Alike begun second
  traces : Trace.SameEdges grid clip firstTrace secondTrace
  outside : begun = false → secondTrace.subpath = none

variable {grid : Grid} {clip : PixelBox} {begun : Bool} {first second : FillChain}
  {firstTrace secondTrace : Trace}

/-- A command that both chains receive is traced alike.  Their lines may differ ahead of the
first subpath, where they are not traced. -/
theorem Retraces.step (retraces : Retraces grid clip begun first second firstTrace secondTrace)
    {command : PathCommand} (unfinished : command ≠ .finish) :
    Retraces grid clip (command.begunAfter begun) (first.step command).1 (second.step command).1
      ((first.step command).2.foldl Trace.step firstTrace)
      ((second.step command).2.foldl Trace.step secondTrace) := by
  obtain ⟨chains, traces, outside⟩ := retraces
  rw [PathCommand.begunAfter_of_ne_finish unfinished]
  cases starts : begun || command.mayStart with
  | true =>
      obtain ⟨lines, next⟩ := chains.step starts
      rw [PathCommand.begunAfter_of_ne_finish unfinished, starts] at next
      refine ⟨next, ?_, nofun⟩
      rw [lines]
      exact traces.foldl _
  | false =>
      obtain ⟨rfl, stray⟩ := Bool.or_eq_false_iff.mp starts
      have secondOutside := outside rfl
      have firstOutside := traces.subpath.trans secondOutside
      rw [Trace.foldl_step_of_continues firstOutside fun line => first.continues_of_mem_step stray,
        Trace.foldl_step_of_continues secondOutside fun line => second.continues_of_mem_step stray]
      refine ⟨alike_of_cleared ?_, traces, outside⟩
      rw [cleared_step, cleared_step, chains.cleared]

/-- A subpath may be closed ahead of the next one. -/
theorem Retraces.moveTo
    (retraces : Retraces grid clip begun first second firstTrace secondTrace) (subpathOpen : Bool)
    (point : Point) :
    Retraces grid clip true (first.step (.moveTo point)).1
      (Stage.run FillChain.step second (Canvas.closing .fill subpathOpen ++ [.moveTo point])).1
      ((first.step (.moveTo point)).2.foldl Trace.step firstTrace)
      ((Stage.output FillChain.step second
        (Canvas.closing .fill subpathOpen ++ [.moveTo point])).foldl Trace.step secondTrace) := by
  cases subpathOpen with
  | false =>
      have unfinished : PathCommand.moveTo point ≠ .finish := nofun
      exact retraces.step unfinished
  | true =>
      -- The close moves the current point of one flattener only, but both then move to `point`.
      obtain ⟨transform, flatness, firstStart, firstCurrent⟩ := first
      obtain ⟨secondTransform, secondFlatness, secondStart, secondCurrent⟩ := second
      obtain ⟨⟨sameTransform, sameFlatness, _⟩, traces, _⟩ := retraces
      obtain rfl : transform = secondTransform := sameTransform
      obtain rfl : flatness = secondFlatness := sameFlatness
      exact ⟨⟨rfl, rfl, fun _ => rfl⟩, traces.close_moveTo _, nofun⟩

/-- What a canvas sends for a command traces the same edges as the command itself. -/
theorem Retraces.sentFor
    (retraces : Retraces grid clip begun first second firstTrace secondTrace)
    {command : PathCommand} (unfinished : command ≠ .finish) (subpathOpen : Bool) :
    Retraces grid clip (command.begunAfter begun) (first.step command).1
      (Stage.run FillChain.step second (Canvas.sentFor .fill subpathOpen command)).1
      ((first.step command).2.foldl Trace.step firstTrace)
      ((Stage.output FillChain.step second
        (Canvas.sentFor .fill subpathOpen command)).foldl Trace.step secondTrace) := by
  have itself : ∀ command : PathCommand, Stage.output FillChain.step second [command] =
      (second.step command).2 := fun _ => List.append_nil _
  have stepped := retraces.step unfinished
  rw [← itself] at stepped
  cases command with
  | line command =>
      cases command with
      | moveTo point => exact retraces.moveTo subpathOpen point
      | lineJoin => exact retraces
      | lineTo point => exact stepped
      | close => exact stepped
      | finish => exact absurd rfl unfinished
  | quadTo control point => exact stepped
  | cubicTo control₁ control₂ point => exact stepped

/-- What a canvas sends for a path traces the same edges as the path itself. -/
theorem Retraces.closed
    (retraces : Retraces grid clip begun first second firstTrace secondTrace)
    {commands : List PathCommand} (unfinished : .finish ∉ commands) (subpathOpen : Bool) :
    Edge.ofSegments grid clip
        ((Stage.output FillChain.step first commands).foldl Trace.step firstTrace).closed =
      Edge.ofSegments grid clip
        ((Stage.output FillChain.step second
          (Canvas.sentAhead .fill subpathOpen commands)).foldl Trace.step secondTrace).closed := by
  -- Between two commands the traces differ at most by segments without extent, which closed a
  -- subpath that was closed anyway.
  induction commands generalizing begun first second firstTrace secondTrace subpathOpen with
  | nil =>
      cases subpathOpen with
      | false => exact retraces.traces.closed
      | true => exact retraces.traces.closed.trans (Trace.closed_step_close grid clip _).symm
  | cons command rest inductionHypothesis =>
      have ⟨notFirst, notRest⟩ := not_or.mp (mt List.mem_cons.mpr unfinished)
      have next := retraces.sentFor (Ne.symm notFirst) subpathOpen
      have later := inductionHypothesis next notRest (Canvas.openAfter subpathOpen command)
      rw [Canvas.sentAhead, Stage.output, Stage.output, Stage.run_cons, Stage.run_append,
        List.foldl_append, List.foldl_append]
      exact later

end FillChain

namespace Canvas

/-- The lines of a path and the lines of what a canvas sends for it show the same, through any two
chains that were built alike. -/
theorem map_picture_send_received_congr {canvas : Canvas} (sound : canvas.Sound)
    (left : canvas.drawing = false) (rule : WindingRule) {first second : FillChain}
    (built : first.cleared = second.cleared) {commands : List PathCommand}
    (unfinished : .finish ∉ commands) :
    ((canvas.begunScanner none rule .fill).send
        (Stage.output FillChain.step first (commands ++ [.finish]))).map Scanner.picture =
      ((canvas.begunScanner none rule .fill).send
        (Stage.output FillChain.step second (received .fill false commands))).map
        Scanner.picture := by
  have retraces : FillChain.Retraces (canvas.begunScanner none rule .fill).grid
      (canvas.begunScanner none rule .fill).clip false first second .empty .empty :=
    ⟨FillChain.alike_of_cleared built, .refl .empty, fun _ => rfl⟩
  rw [received_eq_sentAhead unfinished, Stage.output, Stage.output, FillChain.run_finish,
    FillChain.run_finish]
  apply Scanner.map_picture_congr
  exact Scanner.send_finish_congr (sound.steady.ready.begun _ _) ((sound.idle left).begun _ _)
    sound.steady.detached (first.finish_not_mem_run unfinished)
    (second.finish_not_mem_run (finish_not_mem_sentAhead unfinished .fill false))
    (retraces.closed unfinished false)

/-- A path that is filled with a flat color under another transformation takes a new chain and
leaves the scanner as it is. -/
theorem picture_fill_under {canvas : Canvas} {color : Color} (flat : canvas.paint = .solid color)
    (transform : Affine) (rule : WindingRule) (commands : List PathCommand) :
    (canvas.performAll
        [.setTransform transform, .setMode .fill, .start rule, .draw commands, .finish]).map
        picture =
      ((canvas.begunScanner none rule .fill).send
        (Stage.output FillChain.step (.build canvas.config transform)
          (received .fill false commands))).map Scanner.picture := by
  obtain ⟨filling, fillingEq⟩ : ∃ filling,
      (canvas.setTransform transform).setMode .fill = filling := ⟨_, rfl⟩
  have sameScanner : filling.scanner = canvas.scanner := by
    subst fillingEq
    change { canvas.scanner with paint := canvas.paint.draw transform } = canvas.scanner
    rw [flat]
    change { canvas.scanner with paint := .solid color } = canvas.scanner
    rw [← flat]
    rfl
  have begun : filling.begunScanner none rule .fill = canvas.begunScanner none rule .fill := by
    rw [begunScanner, begunScanner, sameScanner]
    subst fillingEq
    rfl
  have bracket := @picture_bracket filling (.start rule) _ _ rfl commands
  rw [← begun]
  subst fillingEq
  exact bracket

/-- A path that was recorded is filled, by the winding rule in use and with a flat color, as if its
commands were received by the canvas under the composed transformation.  It does not matter which
paths were recorded, filled or stroked before, nor whether the end of the path was recorded. -/
theorem recorded_filling_agrees {config : Config} (built : config.Built) {surface : Surface}
    {history : List Call} {canvas : Canvas}
    (reached : (new surface config).performAll history = .ok canvas)
    (left : canvas.drawing = false) {color : Color} (flat : canvas.paint = .solid color)
    (extra : Option Affine) {commands : List PathCommand} (unfinished : .finish ∉ commands)
    {ending : List PathCommand} (ends : ending = [] ∨ ending = [.finish]) :
    (canvas.performAll [.fillStore (PathStore.empty.recordAll (commands ++ ending)) extra]).map
        (fun drawn => (drawn.surface, drawn.boundingBox)) =
      (canvas.performAll
        [.setTransform (extra.elim canvas.transform canvas.transform.concat), .setMode .fill,
          .start canvas.rule, .draw commands, .finish]).map
        (fun drawn => (drawn.surface, drawn.boundingBox)) := by
  have sound := (sound_new surface config).performAll reached
  obtain ⟨_, fresh⟩ := (fresh_new surface built).performAll built reached
  have chain : (canvas.withTextExtra extra).readyText.cleared =
      .build canvas.config (extra.elim canvas.transform canvas.transform.concat) := by
    rw [(fresh.withTextExtra extra).cleared_readyText, config_withTextExtra,
      textTransform_withTextExtra]
    cases extra <;> rfl
  have recorded : (canvas.performAll
      [.fillStore (PathStore.empty.recordAll (commands ++ ending)) extra]).map picture =
        ((canvas.begunScanner none canvas.rule .fill).send
          (Stage.output FillChain.step (canvas.withTextExtra extra).readyText
            (commands ++ [.finish]))).map Scanner.picture := by
    rw [performAll_singleton]
    simp only [perform, map_map]
    rw [picture_fillStore, PathStore.path_recordAll_of_not_mem unfinished ends]
    rfl
  have received := picture_fill_under flat
    (extra.elim canvas.transform canvas.transform.concat) canvas.rule commands
  rw [← map_picture_send_received_congr sound left canvas.rule chain unfinished] at received
  exact recorded.trans received.symm

/-- Two open subpaths behind a line without a current point, recorded without an end after another
store was filled under another extra transformation, in a canvas that strokes its paths. -/
theorem recorded_filling_agrees_open_subpaths :
    let surface : Surface := ⟨.gray8, 3, 2, .packed 3, #[0, 0, 0, 0, 0, 0]⟩
    let history : List Call :=
      [.setColor ⟨255, 255, 255, 255⟩,
        .fillStore (PathStore.empty.recordAll [.moveTo ⟨7, 7⟩]) (some (.shift 0 131072)),
        .setMode .stroke, .setRule .evenOdd, .setClip 0 0 3 1]
    let extra : Option Affine := some (.shift 65536 0)
    let commands : List PathCommand :=
      [.lineTo ⟨65536, 0⟩, .moveTo ⟨0, 0⟩, .lineTo ⟨131072, 0⟩, .lineJoin, .lineTo ⟨0, 131072⟩,
        .moveTo ⟨0, 0⟩, .quadTo ⟨0, 65536⟩ ⟨65536, 65536⟩]
    ∃ canvas drawn,
      (new surface (Config.default.withGrid 1 1)).performAll history = .ok canvas ∧
      canvas.drawing = false ∧ canvas.paint = .solid ⟨255, 255, 255, 255⟩ ∧
      .finish ∉ commands ∧
      canvas.performAll [.fillStore (PathStore.empty.recordAll (commands ++ [])) extra] =
        .ok drawn ∧
      drawn.surface ≠ canvas.surface ∧
      (canvas.performAll
          [.setTransform (extra.elim canvas.transform canvas.transform.concat), .setMode .fill,
            .start canvas.rule, .draw commands, .finish]).map
          (fun drawn => (drawn.surface, drawn.boundingBox)) =
        .ok (drawn.surface, drawn.boundingBox) := by
  intro surface history extra commands
  have run : (do
      let canvas ← (new surface (Config.default.withGrid 1 1)).performAll history
      let drawn ← canvas.performAll
        [.fillStore (PathStore.empty.recordAll (commands ++ [])) extra]
      pure (canvas.drawing, canvas.paint, decide (drawn.surface ≠ canvas.surface))) =
        .ok (false, .solid ⟨255, 255, 255, 255⟩, true) := by
    decide +kernel
  have unfinished : .finish ∉ commands := by decide
  obtain ⟨canvas, reached, afterHistory⟩ := exists_of_bind_eq_ok run
  obtain ⟨drawn, filled, state⟩ := exists_of_bind_eq_ok afterHistory
  simp only [pure, Except.pure, Except.ok.injEq, Prod.mk.injEq] at state
  obtain ⟨left, flat, changed⟩ := state
  have agrees := recorded_filling_agrees (.withGrid .default 1 1) reached left flat extra unfinished
    (.inl rfl)
  refine ⟨canvas, drawn, reached, left, flat, unfinished, filled, of_decide_eq_true changed, ?_⟩
  rw [← agrees, filled]
  rfl

end Canvas

end Raster
