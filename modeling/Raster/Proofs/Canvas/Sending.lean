import Raster.Canvas.Drawing
import Raster.Proofs.Scan.Replaying

/-!
# What a canvas sends

The lines that a chain makes of a path depend on the chain alone, and the end of the path is
the last of them.  A canvas that fills path data therefore sends the same lines whatever
its scanner has on it, and its scanner receives them as one whole path.
-/

namespace Raster

/-! ## Chains -/

theorem PathData.finish_not_mem_commands (codes : List Nat) (points : List Point) :
    .finish ∉ PathData.commands codes points := by
  induction codes generalizing points with
  | nil => exact List.not_mem_nil
  | cons code rest inductionHypothesis =>
      unfold PathData.commands
      split
      · exact inductionHypothesis points
      · rename_i known _
        split
        · exact List.not_mem_nil
        · rename_i command later taken
          have unfinished : command ≠ .finish := by
            rintro rfl
            unfold PathCode.take? at taken
            split at taken <;> cases taken
          intro member
          rcases List.mem_cons.mp member with here | after
          · exact unfinished here.symm
          · exact inductionHypothesis later after

/-- Flattening ends a path only where it ends. -/
theorem Flattener.finish_not_mem_step (flattener : Flattener) {command : PathCommand}
    (unfinished : command ≠ .finish) : .finish ∉ (flattener.step command).2 := by
  cases command with
  | line command =>
      cases command with
      | finish => exact absurd rfl unfinished
      | moveTo point => simp [Flattener.step]
      | lineJoin => simp [Flattener.step]
      | lineTo point => simp [Flattener.step]
      | close => simp [Flattener.step]
  | quadTo control point => simp [Flattener.step]
  | cubicTo control₁ control₂ point => simp [Flattener.step]

namespace FillChain

theorem finish_not_mem_step (chain : FillChain) {command : PathCommand}
    (unfinished : command ≠ .finish) : .finish ∉ (chain.step command).2 := by
  apply Flattener.finish_not_mem_step
  cases command with
  | line command =>
      cases command with
      | finish => exact absurd rfl unfinished
      | moveTo point => simp [PathCommand.transform, PathCommand.mapPoints]
      | lineJoin => simp [PathCommand.transform, PathCommand.mapPoints]
      | lineTo point => simp [PathCommand.transform, PathCommand.mapPoints]
      | close => simp [PathCommand.transform, PathCommand.mapPoints]
  | quadTo control point => simp [PathCommand.transform, PathCommand.mapPoints]
  | cubicTo control₁ control₂ point => simp [PathCommand.transform, PathCommand.mapPoints]

theorem finish_not_mem_run (chain : FillChain) {commands : List PathCommand}
    (unfinished : .finish ∉ commands) : .finish ∉ (Stage.run FillChain.step chain commands).2 :=
  Stage.not_mem_run (fun chain _ => chain.finish_not_mem_step) chain unfinished

/-- The end of a path is the last line of a filled path. -/
theorem run_finish (chain : FillChain) (commands : List PathCommand) :
    (Stage.run FillChain.step chain (commands ++ [.finish])).2 =
      (Stage.run FillChain.step chain commands).2 ++ [.finish] := by
  rw [Stage.run_append]
  rfl

end FillChain

/-- The end of a path is the last line of a stroked path. -/
theorem StrokeChain.exists_run_finish (chain : StrokeChain) (commands : List PathCommand) :
    ∃ lines, (Stage.run StrokeChain.step chain (commands ++ [.finish])).2 =
      lines ++ [.finish] := by
  rw [Stage.run_append]
  generalize (Stage.run StrokeChain.step chain commands).1 = middle
  obtain ⟨lines, ends⟩ : ∃ lines, (middle.step .finish).2 = lines ++ [.finish] := by
    obtain ⟨transform, flattener, dasher, stroker⟩ := middle
    cases dasher with
    | none => exact ⟨_, List.append_nil _⟩
    | some dasher => exact ⟨_, List.append_nil _⟩
  refine ⟨(Stage.run StrokeChain.step chain commands).2 ++ lines, ?_⟩
  rw [Stage.run_cons, Stage.run_nil, List.append_nil, ends, List.append_assoc]

namespace Scanner

/-- The scanner at the start of a path. -/
def begun (scanner : Scanner) (clip : Option PixelBox) (rule : WindingRule) : Scanner :=
  { scanner.setClip clip with rule := rule }

theorem Ready.begun {scanner : Scanner} (ready : scanner.Ready) (clip : Option PixelBox)
    (rule : WindingRule) : (scanner.begun clip rule).Ready := by
  obtain ⟨lgX, lgY, holds⟩ := ready.setClip clip
  exact ⟨lgX, lgY, holds⟩

theorem Idle.begun {scanner : Scanner} (idle : scanner.Idle) (clip : Option PixelBox)
    (rule : WindingRule) : (scanner.begun clip rule).Idle :=
  ⟨idle.edges, idle.subpath, idle.probe⟩

end Scanner

/-! ## Filled paths -/

namespace Canvas

/-- The canvas with another scanner. -/
def withScanner (canvas : Canvas) (scanner : Scanner) : Canvas :=
  { canvas with scanner := scanner }

/-- The canvas after it has sent a part of a filled path. -/
def afterFill (canvas : Canvas) (chain : Option FillChain) (subpathOpen : Bool)
    (scanner : Scanner) : Canvas :=
  { canvas with fillChain := chain, subpathOpen := subpathOpen, scanner := scanner }

theorem send_fill (canvas : Canvas) (commands : List PathCommand) (scanner : Scanner) :
    (canvas.withScanner scanner).send .fill commands =
      (scanner.send (Stage.run FillChain.step canvas.readyFill commands).2).map
        (canvas.afterFill (some (Stage.run FillChain.step canvas.readyFill commands).1)
          canvas.subpathOpen) := by
  have chain : (canvas.withScanner scanner).readyFill = canvas.readyFill := rfl
  have own : (canvas.withScanner scanner).scanner = scanner := rfl
  simp only [send, chain, own]
  cases scanner.send (Stage.run FillChain.step canvas.readyFill commands).2 <;> rfl

/-- Commands that are sent into a filled path become lines that do not depend on the scanner. -/
theorem exists_lines_of_send {canvas : Canvas} {commands : List PathCommand}
    (unfinished : .finish ∉ commands) (subpathOpen : Bool) {answer : Scanner → Except Fault Canvas}
    (answers : ∀ scanner, answer scanner = (do
      let sent ← (canvas.withScanner scanner).send .fill commands
      pure { sent with subpathOpen := subpathOpen })) :
    ∃ lines chain subpathOpen, .finish ∉ lines ∧
      ∀ scanner, answer scanner =
        (scanner.send lines).map (canvas.afterFill chain subpathOpen) := by
  refine ⟨_, some (Stage.run FillChain.step canvas.readyFill commands).1, subpathOpen,
    canvas.readyFill.finish_not_mem_run unfinished, ?_⟩
  intro scanner
  rw [answers, send_fill]
  cases scanner.send (Stage.run FillChain.step canvas.readyFill commands).2 <;> rfl

/-- A segment leaves the subpath as it is. -/
theorem exists_lines_of_segment {canvas : Canvas} {command : PathCommand}
    (unfinished : command ≠ .finish) {answer : Scanner → Except Fault Canvas}
    (answers : ∀ scanner, answer scanner = (canvas.withScanner scanner).send .fill [command]) :
    ∃ lines chain subpathOpen, .finish ∉ lines ∧
      ∀ scanner, answer scanner =
        (scanner.send lines).map (canvas.afterFill chain subpathOpen) := by
  have notMember : .finish ∉ [command] := by
    rw [List.mem_singleton]
    exact Ne.symm unfinished
  apply exists_lines_of_send notMember canvas.subpathOpen
  intro scanner
  rw [answers, send_fill]
  cases scanner.send (Stage.run FillChain.step canvas.readyFill [command]).2 <;> rfl

/-- While it receives a filled path, a canvas sends lines that do not depend on its scanner. -/
theorem exists_lines_step {canvas : Canvas} (filling : canvas.mode = .fill)
    (drawing : canvas.drawing = true) {command : PathCommand} (unfinished : command ≠ .finish) :
    ∃ lines chain subpathOpen, .finish ∉ lines ∧
      ∀ scanner, (canvas.withScanner scanner).step command =
        (scanner.send lines).map (canvas.afterFill chain subpathOpen) := by
  have stepped : ∀ scanner, (canvas.withScanner scanner).drawing = true := fun _ => drawing
  have route : ∀ scanner, routeOf (canvas.withScanner scanner).mode = .fill := by
    intro scanner
    change routeOf canvas.mode = .fill
    rw [filling]
    rfl
  cases command with
  | line command =>
      cases command with
      | finish => exact absurd rfl unfinished
      | moveTo point =>
          have endless : .finish ∉ (if canvas.mode = .fill ∧ canvas.subpathOpen then
              [.close, .moveTo point] else [.moveTo point] : List PathCommand) := by
            split <;> simp
          apply exists_lines_of_send endless true
          intro scanner
          simp only [step, stepped, if_true, moveTo, route]
          rfl
      | lineJoin =>
          refine ⟨[], canvas.fillChain, canvas.subpathOpen, List.not_mem_nil, ?_⟩
          intro scanner
          simp only [step, stepped, if_true]
          rfl
      | lineTo point =>
          apply exists_lines_of_segment unfinished
          intro scanner
          simp only [step, stepped, if_true, route]
      | close =>
          have endless : .finish ∉ ([.close] : List PathCommand) := by simp
          apply exists_lines_of_send endless false
          intro scanner
          simp only [step, stepped, if_true, close, route]
  | quadTo control point =>
      apply exists_lines_of_segment unfinished
      intro scanner
      simp only [step, stepped, if_true, route]
  | cubicTo control₁ control₂ point =>
      apply exists_lines_of_segment unfinished
      intro scanner
      simp only [step, stepped, if_true, route]

theorem exists_lines_draw {canvas : Canvas} (filling : canvas.mode = .fill)
    (drawing : canvas.drawing = true) {commands : List PathCommand}
    (unfinished : .finish ∉ commands) :
    ∃ lines chain subpathOpen, .finish ∉ lines ∧
      ∀ scanner, (canvas.withScanner scanner).draw commands =
        (scanner.send lines).map (canvas.afterFill chain subpathOpen) := by
  induction commands generalizing canvas with
  | nil => exact ⟨[], canvas.fillChain, canvas.subpathOpen, List.not_mem_nil, fun _ => rfl⟩
  | cons command rest inductionHypothesis =>
      have ⟨notFirst, notRest⟩ := not_or.mp (mt List.mem_cons.mpr unfinished)
      obtain ⟨lines, chain, subpathOpen, endless, stepped⟩ :=
        exists_lines_step filling drawing (Ne.symm notFirst)
      have next : (canvas.afterFill chain subpathOpen canvas.scanner).mode = .fill := filling
      obtain ⟨later, chain', subpathOpen', endless', drawn⟩ :=
        inductionHypothesis next drawing notRest
      refine ⟨lines ++ later, chain', subpathOpen', ?_, ?_⟩
      · intro member
        rcases List.mem_append.mp member with here | after
        · exact endless here
        · exact endless' after
      · intro scanner
        rw [draw, List.foldlM_cons, stepped, Scanner.send_append]
        cases scanner.send lines with
        | error fault => rfl
        | ok received => exact drawn received

/-- The canvas after a filled path has been drawn on its scanner. -/
def afterPath (canvas : Canvas) (chain : Option FillChain) (drawn : Scanner) : Canvas :=
  { canvas with
    drawing := false
    subpathOpen := false
    fillChain := chain
    scanner := drawn.setClip canvas.clip }

/-- The end of a filled path closes an open subpath. -/
theorem finish_of_fill {canvas : Canvas} (filling : canvas.mode = .fill)
    (drawing : canvas.drawing = true) :
    canvas.finish = (do
      let drawn ← canvas.send .fill ((if canvas.subpathOpen then [.close] else []) ++ [.finish])
      pure { drawn with subpathOpen := false }.leave) := by
  have route : routeOf canvas.mode = .fill := by
    rw [filling]
    rfl
  simp only [finish, drawing, if_true, route, finishOn]
  cases canvas.subpathOpen <;> rfl

/-- To fill path data a canvas sends one whole path, which does not depend on its scanner. -/
theorem exists_lines_fillData {canvas : Canvas} (filling : canvas.mode = .fill)
    (codes : List Nat) (coordinates : List Float32) (rule : WindingRule) :
    ∃ lines chain, .finish ∉ lines ∧
      ∀ scanner, (canvas.withScanner scanner).fillData codes coordinates rule =
        ((scanner.begun canvas.clip rule).send (lines ++ [.finish])).map
          (canvas.afterPath chain) := by
  obtain ⟨started, startedEq⟩ :
      ∃ started, { canvas with drawing := true, subpathOpen := false } = started := ⟨_, rfl⟩
  have startedFilling : started.mode = .fill := by
    subst startedEq
    exact filling
  have startedDrawing : started.drawing = true := by
    subst startedEq
    rfl
  obtain ⟨lines, chain, subpathOpen, endless, drawn⟩ := exists_lines_draw startedFilling
    startedDrawing (PathData.finish_not_mem_commands codes (PathData.points coordinates))
  obtain ⟨received, receivedEq⟩ :
      ∃ received, started.afterFill chain subpathOpen canvas.scanner = received := ⟨_, rfl⟩
  obtain ⟨closing, closingEq⟩ : ∃ closing : List PathCommand,
      (if subpathOpen then [.close] else []) = closing := ⟨_, rfl⟩
  have closes : .finish ∉ closing := by
    subst closingEq
    split <;> simp
  refine ⟨lines ++ (Stage.run FillChain.step received.readyFill closing).2,
    some (Stage.run FillChain.step received.readyFill (closing ++ [.finish])).1, ?_, ?_⟩
  · intro member
    rcases List.mem_append.mp member with here | after
    · exact endless here
    · exact received.readyFill.finish_not_mem_run closes after
  · intro scanner
    have starts : (canvas.withScanner scanner).start rule =
        started.withScanner (scanner.begun canvas.clip rule) := by
      subst startedEq
      simp only [start, startWith, withScanner, filling, if_true]
      rfl
    have ends : ∀ sent, (received.withScanner sent).finish = (do
        let drawn ← (received.withScanner sent).send .fill (closing ++ [.finish])
        pure { drawn with subpathOpen := false }.leave) := by
      intro sent
      subst receivedEq closingEq
      exact finish_of_fill startedFilling startedDrawing
    rw [fillData, starts, drawData, drawn, List.append_assoc, ← FillChain.run_finish,
      Scanner.send_append]
    cases (scanner.begun canvas.clip rule).send lines with
    | error fault => rfl
    | ok sent =>
        have reached : started.afterFill chain subpathOpen sent = received.withScanner sent := by
          subst receivedEq
          rfl
        change (started.afterFill chain subpathOpen sent).finish =
          (sent.send (Stage.run FillChain.step received.readyFill (closing ++ [.finish])).2).map _
        rw [reached, ends, send_fill]
        subst receivedEq
        subst startedEq
        generalize Stage.run FillChain.step _ (closing ++ [.finish]) = run
        cases sent.send run.2 <;> rfl

/-! ## Rendering -/

variable (canvas : Canvas) (codes : List Nat) (coordinates : List Float32) (rule : WindingRule)

/-- Without a cache the path is filled. -/
theorem renderPath_none :
    canvas.renderPath codes coordinates rule none =
      ((canvas.setMode .fill).fillData codes coordinates rule).map
        fun drawn => (drawn.setMode canvas.mode, none) := by
  simp only [renderPath]
  cases (canvas.setMode .fill).fillData codes coordinates rule <;> rfl

/-- A valid cache is replayed. -/
theorem renderPath_of_isValid {cache : CoverageCache} (valid : cache.isValid = true) :
    canvas.renderPath codes coordinates rule (some cache) =
      ((canvas.setMode .fill).replay cache).map
        fun drawn => (drawn.setMode canvas.mode, some cache) := by
  simp only [renderPath, valid, if_true]
  change (do let drawn ← (canvas.setMode .fill).replay cache; pure _) = _
  cases (canvas.setMode .fill).replay cache <;> rfl

/-- An invalid cache is recorded and then replayed. -/
theorem renderPath_of_invalid {cache : CoverageCache} (invalid : cache.isValid = false) :
    canvas.renderPath codes coordinates rule (some cache) = (do
      let (recorded, kept) ←
        (canvas.setMode .fill).recordData codes coordinates rule cache
      (recorded.replay kept).map fun drawn => (drawn.setMode canvas.mode, some kept)) := by
  simp only [renderPath, invalid, Bool.false_eq_true, if_false]
  cases (canvas.setMode .fill).recordData codes coordinates rule cache with
  | error fault => rfl
  | ok result =>
      obtain ⟨recorded, kept⟩ := result
      change (do let drawn ← recorded.replay kept; pure _) = (recorded.replay kept).map _
      cases recorded.replay kept <;> rfl

end Canvas

end Raster
