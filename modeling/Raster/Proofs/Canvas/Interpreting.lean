import Raster.Proofs.Canvas.Forgetting
import Raster.Proofs.Path.Interpreting
import Raster.Proofs.Path.Outlining

/-!
# Path data on a canvas

To receive path data is to receive the commands that it reads as, one call after the other.  None
of them ends the path, so while a path is received the data cannot fail: it only adds lines to the
path, which goes on.  Between paths it is ignored.
-/

namespace Raster

/-! ## Lines of unfinished paths -/

/-- A stage that draws pieces ends no path on its own. -/
theorem Stage.Draws.finish_not_mem_output {σ : Type}
    {step : σ → LineCommand → σ × List LineCommand} {piece : List LineCommand → Prop}
    {drawing : σ → List LineCommand → Prop} (draws : Stage.Draws step piece drawing) (state : σ)
    {path : List LineCommand} (begun : drawing state path) {commands : List LineCommand}
    (unfinished : .finish ∉ commands) : .finish ∉ Stage.output step state commands := by
  have ends := (draws.drawnBy_append begun commands).ends
  rw [List.count_eq_zero_of_not_mem unfinished] at ends
  intro member
  exact List.count_eq_zero.mp ends (List.mem_append_right path member)

theorem Stroker.finish_not_mem_output (stroker : Stroker) {commands : List LineCommand}
    (unfinished : .finish ∉ commands) : .finish ∉ Stage.output step stroker commands :=
  draws.finish_not_mem_output stroker (.nil : MadeOf IsPolygon []) unfinished

theorem Dasher.finish_not_mem_output (dasher : Dasher) {commands : List LineCommand}
    (unfinished : .finish ∉ commands) : .finish ∉ Stage.output step dasher commands :=
  draws.finish_not_mem_output dasher (drawn_append .nil (.start ⟨0, 0⟩ ⟨0, 0⟩) dasher.drawing)
    unfinished

namespace StrokeChain

theorem finish_not_mem_step (chain : StrokeChain) {command : PathCommand}
    (unfinished : command ≠ .finish) : .finish ∉ (chain.step command).2 := by
  obtain ⟨transform, flattener, dasher, stroker⟩ := chain
  have flattened := FillChain.finish_not_mem_step ⟨transform, flattener⟩ unfinished
  cases dasher with
  | none => exact stroker.finish_not_mem_output flattened
  | some dasher => exact stroker.finish_not_mem_output (dasher.finish_not_mem_output flattened)

theorem finish_not_mem_run (chain : StrokeChain) {commands : List PathCommand}
    (unfinished : .finish ∉ commands) : .finish ∉ (Stage.run StrokeChain.step chain commands).2 :=
  Stage.not_mem_run (fun chain _ => chain.finish_not_mem_step) chain unfinished

end StrokeChain

namespace Canvas

theorem finish_not_mem_lines (canvas : Canvas) (route : Route) {commands : List PathCommand}
    (unfinished : .finish ∉ commands) : .finish ∉ canvas.lines route commands := by
  cases route with
  | fill => exact canvas.readyFill.finish_not_mem_run unfinished
  | stroke => exact canvas.readyStroke.finish_not_mem_run unfinished
  | text => exact canvas.readyText.finish_not_mem_run unfinished

/-! ## Receiving -/

/-- While a path is received, it goes on and nothing is drawn. -/
structure GoesOn (canvas next : Canvas) : Prop where
  drawing : next.drawing = canvas.drawing
  surface : next.surface = canvas.surface

theorem goesOn_refl (canvas : Canvas) : canvas.GoesOn canvas :=
  ⟨rfl, rfl⟩

theorem GoesOn.trans {canvas middle next : Canvas} (first : canvas.GoesOn middle)
    (second : middle.GoesOn next) : canvas.GoesOn next :=
  ⟨second.drawing.trans first.drawing, second.surface.trans first.surface⟩

/-- A part of a path can always be sent. -/
theorem exists_send_eq (canvas : Canvas) (route : Route) {commands : List PathCommand}
    (unfinished : .finish ∉ commands) :
    ∃ sent, canvas.send route commands = .ok sent ∧ canvas.GoesOn sent := by
  obtain ⟨edges, subpath, probe, received⟩ :=
    canvas.scanner.exists_send_eq (canvas.finish_not_mem_lines route unfinished)
  obtain ⟨fill, stroke, text, used⟩ := canvas.exists_used_eq route commands
    (canvas.scanner.withPath edges subpath probe)
  rw [send_eq, received]
  refine ⟨_, rfl, ?_⟩
  rw [used]
  exact ⟨rfl, rfl⟩

theorem exists_step_eq {canvas : Canvas} (drawing : canvas.drawing = true)
    {command : PathCommand} (unfinished : command ≠ .finish) :
    ∃ next, canvas.step command = .ok next ∧ canvas.GoesOn next := by
  by_cases marked : command = .lineJoin
  · subst marked
    refine ⟨canvas, ?_, canvas.goesOn_refl⟩
    unfold step
    rw [if_pos drawing]
  · have endless : .finish ∉ sentFor canvas.mode canvas.subpathOpen command := by
      have alone : .finish ∉ [command] := by
        rw [List.mem_singleton]
        exact Ne.symm unfinished
      intro member
      exact finish_not_mem_sentAhead alone _ _ (List.mem_append_left _ member)
    obtain ⟨sent, answered, goesOn⟩ := canvas.exists_send_eq (routeOf canvas.mode) endless
    refine ⟨sent.withOpen (openAfter canvas.subpathOpen command), ?_, goesOn.drawing,
      goesOn.surface⟩
    rw [step_eq_send drawing unfinished marked, answered]
    rfl

theorem exists_draw_eq {canvas : Canvas} (drawing : canvas.drawing = true)
    {commands : List PathCommand} (unfinished : .finish ∉ commands) :
    ∃ next, canvas.draw commands = .ok next ∧ canvas.GoesOn next := by
  induction commands generalizing canvas with
  | nil => exact ⟨canvas, rfl, canvas.goesOn_refl⟩
  | cons command rest inductionHypothesis =>
      have ⟨notFirst, notRest⟩ := not_or.mp (mt List.mem_cons.mpr unfinished)
      obtain ⟨middle, stepped, first⟩ := exists_step_eq drawing (Ne.symm notFirst)
      obtain ⟨next, drawn, second⟩ :=
        inductionHypothesis (first.drawing.trans drawing) notRest
      refine ⟨next, ?_, first.trans second⟩
      rw [draw, List.foldlM_cons, stepped]
      exact drawn

theorem draw_append (canvas : Canvas) (first second : List PathCommand) :
    canvas.draw (first ++ second) =
      (canvas.draw first).bind fun between => between.draw second := by
  rw [draw, List.foldlM_append]
  rfl

/-- Commands may be given by one call each. -/
theorem performAll_draw (canvas : Canvas) (commands : List PathCommand) :
    canvas.performAll (commands.map fun command => .draw [command]) = canvas.draw commands := by
  have one : ∀ (canvas : Canvas) (command : PathCommand),
      (canvas.perform (.draw [command])).map Prod.fst = canvas.step command := by
    intro canvas command
    change ((canvas.draw [command]).map (·, Reply.done)).map Prod.fst = _
    rw [draw, List.foldlM_cons]
    cases canvas.step command <;> rfl
  simp only [performAll, List.foldlM_map, one, draw]

theorem performAll_drawData (canvas : Canvas) (codes : List Nat) (coordinates : List Float32) :
    canvas.performAll [.drawData codes coordinates] = canvas.drawData codes coordinates := by
  rw [performAll_singleton, perform]
  cases canvas.drawData codes coordinates <;> rfl

/-! ## Path data -/

open PathData

theorem drawData_of_reads (canvas : Canvas) {codes : List Nat} {coordinates : List Float32}
    {commands : List PathCommand} (reads : Reads codes coordinates commands) :
    canvas.drawData codes coordinates = canvas.draw commands := by
  rw [drawData, ← reads.eq_commands]

/-- Path data reads from left to right in exactly one way, and a canvas does with it what it does
with a call for each command that is read, in order.  A coordinate without a partner changes
nothing.  Data whose codes take all of its coordinates is done with before the data after it.
While a path is received no data fails, ends the path or draws anything; between paths it changes
nothing. -/
theorem drawData_reads_left_to_right (canvas : Canvas) (codes : List Nat)
    (coordinates : List Float32) :
    (∃ commands, Reads codes coordinates commands ∧
        (∀ other, Reads codes coordinates other → other = commands) ∧
        canvas.performAll [.drawData codes coordinates] =
          canvas.performAll (commands.map fun command => .draw [command])) ∧
      (coordinates.length % 2 = 0 → ∀ single,
        canvas.drawData codes (coordinates ++ [single]) = canvas.drawData codes coordinates) ∧
      (coordinates.length = 2 * needed codes → ∀ laterCodes laterCoordinates,
        canvas.drawData (codes ++ laterCodes) (coordinates ++ laterCoordinates) =
          (canvas.drawData codes coordinates).bind fun between =>
            between.drawData laterCodes laterCoordinates) ∧
      (canvas.drawing = true → ∃ next, canvas.drawData codes coordinates = .ok next ∧
        next.drawing = true ∧ next.surface = canvas.surface) ∧
      (canvas.drawing = false → canvas.drawData codes coordinates = .ok canvas) := by
  obtain ⟨commands, reads⟩ := exists_reads codes coordinates
  refine ⟨⟨commands, reads, ?_, ?_⟩, ?_, ?_, ?_, ?_⟩
  · intro other readsOther
    rw [reads.eq_commands, readsOther.eq_commands]
  · rw [performAll_drawData, performAll_draw, canvas.drawData_of_reads reads]
  · intro paired single
    rw [canvas.drawData_of_reads (reads.append_single paired single),
      canvas.drawData_of_reads reads]
  · intro exact laterCodes laterCoordinates
    obtain ⟨laterCommands, later⟩ := exists_reads laterCodes laterCoordinates
    rw [canvas.drawData_of_reads (reads.append exact later), draw_append,
      canvas.drawData_of_reads reads]
    exact congrArg _ (funext fun between => (between.drawData_of_reads later).symm)
  · intro drawing
    obtain ⟨next, drawn, goesOn⟩ := exists_draw_eq drawing
      (finish_not_mem_commands codes (points coordinates))
    exact ⟨next, drawn, goesOn.drawing.trans drawing, goesOn.surface⟩
  · intro left
    exact draw_of_left left _

/-- Two sides of a triangle with a code between them that is not known.  A coordinate too many
leaves the path as it is, and so does a last line that lacks its point. -/
theorem drawData_reads_left_to_right_triangle :
    let canvas := (new ⟨.gray8, 2, 2, .packed 2, #[0, 0, 0, 0]⟩ Config.default).start .nonZero
    let codes := [0, 1, 7, 1]
    let coordinates : List Float32 := [0, 0, 2, 0, 2, 2]
    canvas.drawing = true ∧
      ∃ next, canvas.drawData codes coordinates = .ok next ∧
        next.drawing = true ∧ next.surface = canvas.surface ∧
        canvas.drawData codes (coordinates ++ [3]) = .ok next ∧
        canvas.drawData (codes ++ [1, 4]) (coordinates ++ [3]) = .ok next := by
  intro canvas codes coordinates
  obtain ⟨_, single, split, drawing, _⟩ :=
    drawData_reads_left_to_right canvas codes coordinates
  obtain ⟨next, drawn, goesOn, undrawn⟩ := drawing rfl
  refine ⟨rfl, next, drawn, goesOn, undrawn, ?_, ?_⟩
  · have paired : coordinates.length % 2 = 0 := Nat.mul_mod_right 2 3
    rw [single paired, drawn]
  · rw [split rfl, drawn]
    rfl

end Canvas

end Raster
