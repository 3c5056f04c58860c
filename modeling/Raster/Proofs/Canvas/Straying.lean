import Raster.Proofs.Canvas.Forgetting
import Raster.Proofs.Scan.Retracing

/-!
# Paths with commands ahead of their first subpath

Such commands have no current point.  The scanner and the stroker ignore them, so they change no
path that is filled, recorded or stroked without dashes.  The dasher does not ignore them: it goes
on from the origin of device space, as if a subpath had been started there.
-/

namespace Raster

theorem PathStore.path_recordAll_append {strays : List PathCommand}
    (stray : ∀ command ∈ strays, command.mayStart = false) (rest : List PathCommand) :
    (empty.recordAll (strays ++ rest)).path = strays ++ (empty.recordAll rest).path := by
  have last : (strays ++ rest).getLast? = some .finish ↔ rest.getLast? = some .finish := by
    cases rest with
    | nil =>
        rw [List.append_nil, List.getLast?_nil]
        constructor
        · intro ends
          cases stray .finish (List.mem_of_getLast? ends)
        · nofun
    | cons command later => rw [List.getLast?_append_cons]
  simp only [path_recordAll, last, List.append_assoc]

namespace Canvas

/-- Corner marks are not sent. -/
def sentStrays (strays : List PathCommand) : List PathCommand :=
  strays.filter fun command => command ≠ .lineJoin

theorem mayStart_of_mem_sentStrays {strays : List PathCommand}
    (stray : ∀ command ∈ strays, command.mayStart = false) :
    ∀ command ∈ sentStrays strays, command.mayStart = false :=
  fun command member => stray command (List.mem_of_mem_filter member)

/-- Ahead of the first subpath nothing is closed. -/
theorem received_append {strays : List PathCommand}
    (stray : ∀ command ∈ strays, command.mayStart = false) (mode : PathMode)
    (rest : List PathCommand) :
    received mode false (strays ++ rest) = sentStrays strays ++ received mode false rest := by
  induction strays with
  | nil => rfl
  | cons command later inductionHypothesis =>
      have here := stray command List.mem_cons_self
      have next := inductionHypothesis fun other member =>
        stray other (List.mem_cons_of_mem _ member)
      cases command with
      | line command =>
          cases command with
          | moveTo point => cases here
          | finish => cases here
          | lineJoin => exact next
          | lineTo point => exact congrArg (.lineTo point :: ·) next
          | close => exact congrArg (.close :: ·) next
      | quadTo control point => exact congrArg (.quadTo control point :: ·) next
      | cubicTo control₁ control₂ point =>
          exact congrArg (.cubicTo control₁ control₂ point :: ·) next

/-- A filled path is drawn as without the commands ahead of its first subpath. -/
theorem send_strays_fill {canvas : Canvas} (sound : canvas.Sound) (left : canvas.drawing = false)
    (region : Option PixelBox) (rule : WindingRule) (route : Route) (chain : FillChain)
    {strays rest : List PathCommand} (stray : ∀ command ∈ strays, command.mayStart = false)
    (starts : PathCommand.startsPaths false rest = true) :
    (canvas.begunScanner region rule route).send
        (Stage.output FillChain.step chain (strays ++ rest)) =
      (canvas.begunScanner region rule route).send (Stage.output FillChain.step chain rest) := by
  have idle := (sound.idle left).begun (clipWithin canvas.clip region)
    (if route.mode = .fill then rule else .nonZero)
  rw [chain.output_append strays starts]
  exact Scanner.send_append_of_continues idle.subpath
    (fun line => chain.continues_of_mem_output stray) _

/-! ## Strokes -/

/-- The dasher of stroked paths, if there are dashes. -/
def dasher? (canvas : Canvas) : Option Dasher :=
  Dasher.new? canvas.stroke.dash canvas.stroke.dashPhase
    (StrokeChain.biased canvas.config canvas.transform)

/-- On a resting canvas dasher and stroker are those that would be built. -/
theorem Rested.readyStroke_eq {canvas : Canvas} (rested : canvas.Rested) :
    canvas.readyStroke.dasher = canvas.dasher? ∧
      canvas.readyStroke.stroker =
        .new canvas.stroke (StrokeChain.biased canvas.config canvas.transform) := by
  have settled := settled_readyStroke rested.settled
  obtain ⟨_, _, dasher, stroker⟩ := StrokeChain.mk.inj rested.fresh.cleared_readyStroke
  exact ⟨settled.dasher.symm.trans dasher, settled.stroker.symm.trans stroker⟩

/-- The dashes of a path with commands ahead of its first subpath: the dasher takes these from the
device origin. -/
def strayDashes (canvas : Canvas) (dasher : Dasher) (strays rest : List PathCommand) :
    List LineCommand :=
  Stage.output Dasher.step dasher
      (.moveTo .origin :: canvas.readyStroke.flattened (sentStrays strays)) ++
    canvas.readyStroke.dashes (received .stroke false rest)

theorem Rested.lines_stroke_of_dashed {canvas : Canvas} (rested : canvas.Rested) {dasher : Dasher}
    (dashed : canvas.dasher? = some dasher) {strays rest : List PathCommand}
    (stray : ∀ command ∈ strays, command.mayStart = false)
    (starts : PathCommand.startsPaths false rest = true) :
    canvas.lines .stroke (received .stroke false (strays ++ rest)) =
      Stage.output Stroker.step
        (.new canvas.stroke (StrokeChain.biased canvas.config canvas.transform))
        (canvas.strayDashes dasher strays rest) := by
  obtain ⟨sameDasher, sameStroker⟩ := rested.readyStroke_eq
  have held : canvas.readyStroke.dasher = some dasher := sameDasher.trans dashed
  have isDashed : canvas.readyStroke.dasher.isSome = true := by rw [held]; rfl
  have ahead : canvas.readyStroke.dashes (sentStrays strays) =
      Stage.output Dasher.step dasher
        (.moveTo .origin :: canvas.readyStroke.flattened (sentStrays strays)) := by
    rw [← Dasher.output_of_cleared (Dasher.cleared_of_new? dashed), StrokeChain.dashes, held]
  rw [received_append stray, strayDashes, ← ahead,
    ← StrokeChain.dashes_append _ _ (startsPaths_received starts .stroke), ← sameStroker]
  exact StrokeChain.output_eq_of_dashed isDashed _

theorem Rested.lines_stroke_of_solid {canvas : Canvas} (rested : canvas.Rested)
    (solid : canvas.dasher? = none) {strays rest : List PathCommand}
    (stray : ∀ command ∈ strays, command.mayStart = false)
    (starts : PathCommand.startsPaths false rest = true) :
    canvas.lines .stroke (received .stroke false (strays ++ rest)) =
      canvas.lines .stroke (received .stroke false rest) := by
  have held : canvas.readyStroke.dasher = none := rested.readyStroke_eq.1.trans solid
  rw [received_append stray]
  exact (settled_readyStroke rested.settled).output_append_of_solid held
    (mayStart_of_mem_sentStrays stray) (startsPaths_received starts .stroke)

/-! ## Whole paths -/

/-- A path that is received is drawn as without the commands ahead of its first subpath, unless they
are dashed. -/
theorem Rested.picture_bracket_strays {canvas : Canvas} (rested : canvas.Rested)
    (undashed : canvas.mode = .fill ∨ canvas.dasher? = none) {opening : Call}
    {region : Option PixelBox} {rule : WindingRule}
    (opens : opening.opens? = some (region, rule)) {strays rest : List PathCommand}
    (stray : ∀ command ∈ strays, command.mayStart = false)
    (starts : PathCommand.startsPaths false rest = true) :
    (canvas.performAll [opening, .draw (strays ++ rest), .finish]).map picture =
      (canvas.performAll [opening, .draw rest, .finish]).map picture := by
  rw [picture_bracket canvas opens, picture_bracket canvas opens]
  cases mode : canvas.mode with
  | fill =>
      have sent := send_strays_fill rested.sound rested.settled.drawing region rule .fill
        canvas.readyFill (mayStart_of_mem_sentStrays stray) (startsPaths_received starts .fill)
      rw [received_append stray]
      exact congrArg (Except.map Scanner.picture) sent
  | stroke =>
      have solid : canvas.dasher? = none := by
        rcases undashed with filled | solid
        · cases mode.symm.trans filled
        · exact solid
      exact congrArg (fun lines => ((canvas.begunScanner region rule .stroke).send lines).map
        Scanner.picture) (rested.lines_stroke_of_solid solid stray starts)

/-- A path that was recorded is filled as without the commands ahead of its first subpath. -/
theorem Rested.picture_fillStore_strays {canvas : Canvas} (rested : canvas.Rested)
    {strays rest : List PathCommand} (stray : ∀ command ∈ strays, command.mayStart = false)
    (starts : PathCommand.startsPaths false rest = true) (extra : Option Affine) :
    (canvas.fillStore (PathStore.empty.recordAll (strays ++ rest)) extra).map picture =
      (canvas.fillStore (PathStore.empty.recordAll rest) extra).map picture := by
  have startsPath : PathCommand.startsPaths false (PathStore.empty.recordAll rest).path = true := by
    rw [PathStore.path_recordAll]
    split
    · rw [List.append_nil]
      exact starts
    · exact PathCommand.startsPaths_finish starts
  have sent := send_strays_fill rested.sound rested.settled.drawing none canvas.rule .text
    (canvas.withTextExtra extra).readyText stray startsPath
  rw [picture_fillStore, picture_fillStore, PathStore.path_recordAll_append stray]
  exact congrArg (Except.map Scanner.picture) sent

/-- Without a current point the scanner and the stroker ignore every command that goes on from it.
So on a canvas between paths, however it came there, a path is drawn as without such commands
ahead of its first subpath, whether it is filled, stroked without dashes or recorded.  A path that
is stroked with dashes is drawn with those commands dashed from the device origin. -/
theorem stray_commands_only_dashed {config : Config} (built : config.Built) {surface : Surface}
    {history : List Call} (orderly : Orderly history) {canvas : Canvas}
    (reached : (new surface config).performAll history = .ok canvas)
    {strays rest : List PathCommand} (stray : ∀ command ∈ strays, command.mayStart = false)
    (starts : PathCommand.startsPaths false rest = true) :
    (∀ (scanner : Scanner) (command : LineCommand), scanner.subpath = none →
        command.continues = true → scanner.step command = .ok scanner) ∧
      (∀ (stroker : Stroker) (command : LineCommand), stroker.subpath = none →
        command.continues = true →
          (stroker.step command).2 = [] ∧ (stroker.step command).1.subpath = none) ∧
      (∀ opening region rule, opening.opens? = some (region, rule) →
        (canvas.mode = .fill ∨ canvas.dasher? = none →
          (canvas.performAll [opening, .draw (strays ++ rest), .finish]).map
              (fun drawn => (drawn.surface, drawn.boundingBox)) =
            (canvas.performAll [opening, .draw rest, .finish]).map
              (fun drawn => (drawn.surface, drawn.boundingBox))) ∧
        ∀ dasher, canvas.mode = .stroke → canvas.dasher? = some dasher →
          (canvas.performAll [opening, .draw (strays ++ rest), .finish]).map
              (fun drawn => (drawn.surface, drawn.boundingBox)) =
            ((canvas.begunScanner region rule .stroke).send
              (Stage.output Stroker.step
                (.new canvas.stroke (StrokeChain.biased canvas.config canvas.transform))
                (canvas.strayDashes dasher strays rest))).map
              (fun drawn => (drawn.surface, drawn.boundingBox))) ∧
      ∀ extra, (canvas.performAll
            [.fillStore (PathStore.empty.recordAll (strays ++ rest)) extra]).map
            (fun drawn => (drawn.surface, drawn.boundingBox)) =
          (canvas.performAll [.fillStore (PathStore.empty.recordAll rest) extra]).map
            (fun drawn => (drawn.surface, drawn.boundingBox)) := by
  obtain ⟨_, rested⟩ := rested_of_orderly built orderly reached
  refine ⟨fun _ _ outside continues => Scanner.step_of_continues outside continues,
    fun _ _ outside continues => Stroker.step_of_continues outside continues, ?_, ?_⟩
  · intro opening region rule opens
    refine ⟨fun undashed => rested.picture_bracket_strays undashed opens stray starts, ?_⟩
    intro dasher stroked dashed
    rw [← rested.lines_stroke_of_dashed dashed stray starts]
    have bracket := canvas.picture_bracket opens (strays ++ rest)
    rw [stroked] at bracket
    exact bracket
  · intro extra
    simp only [performAll_singleton, perform, map_map]
    exact rested.picture_fillStore_strays stray starts extra

/-- A stroke without dashes, behind a line, a curve and the end of a subpath without a current
point. -/
theorem stray_commands_only_dashed_solid :
    let surface : Surface := ⟨.gray8, 3, 2, .packed 3, #[0, 0, 0, 0, 0, 0]⟩
    let history : List Call :=
      [.setColor ⟨255, 255, 255, 255⟩, .setStroke { StrokeStyle.default with width := 131072 },
        .setMode .stroke]
    let strays : List PathCommand :=
      [.lineTo ⟨196608, 0⟩, .lineJoin, .quadTo ⟨0, 65536⟩ ⟨65536, 65536⟩, .close]
    let rest : List PathCommand := [.moveTo ⟨0, 0⟩, .lineTo ⟨131072, 0⟩]
    ∃ canvas drawn,
      (new surface (Config.default.withGrid 1 1)).performAll history = .ok canvas ∧
      canvas.mode = .stroke ∧ canvas.dasher? = none ∧
      canvas.performAll [.start .nonZero, .draw rest, .finish] = .ok drawn ∧
      drawn.surface ≠ canvas.surface ∧
      (canvas.performAll [.start .nonZero, .draw (strays ++ rest), .finish]).map
          (fun drawn => (drawn.surface, drawn.boundingBox)) =
        .ok (drawn.surface, drawn.boundingBox) := by
  intro surface history strays rest
  have orderly : Orderly history := .setting rfl (.setting rfl (.setting rfl .nil))
  have run : (do
      let canvas ← (new surface (Config.default.withGrid 1 1)).performAll history
      let drawn ← canvas.performAll [.start .nonZero, .draw rest, .finish]
      pure (canvas.mode, canvas.dasher?, decide (drawn.surface ≠ canvas.surface))) =
        .ok (.stroke, none, true) := by
    decide +kernel
  obtain ⟨canvas, reached, afterHistory⟩ := exists_of_bind_eq_ok run
  obtain ⟨drawn, performed, state⟩ := exists_of_bind_eq_ok afterHistory
  simp only [pure, Except.pure, Except.ok.injEq, Prod.mk.injEq] at state
  obtain ⟨stroked, solid, changed⟩ := state
  obtain ⟨_, _, brackets, _⟩ := @stray_commands_only_dashed _ (.withGrid .default 1 1) _ _ orderly _
    reached strays rest (by decide) (by decide)
  have same := (brackets (.start .nonZero) none .nonZero rfl).1 (.inr solid)
  refine ⟨canvas, drawn, reached, stroked, solid, performed, of_decide_eq_true changed, ?_⟩
  rw [same, performed]
  rfl

/-- A line without a current point is dashed from the device origin to its end, although the path
has no subpath. -/
theorem stray_line_dashed :
    let surface : Surface := ⟨.gray8, 4, 2, .packed 4, #[0, 0, 0, 0, 0, 0, 0, 0]⟩
    let history : List Call :=
      [.setColor ⟨255, 255, 255, 255⟩,
        .setStroke { StrokeStyle.default with width := 131072, dash := [65536, 65536] },
        .setMode .stroke]
    ((new surface (Config.default.withGrid 1 1)).performAll
        (history ++ [.start .nonZero, .draw [.lineTo ⟨262144, 0⟩], .finish])).map
        (fun drawn => drawn.surface.elements) = .ok #[255, 0, 255, 0, 0, 0, 0, 0] ∧
      ((new surface (Config.default.withGrid 1 1)).performAll
        (history ++ [.start .nonZero, .draw [], .finish])).map
        (fun drawn => drawn.surface.elements) = .ok #[0, 0, 0, 0, 0, 0, 0, 0] := by
  intro surface history
  constructor
  · decide +kernel
  · decide +kernel

end Canvas

end Raster
