import Raster.Proofs.Canvas.Forgetting
import Raster.Proofs.Scan.Closing

/-!
# Filled paths that are closed explicitly

A canvas closes the subpaths of a filled path itself.  What closing them explicitly adds reaches the
scanner right before a subpath starts or the path ends, where it changes nothing.  It does move the
flattener, yet the next subpath moves it anyway, and commands ahead of that have no current point
on the scanner.
-/

namespace Raster

/-- The second path closes subpaths that the first one leaves open, each of them right before the
next one starts or the path ends. -/
def PathCommand.ClosesMore : List PathCommand → List PathCommand → Prop :=
  Inserts .close mayStart

theorem PathCommand.begunAfter_of_mayStart {command : PathCommand}
    (starts : command.mayStart = true) (first second : Bool) :
    command.begunAfter first = command.begunAfter second := by
  cases command with
  | line command =>
      cases command with
      | moveTo point => rfl
      | finish => rfl
      | lineJoin | lineTo | close => cases starts
  | quadTo control point => cases starts
  | cubicTo control₁ control₂ point => cases starts

namespace Scanner

/-! ## Lines of filled paths -/

/-- Only the start of a subpath and the end of a path change whether there is a current point. -/
theorem isSome_subpath_of_step {scanner next : Scanner} {command : LineCommand}
    (continues : command.continues = true) (stepped : scanner.step command = .ok next) :
    next.subpath.isSome = scanner.subpath.isSome := by
  cases command with
  | moveTo point => cases continues
  | finish => cases continues
  | lineJoin =>
      cases stepped
      rfl
  | lineTo point =>
      cases stepped
      unfold lineTo
      cases within : scanner.subpath with
      | none => exact congrArg Option.isSome within
      | some subpath => rfl
  | close =>
      cases stepped
      unfold close
      cases within : scanner.subpath with
      | none => exact congrArg Option.isSome within
      | some subpath =>
          simp only
          split
          · exact congrArg Option.isSome within
          · rfl

/-- After the lines of a command there is a current point exactly if a subpath was started. -/
theorem isSome_subpath_of_send {scanner next : Scanner} {chain : FillChain} {command : PathCommand}
    (sent : scanner.send (chain.step command).2 = .ok next) :
    next.subpath.isSome = command.begunAfter scanner.subpath.isSome := by
  cases starts : command.mayStart with
  | false =>
      have unfinished : command ≠ .finish := by
        rintro rfl
        cases starts
      have kept : ∀ {before after : Scanner} {line : LineCommand},
          line ∈ (chain.step command).2 → before.subpath.isSome = scanner.subpath.isSome →
          before.step line = .ok after → after.subpath.isSome = scanner.subpath.isSome := by
        intro before after line member same stepped
        have continues := chain.continues_of_mem_step starts member
        exact (isSome_subpath_of_step continues stepped).trans same
      rw [foldlM_keeps kept rfl sent, PathCommand.begunAfter_of_ne_finish unfinished, starts,
        Bool.or_false]
  | true =>
      cases command with
      | line command =>
          cases command with
          | moveTo point =>
              cases sent
              rfl
          | finish =>
              have idle := @idle_of_send_finish scanner next [] sent
              exact congrArg Option.isSome idle.subpath
          | lineJoin | lineTo | close => cases starts
      | quadTo control point => cases starts
      | cubicTo control₁ control₂ point => cases starts

/-- Chains that differ only in points which the path on the scanner does not have yet send it
equal paths. -/
theorem send_output_congr {scanner : Scanner} {first second : FillChain}
    (alike : first.Alike scanner.subpath.isSome second) (commands : List PathCommand) :
    scanner.send (Stage.output FillChain.step first commands) =
      scanner.send (Stage.output FillChain.step second commands) := by
  induction commands generalizing scanner first second with
  | nil => rfl
  | cons command rest inductionHypothesis =>
      rw [Stage.output, Stage.output, Stage.run_cons, Stage.run_cons]
      cases starts : (scanner.subpath.isSome || command.mayStart) with
      | true =>
          obtain ⟨lines, next⟩ := alike.step starts
          rw [lines, send_append, send_append]
          cases sent : scanner.send (second.step command).2 with
          | error fault => rfl
          | ok received =>
              rw [← isSome_subpath_of_send sent] at next
              exact inductionHypothesis next
      | false =>
          obtain ⟨outside, stray⟩ := Bool.or_eq_false_iff.mp starts
          have noSubpath : scanner.subpath = none := by
            rw [← Option.not_isSome_iff_eq_none, outside]
            exact Bool.false_ne_true
          rw [send_append_of_continues noSubpath fun _ => first.continues_of_mem_step stray,
            send_append_of_continues noSubpath fun _ => second.continues_of_mem_step stray]
          have cleared : (first.step command).1.cleared = (second.step command).1.cleared := by
            rw [FillChain.cleared_step, FillChain.cleared_step, alike.cleared]
          have next := FillChain.alike_of_cleared cleared
          rw [← outside] at next
          exact inductionHypothesis next

/-- A command that starts a subpath or ends the path becomes one line. -/
theorem exists_line_eq_of_mayStart (chain : FillChain) {command : PathCommand}
    (starts : command.mayStart = true) :
    ∃ line : LineCommand, (chain.step command).2 = [line] ∧ line.continues = false := by
  cases command with
  | line command =>
      cases command with
      | moveTo point => exact ⟨_, rfl, rfl⟩
      | finish => exact ⟨_, rfl, rfl⟩
      | lineJoin | lineTo | close => cases starts
  | quadTo control point => cases starts
  | cubicTo control₁ control₂ point => cases starts

/-- A path that starts a subpath or ends is sent alike behind an explicit end of the subpath before,
by the chain that has received that and by the one that has not. -/
theorem Probes.map_bare_send_output_close {scanner : Scanner} (ready : scanner.Ready)
    (probes : scanner.Probes) (chain : FillChain) {command : PathCommand}
    (starts : command.mayStart = true) (rest : List PathCommand) :
    (scanner.close.send
        (Stage.output FillChain.step (chain.step .close).1 (command :: rest))).map bare =
      (scanner.send (Stage.output FillChain.step chain (command :: rest))).map bare := by
  obtain ⟨line, answer, ends⟩ := exists_line_eq_of_mayStart chain starts
  have startsHere : (false || command.mayStart) = true := starts
  obtain ⟨lines, next⟩ :=
    (FillChain.alike_of_cleared (chain.cleared_step .close)).step startsHere
  have outputs : scanner.send (Stage.output FillChain.step chain (command :: rest)) =
      scanner.send (line :: Stage.output FillChain.step
        ((chain.step .close).1.step command).1 rest) := by
    rw [Stage.output, Stage.run_cons, answer, send_append]
    change _ = scanner.send ([line] ++ _)
    rw [send_append]
    cases sent : scanner.send [line] with
    | error fault => rfl
    | ok received =>
        rw [← answer] at sent
        have begun := isSome_subpath_of_send sent
        rw [PathCommand.begunAfter_of_mayStart starts _ false] at begun
        rw [← begun] at next
        exact (send_output_congr next rest).symm
  rw [outputs, Stage.output, Stage.run_cons, lines, answer]
  exact map_bare_send_cons_congr (probes.map_bare_step_close ready ends) _

/-- Closing the subpaths of a filled path explicitly changes nothing on the scanner. -/
theorem Probes.map_bare_send_output_of_closesMore {scanner : Scanner} (ready : scanner.Ready)
    (probes : scanner.Probes) (chain : FillChain) {commands more : List PathCommand}
    (closes : PathCommand.ClosesMore commands more) :
    (scanner.send (Stage.output FillChain.step chain more)).map bare =
      (scanner.send (Stage.output FillChain.step chain commands)).map bare := by
  induction closes generalizing scanner chain with
  | nil => rfl
  | keep command _ inductionHypothesis =>
      rw [Stage.output, Stage.output, Stage.run_cons, Stage.run_cons, send_append, send_append]
      cases sent : scanner.send (chain.step command).2 with
      | error fault => rfl
      | ok received => exact inductionHypothesis (ready.send sent) (probes.send sent) _
  | @ahead command rest more allowed _ inductionHypothesis =>
      have closed : scanner.step .close = .ok scanner.close := rfl
      have later := inductionHypothesis (ready.step closed) (probes.step closed)
        (chain.step .close).1
      change (scanner.close.send
        (Stage.output FillChain.step (chain.step .close).1 more)).map bare = _
      rw [later, probes.map_bare_send_output_close ready chain allowed rest]

end Scanner

namespace Canvas

/-! ## Received paths -/

theorem received_finish (mode : PathMode) (subpathOpen : Bool) (commands : List PathCommand) :
    received mode subpathOpen (commands ++ [.finish]) = received mode subpathOpen commands := by
  induction commands generalizing subpathOpen with
  | nil => rfl
  | cons command rest inductionHypothesis =>
      rw [List.cons_append, received, received, inductionHypothesis]

/-- Where a subpath starts or the path ends, a canvas closes the one before first. -/
theorem received_cons_of_mayStart {command : PathCommand} (starts : command.mayStart = true)
    (rest : List PathCommand) :
    received .fill true (command :: rest) = .close :: received .fill false (command :: rest) ∧
      ∃ later, received .fill false (command :: rest) = command :: later := by
  cases command with
  | line command =>
      cases command with
      | moveTo point => exact ⟨rfl, _, rfl⟩
      | finish => exact ⟨rfl, _, rfl⟩
      | lineJoin | lineTo | close => cases starts
  | quadTo control point => cases starts
  | cubicTo control₁ control₂ point => cases starts

/-- A canvas that receives explicit ends of subpaths sends them, or sends them in place of its
own. -/
theorem closesMore_received {commands more : List PathCommand}
    (closes : PathCommand.ClosesMore commands more) (subpathOpen : Bool) :
    PathCommand.ClosesMore (received .fill subpathOpen commands)
      (received .fill subpathOpen more) := by
  induction closes generalizing subpathOpen with
  | nil => exact .refl _
  | keep command _ inductionHypothesis =>
      rw [received, received]
      split
      · exact .refl _
      · exact (inductionHypothesis _).append_left _
  | @ahead command rest more allowed _ inductionHypothesis =>
      obtain ⟨closed, later, leads⟩ := received_cons_of_mayStart allowed rest
      have closesLater := inductionHypothesis false
      change PathCommand.ClosesMore _ (.close :: received .fill false more)
      cases subpathOpen with
      | true =>
          rw [closed]
          exact .keep _ closesLater
      | false =>
          rw [leads] at closesLater ⊢
          exact .ahead allowed closesLater

/-! ## Whole paths -/

/-- The canvas with its chains of filled paths as before they received anything, and without the
scratch data of its scanner. -/
def cleared (canvas : Canvas) : Canvas :=
  { canvas with
    scanner := canvas.scanner.bare
    fillChain := canvas.fillChain.map FillChain.cleared
    textChain := canvas.textChain.map FillChain.cleared }

/-- The last points of a filled path are left in its chain and nowhere else. -/
theorem cleared_afterWhole {route : Route} (filled : route ≠ .stroke) (canvas : Canvas)
    (first second : List PathCommand) {drawn other : Scanner} (alike : drawn.bare = other.bare) :
    (canvas.afterWhole route first drawn).cleared =
      (canvas.afterWhole route second other).cleared := by
  have clipped : (drawn.setClip canvas.clip).bare = (other.setClip canvas.clip).bare :=
    congrArg (fun scanner => scanner.setClip canvas.clip) alike
  cases route with
  | stroke => exact absurd rfl filled
  | fill =>
      simp only [afterWhole, used, cleared, Option.map_some, FillChain.cleared_run, clipped]
  | text =>
      simp only [afterWhole, used, cleared, Option.map_some, FillChain.cleared_run, clipped]

/-- Between paths, whole paths that are filled may close their subpaths explicitly. -/
theorem drawWhole_of_closesMore {canvas : Canvas} (ready : canvas.scanner.Ready)
    (idle : canvas.scanner.Idle) (region : Option PixelBox) (rule : WindingRule) {route : Route}
    (filled : route ≠ .stroke) {commands more : List PathCommand}
    (closes : PathCommand.ClosesMore commands more) :
    (canvas.drawWhole region rule route more).map cleared =
      (canvas.drawWhole region rule route commands).map cleared := by
  have begunReady : (canvas.begunScanner region rule route).Ready := ready.begun _ _
  have probes : (canvas.begunScanner region rule route).Probes := (idle.begun _ _).probes
  have sent : ((canvas.begunScanner region rule route).send (canvas.lines route more)).map
        Scanner.bare =
      ((canvas.begunScanner region rule route).send (canvas.lines route commands)).map
        Scanner.bare := by
    cases route with
    | stroke => exact absurd rfl filled
    | fill => exact probes.map_bare_send_output_of_closesMore begunReady canvas.readyFill closes
    | text => exact probes.map_bare_send_output_of_closesMore begunReady canvas.readyText closes
  rw [drawWhole_eq, drawWhole_eq, map_map, map_map]
  exact Scanner.map_congr_of_bare sent (cleared_afterWhole filled canvas more commands)

/-! ## Drawings -/

/-- Replays what a canvas has recorded in a mode of its own. -/
def renderRecorded (mode : PathMode) (cache : CoverageCache) (recorded : Canvas) :
    Except Fault (Canvas × Option CoverageCache) :=
  ((recorded.withScanner (recorded.scanner.setCache none)).replay
    (recorded.scanner.cache.getD cache)).map fun drawn =>
      (drawn.setMode mode, some (recorded.scanner.cache.getD cache))

/-- The chains and the scratch data have no part in replaying. -/
theorem renderRecorded_congr {recorded other : Canvas} (same : recorded.cleared = other.cleared)
    (mode : PathMode) (cache : CoverageCache) :
    (renderRecorded mode cache recorded).map (fun answer => (answer.1.cleared, answer.2)) =
      (renderRecorded mode cache other).map (fun answer => (answer.1.cleared, answer.2)) := by
  have alike : recorded.scanner.bare = other.scanner.bare := congrArg Canvas.scanner same
  have kept : recorded.scanner.cache = other.scanner.cache := (congrArg Scanner.cache alike :)
  have detached : (recorded.scanner.setCache none).bare = (other.scanner.setCache none).bare :=
    congrArg (fun scanner => scanner.setCache none) alike
  have played : ∀ canvas : Canvas, ∀ cache : CoverageCache,
      ((canvas.replay cache).map fun drawn => (drawn.setMode mode, some cache)).map
          (fun answer => (answer.1.cleared, answer.2)) =
        (canvas.scanner.replay cache).map fun drawn =>
          (((canvas.cleared.withScanner drawn.bare).setMode mode), some cache) := by
    intro canvas cache
    rw [replay]
    cases canvas.scanner.replay cache <;> rfl
  rw [renderRecorded, renderRecorded, played, played, kept]
  apply Scanner.map_congr_of_bare (Scanner.map_bare_replay_congr detached _)
  intro drawn otherDrawn drewAlike
  have rest : recorded.cleared.withScanner drawn.bare = other.cleared.withScanner drawn.bare :=
    congrArg (fun canvas => canvas.withScanner drawn.bare) same
  rw [← drewAlike]
  exact congrArg (fun canvas => (setMode canvas mode, _)) rest

/-- An invalid cache is recorded by filling the path data with a cache attached. -/
theorem renderPath_eq_of_invalid (canvas : Canvas) (codes : List Nat) (coordinates : List Float32)
    (rule : WindingRule) {cache : CoverageCache} (invalid : cache.isValid = false) :
    canvas.renderPath codes coordinates rule (some cache) =
      (((canvas.setMode .fill).withScanner (canvas.scanner.setCache (some cache))).fillData codes
        coordinates rule).bind (renderRecorded canvas.mode cache) := by
  rw [renderPath_of_invalid canvas codes coordinates rule invalid, recordData_eq]
  change _ = (((canvas.setMode .fill).withScanner
    ((canvas.setMode .fill).scanner.setCache (some cache))).fillData codes coordinates rule).bind _
  cases ((canvas.setMode .fill).withScanner
    ((canvas.setMode .fill).scanner.setCache (some cache))).fillData codes coordinates rule <;> rfl

section Drawings

variable {canvas : Canvas} (ready : canvas.scanner.Ready) (idle : canvas.scanner.Idle)
include ready idle

/-- A path that is received may close its subpaths explicitly. -/
theorem bracket_of_closesMore (filling : canvas.mode = .fill) {opening : Call}
    {region : Option PixelBox} {rule : WindingRule}
    (opens : opening.opens? = some (region, rule)) {calls more : List Call}
    (feed : ∀ call ∈ calls, call.feeds = true) (feedMore : ∀ call ∈ more, call.feeds = true)
    (closes : PathCommand.ClosesMore (calls.flatMap Call.fed ++ [.finish])
      (more.flatMap Call.fed ++ [.finish])) :
    (canvas.performAll (opening :: more ++ [.finish])).map cleared =
      (canvas.performAll (opening :: calls ++ [.finish])).map cleared := by
  have closesReceived := closesMore_received closes false
  rw [received_finish, received_finish] at closesReceived
  rw [performAll_bracket canvas opens feed, performAll_bracket canvas opens feedMore, filling]
  exact drawWhole_of_closesMore ready idle region rule (by decide) closesReceived

/-- Recorded paths may close their subpaths explicitly. -/
theorem fillStore_of_closesMore {store more : PathStore}
    (closes : PathCommand.ClosesMore store.path more.path) (extra : Option Affine) :
    (canvas.fillStore more extra).map cleared = (canvas.fillStore store extra).map cleared := by
  have scanner : (canvas.withTextExtra extra).scanner = canvas.scanner := by
    unfold withTextExtra
    split <;> rfl
  rw [fillStore_eq_drawWhole, fillStore_eq_drawWhole]
  rw [← scanner] at ready idle
  exact drawWhole_of_closesMore ready idle none _ (by decide) closes

variable {codes codesMore : List Nat} {coordinates coordinatesMore : List Float32}
  (closes : PathCommand.ClosesMore
    (PathData.commands codes (PathData.points coordinates) ++ [.finish])
    (PathData.commands codesMore (PathData.points coordinatesMore) ++ [.finish]))
include closes

theorem fillData_of_closesMore (filling : canvas.mode = .fill) (rule : WindingRule) :
    (canvas.fillData codesMore coordinatesMore rule).map cleared =
      (canvas.fillData codes coordinates rule).map cleared := by
  have closesReceived := closesMore_received closes false
  rw [received_finish, received_finish] at closesReceived
  rw [fillData_eq_drawWhole, fillData_eq_drawWhole, filling]
  exact drawWhole_of_closesMore ready idle none rule (by decide) closesReceived

/-- Path data may close its subpaths explicitly, whether it is filled, recorded or ignored. -/
theorem renderPath_of_closesMore (rule : WindingRule) (cache : Option CoverageCache) :
    (canvas.renderPath codesMore coordinatesMore rule cache).map
        (fun answer => (answer.1.cleared, answer.2)) =
      (canvas.renderPath codes coordinates rule cache).map
        (fun answer => (answer.1.cleared, answer.2)) := by
  cases cache with
  | none =>
      have filled := @fillData_of_closesMore (canvas.setMode .fill) ready idle _ _ _ _ closes rfl
        rule
      have rendered := congrArg
        (Except.map fun drawn => (drawn.setMode canvas.mode, (none : Option CoverageCache))) filled
      rw [map_map, map_map] at rendered
      rw [renderPath_none, renderPath_none, map_map, map_map]
      exact rendered
  | some cache =>
      cases valid : cache.isValid with
      | true =>
          rw [renderPath_of_isValid canvas codes coordinates rule valid,
            renderPath_of_isValid canvas codesMore coordinatesMore rule valid]
      | false =>
          obtain ⟨attached, attachedEq⟩ : ∃ attached, (canvas.setMode .fill).withScanner
              (canvas.scanner.setCache (some cache)) = attached := ⟨_, rfl⟩
          have filled : (attached.fillData codesMore coordinatesMore rule).map cleared =
              (attached.fillData codes coordinates rule).map cleared := by
            subst attachedEq
            apply fillData_of_closesMore _ _ closes rfl
            · exact ⟨ready.lgX_le, ready.lgY_le, ready.clip⟩
            · exact ⟨idle.edges, idle.subpath, idle.probe⟩
          rw [renderPath_eq_of_invalid canvas codes coordinates rule valid,
            renderPath_eq_of_invalid canvas codesMore coordinatesMore rule valid, attachedEq]
          cases recording : attached.fillData codes coordinates rule with
          | error fault =>
              rw [recording] at filled
              rw [eq_error_of_map_eq_error filled]
          | ok recorded =>
              rw [recording] at filled
              obtain ⟨other, otherRecording, same⟩ := exists_of_map_eq_ok filled
              rw [otherRecording]
              exact renderRecorded_congr same canvas.mode cache

end Drawings

/-- Closing subpaths explicitly, right before the next one starts or the path ends, changes nothing.
This holds of a scanner for all calls that leave the clip box and the grid as they are during
a path, and it leaves scanners that are equal but for their scratch data.  On a canvas between
paths, however it came there, it holds of every filled path, whether it is received, given as path
data or recorded: the canvases after it differ in nothing but scratch data and the last points of
their chains, and equal caches are kept. -/
theorem explicit_closing_agrees :
    (∀ (surface : Surface) (calls more : List Scanner.Call),
      (Scanner.new surface).KeepsFrame calls → Scanner.Call.ClosesMore calls more →
      ((Scanner.new surface).performAll more).map Scanner.bare =
        ((Scanner.new surface).performAll calls).map Scanner.bare) ∧
    ∀ canvas : Canvas, canvas.Reachable → canvas.drawing = false →
      (∀ opening region rule calls more, canvas.mode = .fill →
        opening.opens? = some (region, rule) →
        (∀ call ∈ calls, call.feeds = true) → (∀ call ∈ more, call.feeds = true) →
        PathCommand.ClosesMore (calls.flatMap Call.fed ++ [.finish])
          (more.flatMap Call.fed ++ [.finish]) →
        (canvas.performAll (opening :: more ++ [.finish])).map cleared =
          (canvas.performAll (opening :: calls ++ [.finish])).map cleared) ∧
      (∀ codes codesMore coordinates coordinatesMore rule cache,
        PathCommand.ClosesMore
          (PathData.commands codes (PathData.points coordinates) ++ [.finish])
          (PathData.commands codesMore (PathData.points coordinatesMore) ++ [.finish]) →
        (canvas.renderPath codesMore coordinatesMore rule cache).map
            (fun answer => (answer.1.cleared, answer.2)) =
          (canvas.renderPath codes coordinates rule cache).map
            (fun answer => (answer.1.cleared, answer.2))) ∧
      ∀ store more extra, PathCommand.ClosesMore store.path more.path →
        (canvas.fillStore more extra).map cleared = (canvas.fillStore store extra).map cleared := by
  constructor
  · intro surface calls more keeps closes
    have probes := (Scanner.idle_new surface).probes
    exact probes.map_bare_performAll_of_closesMore (Scanner.ready_new surface) closes keeps
  · intro canvas reachable between
    have ready := reachable.sound.steady.ready
    have idle := reachable.sound.idle between
    refine ⟨?_, ?_, ?_⟩
    · intro opening region rule calls more filling opens feed feedMore closes
      exact bracket_of_closesMore ready idle filling opens feed feedMore closes
    · intro codes codesMore coordinates coordinatesMore rule cache closes
      exact renderPath_of_closesMore ready idle closes rule cache
    · intro store more extra closes
      exact fillStore_of_closesMore ready idle closes extra

/-- Two triangles in one path, both of them closed explicitly, and one of them as path data that is
recorded. -/
theorem explicit_closing_agrees_triangles :
    let surface : Surface := ⟨.gray8, 3, 2, .packed 3, #[0, 0, 0, 0, 0, 0]⟩
    let white : Color := ⟨255, 255, 255, 255⟩
    let canvas := (new surface (Config.default.withGrid 1 1)).setColor white
    let more : List PathCommand :=
      [.moveTo ⟨0, 0⟩, .lineTo ⟨131072, 0⟩, .lineTo ⟨131072, 131072⟩, .close,
        .moveTo ⟨0, 65536⟩, .lineTo ⟨196608, 65536⟩, .lineTo ⟨196608, 131072⟩, .close]
    let shown : Array Nat × Option PixelBox := (#[191, 255, 0, 64, 191, 255], some ⟨0, 0, 3, 2⟩)
    ((Scanner.new surface).performAll
        [.setGrid 1 1, .setPaint (.solid white),
          .send [.moveTo ⟨0, 0⟩, .lineTo ⟨131072, 0⟩, .lineTo ⟨131072, 131072⟩], .send [.close],
          .send [.moveTo ⟨0, 65536⟩, .lineTo ⟨196608, 65536⟩, .lineTo ⟨196608, 131072⟩, .close,
            .close, .finish]]).map
        (fun drawn => (drawn.surface.elements, drawn.boundingBox)) = .ok shown ∧
      (canvas.performAll [.start .nonZero, .draw more, .finish]).map
        (fun drawn => (drawn.surface.elements, drawn.boundingBox)) = .ok shown ∧
      (canvas.renderPath [0, 1, 1, 4] [0, 0, 2, 0, 2, 2] .nonZero (some .empty)).map
          (fun answer => (answer.1.surface, answer.1.boundingBox, answer.2)) =
        (canvas.renderPath [0, 1, 1] [0, 0, 2, 0, 2, 2] .nonZero (some .empty)).map
          (fun answer => (answer.1.surface, answer.1.boundingBox, answer.2)) ∧
      (canvas.fillStore (PathStore.empty.recordAll more) none).map
        (fun drawn => (drawn.surface.elements, drawn.boundingBox)) = .ok shown := by
  intro surface white canvas more shown
  obtain ⟨commands, commandsEq⟩ : ∃ commands : List PathCommand, commands =
    [.moveTo ⟨0, 0⟩, .lineTo ⟨131072, 0⟩, .lineTo ⟨131072, 131072⟩, .moveTo ⟨0, 65536⟩,
      .lineTo ⟨196608, 65536⟩, .lineTo ⟨196608, 131072⟩] := ⟨_, rfl⟩
  have reachable : canvas.Reachable := ⟨surface, _, [.setColor white], rfl⟩
  have ⟨brackets, rendered, stores⟩ := explicit_closing_agrees.2 canvas reachable rfl
  have closes : PathCommand.ClosesMore (commands ++ [.finish]) (more ++ [.finish]) := by
    subst commandsEq
    exact .keep _ (.keep _ (.keep _ (.ahead rfl (.keep _ (.keep _ (.keep _ (.ahead rfl
      (.keep _ .nil))))))))
  have feed : ∀ commands, ∀ call ∈ [Call.draw commands], call.feeds = true := by
    intro commands call member
    rw [List.mem_singleton.mp member]
    rfl
  have fed : ∀ commands, [Call.draw commands].flatMap Call.fed = commands := by simp [Call.fed]
  refine ⟨?_, ?_, ?_, ?_⟩
  · have same := explicit_closing_agrees.1 surface
      [.setGrid 1 1, .setPaint (.solid white),
        .send [.moveTo ⟨0, 0⟩, .lineTo ⟨131072, 0⟩, .lineTo ⟨131072, 131072⟩],
        .send [.moveTo ⟨0, 65536⟩, .lineTo ⟨196608, 65536⟩, .lineTo ⟨196608, 131072⟩, .finish]]
      _ ?_ (.keep _ (.keep _ (.keep _ (.ahead rfl (.send (.keep _ (.keep _ (.keep _ (.ahead rfl
        (.ahead rfl (.keep _ .nil)))))) .nil)))))
    · have shownSame := congrArg
        (Except.map fun drawn => (drawn.surface.elements, drawn.boundingBox)) same
      rw [map_map, map_map] at shownSame
      refine Eq.trans shownSame ?_
      decide +kernel
    · refine ⟨fun _ => Scanner.idle_new surface, ?_⟩
      rintro _ ⟨⟩
      exact ⟨nofun, fun _ _ => ⟨nofun, fun _ _ => ⟨nofun, fun _ _ => trivial⟩⟩⟩
  · have same := brackets (.start .nonZero) none .nonZero [.draw commands] [.draw more] rfl rfl
      (feed commands) (feed more) (by rw [fed, fed]; exact closes)
    have shownSame := congrArg
      (Except.map fun drawn => (drawn.surface.elements, drawn.boundingBox)) same
    rw [map_map, map_map] at shownSame
    refine Eq.trans shownSame ?_
    subst commandsEq
    decide +kernel
  · have same := rendered [0, 1, 1] [0, 1, 1, 4] [0, 0, 2, 0, 2, 2] [0, 0, 2, 0, 2, 2] .nonZero
      (some .empty) (.keep _ (.keep _ (.keep _ (.ahead rfl (.keep _ .nil)))))
    have seen := congrArg (Except.map fun (answer : Canvas × Option CoverageCache) =>
      (answer.1.surface, answer.1.boundingBox, answer.2)) same
    rw [map_map, map_map] at seen
    exact seen
  · have same := stores (PathStore.empty.recordAll commands) (PathStore.empty.recordAll more) none ?_
    · have shownSame := congrArg
        (Except.map fun drawn => (drawn.surface.elements, drawn.boundingBox)) same
      rw [map_map, map_map] at shownSame
      refine Eq.trans shownSame ?_
      subst commandsEq
      decide +kernel
    · have ended : ∀ commands : List PathCommand, .finish ∉ commands →
          (PathStore.empty.recordAll commands).path = commands ++ [.finish] := by
        intro commands unfinished
        rw [← PathStore.path_recordAll_of_not_mem unfinished (.inl rfl), List.append_nil]
      have unfinished : .finish ∉ commands := by
        subst commandsEq
        decide
      rw [ended commands unfinished, ended more (by decide)]
      exact closes

end Canvas

end Raster
