import Raster.Proofs.Canvas.Agreeing

/-!
# Histories that are forgotten

What a canvas draws next depends on its settings and on its picture, not on how it came to
them: canvases that agree draw the same.  Drawing changes no setting.

A canvas also keeps chains that were built for earlier paths, buffers, a row of colors and an alpha
table.  Chains are asked whether they still fit, and put back to their start by the commands that
begin a path.  Buffers are cleared or taken when they are used, the row is painted over, and the
table is asked for by what it is computed from.
-/

namespace Raster.Canvas

/-! ## Drawings -/

/-- Whether every path that a call draws starts with a subpath. -/
def Call.startsPaths : Call → Bool
  | renderPath codes coordinates _ _ =>
      PathCommand.startsPaths false (PathData.commands codes (PathData.points coordinates))
  | fillStore store _ => PathCommand.startsPaths false store.commands
  | _ => true

/-- The calls of one drawing, in which every path starts with a subpath. -/
inductive Drawing : List Call → Prop where
  | call {call : Call} (draws : call.draws = true) (starts : call.startsPaths = true) :
      Drawing [call]
  | bracket {opening : Call} {inner : List Call} {region : Option PixelBox} {rule : WindingRule}
      (opens : opening.opens? = some (region, rule)) (feed : ∀ call ∈ inner, call.feeds = true)
      (starts : PathCommand.startsPaths false (inner.flatMap Call.fed) = true) :
      Drawing (opening :: inner ++ [.finish])

theorem Drawing.orderly {calls : List Call} (drawing : Drawing calls) : Orderly calls := by
  cases drawing with
  | call draws _ => exact .drawing draws .nil
  | @bracket opening inner _ _ opens feed _ =>
      have orderly := Orderly.bracket opens feed .nil
      rw [List.append_nil] at orderly
      exact orderly

/-! ## Pictures -/

theorem picture_drawWhole (canvas : Canvas) (region : Option PixelBox) (rule : WindingRule)
    (route : Route) (commands : List PathCommand) :
    (canvas.drawWhole region rule route commands).map picture =
      ((canvas.begunScanner region rule route).send (canvas.lines route commands)).map
        Scanner.picture := by
  rw [drawWhole_eq]
  cases (canvas.begunScanner region rule route).send (canvas.lines route commands) with
  | error fault => rfl
  | ok drawn => cases route <;> rfl

/-- A whole path that is received command by command. -/
theorem picture_bracket (canvas : Canvas) {opening : Call} {region : Option PixelBox}
    {rule : WindingRule} (opens : opening.opens? = some (region, rule))
    (commands : List PathCommand) :
    (canvas.performAll [opening, .draw commands, .finish]).map picture =
      ((canvas.begunScanner region rule (routeOf canvas.mode)).send
        (canvas.lines (routeOf canvas.mode)
          (received canvas.mode false commands))).map Scanner.picture := by
  have feed : ∀ call ∈ [Call.draw commands], call.feeds = true := by
    intro call member
    rw [List.mem_singleton.mp member]
    rfl
  have fed : [Call.draw commands].flatMap Call.fed = commands := List.append_nil commands
  have whole := performAll_bracket canvas opens feed
  rw [fed] at whole
  rw [← picture_drawWhole, ← whole]
  rfl

/-- The same lines draw the same on scanners that begin a path alike. -/
theorem Agree.map_picture_send {first second : Canvas} (agree : first.Agree second)
    (region : Option PixelBox) (rule : WindingRule) (route : Route) (lines : List LineCommand) :
    ((first.begunScanner region rule route).send lines).map Scanner.picture =
      ((second.begunScanner region rule route).send lines).map Scanner.picture :=
  Scanner.map_picture_congr (Scanner.map_bare_send_congr (agree.begun region rule route) lines)

theorem Agree.drawWhole {first second : Canvas} (agree : first.Agree second)
    (region : Option PixelBox) (rule : WindingRule) {route : Route} (untexted : route ≠ .text)
    {commands : List PathCommand} (starts : PathCommand.startsPaths false commands = true) :
    (first.drawWhole region rule route commands).map Canvas.picture =
      (second.drawWhole region rule route commands).map Canvas.picture := by
  rw [picture_drawWhole, picture_drawWhole, agree.lines route commands untexted starts]
  exact agree.map_picture_send region rule route (second.lines route commands)

theorem begunScanner_withTextExtra (canvas : Canvas) (extra : Option Affine)
    (region : Option PixelBox) (rule : WindingRule) (route : Route) :
    (canvas.withTextExtra extra).begunScanner region rule route =
      canvas.begunScanner region rule route := by
  unfold withTextExtra
  split <;> rfl

/-- A recorded path is one filled path on the route of recorded paths. -/
theorem picture_fillStore (canvas : Canvas) (store : PathStore) (extra : Option Affine) :
    (canvas.fillStore store extra).map picture =
      ((canvas.begunScanner none canvas.rule .text).send
        ((canvas.withTextExtra extra).lines .text store.path)).map Scanner.picture := by
  have rule : (canvas.withTextExtra extra).rule = canvas.rule := by
    unfold withTextExtra
    split <;> rfl
  rw [fillStore_eq_drawWhole, picture_drawWhole, begunScanner_withTextExtra, rule]

theorem Agree.fillStore {first second : Canvas} (agree : first.Agree second) {store : PathStore}
    (starts : PathCommand.startsPaths false store.commands = true) (extra : Option Affine) :
    (first.fillStore store extra).map Canvas.picture =
      (second.fillStore store extra).map Canvas.picture := by
  have startsPath : PathCommand.startsPaths false store.path = true := by
    unfold PathStore.path
    split
    · rw [List.append_nil]
      exact starts
    · exact PathCommand.startsPaths_finish starts
  have rule : first.rule = second.rule := congrArg Settings.rule agree.settings
  rw [picture_fillStore, picture_fillStore, rule, agree.textLines extra store.path startsPath]
  exact agree.map_picture_send none second.rule .text _

theorem picture_replay (canvas : Canvas) (cache : CoverageCache) :
    (canvas.replay cache).map picture = (canvas.scanner.replay cache).map Scanner.picture := by
  unfold replay
  cases canvas.scanner.replay cache <;> rfl

/-- Path data that is rendered is one filled path. -/
theorem picture_fillData (canvas : Canvas) (codes : List Nat) (coordinates : List Float32)
    (rule : WindingRule) :
    ((canvas.setMode .fill).fillData codes coordinates rule).map picture =
      ((canvas.begunScanner none rule .fill).send (canvas.lines .fill (received .fill false
        (PathData.commands codes (PathData.points coordinates))))).map Scanner.picture := by
  rw [fillData_eq_drawWhole, picture_drawWhole]
  rfl

/-- To record path data, it is filled with a cache attached. -/
theorem recordData_eq (canvas : Canvas) (codes : List Nat) (coordinates : List Float32)
    (rule : WindingRule) (cache : CoverageCache) :
    canvas.recordData codes coordinates rule cache =
      ((canvas.withScanner (canvas.scanner.setCache (some cache))).fillData codes coordinates
        rule).map fun recorded =>
          (recorded.withScanner (recorded.scanner.setCache none),
            recorded.scanner.cache.getD cache) := by
  unfold recordData
  change (do
    let recorded ← (canvas.withScanner (canvas.scanner.setCache (some cache))).fillData codes
      coordinates rule
    pure _) = _
  cases (canvas.withScanner (canvas.scanner.setCache (some cache))).fillData codes coordinates
    rule <;> rfl

/-- Recording path data and replaying it takes one whole path of the scanner. -/
theorem picture_renderPath_of_invalid (canvas : Canvas) (codes : List Nat)
    (coordinates : List Float32) (rule : WindingRule) {cache : CoverageCache}
    (invalid : cache.isValid = false) :
    (canvas.renderPath codes coordinates rule (some cache)).map (fun answer => answer.1.picture) =
      (do
        let recorded ← ((canvas.begunScanner none rule .fill).setCache (some cache)).send
          (canvas.lines .fill (received .fill false
            (PathData.commands codes (PathData.points coordinates))))
        ((recorded.setCache none).replay (recorded.cache.getD cache)).map Scanner.picture) := by
  obtain ⟨attached, attachedEq⟩ : ∃ attached, (canvas.setMode .fill).withScanner
      (canvas.scanner.setCache (some cache)) = attached := ⟨_, rfl⟩
  have filled : attached.fillData codes coordinates rule =
      (((canvas.begunScanner none rule .fill).setCache (some cache)).send
        (canvas.lines .fill (received .fill false
          (PathData.commands codes (PathData.points coordinates))))).map
        (attached.afterWhole .fill (received .fill false
          (PathData.commands codes (PathData.points coordinates)))) := by
    subst attachedEq
    rw [fillData_eq_drawWhole, drawWhole_eq]
    rfl
  have recording : (canvas.setMode .fill).recordData codes coordinates rule cache =
      (attached.fillData codes coordinates rule).map fun recorded =>
        (recorded.withScanner (recorded.scanner.setCache none),
          recorded.scanner.cache.getD cache) := by
    subst attachedEq
    exact recordData_eq _ codes coordinates rule cache
  have replays : ∀ (player : Canvas) (kept : CoverageCache),
      ((player.replay kept).map fun drawn => (drawn.setMode canvas.mode, some kept)).map
          (fun answer => answer.1.picture) =
        (player.scanner.replay kept).map Scanner.picture := by
    intro player kept
    rw [← picture_replay]
    cases player.replay kept <;> rfl
  rw [renderPath_of_invalid canvas codes coordinates rule invalid, recording, filled]
  cases ((canvas.begunScanner none rule .fill).setCache (some cache)).send
      (canvas.lines .fill (received .fill false
        (PathData.commands codes (PathData.points coordinates)))) with
  | error fault => rfl
  | ok recorded =>
      -- The clip box that is set again does not matter for the replay.
      have unclipped := @Scanner.picture_replay_congr
        ((recorded.setClip attached.clip).setCache none) (recorded.setCache none) rfl rfl
        (recorded.cache.getD cache)
      exact (replays ((attached.afterWhole .fill _ recorded).withScanner
        ((recorded.setClip attached.clip).setCache none)) (recorded.cache.getD cache)).trans
          unclipped

theorem Agree.renderPath {first second : Canvas} (agree : first.Agree second) {codes : List Nat}
    {coordinates : List Float32}
    (starts : PathCommand.startsPaths false
      (PathData.commands codes (PathData.points coordinates)) = true)
    (rule : WindingRule) (cache : Option CoverageCache) :
    (first.renderPath codes coordinates rule cache).map (fun answer => answer.1.picture) =
      (second.renderPath codes coordinates rule cache).map (fun answer => answer.1.picture) := by
  have lines := agree.lines .fill _ (by decide) (startsPaths_received starts .fill)
  have paint : first.scanner.paint = second.scanner.paint :=
    congrArg Settings.paint agree.settings
  cases cache with
  | none =>
      have filled : ∀ canvas : Canvas,
          (canvas.renderPath codes coordinates rule none).map (fun answer => answer.1.picture) =
            ((canvas.setMode .fill).fillData codes coordinates rule).map Canvas.picture := by
        intro canvas
        rw [renderPath_none]
        cases (canvas.setMode .fill).fillData codes coordinates rule <;> rfl
      rw [filled, filled, picture_fillData, picture_fillData, lines]
      exact agree.map_picture_send none rule .fill _
  | some cache =>
      cases valid : cache.isValid with
      | true =>
          have replayed : ∀ canvas : Canvas,
              (canvas.renderPath codes coordinates rule (some cache)).map
                  (fun answer => answer.1.picture) =
                (canvas.scanner.replay cache).map Scanner.picture := by
            intro canvas
            rw [renderPath_of_isValid canvas codes coordinates rule valid]
            have replayed := (canvas.setMode .fill).picture_replay cache
            change _ = Except.map _ (canvas.scanner.replay cache) at replayed
            rw [← replayed]
            cases (canvas.setMode .fill).replay cache <;> rfl
          rw [replayed, replayed]
          exact Scanner.picture_replay_congr agree.picture paint cache
      | false =>
          rw [picture_renderPath_of_invalid first codes coordinates rule valid,
            picture_renderPath_of_invalid second codes coordinates rule valid, lines]
          exact Scanner.map_picture_record_congr (agree.begun none rule .fill) cache _

theorem Agree.drawOutlines {first second : Canvas} (agree : first.Agree second) {route : Route}
    (untexted : route ≠ .text) (rule : WindingRule) (outlines : List Outline) :
    (first.drawOutlines route rule outlines).map Canvas.picture =
      (second.drawOutlines route rule outlines).map Canvas.picture := by
  rw [drawOutlines_eq_drawWhole, drawOutlines_eq_drawWhole]
  exact agree.drawWhole none rule untexted
    (PathCommand.startsPaths_finish (PathCommand.startsPaths_outlines outlines false))

theorem Agree.fillShape {first second : Canvas} (agree : first.Agree second) (shape : Shape) :
    (first.fillShape shape).map Canvas.picture = (second.fillShape shape).map Canvas.picture := by
  have rule : first.rule = second.rule := congrArg Settings.rule agree.settings
  unfold Canvas.fillShape
  split
  · rw [rule]
    exact agree.drawOutlines (by decide) second.rule [shape.outline]
  · exact congrArg Except.ok agree.picture

theorem Agree.strokeShape {first second : Canvas} (agree : first.Agree second) (shape : Shape) :
    (first.strokeShape shape).map Canvas.picture =
      (second.strokeShape shape).map Canvas.picture := by
  have rule : first.rule = second.rule := congrArg Settings.rule agree.settings
  have stroke : first.stroke = second.stroke := congrArg Settings.stroke agree.settings
  have outlines : first.strokeOutlines? shape = second.strokeOutlines? shape := by
    simp only [strokeOutlines?, agree.config, stroke]
  unfold Canvas.strokeShape
  split
  · rw [outlines]
    split
    · exact agree.drawOutlines (by decide) .nonZero _
    · rw [rule]
      exact agree.drawOutlines (by decide) second.rule [shape.outline]
  · exact congrArg Except.ok agree.picture

theorem Agree.clearRect {first second : Canvas} (agree : first.Agree second)
    (x y width height : Int) :
    (first.clearRect x y width height).picture = (second.clearRect x y width height).picture := by
  obtain ⟨surface, box⟩ := Prod.mk.inj agree.picture
  have clip : first.scanner.clip = second.scanner.clip := congrArg Settings.clip agree.settings
  have color : first.color = second.color := congrArg Settings.color agree.settings
  simp only [Canvas.clearRect, Canvas.picture, Scanner.picture, Scanner.clearRect, clip, color]
  split
  · exact agree.picture
  · simp only [surface, box]

theorem performAll_singleton (canvas : Canvas) (call : Call) :
    canvas.performAll [call] = (canvas.perform call).map Prod.fst := by
  change ((canvas.perform call).map Prod.fst).bind .ok = _
  cases canvas.perform call <;> rfl

/-- Canvases that agree draw the same. -/
theorem Agree.performAll {first second : Canvas} (agree : first.Agree second) {calls : List Call}
    (drawing : Drawing calls) :
    (first.performAll calls).map Canvas.picture = (second.performAll calls).map Canvas.picture := by
  cases drawing with
  | @call call draws starts =>
      rw [performAll_singleton, performAll_singleton]
      cases call with
      | renderPath codes coordinates rule cache =>
          have rendered := agree.renderPath starts rule cache
          simp only [perform, map_map]
          exact rendered
      | fillStore store extra =>
          simp only [perform, map_map]
          exact agree.fillStore starts extra
      | fillShape shape =>
          simp only [perform, map_map]
          exact agree.fillShape shape
      | strokeShape shape =>
          simp only [perform, map_map]
          exact agree.strokeShape shape
      | strokeLine source target =>
          simp only [perform, map_map]
          rw [strokeLine_eq_drawWhole, strokeLine_eq_drawWhole]
          exact agree.drawWhole none .nonZero (by decide) rfl
      | clearRect x y width height => exact congrArg Except.ok (agree.clearRect x y width height)
      | _ => cases draws
  | @bracket opening inner region rule opens feed starts =>
      have mode : first.mode = second.mode := congrArg Settings.mode agree.settings
      have untexted : routeOf second.mode ≠ .text := by cases second.mode <;> decide
      rw [performAll_bracket first opens feed, performAll_bracket second opens feed, mode]
      exact agree.drawWhole region rule untexted
        (startsPaths_received starts second.mode)

/-! ## Settings -/

/-- What no drawing changes. -/
structure Keeps (canvas drawn : Canvas) : Prop where
  transform : drawn.transform = canvas.transform
  stroke : drawn.stroke = canvas.stroke
  rule : drawn.rule = canvas.rule
  mode : drawn.mode = canvas.mode
  antialiasing : drawn.antialiasing = canvas.antialiasing
  clip : drawn.clip = canvas.clip
  color : drawn.color = canvas.color
  paint : drawn.paint = canvas.paint

theorem Keeps.refl (canvas : Canvas) : canvas.Keeps canvas :=
  ⟨rfl, rfl, rfl, rfl, rfl, rfl, rfl, rfl⟩

theorem Keeps.trans {canvas middle drawn : Canvas} (first : canvas.Keeps middle)
    (second : middle.Keeps drawn) : canvas.Keeps drawn :=
  ⟨second.transform.trans first.transform, second.stroke.trans first.stroke,
    second.rule.trans first.rule, second.mode.trans first.mode,
    second.antialiasing.trans first.antialiasing, second.clip.trans first.clip,
    second.color.trans first.color, second.paint.trans first.paint⟩

/-- A mode that is set for a drawing only is set back. -/
theorem Keeps.setMode {canvas drawn : Canvas} {mode : PathMode}
    (keeps : (canvas.setMode mode).Keeps drawn) : canvas.Keeps (drawn.setMode canvas.mode) :=
  { keeps with mode := rfl }

theorem keeps_drawWhole {canvas drawn : Canvas} {region : Option PixelBox} {rule : WindingRule}
    {route : Route} {commands : List PathCommand}
    (performed : canvas.drawWhole region rule route commands = .ok drawn) :
    canvas.Keeps drawn := by
  rw [drawWhole_eq] at performed
  obtain ⟨scanner, sent, rfl⟩ := exists_of_map_eq_ok performed
  obtain ⟨_, _, _, used⟩ := canvas.exists_used_eq route commands (scanner.setClip canvas.clip)
  have paint := Scanner.paint_of_send sent
  rw [afterWhole, used]
  exact ⟨rfl, rfl, rfl, rfl, rfl, rfl, rfl, paint⟩

theorem keeps_fillData {canvas drawn : Canvas} {codes : List Nat} {coordinates : List Float32}
    {rule : WindingRule} (filled : canvas.fillData codes coordinates rule = .ok drawn) :
    canvas.Keeps drawn := by
  rw [fillData_eq_drawWhole] at filled
  exact keeps_drawWhole filled

theorem keeps_replay {canvas drawn : Canvas} {cache : CoverageCache}
    (replayed : canvas.replay cache = .ok drawn) : canvas.Keeps drawn := by
  obtain ⟨scanner, done, updated⟩ := exists_of_bind_eq_ok replayed
  cases updated
  exact ⟨rfl, rfl, rfl, rfl, rfl, rfl, rfl, (Scanner.SameSettings.replay done).paint⟩

theorem keeps_renderPath {canvas drawn : Canvas} {codes : List Nat} {coordinates : List Float32}
    {rule : WindingRule} {cache kept : Option CoverageCache}
    (rendered : canvas.renderPath codes coordinates rule cache = .ok (drawn, kept)) :
    canvas.Keeps drawn := by
  cases cache with
  | none =>
      rw [renderPath_none] at rendered
      obtain ⟨filled, fills, updated⟩ := exists_of_map_eq_ok rendered
      cases updated
      exact (keeps_fillData fills).setMode
  | some cache =>
      cases valid : cache.isValid with
      | true =>
          rw [renderPath_of_isValid canvas codes coordinates rule valid] at rendered
          obtain ⟨replayed, replays, updated⟩ := exists_of_map_eq_ok rendered
          cases updated
          exact (keeps_replay replays).setMode
      | false =>
          rw [renderPath_of_invalid canvas codes coordinates rule valid, recordData_eq] at rendered
          obtain ⟨⟨recorded, record⟩, records, rest⟩ := exists_of_bind_eq_ok rendered
          obtain ⟨replayed, replays, updated⟩ := exists_of_map_eq_ok rest
          obtain ⟨filled, fills, recordedEq⟩ := exists_of_map_eq_ok records
          cases updated
          cases recordedEq
          obtain ⟨transform, stroke, rule, mode, antialiasing, clip, color, paint⟩ :=
            keeps_fillData fills
          have recording : (canvas.setMode .fill).Keeps
              (filled.withScanner (filled.scanner.setCache none)) :=
            ⟨transform, stroke, rule, mode, antialiasing, clip, color, paint⟩
          exact (recording.trans (keeps_replay replays)).setMode

theorem keeps_withTextExtra (canvas : Canvas) (extra : Option Affine) :
    canvas.Keeps (canvas.withTextExtra extra) := by
  unfold withTextExtra
  split <;> exact ⟨rfl, rfl, rfl, rfl, rfl, rfl, rfl, rfl⟩

theorem keeps_drawOutlines {canvas drawn : Canvas} {route : Route} {rule : WindingRule}
    {outlines : List Outline} (performed : canvas.drawOutlines route rule outlines = .ok drawn) :
    canvas.Keeps drawn := by
  rw [drawOutlines_eq_drawWhole] at performed
  exact keeps_drawWhole performed

theorem keeps_perform {canvas drawn : Canvas} {call : Call} (draws : call.draws = true)
    {reply : Reply} (performed : canvas.perform call = .ok (drawn, reply)) :
    canvas.Keeps drawn := by
  cases call with
  | renderPath codes coordinates rule cache =>
      obtain ⟨⟨_, kept⟩, rendered, answered⟩ := exists_of_map_eq_ok performed
      cases answered
      exact keeps_renderPath rendered
  | fillStore store extra =>
      obtain ⟨_, filled, answered⟩ := exists_of_map_eq_ok performed
      cases answered
      rw [fillStore_eq_drawWhole] at filled
      exact (canvas.keeps_withTextExtra extra).trans (keeps_drawWhole filled)
  | fillShape shape =>
      obtain ⟨_, filled, answered⟩ := exists_of_map_eq_ok performed
      cases answered
      unfold fillShape at filled
      split at filled
      · exact keeps_drawOutlines filled
      · cases filled
        exact .refl canvas
  | strokeShape shape =>
      obtain ⟨_, stroked, answered⟩ := exists_of_map_eq_ok performed
      cases answered
      unfold strokeShape at stroked
      split at stroked
      · split at stroked
        · exact keeps_drawOutlines stroked
        · exact keeps_drawOutlines stroked
      · cases stroked
        exact .refl canvas
  | strokeLine source target =>
      obtain ⟨_, stroked, answered⟩ := exists_of_map_eq_ok performed
      cases answered
      rw [strokeLine_eq_drawWhole] at stroked
      exact keeps_drawWhole stroked
  | clearRect x y width height =>
      cases performed
      exact ⟨rfl, rfl, rfl, rfl, rfl, rfl, rfl,
        (canvas.scanner.sameSettings_clearRect x y width height canvas.color).paint⟩
  | _ => cases draws

theorem Drawing.keeps {canvas drawn : Canvas} {calls : List Call} (drawing : Drawing calls)
    (performed : canvas.performAll calls = .ok drawn) : canvas.Keeps drawn := by
  cases drawing with
  | call draws _ =>
      rw [performAll_singleton] at performed
      obtain ⟨⟨_, reply⟩, answered, rfl⟩ := exists_of_map_eq_ok performed
      exact keeps_perform draws answered
  | bracket opens feed _ =>
      rw [performAll_bracket canvas opens feed] at performed
      exact keeps_drawWhole performed

/-- No change of a canvas changes the size of its surface. -/
theorem bounds_change {canvas next : Canvas} (change : canvas.Change next) :
    next.surface.bounds = canvas.surface.bounds := by
  cases change with
  | antialiasing antialiasing =>
      unfold Canvas.setAntialiasing
      split <;> rfl
  | textExtra extra =>
      unfold Canvas.withTextExtra
      split <;> rfl
  | send _ sent => exact (Scanner.SameSettings.send (scanner_send sent).1).bounds
  | @finish _ _ drawn sent =>
      have same := Scanner.SameSettings.send (scanner_send sent).1
      change drawn.surface.bounds = canvas.surface.bounds
      exact same.bounds
  | replay replayed =>
      obtain ⟨scanner, done, updated⟩ := exists_of_bind_eq_ok replayed
      cases updated
      exact (Scanner.SameSettings.replay done).bounds
  | clear x y width height =>
      exact (canvas.scanner.sameSettings_clearRect x y width height canvas.color).bounds
  | _ => rfl

theorem bounds_performAll {canvas next : Canvas} {calls : List Call}
    (performed : canvas.performAll calls = .ok next) :
    next.surface.bounds = canvas.surface.bounds :=
  @Changes.keep (fun reached => reached.surface.bounds = canvas.surface.bounds)
    (fun same change => (bounds_change change).trans same) (fun _ same => same) _ _ rfl
    (changes_performAll performed)

/-- A drawing on a resting canvas leaves all settings as they were. -/
theorem Rested.settings_performAll {canvas drawn : Canvas} (rested : canvas.Rested)
    (built : canvas.config.Built) {calls : List Call} (drawing : Drawing calls)
    (performed : canvas.performAll calls = .ok drawn) : drawn.settings = canvas.settings := by
  have fresh := (rested.fresh.performAll built performed).2
  have settled := rested.settled.performAll drawing.orderly performed
  obtain ⟨transform, stroke, rule, mode, antialiasing, clip, color, paint⟩ :=
    drawing.keeps performed
  have effective : drawn.scanner.clip = canvas.scanner.clip := by
    rw [fresh.clip settled.drawing, rested.fresh.clip rested.settled.drawing, clip]
    exact Scanner.clipOn_congr (bounds_performAll performed) canvas.clip
  unfold settings
  rw [transform, stroke, rule, mode, antialiasing, effective, color, paint]

/-- Two canvases of one configuration have come to equal settings and pictures by histories of
settings, whole drawings and complete brackets.  Then a drawing in which every path starts with a
subpath leaves equal pictures on both, or fails on both, and it leaves the settings of both as
they were. -/
theorem history_forgotten {config : Config} (built : config.Built)
    {firstSurface secondSurface : Surface} {firstHistory secondHistory : List Call}
    (firstOrderly : Orderly firstHistory) (secondOrderly : Orderly secondHistory)
    {first second : Canvas}
    (firstReached : (new firstSurface config).performAll firstHistory = .ok first)
    (secondReached : (new secondSurface config).performAll secondHistory = .ok second)
    (settings : first.settings = second.settings) (surface : first.surface = second.surface)
    (boundingBox : first.boundingBox = second.boundingBox) {calls : List Call}
    (drawing : Drawing calls) :
    (first.performAll calls).map (fun drawn => (drawn.surface, drawn.boundingBox)) =
        (second.performAll calls).map (fun drawn => (drawn.surface, drawn.boundingBox)) ∧
      (∀ drawn, first.performAll calls = .ok drawn → drawn.settings = first.settings) ∧
      (∀ drawn, second.performAll calls = .ok drawn → drawn.settings = second.settings) := by
  obtain ⟨firstConfig, firstRested⟩ := rested_of_orderly built firstOrderly firstReached
  obtain ⟨secondConfig, secondRested⟩ := rested_of_orderly built secondOrderly secondReached
  have picture : first.picture = second.picture := Prod.ext surface boundingBox
  have agree :=
    firstRested.agree secondRested (firstConfig.trans secondConfig.symm) settings picture
  refine ⟨agree.performAll drawing, ?_, ?_⟩
  · intro drawn performed
    exact firstRested.settings_performAll (firstConfig ▸ built) drawing performed
  · intro drawn performed
    exact secondRested.settings_performAll (secondConfig ▸ built) drawing performed

/-- A canvas that has used its chains under another transformation and by another rule, and one
that only has a clip box set, as large as its surface. -/
theorem history_forgotten_triangle :
    let surface : Surface := ⟨.gray8, 2, 2, .packed 2, #[0, 0, 0, 0]⟩
    let firstHistory : List Call :=
      [.setTransform (.shift 65536 0), .start .evenOdd, .draw [.lineTo ⟨3, 70000⟩], .finish,
        .setTransform .identity, .setColor ⟨255, 255, 255, 255⟩,
        .fillStore .empty (some (.shift 0 65536))]
    let secondHistory : List Call := [.setColor ⟨255, 255, 255, 255⟩, .setClip 0 0 2 2]
    let calls : List Call :=
      [.startRegion 0 0 1 2 .nonZero,
        .draw [.moveTo ⟨0, 0⟩, .lineTo ⟨131072, 0⟩, .lineTo ⟨0, 131072⟩], .finish]
    ∃ first second drawn,
      (new surface (Config.default.withGrid 1 1)).performAll firstHistory = .ok first ∧
      (new surface (Config.default.withGrid 1 1)).performAll secondHistory = .ok second ∧
      first.textChain.isSome ≠ second.textChain.isSome ∧
      first.performAll calls = .ok drawn ∧ drawn.surface ≠ first.surface ∧
      drawn.settings = first.settings ∧
      (second.performAll calls).map (fun drawn => (drawn.surface, drawn.boundingBox)) =
        .ok (drawn.surface, drawn.boundingBox) := by
  intro surface firstHistory secondHistory calls
  have firstOrderly : Orderly firstHistory :=
    .setting rfl (@Orderly.bracket (.start .evenOdd) [.draw [.lineTo ⟨3, 70000⟩]] _ none .evenOdd
      rfl (by decide) (.setting rfl (.setting rfl (.drawing rfl .nil))))
  have secondOrderly : Orderly secondHistory := .setting rfl (.setting rfl .nil)
  have drawing : Drawing calls :=
    @Drawing.bracket (.startRegion 0 0 1 2 .nonZero)
      [.draw [.moveTo ⟨0, 0⟩, .lineTo ⟨131072, 0⟩, .lineTo ⟨0, 131072⟩]]
      (some (region 0 0 1 2)) .nonZero rfl (by decide) (by decide)
  have firstRun : (do
      let first ← (new surface (Config.default.withGrid 1 1)).performAll firstHistory
      let drawn ← first.performAll calls
      pure (first.settings, first.picture, first.textChain.isSome,
        decide (drawn.surface ≠ first.surface))) =
      .ok (⟨.identity, .default, .nonZero, .fill, true, ⟨0, 0, 2, 2⟩, ⟨255, 255, 255, 255⟩,
        .solid ⟨255, 255, 255, 255⟩⟩, (surface, none), true, true) := by
    decide +kernel
  have secondRun : ((new surface (Config.default.withGrid 1 1)).performAll secondHistory).map
      (fun second => (second.settings, second.picture, second.textChain.isSome)) =
      .ok (⟨.identity, .default, .nonZero, .fill, true, ⟨0, 0, 2, 2⟩, ⟨255, 255, 255, 255⟩,
        .solid ⟨255, 255, 255, 255⟩⟩, (surface, none), false) := by
    decide +kernel
  obtain ⟨first, firstReached, afterFirst⟩ := exists_of_bind_eq_ok firstRun
  obtain ⟨drawn, performed, firstState⟩ := exists_of_bind_eq_ok afterFirst
  obtain ⟨second, secondReached, secondState⟩ := exists_of_map_eq_ok secondRun
  simp only [pure, Except.pure, Except.ok.injEq, Prod.mk.injEq] at firstState secondState
  obtain ⟨firstSettings, firstPicture, firstChain, changed⟩ := firstState
  obtain ⟨secondSettings, secondPicture, secondChain⟩ := secondState
  have picture := firstPicture.trans secondPicture.symm
  obtain ⟨same, kept, _⟩ := history_forgotten (.withGrid .default 1 1) firstOrderly
    secondOrderly firstReached secondReached (firstSettings.trans secondSettings.symm)
    (congrArg Prod.fst picture) (congrArg Prod.snd picture) drawing
  refine ⟨first, second, drawn, firstReached, secondReached, ?_, performed,
    of_decide_eq_true changed, kept drawn performed, ?_⟩
  · rw [firstChain, secondChain]
    decide
  · rw [← same, performed]
    rfl

end Raster.Canvas
