import Raster.Canvas.Call
import Raster.Proofs.Canvas.Sending

/-!
# How a canvas changes

The calls to a canvas share a few elementary changes: a setting is replaced, a path is started,
commands are sent, a path is ended and left.  Every call is a sequence of them, so what holds of a
new canvas and is kept by each change holds of every reachable canvas.
-/

namespace Raster

/-- A store whose last command ends the path has it as its last command when read back. -/
theorem PathStore.exists_commands_eq {store : PathStore} (terminated : store.isTerminated = true) :
    ∃ commands, store.commands = commands ++ [.finish] := by
  simp only [isTerminated, decide_eq_true_eq] at terminated
  obtain ⟨tags, ends⟩ := Array.back?_eq_some_iff.mp terminated
  simp only [commands, Cursor.readAll, ends, Array.toList_push, Stage.run_append]
  exact ⟨_, rfl⟩

namespace Canvas

/-- Whether a change can leave the ramp: it is the one of the canvas, or one that can be built, or
there is none. -/
def MayKeep (canvas : Canvas) (ramp : Option Ramp) : Prop :=
  ∀ made, ramp = some made →
    canvas.ramp = some made ∨ ∃ stops cycle, Ramp.new? stops cycle = .ok made

theorem mayKeep_ramp (canvas : Canvas) : canvas.MayKeep canvas.ramp :=
  fun _ kept => .inl kept

theorem mayKeep_none (canvas : Canvas) : canvas.MayKeep none :=
  fun _ kept => nomatch kept

theorem mayKeep_of_rampFor? {canvas : Canvas} {stops : List GradientStop} {cycle : Cycle}
    {ramp : Ramp} (found : canvas.rampFor? stops cycle = .ok ramp) :
    canvas.MayKeep (some ramp) := by
  rintro made ⟨⟩
  unfold rampFor? at found
  split at found
  · rename_i kept same
    split at found
    · cases found
      exact .inl same
    · exact .inr ⟨stops, cycle, found⟩
  · exact .inr ⟨stops, cycle, found⟩

/-- An elementary change of a canvas. -/
inductive Change (canvas : Canvas) : Canvas → Prop where
  | transform (transform : Affine) : Change canvas (canvas.setTransform transform)
  | stroke (style : StrokeStyle) : Change canvas (canvas.setStroke style)
  | antialiasing (antialiasing : Bool) : Change canvas (canvas.setAntialiasing antialiasing)
  | clip (clip : Option PixelBox) :
      Change canvas { canvas with clip := clip, scanner := canvas.scanner.setClip clip }
  | paint (paint : Paint) : Change canvas (canvas.setPaint paint)
  | quality (quality : Int) : Change canvas (canvas.setQuality quality)
  | textExtra (extra : Option Affine) : Change canvas (canvas.withTextExtra extra)
  /-- A change of what no chain, no paint and no clip box is derived from. -/
  | plain (rule : WindingRule) (color : Color) (ramp : Option Ramp) (mode : PathMode)
      (subpathOpen : Bool) (source : canvas.MayKeep ramp) :
      Change canvas { canvas with
        rule := rule, color := color, ramp := ramp, mode := mode, subpathOpen := subpathOpen }
  | start (region : Option PixelBox) (mode : PathMode) (rule : WindingRule) :
      Change canvas (canvas.startWith region mode rule)
  | send {route : Route} {commands : List PathCommand} {next : Canvas}
      (drawing : canvas.drawing = true) (sent : canvas.send route commands = .ok next) :
      Change canvas next
  /-- The end of a path is sent, and the path is left. -/
  | finish {route : Route} {commands : List PathCommand} {drawn : Canvas}
      (sent : canvas.send route (commands ++ [.finish]) = .ok drawn) : Change canvas drawn.leave
  | replay {cache : CoverageCache} {next : Canvas}
      (replayed : canvas.replay cache = .ok next) : Change canvas next
  | clear (x y width height : Int) : Change canvas (canvas.clearRect x y width height)

/-- Any number of elementary changes, one after the other.  A cache may be attached for some of
them, and is detached again. -/
inductive Changes : Canvas → Canvas → Prop where
  | refl (canvas : Canvas) : Changes canvas canvas
  | tail {canvas middle next : Canvas} (changes : Changes canvas middle)
      (change : middle.Change next) : Changes canvas next
  | record {canvas middle recorded : Canvas} (changes : Changes canvas middle)
      (cache : CoverageCache)
      (attached : Changes (middle.withScanner (middle.scanner.setCache (some cache))) recorded) :
      Changes canvas (recorded.withScanner (recorded.scanner.setCache none))

theorem Change.single {canvas next : Canvas} (change : canvas.Change next) :
    canvas.Changes next :=
  .tail (.refl canvas) change

namespace Changes

theorem trans {canvas middle next : Canvas} (first : canvas.Changes middle)
    (second : middle.Changes next) : canvas.Changes next := by
  induction second with
  | refl _ => exact first
  | tail _ change inductionHypothesis => exact .tail (inductionHypothesis first) change
  | record _ cache attached inductionHypothesis _ =>
      exact .record (inductionHypothesis first) cache attached

/-- What every change keeps, and what no cache matters for, is kept by all of them. -/
theorem keep {property : Canvas → Prop}
    (kept : ∀ {canvas next : Canvas}, property canvas → canvas.Change next → property next)
    (cached : ∀ {canvas : Canvas} (cache : Option CoverageCache), property canvas →
      property (canvas.withScanner (canvas.scanner.setCache cache)))
    {canvas next : Canvas} (holds : property canvas) (changes : canvas.Changes next) :
    property next := by
  induction changes with
  | refl _ => exact holds
  | tail _ change inductionHypothesis => exact kept (inductionHypothesis holds) change
  | record _ cache _ before during =>
      exact cached none (during (cached (some cache) (before holds)))

end Changes

/-! ## Paints -/

theorem changes_setMode (canvas : Canvas) (mode : PathMode) :
    canvas.Changes (canvas.setMode mode) :=
  (Change.plain canvas.rule canvas.color canvas.ramp mode canvas.subpathOpen
    canvas.mayKeep_ramp).single

theorem changes_setRamp {canvas : Canvas} {ramp : Option Ramp} (source : canvas.MayKeep ramp) :
    canvas.Changes { canvas with ramp := ramp } :=
  (Change.plain canvas.rule canvas.color ramp canvas.mode canvas.subpathOpen source).single

/-- A refused paint changes nothing. -/
theorem changes_orRefused {canvas next : Canvas} {answer : Except Error Canvas} {reply : Reply}
    (accepted : ∀ accepting, answer = .ok accepting → canvas.Changes accepting)
    (answered : canvas.orRefused answer = (next, reply)) : canvas.Changes next := by
  cases answer with
  | error error =>
      cases answered
      exact .refl canvas
  | ok accepting =>
      cases answered
      exact accepted _ rfl

/-- A gradient is set together with its ramp. -/
theorem changes_setGradient {canvas next : Canvas} {stops : List GradientStop} {cycle : Cycle}
    {paintOf : Ramp → Paint}
    (answered : (do
      let ramp ← canvas.rampFor? stops cycle
      pure ({ canvas with ramp := some ramp }.setPaint (paintOf ramp))) = Except.ok next) :
    canvas.Changes next := by
  cases found : canvas.rampFor? stops cycle with
  | error error =>
      rw [found] at answered
      cases answered
  | ok ramp =>
      rw [found] at answered
      cases answered
      exact (changes_setRamp (mayKeep_of_rampFor? found)).tail (.paint (paintOf ramp))

/-! ## Paths -/

theorem changes_setSubpathOpen (canvas : Canvas) (subpathOpen : Bool) :
    canvas.Changes { canvas with subpathOpen := subpathOpen } :=
  (Change.plain canvas.rule canvas.color canvas.ramp canvas.mode subpathOpen
    canvas.mayKeep_ramp).single

theorem changes_finishOn {canvas next : Canvas} {route : Route}
    (finished : canvas.finishOn route = .ok next) : canvas.Changes next := by
  obtain ⟨drawn, sent, left⟩ := exists_of_bind_eq_ok finished
  cases left
  have ended : canvas.Changes drawn.leave := by
    split at sent
    · exact (@Change.finish canvas route [.close] drawn sent).single
    · exact (@Change.finish canvas route [] drawn sent).single
  exact ended.trans (drawn.leave.changes_setSubpathOpen false)

theorem changes_finish {canvas next : Canvas} (finished : canvas.finish = .ok next) :
    canvas.Changes next := by
  unfold finish at finished
  split at finished
  · exact changes_finishOn finished
  · cases finished
    exact .refl canvas

theorem changes_step {canvas next : Canvas} {command : PathCommand}
    (stepped : canvas.step command = .ok next) : canvas.Changes next := by
  unfold step at stepped
  split at stepped
  · rename_i drawing
    cases command with
    | line command =>
        cases command with
        | moveTo point =>
            obtain ⟨moved, sent, opened⟩ := exists_of_bind_eq_ok stepped
            cases opened
            exact (Change.send drawing sent).single.trans (moved.changes_setSubpathOpen true)
        | lineJoin =>
            cases stepped
            exact .refl canvas
        | lineTo point => exact (Change.send drawing stepped).single
        | close =>
            obtain ⟨closed, sent, shut⟩ := exists_of_bind_eq_ok stepped
            cases shut
            exact (Change.send drawing sent).single.trans (closed.changes_setSubpathOpen false)
        | finish => exact changes_finish stepped
    | quadTo control point => exact (Change.send drawing stepped).single
    | cubicTo control₁ control₂ point => exact (Change.send drawing stepped).single
  · cases stepped
    exact .refl canvas

theorem changes_draw {canvas next : Canvas} {commands : List PathCommand}
    (drawn : canvas.draw commands = .ok next) : canvas.Changes next :=
  foldlM_keeps (fun _ changes stepped => changes.trans (changes_step stepped)) (.refl canvas) drawn

/-! ## Whole paths -/

theorem changes_fillData {canvas next : Canvas} {codes : List Nat} {coordinates : List Float32}
    {rule : WindingRule} (filled : canvas.fillData codes coordinates rule = .ok next) :
    canvas.Changes next := by
  obtain ⟨received, drawn, finished⟩ := exists_of_bind_eq_ok filled
  have started : canvas.Changes (canvas.start rule) := (Change.start none canvas.mode rule).single
  exact (started.trans (changes_draw drawn)).trans (changes_finish finished)

theorem changes_recordData {canvas next : Canvas} {codes : List Nat}
    {coordinates : List Float32} {rule : WindingRule} {cache kept : CoverageCache}
    (recorded : canvas.recordData codes coordinates rule cache = .ok (next, kept)) :
    canvas.Changes next := by
  obtain ⟨filled, attached, detached⟩ := exists_of_bind_eq_ok recorded
  cases detached
  exact .record (.refl canvas) cache (changes_fillData attached)

theorem changes_renderPath {canvas next : Canvas} {codes : List Nat}
    {coordinates : List Float32} {rule : WindingRule} {cache kept : Option CoverageCache}
    (rendered : canvas.renderPath codes coordinates rule cache = .ok (next, kept)) :
    canvas.Changes next := by
  have filling := canvas.changes_setMode .fill
  cases cache with
  | none =>
      rw [renderPath_none] at rendered
      obtain ⟨drawn, filled, updated⟩ := exists_of_map_eq_ok rendered
      cases updated
      exact (filling.trans (changes_fillData filled)).trans (drawn.changes_setMode _)
  | some cache =>
      cases valid : cache.isValid with
      | true =>
          rw [renderPath_of_isValid canvas codes coordinates rule valid] at rendered
          obtain ⟨drawn, replayed, updated⟩ := exists_of_map_eq_ok rendered
          cases updated
          exact (filling.tail (.replay replayed)).trans (drawn.changes_setMode _)
      | false =>
          rw [renderPath_of_invalid canvas codes coordinates rule valid] at rendered
          obtain ⟨⟨recorded, kept⟩, record, rest⟩ := exists_of_bind_eq_ok rendered
          obtain ⟨drawn, replayed, updated⟩ := exists_of_map_eq_ok rest
          cases updated
          have recording := filling.trans (changes_recordData record)
          exact (recording.tail (.replay replayed)).trans (drawn.changes_setMode _)

/-- A recorded path is drawn to its end, even if the store does not hold the end. -/
theorem changes_fillStore {canvas next : Canvas} {store : PathStore} {extra : Option Affine}
    (filled : canvas.fillStore store extra = .ok next) : canvas.Changes next := by
  obtain ⟨drawn, sent, left⟩ := exists_of_bind_eq_ok filled
  cases left
  have ready : canvas.Changes (canvas.withTextExtra extra) := (Change.textExtra extra).single
  have started := ready.tail (.start none .fill (canvas.withTextExtra extra).rule)
  split at sent
  · rename_i terminated
    obtain ⟨commands, ends⟩ := PathStore.exists_commands_eq terminated
    rw [List.append_nil, ends] at sent
    exact started.tail (.finish sent)
  · exact started.tail (.finish sent)

/-! ## Shapes -/

theorem changes_drawOutlines {canvas next : Canvas} {route : Route} {rule : WindingRule}
    {outlines : List Outline} (drawn : canvas.drawOutlines route rule outlines = .ok next) :
    canvas.Changes next := by
  obtain ⟨received, sent, finished⟩ := exists_of_bind_eq_ok drawn
  have started : canvas.Changes (canvas.startWith none route.mode rule) :=
    (Change.start none route.mode rule).single
  exact (started.tail (.send rfl sent)).trans (changes_finishOn finished)

theorem changes_fillShape {canvas next : Canvas} {shape : Shape}
    (filled : canvas.fillShape shape = .ok next) : canvas.Changes next := by
  unfold fillShape at filled
  split at filled
  · exact changes_drawOutlines filled
  · cases filled
    exact .refl canvas

theorem changes_strokeShape {canvas next : Canvas} {shape : Shape}
    (stroked : canvas.strokeShape shape = .ok next) : canvas.Changes next := by
  unfold strokeShape at stroked
  split at stroked
  · split at stroked
    · exact changes_drawOutlines stroked
    · exact changes_drawOutlines stroked
  · cases stroked
    exact .refl canvas

theorem changes_strokeLine {canvas next : Canvas} {source target : Point}
    (stroked : canvas.strokeLine source target = .ok next) : canvas.Changes next := by
  obtain ⟨received, sent, finished⟩ := exists_of_bind_eq_ok stroked
  have started : canvas.Changes (canvas.startWith none .stroke .nonZero) :=
    (Change.start none .stroke .nonZero).single
  exact (started.tail (.send rfl sent)).trans (changes_finishOn finished)

/-! ## Calls -/

/-- Every call is a sequence of elementary changes. -/
theorem changes_perform {canvas next : Canvas} {call : Call} {reply : Reply}
    (performed : canvas.perform call = .ok (next, reply)) : canvas.Changes next := by
  cases call with
  | setTransform transform =>
      cases performed
      exact (Change.transform transform).single
  | setStroke style =>
      cases performed
      exact (Change.stroke style).single
  | setRule rule =>
      cases performed
      exact (Change.plain rule canvas.color canvas.ramp canvas.mode canvas.subpathOpen
        canvas.mayKeep_ramp).single
  | setMode mode =>
      cases performed
      exact canvas.changes_setMode mode
  | setAntialiasing antialiasing =>
      cases performed
      exact (Change.antialiasing antialiasing).single
  | setClip x y width height =>
      cases performed
      exact (Change.clip (some (region x y width height))).single
  | resetClip =>
      cases performed
      exact (Change.clip none).single
  | setColor color =>
      cases performed
      have remembered : canvas.Changes { canvas with color := color, ramp := none } :=
        (Change.plain canvas.rule color none canvas.mode canvas.subpathOpen
          canvas.mayKeep_none).single
      exact remembered.tail (.paint (.solid color))
  | setLinear source target stops cycle toUser =>
      exact changes_orRefused (fun accepting set => changes_setGradient set)
        (Except.ok.inj performed)
  | setRadial center focus radius stops cycle toUser =>
      exact changes_orRefused (fun accepting set => changes_setGradient set)
        (Except.ok.inj performed)
  | setTexture data width height stride repeats toUser =>
      obtain ⟨answer, built, answered⟩ := exists_of_map_eq_ok performed
      obtain ⟨texture, _, set⟩ := exists_of_bind_eq_ok built
      apply changes_orRefused ?_ answered
      intro accepting accepted
      subst accepted
      cases texture with
      | error error => cases set
      | ok texture =>
          cases set
          exact (changes_setRamp canvas.mayKeep_none).tail (.paint (.image texture))
  | setQuality quality =>
      cases performed
      exact (Change.quality quality).single
  | start rule =>
      cases performed
      exact (Change.start none canvas.mode rule).single
  | startRegion x y width height rule =>
      cases performed
      exact (Change.start (some (region x y width height)) canvas.mode rule).single
  | finish =>
      obtain ⟨drawn, finished, answered⟩ := exists_of_map_eq_ok performed
      cases answered
      exact changes_finish finished
  | draw commands =>
      obtain ⟨drawn, received, answered⟩ := exists_of_map_eq_ok performed
      cases answered
      exact changes_draw received
  | drawData codes coordinates =>
      obtain ⟨drawn, received, answered⟩ := exists_of_map_eq_ok performed
      cases answered
      exact changes_draw received
  | renderPath codes coordinates rule cache =>
      obtain ⟨⟨drawn, kept⟩, rendered, answered⟩ := exists_of_map_eq_ok performed
      cases answered
      exact changes_renderPath rendered
  | fillStore store extra =>
      obtain ⟨drawn, filled, answered⟩ := exists_of_map_eq_ok performed
      cases answered
      exact changes_fillStore filled
  | fillShape shape =>
      obtain ⟨drawn, filled, answered⟩ := exists_of_map_eq_ok performed
      cases answered
      exact changes_fillShape filled
  | strokeShape shape =>
      obtain ⟨drawn, stroked, answered⟩ := exists_of_map_eq_ok performed
      cases answered
      exact changes_strokeShape stroked
  | strokeLine source target =>
      obtain ⟨drawn, stroked, answered⟩ := exists_of_map_eq_ok performed
      cases answered
      exact changes_strokeLine stroked
  | clearRect x y width height =>
      cases performed
      exact (Change.clear x y width height).single

theorem changes_performAll {canvas next : Canvas} {calls : List Call}
    (performed : canvas.performAll calls = .ok next) : canvas.Changes next := by
  refine foldlM_keeps ?_ (.refl canvas) performed
  intro before after call _ changes answered
  obtain ⟨⟨_, reply⟩, performed, rfl⟩ := exists_of_map_eq_ok answered
  exact changes.trans (changes_perform performed)

end Canvas

end Raster
