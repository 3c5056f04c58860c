import Raster.Proofs.Canvas.Freshness
import Raster.Proofs.Canvas.Whole
import Raster.Proofs.Path.Restarting

/-!
# Canvases between paths

A canvas rests if it has ended every path that it has started.  This is so after every history
in which settings, whole drawings and complete brackets follow each other: a bracket starts a
path, feeds it and finishes it.  Then dasher and stroker have nothing left of any path, and
all else that was derived is fresh.
-/

namespace Raster.Canvas

/-! ## Histories -/

namespace Call

/-- Whether a call sets something that later drawings depend on. -/
def sets : Call → Bool
  | setTransform _ => true
  | setStroke _ => true
  | setRule _ => true
  | setMode _ => true
  | setAntialiasing _ => true
  | setClip _ _ _ _ => true
  | resetClip => true
  | setColor _ => true
  | setLinear _ _ _ _ _ => true
  | setRadial _ _ _ _ _ _ => true
  | setTexture _ _ _ _ _ _ => true
  | setQuality _ => true
  | _ => false

/-- Whether a call draws something on its own. -/
def draws : Call → Bool
  | renderPath _ _ _ _ => true
  | fillStore _ _ => true
  | fillShape _ => true
  | strokeShape _ => true
  | strokeLine _ _ => true
  | clearRect _ _ _ _ => true
  | _ => false

end Call

/-- Calls in which every path that is started is fed and finished before anything else. -/
inductive Orderly : List Call → Prop where
  | nil : Orderly []
  | setting {call : Call} {rest : List Call} (sets : call.sets = true) (orderly : Orderly rest) :
      Orderly (call :: rest)
  | drawing {call : Call} {rest : List Call} (draws : call.draws = true)
      (orderly : Orderly rest) : Orderly (call :: rest)
  | bracket {opening : Call} {inner rest : List Call} {region : Option PixelBox}
      {rule : WindingRule} (opens : opening.opens? = some (region, rule))
      (feed : ∀ call ∈ inner, call.feeds = true) (orderly : Orderly rest) :
      Orderly (opening :: inner ++ [.finish] ++ rest)

/-! ## Rest -/

/-- No path is being received, and none has left anything in the chain of stroked paths. -/
structure Settled (canvas : Canvas) : Prop where
  drawing : canvas.drawing = false
  stroke : ∀ chain, canvas.strokeChain = some chain → chain.Settled

theorem settled_new (surface : Surface) (config : Config) : (new surface config).Settled where
  drawing := rfl
  stroke _ absent := nomatch absent

/-- A change between paths that keeps the chain of stroked paths or drops it. -/
theorem Settled.keep {canvas next : Canvas} (settled : canvas.Settled)
    (drawing : next.drawing = canvas.drawing)
    (chain : next.strokeChain = canvas.strokeChain ∨ next.strokeChain = none) :
    next.Settled := by
  refine ⟨drawing.trans settled.drawing, ?_⟩
  intro kept held
  rcases chain with same | dropped
  · exact settled.stroke kept (same.symm.trans held)
  · cases dropped.symm.trans held

theorem Settled.setMode {canvas : Canvas} (settled : canvas.Settled) (mode : PathMode) :
    (canvas.setMode mode).Settled :=
  settled.keep rfl (.inl rfl)

/-- A refused paint leaves the canvas as it was. -/
theorem Settled.orRefused {canvas next : Canvas} (settled : canvas.Settled)
    {answer : Except Error Canvas} {reply : Reply}
    (accepted : ∀ accepting, answer = .ok accepting → accepting.Settled)
    (answered : canvas.orRefused answer = (next, reply)) : next.Settled := by
  cases answer with
  | error error =>
      cases answered
      exact settled
  | ok accepting =>
      cases answered
      exact accepted _ rfl

theorem Settled.setGradient {canvas next : Canvas} (settled : canvas.Settled)
    {ramp? : Except Error Ramp} {paintOf : Ramp → Paint}
    (answered : (do
      let ramp ← ramp?
      pure ({ canvas with ramp := some ramp }.setPaint (paintOf ramp))) = Except.ok next) :
    next.Settled := by
  obtain ⟨ramp, rfl⟩ : ∃ ramp, ramp? = .ok ramp := by
    cases ramp? with
    | error error => cases answered
    | ok ramp => exact ⟨ramp, rfl⟩
  cases answered
  exact settled.keep rfl (.inl rfl)

theorem Settled.set {canvas next : Canvas} (settled : canvas.Settled) {call : Call}
    (sets : call.sets = true) {reply : Reply}
    (performed : canvas.perform call = .ok (next, reply)) : next.Settled := by
  cases call with
  | setTransform transform =>
      cases performed
      exact settled.keep rfl (.inr rfl)
  | setStroke style =>
      cases performed
      exact settled.keep rfl (.inr rfl)
  | setAntialiasing antialiasing =>
      cases performed
      unfold setAntialiasing
      split
      · exact settled
      · exact settled.keep rfl (.inr rfl)
  | setLinear source target stops cycle toUser =>
      exact settled.orRefused (fun accepting set => settled.setGradient set)
        (Except.ok.inj performed)
  | setRadial center focus radius stops cycle toUser =>
      exact settled.orRefused (fun accepting set => settled.setGradient set)
        (Except.ok.inj performed)
  | setTexture data width height stride repeats toUser =>
      obtain ⟨answer, built, answered⟩ := exists_of_map_eq_ok performed
      obtain ⟨texture, _, set⟩ := exists_of_bind_eq_ok built
      apply settled.orRefused ?_ answered
      intro accepting accepted
      subst accepted
      cases texture with
      | error error => cases set
      | ok texture =>
          cases set
          exact settled.keep rfl (.inl rfl)
  | setRule | setMode | setClip | resetClip | setColor | setQuality =>
      cases performed
      exact settled.keep rfl (.inl rfl)
  | _ => cases sets

theorem settled_readyStroke {canvas : Canvas} (settled : canvas.Settled) :
    canvas.readyStroke.Settled := by
  unfold readyStroke
  cases held : canvas.strokeChain with
  | none => exact StrokeChain.settled_build _ _ _
  | some chain => exact settled.stroke chain held

/-- A whole path that was sent to its end leaves nothing of it. -/
theorem Settled.drawWhole {canvas drawn : Canvas} (settled : canvas.Settled)
    {region : Option PixelBox} {rule : WindingRule} {route : Route}
    {commands : List PathCommand}
    (performed : canvas.drawWhole region rule route (commands ++ [.finish]) = .ok drawn) :
    drawn.Settled := by
  rw [drawWhole_eq] at performed
  obtain ⟨scanner, _, rfl⟩ := exists_of_map_eq_ok performed
  refine ⟨rfl, ?_⟩
  intro chain held
  cases route with
  | stroke =>
      cases held
      exact StrokeChain.settled_run_finish (settled_readyStroke settled).vertices commands
  | fill => exact settled.stroke chain held
  | text => exact settled.stroke chain held

theorem exists_received_eq (mode : PathMode) (subpathOpen : Bool) (commands : List PathCommand) :
    ∃ before, received mode subpathOpen commands = before ++ [.finish] := by
  induction commands generalizing subpathOpen with
  | nil => exact ⟨_, rfl⟩
  | cons command rest inductionHypothesis =>
      rw [received]
      split
      · exact ⟨_, rfl⟩
      · obtain ⟨before, ends⟩ := inductionHypothesis (openAfter subpathOpen command)
        exact ⟨sentFor mode subpathOpen command ++ before, by rw [ends, List.append_assoc]⟩

theorem exists_path_eq (store : PathStore) : ∃ before, store.path = before ++ [.finish] := by
  unfold PathStore.path
  split
  · rename_i terminated
    rw [List.append_nil]
    exact PathStore.exists_commands_eq terminated
  · exact ⟨_, rfl⟩

theorem Settled.fillData {canvas drawn : Canvas} (settled : canvas.Settled) {codes : List Nat}
    {coordinates : List Float32} {rule : WindingRule}
    (filled : canvas.fillData codes coordinates rule = .ok drawn) : drawn.Settled := by
  obtain ⟨before, ends⟩ := exists_received_eq canvas.mode false
    (PathData.commands codes (PathData.points coordinates))
  rw [fillData_eq_drawWhole, ends] at filled
  exact settled.drawWhole filled

theorem Settled.recordData {canvas drawn : Canvas} (settled : canvas.Settled) {codes : List Nat}
    {coordinates : List Float32} {rule : WindingRule} {cache kept : CoverageCache}
    (recorded : canvas.recordData codes coordinates rule cache = .ok (drawn, kept)) :
    drawn.Settled := by
  obtain ⟨filled, attached, detached⟩ := exists_of_bind_eq_ok recorded
  cases detached
  have attach : { canvas with scanner := canvas.scanner.setCache (some cache) }.Settled :=
    settled.keep rfl (.inl rfl)
  exact (attach.fillData attached).keep rfl (.inl rfl)

theorem Settled.replay {canvas drawn : Canvas} (settled : canvas.Settled)
    {cache : CoverageCache} (replayed : canvas.replay cache = .ok drawn) : drawn.Settled := by
  obtain ⟨scanner, _, updated⟩ := exists_of_bind_eq_ok replayed
  cases updated
  exact settled.keep rfl (.inl rfl)

theorem Settled.renderPath {canvas drawn : Canvas} (settled : canvas.Settled) {codes : List Nat}
    {coordinates : List Float32} {rule : WindingRule} {cache kept : Option CoverageCache}
    (rendered : canvas.renderPath codes coordinates rule cache = .ok (drawn, kept)) :
    drawn.Settled := by
  have filling := settled.setMode .fill
  cases cache with
  | none =>
      rw [renderPath_none] at rendered
      obtain ⟨filled, fills, updated⟩ := exists_of_map_eq_ok rendered
      cases updated
      exact (filling.fillData fills).setMode _
  | some cache =>
      cases valid : cache.isValid with
      | true =>
          rw [renderPath_of_isValid canvas codes coordinates rule valid] at rendered
          obtain ⟨replayed, replays, updated⟩ := exists_of_map_eq_ok rendered
          cases updated
          exact (filling.replay replays).setMode _
      | false =>
          rw [renderPath_of_invalid canvas codes coordinates rule valid] at rendered
          obtain ⟨⟨recorded, record⟩, records, rest⟩ := exists_of_bind_eq_ok rendered
          obtain ⟨replayed, replays, updated⟩ := exists_of_map_eq_ok rest
          cases updated
          exact ((filling.recordData records).replay replays).setMode _

theorem Settled.withTextExtra {canvas : Canvas} (settled : canvas.Settled)
    (extra : Option Affine) : (canvas.withTextExtra extra).Settled := by
  unfold Canvas.withTextExtra
  split
  · exact settled
  · exact settled.keep rfl (.inl rfl)

theorem Settled.drawOutlines {canvas drawn : Canvas} (settled : canvas.Settled) {route : Route}
    {rule : WindingRule} {outlines : List Outline}
    (performed : canvas.drawOutlines route rule outlines = .ok drawn) : drawn.Settled := by
  rw [drawOutlines_eq_drawWhole] at performed
  exact settled.drawWhole performed

theorem Settled.draw {canvas next : Canvas} (settled : canvas.Settled) {call : Call}
    (draws : call.draws = true) {reply : Reply}
    (performed : canvas.perform call = .ok (next, reply)) : next.Settled := by
  cases call with
  | renderPath codes coordinates rule cache =>
      obtain ⟨⟨drawn, kept⟩, rendered, answered⟩ := exists_of_map_eq_ok performed
      cases answered
      exact settled.renderPath rendered
  | fillStore store extra =>
      obtain ⟨drawn, filled, answered⟩ := exists_of_map_eq_ok performed
      cases answered
      obtain ⟨before, ends⟩ := exists_path_eq store
      rw [fillStore_eq_drawWhole, ends] at filled
      exact (settled.withTextExtra extra).drawWhole filled
  | fillShape shape =>
      obtain ⟨drawn, filled, answered⟩ := exists_of_map_eq_ok performed
      cases answered
      unfold fillShape at filled
      split at filled
      · exact settled.drawOutlines filled
      · cases filled
        exact settled
  | strokeShape shape =>
      obtain ⟨drawn, stroked, answered⟩ := exists_of_map_eq_ok performed
      cases answered
      unfold strokeShape at stroked
      split at stroked
      · split at stroked
        · exact settled.drawOutlines stroked
        · exact settled.drawOutlines stroked
      · cases stroked
        exact settled
  | strokeLine source target =>
      obtain ⟨drawn, stroked, answered⟩ := exists_of_map_eq_ok performed
      cases answered
      rw [strokeLine_eq_drawWhole] at stroked
      exact settled.drawWhole stroked
  | clearRect x y width height =>
      cases performed
      exact settled.keep rfl (.inl rfl)
  | _ => cases draws

/-- After an orderly history nothing is left of any path. -/
theorem Settled.performAll {canvas next : Canvas} {calls : List Call} (orderly : Orderly calls)
    (settled : canvas.Settled) (performed : canvas.performAll calls = .ok next) :
    next.Settled := by
  induction orderly generalizing canvas with
  | nil =>
      cases performed
      exact settled
  | setting sets _ inductionHypothesis =>
      obtain ⟨middle, first, rest⟩ := exists_of_bind_eq_ok performed
      obtain ⟨⟨_, reply⟩, set, rfl⟩ := exists_of_map_eq_ok first
      exact inductionHypothesis (settled.set sets set) rest
  | drawing draws _ inductionHypothesis =>
      obtain ⟨middle, first, rest⟩ := exists_of_bind_eq_ok performed
      obtain ⟨⟨_, reply⟩, drawn, rfl⟩ := exists_of_map_eq_ok first
      exact inductionHypothesis (settled.draw draws drawn) rest
  | @bracket _ inner _ _ _ opens feed _ inductionHypothesis =>
      rw [performAll_append, performAll_bracket canvas opens feed] at performed
      obtain ⟨middle, whole, rest⟩ := exists_of_bind_eq_ok performed
      obtain ⟨before, ends⟩ := exists_received_eq canvas.mode false (inner.flatMap Call.fed)
      rw [ends] at whole
      exact inductionHypothesis (settled.drawWhole whole) rest

/-- What holds of a canvas that has ended every path. -/
structure Rested (canvas : Canvas) : Prop where
  sound : canvas.Sound
  fresh : canvas.Fresh
  settled : canvas.Settled

/-- After an orderly history a canvas rests. -/
theorem rested_of_orderly {surface : Surface} {config : Config} (built : config.Built)
    {history : List Call} (orderly : Orderly history) {canvas : Canvas}
    (reached : (new surface config).performAll history = .ok canvas) :
    canvas.config = config ∧ canvas.Rested := by
  obtain ⟨same, fresh⟩ := (fresh_new surface built).performAll built reached
  exact ⟨same, (sound_new surface config).performAll reached, fresh,
    (settled_new surface config).performAll orderly reached⟩

end Raster.Canvas
