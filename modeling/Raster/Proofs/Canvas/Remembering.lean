import Raster.Proofs.Canvas.Changing
import Raster.Proofs.Canvas.Whole

/-!
# The ramp of the last gradient

A gradient whose stops and cycle are those of the gradient before it shares its ramp.  On a
reachable canvas the ramp that is kept for this is always one that would be built again, so that
the sharing cannot be observed, whatever was set in between.  A paint that is refused leaves the
canvas as it was, also if the setters are taken step by step.
-/

namespace Raster

namespace Ramp

/-- A ramp can be built exactly if there are stops. -/
theorem exists_new?_iff (stops : List GradientStop) (cycle : Cycle) :
    (∃ ramp, new? stops cycle = .ok ramp) ↔ stops ≠ [] := by
  cases stops with
  | nil =>
      constructor
      · rintro ⟨ramp, built⟩
        cases built
      · exact fun nonempty => absurd rfl nonempty
  | cons stop rest => exact ⟨fun _ => List.cons_ne_nil _ _, fun _ => ⟨_, rfl⟩⟩

end Ramp

/-- The ramp of a gradient; other paints have none. -/
def Paint.ramp? : Paint → Option Ramp
  | linear gradient => some gradient.ramp
  | radial gradient => some gradient.ramp
  | _ => none

@[simp]
theorem Paint.ramp?_draw (paint : Paint) (drawing : Affine) :
    (paint.draw drawing).ramp? = paint.ramp? := by
  cases paint <;> rfl

namespace Canvas

/-! ## The kept ramp -/

theorem ramp_send {canvas next : Canvas} {route : Route} {commands : List PathCommand}
    (sent : canvas.send route commands = .ok next) : next.ramp = canvas.ramp := by
  rw [send_eq] at sent
  obtain ⟨scanner, _, rfl⟩ := exists_of_map_eq_ok sent
  obtain ⟨_, _, _, used⟩ := canvas.exists_used_eq route commands scanner
  rw [used]

theorem ramp_replay {canvas next : Canvas} {cache : CoverageCache}
    (replayed : canvas.replay cache = .ok next) : next.ramp = canvas.ramp := by
  obtain ⟨scanner, _, updated⟩ := exists_of_bind_eq_ok replayed
  cases updated
  rfl

/-- A ramp that is kept for the next gradient would be built again. -/
def Remembers (canvas : Canvas) : Prop :=
  ∀ ramp, canvas.ramp = some ramp → Ramp.new? ramp.stops ramp.cycle = .ok ramp

theorem remembers_new (surface : Surface) (config : Config) :
    (Canvas.new surface config).Remembers := by
  rintro ramp kept
  cases kept

theorem Remembers.of_ramp_eq {canvas next : Canvas} (remembers : canvas.Remembers)
    (same : next.ramp = canvas.ramp) : next.Remembers := by
  unfold Remembers
  rw [same]
  exact remembers

/-- Every change keeps the ramp, or replaces it by one that can be built, or drops it. -/
theorem Remembers.change {canvas next : Canvas} (remembers : canvas.Remembers)
    (change : canvas.Change next) : next.Remembers := by
  cases change with
  | plain rule color ramp mode subpathOpen source =>
      intro made kept
      obtain same | ⟨stops, cycle, built⟩ := source made kept
      · exact remembers made same
      · obtain ⟨rfl, rfl⟩ := Ramp.of_new? built
        exact built
  | antialiasing antialiasing =>
      unfold setAntialiasing
      split
      · exact remembers
      · exact remembers
  | textExtra extra =>
      unfold withTextExtra
      split
      · exact remembers
      · exact remembers
  | send _ sent => exact remembers.of_ramp_eq (ramp_send sent)
  | @finish _ _ drawn sent =>
      have kept : drawn.ramp = canvas.ramp := ramp_send sent
      exact remembers.of_ramp_eq kept
  | replay replayed => exact remembers.of_ramp_eq (ramp_replay replayed)
  | _ => exact remembers

theorem Reachable.remembers {canvas : Canvas} (reachable : canvas.Reachable) :
    canvas.Remembers := by
  obtain ⟨surface, config, calls, reached⟩ := reachable
  exact Changes.keep Remembers.change (fun _ remembers => remembers)
    (remembers_new surface config) (changes_performAll reached)

/-- A kept ramp is shared only where it would be built. -/
theorem Remembers.rampFor?_eq {canvas : Canvas} (remembers : canvas.Remembers)
    (stops : List GradientStop) (cycle : Cycle) :
    canvas.rampFor? stops cycle = Ramp.new? stops cycle := by
  unfold rampFor?
  split
  · rename_i ramp kept
    split
    · rename_i built
      simp only [Ramp.isBuiltFrom, Bool.and_eq_true, decide_eq_true_eq] at built
      obtain ⟨rfl, rfl⟩ := built
      exact (remembers ramp kept).symm
    · rfl
  · rfl

/-! ## Gradients -/

/-- The canvas with a gradient and its ramp. -/
def withGradient (canvas : Canvas) (paintOf : Ramp → Paint) (ramp : Ramp) : Canvas :=
  { canvas with ramp := some ramp }.setPaint (paintOf ramp)

/-- The stops and the cycle of the gradient that a call sets, with the paint of each ramp. -/
def Call.gradient? : Call → Option (List GradientStop × Cycle × (Ramp → Paint))
  | setLinear source target stops cycle toUser =>
      some (stops, cycle, fun ramp => .linear (.new source target ramp toUser))
  | setRadial center focus radius stops cycle toUser =>
      some (stops, cycle, fun ramp => .radial (.new center focus radius ramp toUser))
  | _ => none

variable {canvas : Canvas} {stops : List GradientStop} {cycle : Cycle} {paintOf : Ramp → Paint}
  {call : Call}

/-- A call that sets a gradient is refused exactly if there is no ramp for it. -/
theorem perform_of_gradient? (sets : call.gradient? = some (stops, cycle, paintOf)) :
    canvas.perform call =
      .ok (canvas.orRefused ((canvas.rampFor? stops cycle).map (canvas.withGradient paintOf))) := by
  cases call with
  | setLinear source target stops cycle toUser =>
      cases sets
      simp only [perform, setLinear?]
      cases canvas.rampFor? stops cycle <;> rfl
  | setRadial center focus radius stops cycle toUser =>
      cases sets
      simp only [perform, setRadial?]
      cases canvas.rampFor? stops cycle <;> rfl
  | _ => cases sets

/-- The paint of a gradient has the ramp that it was built with. -/
theorem ramp?_withGradient (sets : call.gradient? = some (stops, cycle, paintOf)) (ramp : Ramp) :
    (canvas.withGradient paintOf ramp).paint.ramp? = some ramp := by
  change ((paintOf ramp).draw canvas.transform).ramp? = some ramp
  rw [Paint.ramp?_draw]
  cases call with
  | setLinear source target stops cycle toUser =>
      cases sets
      rfl
  | setRadial center focus radius stops cycle toUser =>
      cases sets
      rfl
  | _ => cases sets

/-! ## Setters step by step -/

/-- A setter whose steps change the canvas one after the other.  What they have changed remains
if a later one is refused. -/
abbrev Setter (α : Type) : Type :=
  ExceptT Error (StateM Canvas) α

/-- Builds a ramp and keeps it. -/
def buildRamp (stops : List GradientStop) (cycle : Cycle) : Setter Ramp := do
  let ramp ← MonadExcept.ofExcept (Ramp.new? stops cycle)
  modify fun canvas => { canvas with ramp := some ramp }
  pure ramp

/-- Takes the kept ramp if it has the same stops and cycle, or else builds one. -/
def takeRamp (stops : List GradientStop) (cycle : Cycle) : Setter Ramp := do
  match (← get).ramp with
  | some ramp => if ramp.isBuiltFrom stops cycle then pure ramp else buildRamp stops cycle
  | none => buildRamp stops cycle

/-- Sets a gradient. -/
def gradientSteps (stops : List GradientStop) (cycle : Cycle) (paintOf : Ramp → Paint) :
    Setter Unit := do
  let ramp ← takeRamp stops cycle
  modify fun canvas => canvas.setPaint (paintOf ramp)

/-- Sets a texture. -/
def textureSteps (texture : Except Error Texture) : Setter Unit := do
  let texture ← MonadExcept.ofExcept texture
  modify fun canvas => { canvas with ramp := none }
  modify fun canvas => canvas.setPaint (.image texture)

/-- The canvas that the steps leave, and what they answer. -/
def taken (canvas : Canvas) (steps : Setter Unit) : Canvas × Reply :=
  match steps.run canvas with
  | (.ok _, next) => (next, .done)
  | (.error error, next) => (next, .refused error)

/-- A step is taken on the canvas that the steps before it leave. -/
theorem run_bind {α β : Type} (first : Setter α) (second : α → Setter β) (canvas : Canvas) :
    (first >>= second).run canvas =
      match first.run canvas with
      | (.ok value, next) => (second value).run next
      | (.error error, next) => (.error error, next) := by
  rw [ExceptT.run_bind]
  change StateT.bind _ _ canvas = _
  unfold StateT.bind
  change (match first.run canvas with | (answer, next) => _) = _
  rcases first.run canvas with ⟨_ | value, next⟩
  · rfl
  · rfl

theorem run_buildRamp (canvas : Canvas) (stops : List GradientStop) (cycle : Cycle) :
    (buildRamp stops cycle).run canvas =
      match Ramp.new? stops cycle with
      | .ok ramp => (.ok ramp, { canvas with ramp := some ramp })
      | .error error => (.error error, canvas) := by
  unfold buildRamp
  cases Ramp.new? stops cycle <;> rfl

theorem run_takeRamp (canvas : Canvas) (stops : List GradientStop) (cycle : Cycle) :
    (takeRamp stops cycle).run canvas =
      match canvas.rampFor? stops cycle with
      | .ok ramp => (.ok ramp, { canvas with ramp := some ramp })
      | .error error => (.error error, canvas) := by
  have looked : (takeRamp stops cycle).run canvas =
      ((match canvas.ramp with
        | some ramp => if ramp.isBuiltFrom stops cycle then pure ramp else buildRamp stops cycle
        | none => buildRamp stops cycle) : Setter Ramp).run canvas := rfl
  rw [looked]
  unfold rampFor?
  cases kept : canvas.ramp with
  | none => exact run_buildRamp canvas stops cycle
  | some ramp =>
      have unchanged : { canvas with ramp := some ramp } = canvas := by
        rw [← kept]
      simp only
      split
      · simp only [unchanged]
        rfl
      · exact run_buildRamp canvas stops cycle

/-- Taken step by step, a gradient is set or refused as a whole. -/
theorem taken_gradientSteps (canvas : Canvas) (stops : List GradientStop) (cycle : Cycle)
    (paintOf : Ramp → Paint) :
    canvas.taken (gradientSteps stops cycle paintOf) =
      canvas.orRefused ((canvas.rampFor? stops cycle).map (canvas.withGradient paintOf)) := by
  rw [taken, gradientSteps, run_bind, run_takeRamp]
  cases canvas.rampFor? stops cycle <;> rfl

/-- Taken step by step, a texture is set or refused as a whole. -/
theorem taken_textureSteps (canvas : Canvas) (texture : Except Error Texture) :
    canvas.taken (textureSteps texture) =
      canvas.orRefused
        (texture.map fun texture => { canvas with ramp := none }.setPaint (.image texture)) := by
  cases texture <;> rfl

/-- A refused call leaves the canvas as it was. -/
theorem eq_of_refused {canvas next : Canvas} {call : Call} {error : Error}
    (performed : canvas.perform call = .ok (next, .refused error)) : next = canvas := by
  have whole : ∀ {answer : Except Error Canvas},
      canvas.orRefused answer = (next, .refused error) → next = canvas := by
    intro answer answered
    cases answer <;> cases answered
    rfl
  cases call with
  | setLinear source target stops cycle toUser => exact whole (Except.ok.inj performed)
  | setRadial center focus radius stops cycle toUser => exact whole (Except.ok.inj performed)
  | setTexture data width height stride repeats toUser =>
      obtain ⟨_, _, answered⟩ := exists_of_map_eq_ok performed
      exact whole answered
  | finish | draw _ | drawData _ _ | renderPath _ _ _ _ | fillStore _ _ | fillShape _
  | strokeShape _ | strokeLine _ _ =>
      obtain ⟨_, _, answered⟩ := exists_of_map_eq_ok performed
      cases answered
  | _ => cases performed

/-- On every reachable canvas a refused call changes nothing.  The setters of gradients and
textures are the same taken step by step, so that none of their steps remains if they are refused.
A gradient is set exactly if it has stops, and then the paint has the ramp that is built from its
stops and its cycle, whatever ramp was kept from earlier calls. -/
theorem paints_set_whole_and_afresh (reachable : canvas.Reachable) :
    (∀ {call : Call} {next : Canvas} {error : Error},
      canvas.perform call = .ok (next, .refused error) → next = canvas) ∧
    (∀ data width height stride repeats toUser,
      canvas.perform (.setTexture data width height stride repeats toUser) =
        (Texture.new? data width height stride repeats toUser).map fun texture =>
          canvas.taken (textureSteps texture)) ∧
    ∀ {call : Call} {stops : List GradientStop} {cycle : Cycle} {paintOf : Ramp → Paint},
      call.gradient? = some (stops, cycle, paintOf) →
      canvas.perform call = .ok (canvas.taken (gradientSteps stops cycle paintOf)) ∧
      ((∃ next, canvas.perform call = .ok (next, .done)) ↔ stops ≠ []) ∧
      ∀ {next : Canvas}, canvas.perform call = .ok (next, .done) →
        ∃ ramp, Ramp.new? stops cycle = .ok ramp ∧ ramp.cycle = cycle ∧
          next.paint.ramp? = some ramp := by
  refine ⟨eq_of_refused, ?_, ?_⟩
  · intro data width height stride repeats toUser
    simp only [perform, setTexture?, taken_textureSteps]
    cases Texture.new? data width height stride repeats toUser with
    | error fault => rfl
    | ok texture => rfl
  · intro call stops cycle paintOf sets
    have performed := @perform_of_gradient? canvas _ _ _ _ sets
    have fresh := reachable.remembers.rampFor?_eq stops cycle
    refine ⟨performed.trans (congrArg Except.ok (taken_gradientSteps _ _ _ _).symm), ?_, ?_⟩
    · rw [performed, fresh, ← Ramp.exists_new?_iff stops cycle]
      cases Ramp.new? stops cycle with
      | error error =>
          constructor
          · rintro ⟨next, accepted⟩
            cases accepted
          · rintro ⟨ramp, built⟩
            cases built
      | ok ramp => exact ⟨fun _ => ⟨ramp, rfl⟩, fun _ => ⟨_, rfl⟩⟩
    · intro next accepted
      rw [performed, fresh] at accepted
      cases built : Ramp.new? stops cycle with
      | error error =>
          rw [built] at accepted
          cases accepted
      | ok ramp =>
          rw [built] at accepted
          cases accepted
          exact ⟨ramp, rfl, (Ramp.of_new? built).2, ramp?_withGradient sets ramp⟩

/-- After gradients, a color and a texture, the last gradient with another cycle has a new ramp, and
a gradient without stops and a texture with rows that overlap are refused. -/
theorem paints_set_whole_and_afresh_history :
    let surface : Surface := ⟨.gray8, 1, 1, .packed 1, #[0]⟩
    let stops : List GradientStop := [⟨0, ⟨0, 0, 0, 255⟩⟩, ⟨65536, ⟨255, 255, 255, 255⟩⟩]
    let history : List Call :=
      [.setLinear ⟨0, 0⟩ ⟨65536, 0⟩ stops .wrap .identity,
        .setColor ⟨1, 2, 3, 4⟩,
        .setTexture #[0] 1 1 1 false .identity,
        .setRadial ⟨0, 0⟩ ⟨0, 0⟩ 65536 stops .clamp .identity]
    ∃ canvas next ramp,
      (new surface (Config.default.withGrid 1 1)).performAll history = .ok canvas ∧
      canvas.ramp.map Ramp.cycle = some .clamp ∧
      canvas.perform (.setRadial ⟨0, 0⟩ ⟨0, 0⟩ 65536 [] .clamp .identity) =
        .ok (canvas, .refused .emptyGradient) ∧
      canvas.perform (.setTexture #[0, 0] 2 1 1 false .identity) =
        .ok (canvas, .refused (.textureStrideTooSmall 1 2)) ∧
      canvas.perform (.setLinear ⟨0, 0⟩ ⟨65536, 0⟩ stops .reflect .identity) =
        .ok (next, .done) ∧
      Ramp.new? stops .reflect = .ok ramp ∧ ramp.cycle = .reflect ∧
      next.paint.ramp? = some ramp := by
  intro surface stops history
  have run : (do
      let canvas ← (new surface (Config.default.withGrid 1 1)).performAll history
      let (_, empty) ← canvas.perform (.setRadial ⟨0, 0⟩ ⟨0, 0⟩ 65536 [] .clamp .identity)
      let (_, narrow) ← canvas.perform (.setTexture #[0, 0] 2 1 1 false .identity)
      pure (canvas.ramp.map Ramp.cycle, empty, narrow)) =
        .ok (some .clamp, .refused .emptyGradient, .refused (.textureStrideTooSmall 1 2)) := by
    decide +kernel
  obtain ⟨canvas, reached, afterHistory⟩ := exists_of_bind_eq_ok run
  obtain ⟨⟨unfilled, _⟩, empty, afterEmpty⟩ := exists_of_bind_eq_ok afterHistory
  obtain ⟨⟨untextured, _⟩, narrow, state⟩ := exists_of_bind_eq_ok afterEmpty
  simp only [pure, Except.pure, Except.ok.injEq, Prod.mk.injEq] at state
  obtain ⟨kept, rfl, rfl⟩ := state
  obtain ⟨refused, _, gradients⟩ := paints_set_whole_and_afresh ⟨surface, _, history, reached⟩
  obtain ⟨_, accepted, afresh⟩ := gradients
    (show (Call.setLinear ⟨0, 0⟩ ⟨65536, 0⟩ stops .reflect .identity).gradient? = _ from rfl)
  obtain ⟨next, performed⟩ := accepted.mpr (List.cons_ne_nil _ _)
  obtain ⟨ramp, built, cycle, installed⟩ := afresh performed
  refine ⟨canvas, next, ramp, reached, kept, ?_, ?_, performed, built, cycle, installed⟩
  · rw [empty, refused empty]
  · rw [narrow, refused narrow]

end Canvas

end Raster
