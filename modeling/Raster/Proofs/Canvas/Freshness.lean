import Raster.Proofs.Canvas.Changing
import Raster.Proofs.Canvas.Rendering
import Raster.Proofs.Path.Clearing

/-!
# Derived state of a canvas

A canvas keeps what it derives from its settings: chains from the transformation, the stroke
style and the configuration, the inverse of a paint's space from the transformation, the sample
grid from the antialiasing, and the clip box of its scanner from its own.  A call that changes
a setting derives these anew or drops the chains, so nothing that is kept is ever outdated.
-/

namespace Raster

/-! ## Paints -/

/-- The space of a paint was derived from a drawing transformation. -/
structure PaintSpace.DrawnUnder (drawing : Affine) (space : PaintSpace) : Prop where
  toDevice : space.toDevice = drawing.concat space.toUser
  fromDevice : space.fromDevice = space.toDevice.inverse?

/-- All that a paint depends on was derived from a drawing transformation: its space, and from
the inverse of the space what its colors are computed with. -/
def Paint.DrawnUnder (drawing : Affine) : Paint → Prop
  | .solid _ => True
  | .linear gradient =>
      gradient.space.DrawnUnder drawing ∧
        gradient.plane = LinearGradient.planeOf gradient.source gradient.target gradient.space
  | .radial gradient =>
      gradient.space.DrawnUnder drawing ∧
        gradient.setup =
          RadialGradient.setupOf gradient.center gradient.focus gradient.radius gradient.space
  | .image texture =>
      texture.space.DrawnUnder drawing ∧ texture.inverse = texture.space.fromDevice

namespace Paint

theorem drawnUnder_draw (paint : Paint) (drawing : Affine) :
    (paint.draw drawing).DrawnUnder drawing := by
  cases paint with
  | solid color => trivial
  | linear gradient => exact ⟨⟨rfl, rfl⟩, rfl⟩
  | radial gradient => exact ⟨⟨rfl, rfl⟩, rfl⟩
  | image texture => exact ⟨⟨rfl, rfl⟩, rfl⟩

/-- The quality of a texture does not depend on where it is drawn. -/
theorem DrawnUnder.setQuality {drawing : Affine} {paint : Paint} (drawn : paint.DrawnUnder drawing)
    (quality : Int) : (paint.setQuality quality).DrawnUnder drawing := by
  cases paint with
  | solid color => trivial
  | linear gradient => exact drawn
  | radial gradient => exact drawn
  | image texture => exact drawn

end Paint

/-! ## Scanners -/

namespace Scanner

theorem SameSettings.replay {scanner replayed : Scanner} {cache : CoverageCache}
    (done : scanner.replay cache = .ok replayed) : scanner.SameSettings replayed := by
  obtain ⟨touches, box, scratch, rfl⟩ := exists_of_replay done
  exact ⟨rfl, rfl, rfl, scanner.surface.bounds_draw touches⟩

theorem sameSettings_clearRect (scanner : Scanner) (x y width height : Int) (color : Color) :
    scanner.SameSettings (scanner.clearRect x y width height color) := by
  unfold clearRect
  simp only
  split
  · exact ⟨rfl, rfl, rfl, rfl⟩
  · exact ⟨rfl, rfl, rfl, Surface.bounds_fill _ _ _⟩

end Scanner

/-! ## Canvases -/

namespace Canvas

/-- Everything that a canvas has derived from its settings is what it would derive from them
now.  A chain that was not dropped is, except for the path that it has received, the one that
would be built. -/
structure Fresh (canvas : Canvas) : Prop where
  fill : ∀ chain, canvas.fillChain = some chain →
    chain.cleared = .build canvas.config canvas.transform
  stroke : ∀ chain, canvas.strokeChain = some chain →
    chain.cleared = .build canvas.config canvas.transform canvas.stroke
  text : ∀ chain, canvas.textChain = some chain →
    chain.cleared = .build canvas.config canvas.textTransform
  paint : canvas.paint.DrawnUnder canvas.transform
  grid : canvas.scanner.grid = if canvas.antialiasing then canvas.config.grid else .single
  clip : canvas.drawing = false →
    canvas.scanner.clip = Scanner.clipOn canvas.surface canvas.clip

/-- The grid that a configuration asks for is set as it is. -/
theorem grid_setGrid {config : Config} (built : config.Built) (scanner : Scanner)
    (antialiasing : Bool) :
    (scanner.setGrid (gridFor config antialiasing).lgX (gridFor config antialiasing).lgY).grid =
      if antialiasing then config.grid else .single := by
  cases antialiasing with
  | true => exact built.limited_grid
  | false => rfl

theorem fresh_new (surface : Surface) {config : Config} (built : config.Built) :
    (new surface config).Fresh where
  fill _ absent := nomatch absent
  stroke _ absent := nomatch absent
  text _ absent := nomatch absent
  paint := trivial
  grid := grid_setGrid built (Scanner.new surface) config.antialiasing
  clip _ := rfl

/-! ## Settings -/

/-- A change of the scanner only that keeps its settings. -/
theorem Fresh.withScanner {canvas : Canvas} (fresh : canvas.Fresh) {scanner : Scanner}
    (same : canvas.scanner.SameSettings scanner) : { canvas with scanner := scanner }.Fresh where
  fill := fresh.fill
  stroke := fresh.stroke
  text := fresh.text
  paint := by
    change scanner.paint.DrawnUnder canvas.transform
    rw [same.paint]
    exact fresh.paint
  grid := same.grid.trans fresh.grid
  clip between :=
    same.clip.trans ((fresh.clip between).trans
      (Scanner.clipOn_congr same.bounds canvas.clip).symm)

theorem Fresh.setTransform {canvas : Canvas} (fresh : canvas.Fresh) (transform : Affine) :
    (canvas.setTransform transform).Fresh where
  fill _ absent := nomatch absent
  stroke _ absent := nomatch absent
  text _ absent := nomatch absent
  paint := canvas.scanner.paint.drawnUnder_draw transform
  grid := fresh.grid
  clip := fresh.clip

theorem Fresh.setStroke {canvas : Canvas} (fresh : canvas.Fresh) (style : StrokeStyle) :
    (canvas.setStroke style).Fresh :=
  { fresh with stroke := fun _ absent => nomatch absent }

theorem Fresh.setAntialiasing {canvas : Canvas} (fresh : canvas.Fresh)
    (built : canvas.config.Built) (antialiasing : Bool) :
    (canvas.setAntialiasing antialiasing).Fresh := by
  unfold Canvas.setAntialiasing
  split
  · exact fresh
  · exact
      { fill := fun _ absent => nomatch absent
        stroke := fun _ absent => nomatch absent
        text := fun _ absent => nomatch absent
        paint := fresh.paint
        grid := grid_setGrid built canvas.scanner antialiasing
        clip := fresh.clip }

theorem Fresh.setPaint {canvas : Canvas} (fresh : canvas.Fresh) (paint : Paint) :
    (canvas.setPaint paint).Fresh :=
  { fresh with paint := paint.drawnUnder_draw canvas.transform }

/-- The chain of recorded paths is dropped if they are transformed by something else. -/
theorem Fresh.withTextExtra {canvas : Canvas} (fresh : canvas.Fresh) (extra : Option Affine) :
    (canvas.withTextExtra extra).Fresh := by
  unfold Canvas.withTextExtra
  split
  · exact fresh
  · exact { fresh with text := fun _ absent => nomatch absent }

/-! ## Chains in use -/

/-- A chain that is kept or built is the one that would be built, except for its path. -/
theorem cleared_getD {α : Type} {cleared : α → α} {kept : Option α} {built : α}
    (same : ∀ chain, kept = some chain → cleared chain = built)
    (clearedBuilt : cleared built = built) : cleared (kept.getD built) = built := by
  cases kept with
  | none => exact clearedBuilt
  | some chain => exact same chain rfl

/-- The chain that commands are sent through is built or kept, and then used. -/
theorem Fresh.send {canvas next : Canvas} (fresh : canvas.Fresh) {route : Route}
    {commands : List PathCommand} (sent : canvas.send route commands = .ok next) : next.Fresh := by
  -- Commands change what a chain knows of its path, which `cleared` leaves out.
  cases route with
  | fill =>
      obtain ⟨received, answered, updated⟩ := exists_of_bind_eq_ok sent
      cases updated
      have drawn := fresh.withScanner (.send answered)
      refine { drawn with fill := ?_ }
      rintro chain ⟨⟩
      exact (FillChain.cleared_run canvas.readyFill commands).trans
        (cleared_getD fresh.fill (FillChain.cleared_build canvas.config canvas.transform))
  | stroke =>
      obtain ⟨received, answered, updated⟩ := exists_of_bind_eq_ok sent
      cases updated
      have drawn := fresh.withScanner (.send answered)
      refine { drawn with stroke := ?_ }
      rintro chain ⟨⟩
      exact (StrokeChain.cleared_run canvas.readyStroke commands).trans
        (cleared_getD fresh.stroke
          (StrokeChain.cleared_build canvas.config canvas.transform canvas.stroke))
  | text =>
      obtain ⟨received, answered, updated⟩ := exists_of_bind_eq_ok sent
      cases updated
      have drawn := fresh.withScanner (.send answered)
      refine { drawn with text := ?_ }
      rintro chain ⟨⟩
      exact (FillChain.cleared_run canvas.readyText commands).trans
        (cleared_getD fresh.text (FillChain.cleared_build canvas.config canvas.textTransform))

/-! ## Changes -/

theorem config_send {canvas next : Canvas} {route : Route} {commands : List PathCommand}
    (sent : canvas.send route commands = .ok next) : next.config = canvas.config := by
  cases route with
  | fill | stroke | text =>
      obtain ⟨_, _, updated⟩ := exists_of_bind_eq_ok sent
      cases updated
      rfl

theorem config_change {canvas next : Canvas} (change : canvas.Change next) :
    next.config = canvas.config := by
  cases change with
  | antialiasing antialiasing =>
      unfold Canvas.setAntialiasing
      split
      · rfl
      · rfl
  | textExtra extra =>
      unfold Canvas.withTextExtra
      split
      · rfl
      · rfl
  | send _ sent => exact config_send sent
  | @finish _ _ drawn sent =>
      change drawn.config = canvas.config
      exact config_send sent
  | replay replayed =>
      obtain ⟨_, _, updated⟩ := exists_of_bind_eq_ok replayed
      cases updated
      rfl
  | _ => rfl

/-- Every elementary change leaves a fresh canvas. -/
theorem Fresh.change {canvas next : Canvas} (fresh : canvas.Fresh) (built : canvas.config.Built)
    (change : canvas.Change next) : next.Fresh := by
  cases change with
  | transform transform => exact fresh.setTransform transform
  | stroke style => exact fresh.setStroke style
  | antialiasing antialiasing => exact fresh.setAntialiasing built antialiasing
  | clip clip => exact { fresh with clip := fun _ => rfl }
  | paint paint => exact fresh.setPaint paint
  | quality quality => exact { fresh with paint := fresh.paint.setQuality quality }
  | textExtra extra => exact fresh.withTextExtra extra
  | plain rule color ramp mode subpathOpen source => exact { fresh with }
  -- A path may be clipped to less than the canvas, until it is left.
  | start region mode rule => exact { fresh with clip := fun between => nomatch between }
  | send _ sent => exact fresh.send sent
  | finish sent => exact { fresh.send sent with clip := fun _ => rfl }
  | replay replayed =>
      obtain ⟨scanner, done, updated⟩ := exists_of_bind_eq_ok replayed
      cases updated
      exact fresh.withScanner (.replay done)
  | clear x y width height =>
      exact fresh.withScanner (canvas.scanner.sameSettings_clearRect x y width height canvas.color)

/-- Every call leaves fresh what was derived, and keeps the configuration. -/
theorem Fresh.performAll {canvas next : Canvas} (fresh : canvas.Fresh)
    (built : canvas.config.Built) {calls : List Call}
    (performed : canvas.performAll calls = .ok next) :
    next.config = canvas.config ∧ next.Fresh := by
  have kept : ∀ {before after : Canvas}, (before.config = canvas.config ∧ before.Fresh) →
      before.Change after → after.config = canvas.config ∧ after.Fresh := by
    intro before after holds change
    obtain ⟨same, beforeFresh⟩ := holds
    refine ⟨(config_change change).trans same, beforeFresh.change ?_ change⟩
    rw [same]
    exact built
  have cached : ∀ {before : Canvas} (cache : Option CoverageCache),
      (before.config = canvas.config ∧ before.Fresh) →
      (before.withScanner (before.scanner.setCache cache)).config = canvas.config ∧
        (before.withScanner (before.scanner.setCache cache)).Fresh :=
    fun _ holds => ⟨holds.1, holds.2.withScanner ⟨rfl, rfl, rfl, rfl⟩⟩
  exact Changes.keep kept cached ⟨rfl, fresh⟩ (changes_performAll performed)

/-- Whatever calls are made to a new canvas, its chains, its paint, its grid and its clip box
are those that its settings ask for. -/
theorem fresh_of_performAll (surface : Surface) {config : Config} (built : config.Built)
    {calls : List Call} {canvas : Canvas}
    (reached : (new surface config).performAll calls = .ok canvas) : canvas.Fresh :=
  ((fresh_new surface built).performAll built reached).2

/-- A canvas that has filled, stroked and drawn a recorded path, with a texture set. -/
theorem fresh_of_performAll_chains :
    ∃ canvas,
      (new ⟨.gray8, 2, 2, .packed 2, #[0, 0, 0, 0]⟩ (Config.default.withGrid 1 2)).performAll
        [.setTransform (.shift 65536 0), .setClip 0 0 1 5, .fillShape ⟨⟨0, 0, 65536, 65536⟩, .rect⟩,
          .setMode .stroke, .start .nonZero, .draw [.moveTo ⟨0, 0⟩], .finish,
          .fillStore .empty (some (.shift 0 65536)), .setTexture #[0] 1 1 1 false .identity] =
        .ok canvas ∧
      (canvas.fillChain.isSome, canvas.strokeChain.isSome, canvas.textChain.isSome,
          canvas.paint.solidColor?.isNone, canvas.drawing, canvas.scanner.clip) =
        (true, true, true, true, false, ⟨0, 0, 1, 2⟩) ∧
      canvas.Fresh := by
  have state : ((new ⟨.gray8, 2, 2, .packed 2, #[0, 0, 0, 0]⟩
      (Config.default.withGrid 1 2)).performAll
        [.setTransform (.shift 65536 0), .setClip 0 0 1 5, .fillShape ⟨⟨0, 0, 65536, 65536⟩, .rect⟩,
          .setMode .stroke, .start .nonZero, .draw [.moveTo ⟨0, 0⟩], .finish,
          .fillStore .empty (some (.shift 0 65536)), .setTexture #[0] 1 1 1 false .identity]).map
        (fun canvas => (canvas.fillChain.isSome, canvas.strokeChain.isSome,
          canvas.textChain.isSome, canvas.paint.solidColor?.isNone, canvas.drawing,
          canvas.scanner.clip)) =
      .ok (true, true, true, true, false, ⟨0, 0, 1, 2⟩) := by
    decide +kernel
  obtain ⟨canvas, reached, derived⟩ := exists_of_map_eq_ok state
  exact ⟨canvas, reached, derived, fresh_of_performAll _ (.withGrid .default 1 2) reached⟩

end Canvas

end Raster
