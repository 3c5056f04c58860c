import Raster.Proofs.Coverage.Tinting
import Raster.Proofs.Paint.Tiling
import Raster.Proofs.Scan.Discarding
import Raster.Proofs.Scan.Replaying

/-!
# Paints of one color

A paint that is of one color everywhere draws what this color draws, though a flat color may
fill rectangles without scanning them and brings its alpha into the alpha table.
-/

namespace Raster

namespace Color

theorem argb_lt (color : Color) : color.argb < 4294967296 := by
  have alpha := color.alpha.toNat_lt
  have red := color.red.toNat_lt
  have green := color.green.toNat_lt
  have blue := color.blue.toNat_lt
  unfold argb Argb.pack
  omega

/-- A color is determined by its packed word. -/
theorem argb_injective {color other : Color} (same : color.argb = other.argb) :
    color = other := by
  have alpha := congrArg Argb.alpha same
  have red := congrArg Argb.red same
  have green := congrArg Argb.green same
  have blue := congrArg Argb.blue same
  rw [alpha_argb, alpha_argb] at alpha
  rw [argb, argb, Argb.red_pack color.red.toNat_lt color.green.toNat_lt color.blue.toNat_lt,
    Argb.red_pack other.red.toNat_lt other.green.toNat_lt other.blue.toNat_lt] at red
  rw [argb, argb, Argb.green_pack color.green.toNat_lt color.blue.toNat_lt,
    Argb.green_pack other.green.toNat_lt other.blue.toNat_lt] at green
  rw [argb, argb, Argb.blue_pack color.blue.toNat_lt,
    Argb.blue_pack other.blue.toNat_lt] at blue
  exact Color.ext (UInt8.toNat_inj.mp red) (UInt8.toNat_inj.mp green) (UInt8.toNat_inj.mp blue)
    (UInt8.toNat_inj.mp alpha)

end Color

theorem Grid.maxCoverage_dvd {grid : Grid} (lgX : grid.lgX ≤ maxLg) (lgY : grid.lgY ≤ maxLg) :
    grid.maxCoverage ∣ Alpha.full := by
  have columns : grid.columns ∣ Nat.pow 2 3 := Nat.pow_dvd_pow 2 lgX
  have rows : grid.rows ∣ Nat.pow 2 3 := Nat.pow_dvd_pow 2 lgY
  exact Nat.dvd_trans (Nat.mul_dvd_mul columns rows) (by decide)

namespace Paint

/-- The paint has one packed color at every pixel.  In particular it is not degenerate. -/
def Floods (paint : Paint) (argb : Nat) : Prop :=
  ∀ x y count, paint.row? x y count = some (List.replicate count argb)

theorem isDegenerate_of_row? {paint : Paint} {x y : Int} {count : Nat} {colors : List Nat}
    (row : paint.row? x y count = some colors) : paint.isDegenerate = false := by
  cases paint with
  | solid color => rfl
  | linear gradient =>
      simp only [row?, LinearGradient.row?, Option.map_eq_some_iff] at row
      obtain ⟨plane, found, _⟩ := row
      simp only [isDegenerate, LinearGradient.isDegenerate, found, Option.isNone_some]
  | radial gradient =>
      simp only [row?, RadialGradient.row?, Option.map_eq_some_iff] at row
      obtain ⟨setup, found, _⟩ := row
      simp only [isDegenerate, RadialGradient.isDegenerate, found, Option.isNone_some]
  | image texture =>
      obtain ⟨inverse, found, _⟩ := Option.bind_eq_some_iff.mp row
      simp only [isDegenerate, Texture.isDegenerate, found, Option.isNone_some]

theorem Floods.isDegenerate {paint : Paint} {argb : Nat} (floods : paint.Floods argb) :
    paint.isDegenerate = false :=
  isDegenerate_of_row? (floods 0 0 0)

/-- A flat color that floods is the color that floods. -/
theorem Floods.eq_of_solidColor? {paint : Paint} {color other : Color}
    (floods : paint.Floods color.argb) (solid : paint.solidColor? = some other) :
    paint = .solid color := by
  cases paint with
  | solid flat =>
      have one := Option.some.inj (floods 0 0 1)
      rw [Color.argb_injective (List.cons.inj one).1]
  | linear gradient => cases solid
  | radial gradient => cases solid
  | image texture => cases solid

/-- A repeating texture of one texel floods, if its space has an inverse. -/
theorem floods_of_tiles {texture : Texture} {color : Color} (tiles : texture.Tiles color.argb)
    (sound : texture.isDegenerate = false) : (image texture).Floods color.argb :=
  tiles.row?_eq color.argb_lt sound

end Paint

namespace Scanner

variable {paint : Paint} {color : Color}

/-! ## Rows -/

theorem Floods.rowSource_eq (floods : paint.Floods color.argb)
    (textured : paint.solidColor? = none) (x y : Int) (count : Nat) :
    paint.rowSource x y count = .ok (.perPixel (List.replicate count color.argb)) := by
  simp only [Paint.rowSource, textured, floods x y count]

/-- Rows are drawn on the same surface in the color and in the paint. -/
theorem tints_setPaint (textured : paint.solidColor? = none) {maxCoverage : Nat}
    (divides : maxCoverage ∣ Alpha.full) (scanner : Scanner) (count : Nat) :
    ((scanner.setPaint (.solid color)).target ((scanner.setPaint (.solid color)).alphas
      maxCoverage) (.flat color.argb)).Tints
        ((scanner.setPaint paint).target ((scanner.setPaint paint).alphas maxCoverage)
          (.perPixel (List.replicate count color.argb))) color.argb count := by
  have paintTable : (scanner.setPaint paint).alphas maxCoverage = Alpha.table maxCoverage 255 := by
    rw [alphas_eq]
    simp only [sourceAlpha, setPaint, textured]
  constructor
  · rfl
  · rfl
  · rfl
  · rfl
  · intro coverage
    simp only [target, paintTable, alphas_eq, color.alpha_argb]
    exact Alpha.lookup_table_eq_modulate divides color.alpha.toNat coverage

/-- A row of coverage touches the same in the color and in the paint. -/
theorem rowTouches_setPaint (floods : paint.Floods color.argb)
    (textured : paint.solidColor? = none) {maxCoverage : Nat} (divides : maxCoverage ∣ Alpha.full)
    (scanner : Scanner) :
    (scanner.setPaint paint).rowTouches ((scanner.setPaint paint).alphas maxCoverage) =
      (scanner.setPaint (.solid color)).rowTouches
        ((scanner.setPaint (.solid color)).alphas maxCoverage) := by
  funext row
  have colored : (scanner.setPaint paint).paint.rowSource row.x row.y row.values.length = _ :=
    Floods.rowSource_eq floods textured row.x row.y row.values.length
  rw [rowTouches, rowTouches, touchesOver, touchesOver, colored]
  exact (CoverageRow.touches_of_tints
    (tints_setPaint textured divides scanner row.values.length)).symm

/-- A row of runs has the same effect in the color and in the paint. -/
theorem effect_runTouches_setPaint (floods : paint.Floods color.argb)
    (textured : paint.solidColor? = none) {maxCoverage : Nat} (divides : maxCoverage ∣ Alpha.full)
    (scanner : Scanner) (row : RunRow) :
    ((scanner.setPaint paint).runTouches ((scanner.setPaint paint).alphas maxCoverage) row).map
        RunRow.effect =
      ((scanner.setPaint (.solid color)).runTouches
        ((scanner.setPaint (.solid color)).alphas maxCoverage) row).map RunRow.effect := by
  have colored : (scanner.setPaint paint).paint.rowSource row.x row.y (RunRow.count row.runs) =
      _ := Floods.rowSource_eq floods textured row.x row.y (RunRow.count row.runs)
  rw [runTouches, runTouches, touchesOver, touchesOver, colored]
  exact (RunRow.effect_touches
    (tints_setPaint textured divides scanner (RunRow.count row.runs))).symm

/-! ## Paths -/

theorem Probes.setPaint {scanner : Scanner} (probes : scanner.Probes) (paint : Paint) :
    (scanner.setPaint paint).Probes :=
  ⟨probes.fresh, probes.vertices⟩

theorem closeSubpath_setPaint (scanner : Scanner) (paint : Paint) :
    (scanner.setPaint paint).closeSubpath = scanner.closeSubpath.setPaint paint := by
  rw [closeSubpath_eq, closeSubpath_eq]
  rfl

/-- Without a cache a path is rasterized the same in the color and in the paint. -/
theorem map_bare_rasterize_setPaint {scanner : Scanner} (ready : scanner.Ready)
    (detached : scanner.cache = none) (floods : paint.Floods color.argb)
    (textured : paint.solidColor? = none) :
    (scanner.setPaint paint).rasterize.map bare =
      ((scanner.setPaint (.solid color)).rasterize.map bare).map (·.setPaint paint) := by
  have divides := Grid.maxCoverage_dvd ready.lgX_le ready.lgY_le
  have painted : (scanner.setPaint paint).paint.isDegenerate = false := floods.isDegenerate
  have colored : (scanner.setPaint (.solid color)).paint.isDegenerate = false := rfl
  have noCache : ∀ other, (scanner.setPaint other).cache = none := fun _ => detached
  rw [map_bare_rasterize (noCache paint) painted,
    map_bare_rasterize (noCache (.solid color)) colored]
  change (scanner.coverageRows.mapM ((scanner.setPaint paint).rowTouches
    ((scanner.setPaint paint).alphas scanner.grid.maxCoverage))).map _ =
      ((scanner.coverageRows.mapM ((scanner.setPaint (.solid color)).rowTouches
        ((scanner.setPaint (.solid color)).alphas scanner.grid.maxCoverage))).map _).map _
  rw [rowTouches_setPaint floods textured divides]
  cases scanner.coverageRows.mapM ((scanner.setPaint (.solid color)).rowTouches
    ((scanner.setPaint (.solid color)).alphas scanner.grid.maxCoverage)) <;> rfl

/-- The end of a path is the same in the color and in the paint, whether the path is a
rectangle that the color fills, is scanned, or is recorded. -/
theorem map_bare_finish_setPaint {scanner : Scanner} (ready : scanner.Ready)
    (probes : scanner.Probes) (floods : paint.Floods color.argb)
    (textured : paint.solidColor? = none) :
    (scanner.setPaint paint).finish.map bare =
      ((scanner.setPaint (.solid color)).finish.map bare).map (·.setPaint paint) := by
  obtain ⟨edges, closed⟩ := scanner.exists_closeSubpath_eq
  cases attached : scanner.cache with
  | some cache =>
      have kept : ∀ other, (scanner.setPaint other).closeSubpath.cache = some cache := by
        intro other
        rw [closeSubpath_setPaint, closed]
        exact attached
      obtain ⟨_, painted⟩ := exists_finish_of_cache (kept paint)
      obtain ⟨_, colored⟩ := exists_finish_of_cache (kept (.solid color))
      rw [painted, colored]
      simp only [closeSubpath_setPaint]
      rfl
  | none =>
      have closedReady : scanner.closeSubpath.Ready := by
        rw [closed]
        exact ⟨ready.lgX_le, ready.lgY_le, ready.clip⟩
      have noCache : scanner.closeSubpath.cache = none := by
        rw [closed]
        exact attached
      rw [(probes.setPaint paint).map_bare_finish (ready.setPaint paint) attached,
        (probes.setPaint (.solid color)).map_bare_finish (ready.setPaint _) attached,
        closeSubpath_setPaint, closeSubpath_setPaint,
        map_bare_rasterize_setPaint closedReady noCache floods textured]
      cases (scanner.closeSubpath.setPaint (.solid color)).rasterize <;> rfl

theorem map_bare_step_setPaint {scanner : Scanner} (ready : scanner.Ready)
    (probes : scanner.Probes) (floods : paint.Floods color.argb)
    (textured : paint.solidColor? = none) (command : LineCommand) :
    ((scanner.setPaint paint).step command).map bare =
      (((scanner.setPaint (.solid color)).step command).map bare).map (·.setPaint paint) := by
  by_cases unfinished : command = .finish
  · subst unfinished
    exact map_bare_finish_setPaint ready probes floods textured
  · have same : (scanner.setPaint paint).SamePath (scanner.setPaint (.solid color)) :=
      ⟨rfl, rfl, rfl, rfl, rfl⟩
    obtain ⟨edges, subpath, probe, painted, colored⟩ := same.step unfinished
    rw [painted, colored]
    rfl

/-- Answering commands is the same in the color and in the paint. -/
theorem map_bare_send_setPaint {scanner : Scanner} (ready : scanner.Ready)
    (probes : scanner.Probes) (floods : paint.Floods color.argb)
    (textured : paint.solidColor? = none) (commands : List LineCommand) :
    ((scanner.setPaint paint).send commands).map bare =
      (((scanner.setPaint (.solid color)).send commands).map bare).map (·.setPaint paint) := by
  induction commands generalizing scanner with
  | nil => rfl
  | cons command rest inductionHypothesis =>
      have here := map_bare_step_setPaint ready probes floods textured command
      rw [send, List.foldlM_cons, send, List.foldlM_cons]
      cases stepped : (scanner.setPaint (.solid color)).step command with
      | error fault =>
          rw [stepped] at here
          rw [eq_error_of_map_eq_error here]
          rfl
      | ok next =>
          have nextReady := (ready.setPaint (.solid color)).step stepped
          have nextProbes := (probes.setPaint (.solid color)).step stepped
          have sameColor : next.setPaint (.solid color) = next := by
            have kept : next.paint = .solid color := by
              obtain ⟨_, _, _, _, _, _, _, rfl, _⟩ := exists_of_step stepped
              rfl
            rw [setPaint, ← kept]
          have later := inductionHypothesis nextReady nextProbes
          rw [stepped] at here
          obtain ⟨painted, steppedPaint, same⟩ := exists_of_map_eq_ok here
          rw [sameColor] at later
          rw [steppedPaint]
          have alike : painted.bare = (next.setPaint paint).bare := same
          exact (map_bare_send_congr alike rest).trans later

/-! ## Recorded paths -/

/-- A replay is the same in the color and in the paint. -/
theorem map_bare_replay_setPaint (floods : paint.Floods color.argb)
    (textured : paint.solidColor? = none) {cache : CoverageCache}
    (divides : cache.maxCoverage ∣ Alpha.full) (scanner : Scanner) :
    ((scanner.setPaint paint).replay cache).map bare =
      (((scanner.setPaint (.solid color)).replay cache).map bare).map (·.setPaint paint) := by
  have sound : (scanner.setPaint paint).paint.isDegenerate = false := floods.isDegenerate
  have colorSound : (scanner.setPaint (.solid color)).paint.isDegenerate = false := rfl
  cases valid : cache.isValid with
  | false =>
      rw [replay_of_isDegenerate (.inl valid), replay_of_isDegenerate (.inl valid)]
      rfl
  | true =>
      rw [map_bare_replay valid sound, map_bare_replay valid colorSound]
      have effects := @RunRow.effect_mapM RunRow _ _ cache.rows fun row _ =>
        effect_runTouches_setPaint floods textured divides scanner row
      revert effects
      cases cache.rows.mapM ((scanner.setPaint (.solid color)).runTouches
          ((scanner.setPaint (.solid color)).alphas cache.maxCoverage)) with
      | error fault =>
          intro same
          rw [eq_error_of_map_eq_error (eq_error_of_map_eq_error same)]
          rfl
      | ok touched =>
          intro same
          obtain ⟨flattened, flattens, sameEffect⟩ := exists_of_map_eq_ok same
          obtain ⟨painted, answered, rfl⟩ := exists_of_map_eq_ok flattens
          have drawn : scanner.surface.draw painted.flatten = scanner.surface.draw touched.flatten :=
            congrFun sameEffect scanner.surface
          rw [answered]
          exact congrArg (fun surface => Except.ok
            { scanner.setPaint paint with
              surface := surface
              boundingBox := cache.boundingBox : Scanner }.bare) drawn

/-- What a scanner with a cache has recorded at the end of a path counts the samples of its
grid. -/
theorem Ready.maxCoverage_dvd_of_recorded {recorder recorded : Scanner} {kept : CoverageCache}
    {commands : List LineCommand} (ready : recorder.Ready)
    (attached : recorder.cache.isSome = true)
    (sent : recorder.send (commands ++ [.finish]) = .ok recorded)
    (recordedCache : recorded.cache = some kept) : kept.maxCoverage ∣ Alpha.full := by
  obtain ⟨received, receivedSent, _⟩ := exists_of_bind_eq_ok ((send_append _ _ _).symm.trans sent)
  rw [send_finish receivedSent] at sent
  obtain ⟨cache, receivedCache⟩ :=
    Option.isSome_iff_exists.mp ((isSome_cache_of_send receivedSent).trans attached)
  obtain ⟨edges, closed⟩ := received.exists_closeSubpath_eq
  have closedCache : received.closeSubpath.cache = some cache := by
    rw [closed]
    exact receivedCache
  obtain ⟨scratch, finished⟩ := exists_finish_of_cache closedCache
  obtain rfl := Except.ok.inj (finished.symm.trans sent)
  obtain rfl := Option.some.inj recordedCache
  have receivedReady := ready.send receivedSent
  rw [record, CoverageCache.maxCoverage_record, closed]
  exact Grid.maxCoverage_dvd receivedReady.lgX_le receivedReady.lgY_le

/-! ## The color and the paint -/

theorem map_setPaint_of_paint_eq {result : Except Fault Scanner}
    (kept : ∀ drawn, result = .ok drawn → drawn.paint = paint) :
    (result.map bare).map (·.setPaint paint) = result.map bare := by
  cases result with
  | error fault => rfl
  | ok drawn =>
      rw [← kept drawn rfl]
      rfl

/-- A paint that is of one color at every pixel draws what this flat color draws, without
and with a cache attached to the scanner, and replays what the color replays from the record
of any path: surface and bounding box are the same, and so are faults, and only the paint and
what is kept for later drawings differ.  The two alpha tables differ by the alpha of the color
only.  A repeating texture of one texel is such a paint,
whatever its transformations and its quality, unless it is degenerate. -/
theorem flooding_paint_draws_as_color (floods : paint.Floods color.argb) {scanner : Scanner}
    (ready : scanner.Ready) (idle : scanner.Idle) :
    (∀ commands, ((scanner.setPaint paint).send commands).map bare =
      (((scanner.setPaint (.solid color)).send commands).map bare).map (·.setPaint paint)) ∧
    (∀ {recorder recorded player : Scanner} {commands : List LineCommand}
      {kept : CoverageCache}, recorder.Ready → recorder.cache.isSome = true →
        recorder.send (commands ++ [.finish]) = .ok recorded → recorded.cache = some kept →
          ((player.setPaint paint).replay kept).map bare =
            (((player.setPaint (.solid color)).replay kept).map bare).map (·.setPaint paint)) ∧
    (∀ exponent ≤ 6, ∀ sourceAlpha coverage : Nat,
      (Alpha.table (Nat.pow 2 exponent) sourceAlpha)[coverage]? =
        (Alpha.table (Nat.pow 2 exponent) 255)[coverage]?.map (Alpha.modulate · sourceAlpha)) ∧
    (∀ {data : Array Nat} {stride : Nat} {toUser drawing : Affine} {quality : Int}
      {texture : Texture}, Texture.new? data 1 1 stride true toUser = .ok (.ok texture) →
        data.getD 0 0 = color.argb →
          ((texture.draw drawing).setQuality quality).isDegenerate = false →
            (Paint.image ((texture.draw drawing).setQuality quality)).Floods color.argb) := by
  refine ⟨?_, ?_, ?_, ?_⟩
  · intro commands
    cases solid : paint.solidColor? with
    | none => exact map_bare_send_setPaint ready idle.probes floods solid commands
    | some other =>
        rw [floods.eq_of_solidColor? solid]
        symm
        apply map_setPaint_of_paint_eq
        intro drawn sent
        exact paint_of_send sent
  · intro recorder recorded player commands kept recorderReady attached sent recordedCache
    have divides := recorderReady.maxCoverage_dvd_of_recorded attached sent recordedCache
    cases solid : paint.solidColor? with
    | none => exact map_bare_replay_setPaint floods solid divides player
    | some other =>
        rw [floods.eq_of_solidColor? solid]
        symm
        apply map_setPaint_of_paint_eq
        intro drawn replayed
        obtain ⟨touches, box, scratch, rfl⟩ := exists_of_replay replayed
        rfl
  · intro exponent atMost sourceAlpha coverage
    have divides : Nat.pow 2 exponent ∣ Alpha.full :=
      Nat.dvd_trans (Nat.pow_dvd_pow 2 atMost) (by decide)
    exact Alpha.getElem?_table_eq_modulate divides sourceAlpha coverage
  · intro data stride toUser drawing quality texture built texel sound
    have tiles := Texture.tiles_of_new? built
    rw [texel] at tiles
    exact Paint.floods_of_tiles ((tiles.draw drawing).setQuality quality) sound

/-- A texture of one translucent texel, drawn over a triangle on a surface with a gap after
its first row. -/
theorem flooding_paint_draws_as_color_triangle :
    let scanner := Scanner.new ⟨.argb8888, 2, 2, ⟨0, 3, 1⟩, #[7, 8, 9, 10, 11]⟩
    let color : Color := ⟨255, 0, 0, 129⟩
    let commands : List LineCommand :=
      [.moveTo ⟨0, 0⟩, .lineTo ⟨131072, 65536⟩, .lineTo ⟨40000, 131072⟩, .finish]
    ∃ texture, Texture.new? #[color.argb] 1 1 1 true .identity = .ok (.ok texture) ∧
      (Paint.image texture).Floods color.argb ∧ scanner.Ready ∧ scanner.Idle ∧
        ∃ drawn, (scanner.setPaint (.image texture)).send commands = .ok drawn ∧
          drawn.surface.elements = #[1325268992, 536739840, 9, 1056833536, 788398080] := by
  obtain ⟨texture, built, sound⟩ : ∃ texture,
      Texture.new? #[Color.argb ⟨255, 0, 0, 129⟩] 1 1 1 true .identity = .ok (.ok texture) ∧
        texture.isDegenerate = false :=
    ⟨_, rfl, by decide +kernel⟩
  have floods : (Paint.image texture).Floods (Color.argb ⟨255, 0, 0, 129⟩) :=
    Paint.floods_of_tiles (Texture.tiles_of_new? built) sound
  have ready := ready_new ⟨.argb8888, 2, 2, ⟨0, 3, 1⟩, #[7, 8, 9, 10, 11]⟩
  have idle := idle_new ⟨.argb8888, 2, 2, ⟨0, 3, 1⟩, #[7, 8, 9, 10, 11]⟩
  obtain ⟨same, _⟩ := flooding_paint_draws_as_color floods ready idle
  have draws : (((Scanner.new ⟨.argb8888, 2, 2, ⟨0, 3, 1⟩, #[7, 8, 9, 10, 11]⟩).setPaint
      (.solid ⟨255, 0, 0, 129⟩)).send
        [.moveTo ⟨0, 0⟩, .lineTo ⟨131072, 65536⟩, .lineTo ⟨40000, 131072⟩, .finish]).map
          (·.surface.elements) = .ok #[1325268992, 536739840, 9, 1056833536, 788398080] := by
    decide +kernel
  obtain ⟨colored, sent, elements⟩ := exists_of_map_eq_ok draws
  have drawsSame := same [.moveTo ⟨0, 0⟩, .lineTo ⟨131072, 65536⟩, .lineTo ⟨40000, 131072⟩, .finish]
  rw [sent] at drawsSame
  obtain ⟨drawn, drew, alike⟩ := exists_of_map_eq_ok drawsSame
  refine ⟨texture, built, floods, ready, idle, drawn, drew, ?_⟩
  exact (congrArg (fun scanner => scanner.surface.elements) alike :).trans elements

end Scanner

end Raster
