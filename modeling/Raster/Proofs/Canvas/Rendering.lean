import Raster.Proofs.Canvas.Whole

/-!
# Rendering with a cache

A canvas that renders path data with an invalid cache records one whole path, and the record
is replayed like the path.  A valid cache is rendered like the path that it records, whatever
path data comes with it.
-/

namespace Raster

namespace Scanner

theorem clipOn_congr {surface other : Surface} (size : surface.bounds = other.bounds)
    (clip : Option PixelBox) : clipOn surface clip = clipOn other clip := by
  cases clip with
  | none => exact size
  | some box => simp only [clipOn, size]

/-- A path that begins in a clip box is ready for the surface, whatever was before. -/
theorem ready_begun {scanner : Scanner} (lgX : scanner.grid.lgX ≤ Grid.maxLg)
    (lgY : scanner.grid.lgY ≤ Grid.maxLg) (clip : Option PixelBox) (rule : WindingRule) :
    (scanner.begun clip rule).Ready :=
  ⟨lgX, lgY, holds_clipOn scanner.surface clip⟩

/-- A line leads on from the current point, and its end is a vertex of what may be a rectangle. -/
theorem exists_lineTo_eq (scanner : Scanner) (edges : Array Edge) (start current next : Point)
    {vertices : List Point} (room : vertices.length < RectProbe.maxVertices) :
    ∃ more, (scanner.withPath edges (some ⟨start, current⟩) ⟨some vertices⟩).lineTo next =
      scanner.withPath more (some ⟨start, next⟩) ⟨some (vertices ++ [next])⟩ := by
  simp only [lineTo, addEdge_eq, withPath, RectProbe.push, room, if_true]
  exact ⟨_, rfl⟩

/-- Between paths, a path through the corners of a rectangle is filled without a fault, wherever the
corners are. -/
theorem Idle.exists_send_rect {scanner : Scanner} (idle : scanner.Idle)
    (detached : scanner.cache = none) {color : Color} (solid : scanner.paint = .solid color)
    {a b c d : Point} {rect : Rect} (isRect : RectProbe.rectOf? a b c d = some rect) :
    ∃ drawn, scanner.send [.moveTo a, .lineJoin, .lineTo b, .lineJoin, .lineTo c, .lineJoin,
      .lineTo d, .lineJoin, .close, .finish] = .ok drawn := by
  have started : scanner.moveTo a = scanner.withPath #[] (some ⟨a, a⟩) ⟨some [a]⟩ := by
    simp only [moveTo, closeSubpath, idle.subpath, idle.edges, idle.probe]
    rfl
  obtain ⟨toB, lineB⟩ := scanner.exists_lineTo_eq #[] a a b (by simp : [a].length < 5)
  obtain ⟨toC, lineC⟩ := scanner.exists_lineTo_eq toB a b c (by simp : [a, b].length < 5)
  obtain ⟨toD, lineD⟩ := scanner.exists_lineTo_eq toC a c d (by simp : [a, b, c].length < 5)
  obtain ⟨edges, probe, back, found⟩ : ∃ edges probe,
      (scanner.withPath toD (some ⟨a, d⟩) ⟨some [a, b, c, d]⟩).close =
        scanner.withPath edges (some ⟨a, a⟩) probe ∧ probe.rect? = some rect := by
    by_cases same : d = a
    · subst same
      exact ⟨toD, _, if_pos rfl, isRect⟩
    · refine ⟨toD ++ (Edge.ofSegment? scanner.grid scanner.clip d a).toArray,
        ⟨some [a, b, c, d, a]⟩, ?_, (if_pos rfl).trans isRect⟩
      simp only [close, withPath, same, if_false, addEdge_eq]
      rfl
  have received : scanner.send [.moveTo a, .lineJoin, .lineTo b, .lineJoin, .lineTo c, .lineJoin,
      .lineTo d, .lineJoin, .close] = .ok (scanner.withPath edges (some ⟨a, a⟩) probe) := by
    change Except.ok ((((scanner.moveTo a).lineTo b).lineTo c).lineTo d).close = _
    rw [started, lineB]
    change Except.ok
      (((scanner.withPath toB (some ⟨a, b⟩) ⟨some [a, b]⟩).lineTo c).lineTo d).close = _
    rw [lineC]
    change Except.ok ((scanner.withPath toC (some ⟨a, c⟩) ⟨some [a, b, c]⟩).lineTo d).close = _
    rw [lineD]
    exact congrArg Except.ok back
  have filled : (scanner.withPath edges (some ⟨a, a⟩) probe).closeSubpath.filledRect? =
      some (rect, color) := by
    simp only [closeSubpath, withPath, if_true, filledRect?, detached, solid, found]
    rfl
  obtain ⟨drawn, done⟩ :=
    (scanner.withPath edges (some ⟨a, a⟩) probe).closeSubpath.exists_fillRect rect color
  have whole := send_finish received
  simp only [finish, filled, done] at whole
  exact ⟨drawn.reset, whole⟩

end Scanner

namespace Canvas

/-- The canvas with another surface and another paint. -/
def onto (canvas : Canvas) (surface : Surface) (paint : Paint) : Canvas :=
  canvas.withScanner { canvas.scanner with surface := surface, paint := paint }

/-- Every canvas on the surface and with the paint of the first one renders the cache as the
first one has rendered something to become the second one. -/
def Renders (cache : CoverageCache) (canvas drawn : Canvas) : Prop :=
  ∀ player : Canvas, player.surface = canvas.surface → player.paint = canvas.paint →
    ∀ codes coordinates rule, ∃ rendered,
      player.renderPath codes coordinates rule (some cache) = .ok (rendered, some cache) ∧
        rendered.surface = drawn.surface ∧
        (canvas.paint.isDegenerate = false → rendered.boundingBox = drawn.boundingBox)

/-- A canvas replays a cache as its scanner does. -/
theorem exists_replay {cache : CoverageCache} {scanner received : Scanner}
    (replays : Scanner.Replays cache scanner received) {player : Canvas}
    (surface : player.surface = scanner.surface) (paint : player.paint = scanner.paint) :
    ∃ replayed, player.replay cache = .ok (player.withScanner replayed) ∧
      replayed.surface = received.surface ∧
      (scanner.paint.isDegenerate = false → replayed.boundingBox = received.boundingBox) := by
  obtain ⟨replayed, done, replayedSurface, replayedBox⟩ := replays player.scanner surface paint
  refine ⟨replayed, ?_, replayedSurface, replayedBox⟩
  rw [replay, done]
  rfl

theorem renders_of_replays {cache : CoverageCache} (valid : cache.isValid = true)
    {canvas drawn : Canvas} {scanner received : Scanner}
    (surface : canvas.surface = scanner.surface) (paint : canvas.paint = scanner.paint)
    (drawnSurface : drawn.surface = received.surface)
    (drawnBox : drawn.boundingBox = received.boundingBox)
    (replays : Scanner.Replays cache scanner received) : Renders cache canvas drawn := by
  intro player sameSurface samePaint codes coordinates rule
  have fillingSurface : (player.setMode .fill).surface = scanner.surface :=
    sameSurface.trans surface
  have fillingPaint : (player.setMode .fill).paint = scanner.paint := samePaint.trans paint
  obtain ⟨replayed, done, replayedSurface, replayedBox⟩ :=
    exists_replay replays fillingSurface fillingPaint
  refine ⟨((player.setMode .fill).withScanner replayed).setMode player.mode, ?_, ?_, ?_⟩
  · rw [renderPath_of_isValid player codes coordinates rule valid, done]
    rfl
  · exact replayedSurface.trans drawnSurface.symm
  · intro sound
    rw [paint] at sound
    exact (replayedBox sound).trans drawnBox.symm

section RecordedData

variable {canvas : Canvas} {codes : List Nat} {coordinates : List Float32} {rule : WindingRule}
  {lines : List LineCommand} {chain : Option FillChain}

/-- Rendering without a cache draws one whole path. -/
theorem exists_of_renderPath_none
    (fills : ∀ scanner, ((canvas.setMode .fill).withScanner scanner).fillData codes coordinates
      rule = ((scanner.begun canvas.clip rule).send (lines ++ [.finish])).map
        ((canvas.setMode .fill).afterPath chain))
    {scanner : Scanner} {drawn : Canvas} {kept : Option CoverageCache}
    (rendered : (canvas.withScanner scanner).renderPath codes coordinates rule none =
      .ok (drawn, kept)) :
    ∃ received, (scanner.begun canvas.clip rule).send (lines ++ [.finish]) = .ok received ∧
      drawn.surface = received.surface ∧ drawn.boundingBox = received.boundingBox := by
  rw [renderPath_none] at rendered
  obtain ⟨filled, answered, updated⟩ := exists_of_map_eq_ok rendered
  cases updated
  obtain ⟨received, sent, rfl⟩ := exists_of_map_eq_ok ((fills scanner).symm.trans answered)
  exact ⟨received, sent, rfl, rfl⟩

/-- Recording path data draws nothing.  What is recorded replays the path that the data is. -/
theorem exists_recordData
    (fills : ∀ scanner, ((canvas.setMode .fill).withScanner scanner).fillData codes coordinates
      rule = ((scanner.begun canvas.clip rule).send (lines ++ [.finish])).map
        ((canvas.setMode .fill).afterPath chain))
    (unfinished : .finish ∉ lines) (idle : canvas.scanner.Idle) (cache : CoverageCache) :
    ∃ recorded kept,
      (canvas.setMode .fill).recordData codes coordinates rule cache = .ok (recorded, kept) ∧
        recorded.surface = canvas.surface ∧ recorded.paint = canvas.paint ∧
        kept.isValid = true ∧
        ∀ direct drawn : Scanner, direct.Ready → direct.Idle → direct.cache = none →
          direct.frame = (canvas.scanner.begun canvas.clip rule).frame →
          direct.send (lines ++ [.finish]) = .ok drawn → Scanner.Replays kept direct drawn := by
  obtain ⟨attached, attachedEq⟩ :
      ∃ attached : Scanner, { canvas.scanner with cache := some cache } = attached := ⟨_, rfl⟩
  have recorderIdle : (attached.begun canvas.clip rule).Idle := by
    subst attachedEq
    exact ⟨idle.edges, idle.subpath, idle.probe⟩
  have recorderCache : (attached.begun canvas.clip rule).cache = some cache := by
    subst attachedEq
    rfl
  obtain ⟨received, kept, sent, same, stored, valid, replays⟩ :=
    recorderIdle.exists_recorded recorderCache unfinished
  have paint := Scanner.paint_of_send sent
  have filled := fills attached
  rw [sent] at filled
  refine ⟨((canvas.setMode .fill).afterPath chain received).withScanner
    { received.setClip canvas.clip with cache := none }, kept, ?_, ?_, ?_, valid, ?_⟩
  · subst attachedEq
    change (do
      let recorded ← ((canvas.setMode .fill).withScanner
        { canvas.scanner with cache := some cache }).fillData codes coordinates rule
      pure _) = _
    rw [filled]
    have keptCache : ((canvas.setMode .fill).afterPath chain received).scanner.cache = some kept :=
      stored
    change Except.ok (_, ((canvas.setMode .fill).afterPath chain received).scanner.cache.getD
      cache) = _
    rw [keptCache]
    rfl
  · subst attachedEq
    exact same
  · subst attachedEq
    exact paint
  · subst attachedEq
    exact replays

end RecordedData

/-- Between paths, rendering with an invalid cache draws what rendering without one draws, and
the valid cache that comes back renders the path on every surface of the same size and with
every paint. -/
theorem Sound.exists_renderPath {canvas drawn : Canvas} (sound : canvas.Sound)
    (between : canvas.drawing = false) {codes : List Nat} {coordinates : List Float32}
    {rule : WindingRule} {none' : Option CoverageCache}
    (direct : canvas.renderPath codes coordinates rule none = .ok (drawn, none'))
    {cache : CoverageCache} (invalid : cache.isValid = false) :
    ∃ rendered kept,
      canvas.renderPath codes coordinates rule (some cache) = .ok (rendered, some kept) ∧
        kept.isValid = true ∧ rendered.surface = drawn.surface ∧
        (canvas.paint.isDegenerate = false → rendered.boundingBox = drawn.boundingBox) ∧
        ∀ surface paint drawn' none', surface.bounds = canvas.surface.bounds →
          (canvas.onto surface paint).renderPath codes coordinates rule none =
            .ok (drawn', none') →
          Renders kept (canvas.onto surface paint) drawn' := by
  have idle := sound.idle between
  obtain ⟨lines, chain, unfinished, fills⟩ :=
    @exists_lines_fillData (canvas.setMode .fill) rfl codes coordinates rule
  obtain ⟨recorded, kept, recording, sameSurface, samePaint, valid, replays⟩ :=
    exists_recordData fills unfinished idle cache
  have direct' : ∀ surface paint drawn' none', surface.bounds = canvas.surface.bounds →
      (canvas.onto surface paint).renderPath codes coordinates rule none = .ok (drawn', none') →
      ∃ received, Scanner.Replays kept (canvas.onto surface paint).scanner received ∧
        drawn'.surface = received.surface ∧ drawn'.boundingBox = received.boundingBox := by
    intro surface paint drawn' none' size answered
    obtain ⟨received, sent, drawnSurface, drawnBox⟩ := exists_of_renderPath_none fills answered
    have sameFrame : ((canvas.onto surface paint).scanner.begun canvas.clip rule).frame =
        (canvas.scanner.begun canvas.clip rule).frame := by
      have sameClip := Scanner.clipOn_congr size canvas.clip
      simp only [Scanner.frame, Scanner.begun, Scanner.setClip, onto, withScanner, sameClip]
      rfl
    have ready : ((canvas.onto surface paint).scanner.begun canvas.clip rule).Ready :=
      @Scanner.ready_begun (canvas.onto surface paint).scanner sound.steady.ready.lgX_le
        sound.steady.ready.lgY_le _ _
    have directIdle : ((canvas.onto surface paint).scanner.begun canvas.clip rule).Idle :=
      ⟨idle.edges, idle.subpath, idle.probe⟩
    have replaysBegun := replays ((canvas.onto surface paint).scanner.begun canvas.clip rule)
      received ready directIdle sound.steady.detached sameFrame sent
    exact ⟨received, replaysBegun, drawnSurface, drawnBox⟩
  obtain ⟨received, replaysSame, drawnSurface, drawnBox⟩ :=
    direct' canvas.surface canvas.paint drawn none' rfl direct
  obtain ⟨replayed, done, replayedSurface, replayedBox⟩ :=
    exists_replay replaysSame sameSurface samePaint
  refine ⟨(recorded.withScanner replayed).setMode canvas.mode, kept, ?_, valid, ?_, ?_, ?_⟩
  · rw [renderPath_of_invalid canvas codes coordinates rule invalid, recording]
    change (recorded.replay kept).map _ = _
    rw [done]
    rfl
  · exact replayedSurface.trans drawnSurface.symm
  · intro sound
    exact (replayedBox sound).trans drawnBox.symm
  · intro surface paint drawn' none' size answered
    obtain ⟨received', replays', drawnSurface', drawnBox'⟩ :=
      direct' surface paint drawn' none' size answered
    exact renders_of_replays valid rfl rfl drawnSurface' drawnBox' replays'

/-- A scanner with a cache records every path without drawing, and its record is replayed like
the path is drawn directly for the same samples, on every surface and under every paint.
A canvas between paths that renders path data with an invalid cache draws what it draws
without one, and the valid cache that it keeps is rendered, with whatever path data, like the
recorded data on every surface of the same size and under every paint. -/
theorem cached_rendering_agrees :
    (∀ (recorder : Scanner) (cache : CoverageCache) (commands : List LineCommand),
      recorder.Idle → recorder.cache = some cache → .finish ∉ commands →
      ∃ recorded kept, recorder.send (commands ++ [.finish]) = .ok recorded ∧
        recorded.surface = recorder.surface ∧ recorded.cache = some kept ∧
        kept.isValid = true ∧
        ∀ direct drawn : Scanner, direct.Ready → direct.Idle → direct.cache = none →
          direct.frame = recorder.frame → direct.send (commands ++ [.finish]) = .ok drawn →
          Scanner.Replays kept direct drawn) ∧
    (∀ (canvas drawn : Canvas) (codes : List Nat) (coordinates : List Float32)
      (rule : WindingRule) (cache : CoverageCache),
      canvas.Reachable → canvas.drawing = false →
      canvas.renderPath codes coordinates rule none = .ok (drawn, none) →
      cache.isValid = false →
      ∃ rendered kept,
        canvas.renderPath codes coordinates rule (some cache) = .ok (rendered, some kept) ∧
          kept.isValid = true ∧ rendered.surface = drawn.surface ∧
          (canvas.paint.isDegenerate = false → rendered.boundingBox = drawn.boundingBox) ∧
          ∀ surface paint drawn', surface.bounds = canvas.surface.bounds →
            (canvas.onto surface paint).renderPath codes coordinates rule none =
              .ok (drawn', none) →
            Renders kept (canvas.onto surface paint) drawn') := by
  constructor
  · intro recorder cache commands idle attached unfinished
    exact idle.exists_recorded attached unfinished
  · intro canvas drawn codes coordinates rule cache reachable between direct invalid
    obtain ⟨rendered, kept, answered, valid, surface, box, renders⟩ :=
      reachable.sound.exists_renderPath between direct invalid
    refine ⟨rendered, kept, answered, valid, surface, box, ?_⟩
    intro surface paint drawn' size directly
    exact renders surface paint drawn' none size directly

/-- Between paths, a canvas whose chain has no transformation renders a rectangle in a color without
a fault, wherever its corners are. -/
theorem exists_renderPath_rect {canvas : Canvas} (idle : canvas.scanner.Idle)
    (detached : canvas.scanner.cache = none) {color : Color} (solid : canvas.paint = .solid color)
    (chain : canvas.readyFill = .build canvas.config .identity) (left top right bottom : Float32)
    (rule : WindingRule) :
    ∃ drawn, canvas.renderPath [0, 1, 1, 1] [left, top, right, top, right, bottom, left, bottom]
      rule none = .ok (drawn, none) := by
  obtain ⟨corner, cornerEq⟩ : ∃ corner : Float32 → Float32 → Point, corner =
      fun x y => Affine.identity.apply (.ofFloat32s x y) := ⟨_, rfl⟩
  have isRect : ∃ rect, RectProbe.rectOf? (corner left top) (corner right top)
      (corner right bottom) (corner left bottom) = some rect := by
    refine ⟨_, if_pos (.inl ?_)⟩
    subst cornerEq
    simp [Affine.apply, Affine.identity, Affine.rowProduct, Point.ofFloat32s]
  obtain ⟨commands, commandsEq⟩ : ∃ commands, received .fill false (PathData.commands [0, 1, 1, 1]
      (PathData.points [left, top, right, top, right, bottom, left, bottom])) = commands := ⟨_, rfl⟩
  have lines : canvas.lines .fill commands =
      [.moveTo (corner left top), .lineJoin, .lineTo (corner right top), .lineJoin,
        .lineTo (corner right bottom), .lineJoin, .lineTo (corner left bottom), .lineJoin, .close,
        .finish] := by
    subst cornerEq commandsEq
    rw [Canvas.lines, chain]
    rfl
  have filled : (canvas.setMode .fill).fillData [0, 1, 1, 1]
      [left, top, right, top, right, bottom, left, bottom] rule =
        ((canvas.begunScanner none rule .fill).send (canvas.lines .fill commands)).map
          ((canvas.setMode .fill).afterWhole .fill commands) := by
    subst commandsEq
    rw [fillData_eq_drawWhole, drawWhole_eq]
    rfl
  obtain ⟨rect, isRect⟩ := isRect
  have begun : (canvas.begunScanner none rule .fill).Idle := idle.begun _ _
  obtain ⟨drawn, sent⟩ := begun.exists_send_rect detached solid isRect
  rw [renderPath_none, filled, lines, sent]
  exact ⟨_, rfl⟩

/-- A triangle that is recorded with four samples a pixel and replayed with others set.  A square,
given as path data, that a canvas renders directly and records, and that is rendered from the cache
on a surface of another format, in another color and with other path data. -/
theorem cached_rendering_agrees_triangle :
    (∃ recorded kept drawn replayed,
      { (Scanner.new ⟨.gray8, 2, 2, .packed 2, #[0, 0, 0, 0]⟩).setGrid 1 1 with
          cache := some .empty }.send
          [.moveTo ⟨0, 0⟩, .lineTo ⟨131072, 65536⟩, .lineTo ⟨40000, 131072⟩, .finish] =
        .ok recorded ∧
      recorded.cache = some kept ∧
      ((Scanner.new ⟨.gray8, 2, 2, .packed 2, #[0, 0, 0, 0]⟩).setGrid 1 1).send
          [.moveTo ⟨0, 0⟩, .lineTo ⟨131072, 65536⟩, .lineTo ⟨40000, 131072⟩, .finish] =
        .ok drawn ∧
      (Scanner.new ⟨.gray8, 2, 2, .packed 2, #[0, 0, 0, 0]⟩).replay kept = .ok replayed ∧
      replayed.surface = drawn.surface ∧ replayed.boundingBox = drawn.boundingBox) ∧
    let canvas := (Canvas.new ⟨.gray8, 2, 2, .packed 2, #[0, 0, 0, 0]⟩ .default).setColor
      ⟨255, 255, 255, 255⟩
    let square : List Float32 := [0, 0, 1, 0, 1, 1, 0, 1]
    let blended := canvas.onto ⟨.argb8888, 2, 2, .packed 2, #[0, 0, 0, 0]⟩
      (.solid ⟨0, 0, 255, 128⟩)
    canvas.Reachable ∧
    ∃ drawn rendered kept blendedDrawn replayed,
      canvas.renderPath [0, 1, 1, 1] square .nonZero none = .ok (drawn, none) ∧
      canvas.renderPath [0, 1, 1, 1] square .nonZero (some .empty) = .ok (rendered, some kept) ∧
      kept.isValid = true ∧ rendered.surface = drawn.surface ∧
      rendered.boundingBox = drawn.boundingBox ∧
      blended.renderPath [0, 1, 1, 1] square .nonZero none = .ok (blendedDrawn, none) ∧
      blended.renderPath [0] [2, 2] .evenOdd (some kept) = .ok (replayed, some kept) ∧
      replayed.surface = blendedDrawn.surface ∧
      replayed.boundingBox = blendedDrawn.boundingBox := by
  constructor
  · obtain ⟨recorded, kept, sent, _, stored, _, replays⟩ := cached_rendering_agrees.1
      { (Scanner.new ⟨.gray8, 2, 2, .packed 2, #[0, 0, 0, 0]⟩).setGrid 1 1 with
        cache := some .empty } .empty
      [.moveTo ⟨0, 0⟩, .lineTo ⟨131072, 65536⟩, .lineTo ⟨40000, 131072⟩] ⟨rfl, rfl, rfl⟩ rfl
      (by decide)
    have ready := (Scanner.ready_new ⟨.gray8, 2, 2, .packed 2, #[0, 0, 0, 0]⟩).setGrid 1 1
    have answered : (((Scanner.new ⟨.gray8, 2, 2, .packed 2, #[0, 0, 0, 0]⟩).setGrid 1 1).send
        ([.moveTo ⟨0, 0⟩, .lineTo ⟨131072, 65536⟩, .lineTo ⟨40000, 131072⟩] ++
          [.finish])).isOk = true := by
      decide +kernel
    obtain ⟨drawn, direct⟩ := exists_eq_ok_of_isOk answered
    obtain ⟨replayed, done, surface, box⟩ := replays _ drawn ready ⟨rfl, rfl, rfl⟩ rfl rfl direct
      (Scanner.new ⟨.gray8, 2, 2, .packed 2, #[0, 0, 0, 0]⟩) rfl rfl
    exact ⟨recorded, kept, drawn, replayed, sent, stored, direct, done, surface, box rfl⟩
  · intro canvas square blended
    have reachable : canvas.Reachable := ⟨_, _, [.setColor ⟨255, 255, 255, 255⟩], rfl⟩
    obtain ⟨drawn, direct⟩ := @exists_renderPath_rect canvas ⟨rfl, rfl, rfl⟩ rfl _ rfl rfl 0 0 1 1
      .nonZero
    obtain ⟨blendedDrawn, blendedDirect⟩ := @exists_renderPath_rect blended ⟨rfl, rfl, rfl⟩ rfl _
      rfl rfl 0 0 1 1 .nonZero
    obtain ⟨rendered, kept, answered, valid, surface, box, renders⟩ :=
      cached_rendering_agrees.2 canvas drawn _ _ .nonZero .empty reachable rfl direct rfl
    obtain ⟨replayed, replays, sameSurface, sameBox⟩ :=
      renders ⟨.argb8888, 2, 2, .packed 2, #[0, 0, 0, 0]⟩ (.solid ⟨0, 0, 255, 128⟩) blendedDrawn rfl
        blendedDirect blended rfl rfl [0] [2, 2] .evenOdd
    exact ⟨reachable, drawn, rendered, kept, blendedDrawn, replayed, direct, answered, valid,
      surface, box rfl, blendedDirect, replays, sameSurface, sameBox rfl⟩

end Canvas

end Raster
