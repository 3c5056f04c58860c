import Raster.Proofs.Canvas.Resting
import Raster.Proofs.Scan.Discarding

/-!
# Canvases that agree

Two canvases agree if each path is sent as equal lines on both, to scanners that are equal but for
their scratch data.  Resting canvases with equal settings and pictures agree, whichever chains were
built and used before, whichever rules and clip boxes the scanners had, and whatever is left in
their buffers and in their alpha table.  Each path sets its own rule and clip box, no edges and no
cache are kept between paths, and a chain that is kept answers as a new one does.
-/

namespace Raster

namespace PixelBox

theorem intersection?_eq_some_iff {box other common : PixelBox} :
    box.intersection? other = some common ↔
      common = ⟨max box.left other.left, max box.top other.top, min box.right other.right,
        min box.bottom other.bottom⟩ ∧
      common.left < common.right ∧ common.top < common.bottom := by
  have nonempty : common.isEmpty = false ↔
      common.left < common.right ∧ common.top < common.bottom := by
    simp only [isEmpty, Bool.or_eq_false_iff, decide_eq_false_iff_not, Int.not_le]
  rw [← nonempty]
  unfold intersection?
  simp only
  constructor
  · intro meets
    split at meets
    · cases meets
    · rename_i inhabited
      obtain rfl := Option.some.inj meets
      exact ⟨rfl, Bool.eq_false_iff.mpr inhabited⟩
  · rintro ⟨rfl, inhabited⟩
    rw [if_neg (Bool.eq_false_iff.mp inhabited)]

theorem zero_intersection? (box : PixelBox) : zero.intersection? box = none := by
  rw [Option.eq_none_iff_forall_ne_some]
  intro common meets
  obtain ⟨rfl, nonempty, _⟩ := intersection?_eq_some_iff.mp meets
  change max 0 box.left < min 0 box.right at nonempty
  omega

theorem intersection?_zero (box : PixelBox) : box.intersection? zero = none := by
  rw [Option.eq_none_iff_forall_ne_some]
  intro common meets
  obtain ⟨rfl, nonempty, _⟩ := intersection?_eq_some_iff.mp meets
  change max box.left 0 < min box.right 0 at nonempty
  omega

/-- Boxes may be intersected in any grouping. -/
theorem intersection?_assoc (first second third : PixelBox) :
    ((first.intersection? second).bind fun common => common.intersection? third) =
      (second.intersection? third).bind fun common => first.intersection? common := by
  apply Option.ext
  intro common
  simp only [Option.bind_eq_some_iff, intersection?_eq_some_iff]
  constructor
  · rintro ⟨_, ⟨rfl, _⟩, rfl, wide, high⟩
    simp only [Int.max_assoc, Int.min_assoc] at wide high ⊢
    exact ⟨_, ⟨rfl, by simp only; omega, by simp only; omega⟩, rfl, wide, high⟩
  · rintro ⟨_, ⟨rfl, _⟩, rfl, wide, high⟩
    simp only [← Int.max_assoc, ← Int.min_assoc] at wide high ⊢
    exact ⟨_, ⟨rfl, by simp only; omega, by simp only; omega⟩, rfl, wide, high⟩

end PixelBox

namespace Canvas

/-- The part of a clip box inside a region depends only on the pixels that it leaves of a
surface. -/
theorem clipOn_clipWithin (surface : Surface) (clip : Option PixelBox) (region : PixelBox) :
    Scanner.clipOn surface (clipWithin clip (some region)) =
      (region.intersection? (Scanner.clipOn surface clip)).getD .zero := by
  cases clip with
  | none => rfl
  | some box =>
      have grouped := PixelBox.intersection?_assoc region box surface.bounds
      change ((((region.intersection? box).getD .zero).intersection? surface.bounds).getD .zero) =
        (region.intersection? ((box.intersection? surface.bounds).getD .zero)).getD .zero
      cases inside : region.intersection? box with
      | none =>
          rw [inside, Option.bind_none] at grouped
          rw [Option.getD_none, PixelBox.zero_intersection?]
          cases onSurface : box.intersection? surface.bounds with
          | none => rw [Option.getD_none, PixelBox.intersection?_zero, Option.getD_none]
          | some left =>
              rw [onSurface, Option.bind_some] at grouped
              rw [Option.getD_some, ← grouped]
      | some common =>
          rw [inside, Option.bind_some] at grouped
          rw [Option.getD_some, grouped]
          cases onSurface : box.intersection? surface.bounds with
          | none =>
              rw [Option.bind_none, Option.getD_none, PixelBox.intersection?_zero,
                Option.getD_none]
          | some left => rw [Option.bind_some, Option.getD_some]

end Canvas

/-! ## Scanners -/

namespace Scanner

/-- What can be seen of a scanner. -/
def picture (scanner : Scanner) : Surface × Option PixelBox :=
  (scanner.surface, scanner.boundingBox)

/-- What a scanner keeps of its drawings cannot be seen. -/
theorem picture_congr {first second : Scanner} (same : first.bare = second.bare) :
    first.picture = second.picture :=
  (congrArg picture same :)

theorem map_picture_congr {first second : Except Fault Scanner}
    (same : first.map bare = second.map bare) : first.map picture = second.map picture :=
  map_congr_of_bare same picture_congr

/-- What a replay draws depends only on the picture and on the paint. -/
theorem picture_replay_congr {first second : Scanner} (same : first.picture = second.picture)
    (paint : first.paint = second.paint) (cache : CoverageCache) :
    (first.replay cache).map picture = (second.replay cache).map picture := by
  obtain ⟨surface, box⟩ := Prod.mk.inj same
  by_cases idle : cache.isValid = false ∨ first.paint.isDegenerate = true
  · have idleSecond : cache.isValid = false ∨ second.paint.isDegenerate = true := paint ▸ idle
    rw [replay_of_isDegenerate idle, replay_of_isDegenerate idleSecond]
    exact congrArg Except.ok same
  · obtain ⟨notInvalid, notDegenerate⟩ := not_or.mp idle
    have valid : cache.isValid = true := Bool.not_eq_false _ ▸ notInvalid
    have seen : ∀ scanner : Scanner, scanner.surface = first.surface →
        scanner.paint = first.paint → (scanner.replay cache).map picture =
          (cache.rows.mapM (first.runTouches (first.alphas cache.maxCoverage))).map fun drawn =>
            (first.surface.draw drawn.flatten, cache.boundingBox) := by
      intro scanner sameSurface samePaint
      have sound : scanner.paint.isDegenerate = false :=
        samePaint ▸ Bool.not_eq_true _ ▸ notDegenerate
      have touched : scanner.runTouches (scanner.alphas cache.maxCoverage) =
          first.runTouches (first.alphas cache.maxCoverage) := by
        funext row
        rw [runTouches, runTouches, alphas_congr samePaint,
          touchesOver_congr (congrArg Surface.width sameSurface)
            (congrArg Surface.height sameSurface) samePaint]
      have drawn := congrArg (Except.map picture) (map_bare_replay valid sound)
      rw [map_map, map_map, touched] at drawn
      rw [← sameSurface]
      exact drawn
    rw [seen first rfl rfl, seen second surface.symm paint.symm]

/-- Scanners that are equal but for their scratch data record a path alike, and what they replay of
it shows the same. -/
theorem map_picture_record_congr {first second : Scanner} (same : first.bare = second.bare)
    (cache : CoverageCache) (lines : List LineCommand) :
    (do
      let recorded ← (first.setCache (some cache)).send lines
      ((recorded.setCache none).replay (recorded.cache.getD cache)).map picture) =
    (do
      let recorded ← (second.setCache (some cache)).send lines
      ((recorded.setCache none).replay (recorded.cache.getD cache)).map picture) := by
  have attached : (first.setCache (some cache)).bare = (second.setCache (some cache)).bare :=
    congrArg (fun scanner => scanner.setCache (some cache)) same
  apply bind_congr_of_bare (map_bare_send_congr attached lines)
  intro recorded other alike
  have kept : recorded.cache = other.cache := (congrArg Scanner.cache alike :)
  have detached : (recorded.setCache none).bare = (other.setCache none).bare :=
    congrArg (fun scanner => scanner.setCache none) alike
  rw [kept]
  exact map_picture_congr (map_bare_replay_congr detached _)

/-- Two idle scanners begin a path alike, but for their scratch data, if they agree on what paths
keep. -/
theorem bare_begun_congr {first second : Scanner} (same : first.picture = second.picture)
    (grid : first.grid = second.grid) (paint : first.paint = second.paint)
    (cache : first.cache = second.cache) (firstIdle : first.Idle) (secondIdle : second.Idle)
    {firstClip secondClip : Option PixelBox}
    (clip : clipOn first.surface firstClip = clipOn second.surface secondClip)
    (rule : WindingRule) :
    (first.begun firstClip rule).bare = (second.begun secondClip rule).bare := by
  obtain ⟨surface, box⟩ := Prod.mk.inj same
  have edges := firstIdle.edges.trans secondIdle.edges.symm
  have subpath := firstIdle.subpath.trans secondIdle.subpath.symm
  have probe := firstIdle.probe.trans secondIdle.probe.symm
  simp only [begun, setClip, bare, Scanner.mk.injEq]
  exact ⟨surface, grid, trivial, clip, paint, cache, box, edges, subpath, probe, trivial⟩

end Scanner

/-! ## Canvases that agree -/

namespace Canvas

/-- The settings of a canvas, as they can be asked for. -/
structure Settings where
  transform : Affine
  stroke : StrokeStyle
  rule : WindingRule
  mode : PathMode
  antialiasing : Bool
  /-- The pixels of the surface that may be drawn. -/
  clip : PixelBox
  color : Color
  paint : Paint
deriving DecidableEq

/-- The settings in use. -/
def settings (canvas : Canvas) : Settings :=
  { transform := canvas.transform
    stroke := canvas.stroke
    rule := canvas.rule
    mode := canvas.mode
    antialiasing := canvas.antialiasing
    clip := canvas.scanner.clip
    color := canvas.color
    paint := canvas.paint }

/-- What can be seen of a canvas. -/
def picture (canvas : Canvas) : Surface × Option PixelBox :=
  canvas.scanner.picture

/-- What two canvases have in common if the same is drawn on both: they have equal settings and
pictures, each path begins on scanners that are equal but for their scratch data, and it is sent as
equal lines. -/
structure Agree (first second : Canvas) : Prop where
  config : first.config = second.config
  settings : first.settings = second.settings
  picture : first.picture = second.picture
  begun : ∀ region rule route,
    (first.begunScanner region rule route).bare = (second.begunScanner region rule route).bare
  lines : ∀ route commands, route ≠ .text → PathCommand.startsPaths false commands = true →
    first.lines route commands = second.lines route commands
  textLines : ∀ extra commands, PathCommand.startsPaths false commands = true →
    (first.withTextExtra extra).lines .text commands =
      (second.withTextExtra extra).lines .text commands

/-- Recorded paths are transformed by the extra transformation that comes with them. -/
theorem textTransform_withTextExtra (canvas : Canvas) (extra : Option Affine) :
    (canvas.withTextExtra extra).textTransform =
      match extra with
      | some extra => canvas.transform.concat extra
      | none => canvas.transform := by
  unfold withTextExtra
  split
  · rename_i same
    subst same
    rfl
  · rfl

/-- A chain that is kept answers as the one that would be built. -/
theorem Fresh.cleared_readyFill {canvas : Canvas} (fresh : canvas.Fresh) :
    canvas.readyFill.cleared = .build canvas.config canvas.transform :=
  cleared_getD fresh.fill (FillChain.cleared_build canvas.config canvas.transform)

theorem Fresh.cleared_readyStroke {canvas : Canvas} (fresh : canvas.Fresh) :
    canvas.readyStroke.cleared = .build canvas.config canvas.transform canvas.stroke :=
  cleared_getD fresh.stroke
    (StrokeChain.cleared_build canvas.config canvas.transform canvas.stroke)

theorem Fresh.cleared_readyText {canvas : Canvas} (fresh : canvas.Fresh) :
    canvas.readyText.cleared = .build canvas.config canvas.textTransform :=
  cleared_getD fresh.text (FillChain.cleared_build canvas.config canvas.textTransform)

theorem config_withTextExtra (canvas : Canvas) (extra : Option Affine) :
    (canvas.withTextExtra extra).config = canvas.config := by
  unfold withTextExtra
  split <;> rfl

/-- The pixels that a canvas between paths leaves of a region. -/
theorem Rested.clipOn_clipWithin {canvas : Canvas} (rested : canvas.Rested)
    (region : Option PixelBox) :
    Scanner.clipOn canvas.surface (clipWithin canvas.clip region) =
      match region with
      | none => canvas.scanner.clip
      | some region => (region.intersection? canvas.scanner.clip).getD .zero := by
  rw [rested.fresh.clip rested.settled.drawing]
  cases region with
  | none => rfl
  | some region => exact Canvas.clipOn_clipWithin canvas.surface canvas.clip region

/-- Canvases that rest with equal settings and pictures agree, whatever their histories. -/
theorem Rested.agree {first second : Canvas} (firstRested : first.Rested)
    (secondRested : second.Rested) (config : first.config = second.config)
    (settings : first.settings = second.settings) (picture : first.picture = second.picture) :
    first.Agree second := by
  obtain ⟨transform, stroke, rule, mode, antialiasing, clip, color, paint⟩ :=
    Settings.mk.inj settings
  refine ⟨config, settings, picture, ?_, ?_, ?_⟩
  · intro region rule route
    have grid : first.scanner.grid = second.scanner.grid := by
      rw [firstRested.fresh.grid, secondRested.fresh.grid, antialiasing, config]
    have cache : first.scanner.cache = second.scanner.cache :=
      firstRested.sound.steady.detached.trans secondRested.sound.steady.detached.symm
    apply Scanner.bare_begun_congr picture grid paint cache
      (firstRested.sound.idle firstRested.settled.drawing)
      (secondRested.sound.idle secondRested.settled.drawing)
    have firstClip := firstRested.clipOn_clipWithin region
    have secondClip := secondRested.clipOn_clipWithin region
    rw [clip] at firstClip
    exact firstClip.trans secondClip.symm
  · intro route commands untexted starts
    cases route with
    | fill =>
        apply FillChain.output_congr ?_ starts
        rw [firstRested.fresh.cleared_readyFill, secondRested.fresh.cleared_readyFill, config,
          transform]
    | stroke =>
        apply (settled_readyStroke firstRested.settled).output_congr
          (settled_readyStroke secondRested.settled) ?_ starts
        rw [firstRested.fresh.cleared_readyStroke, secondRested.fresh.cleared_readyStroke, config,
          transform, stroke]
    | text => exact absurd rfl untexted
  · intro extra commands starts
    apply FillChain.output_congr ?_ starts
    rw [(firstRested.fresh.withTextExtra extra).cleared_readyText,
      (secondRested.fresh.withTextExtra extra).cleared_readyText, config_withTextExtra,
      config_withTextExtra, textTransform_withTextExtra, textTransform_withTextExtra, config,
      transform]

/-! ## Paths that start with a subpath -/

/-- A subpath is only closed where one was started. -/
theorem startsPaths_closing_append {begun subpathOpen : Bool}
    (within : subpathOpen = true → begun = true) (mode : PathMode) (rest : List PathCommand) :
    PathCommand.startsPaths begun (closing mode subpathOpen ++ rest) =
      PathCommand.startsPaths begun rest := by
  unfold closing
  split
  · rename_i closes
    rw [within closes.2]
    rfl
  · rfl

theorem startsPaths_receivedFrom {begun subpathOpen : Bool}
    (within : subpathOpen = true → begun = true) {commands : List PathCommand}
    (starts : PathCommand.startsPaths begun commands = true) (mode : PathMode) :
    PathCommand.startsPaths begun (received mode subpathOpen commands) = true := by
  induction commands generalizing begun subpathOpen with
  | nil =>
      rw [received, startsPaths_closing_append within]
      exact PathCommand.startsPaths_finish starts
  | cons command rest inductionHypothesis =>
      obtain ⟨here, later⟩ := Bool.and_eq_true_iff.mp starts
      rw [received]
      split
      · rw [startsPaths_closing_append within]
        exact @PathCommand.startsPaths_finish begun [] rfl
      · rename_i unfinished
        cases command with
        | line command =>
            cases command with
            | moveTo point =>
                change PathCommand.startsPaths begun
                  ((closing mode subpathOpen ++ [.moveTo point]) ++ received mode true rest) = true
                rw [List.append_assoc, startsPaths_closing_append within]
                exact Bool.and_eq_true_iff.mpr
                  ⟨here, inductionHypothesis (fun _ => rfl) later⟩
            | lineJoin => exact inductionHypothesis within later
            | lineTo point =>
                exact Bool.and_eq_true_iff.mpr ⟨here, inductionHypothesis within later⟩
            | close =>
                have shut : false = true → begun = true :=
                  fun opened => absurd opened Bool.false_ne_true
                exact Bool.and_eq_true_iff.mpr ⟨here, inductionHypothesis shut later⟩
            | finish => exact absurd rfl unfinished
        | quadTo control point =>
            exact Bool.and_eq_true_iff.mpr ⟨here, inductionHypothesis within later⟩
        | cubicTo control₁ control₂ point =>
            exact Bool.and_eq_true_iff.mpr ⟨here, inductionHypothesis within later⟩

/-- What a canvas adds to the commands that it receives keeps paths started. -/
theorem startsPaths_received {commands : List PathCommand}
    (starts : PathCommand.startsPaths false commands = true) (mode : PathMode) :
    PathCommand.startsPaths false (received mode false commands) = true :=
  @startsPaths_receivedFrom false false nofun commands starts mode

end Canvas

end Raster
