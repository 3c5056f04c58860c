import Raster.Proofs.Canvas.Changing

/-!
# Reachable canvases

Between calls the scanner of a canvas has its clip box on the surface and no cache.  It has
received nothing unless a path is being drawn, since every call that draws a whole path
also ends it.
-/

namespace Raster

namespace Scanner

/-- The scanner is ready for every path and has no cache. -/
structure Steady (scanner : Scanner) : Prop where
  ready : scanner.Ready
  detached : scanner.cache = none

theorem steady_new (surface : Surface) : (Scanner.new surface).Steady :=
  ⟨ready_new surface, rfl⟩

theorem Steady.setGrid {scanner : Scanner} (steady : scanner.Steady) (lgX lgY : Nat) :
    (scanner.setGrid lgX lgY).Steady :=
  ⟨steady.ready.setGrid lgX lgY, steady.detached⟩

/-- Clearing pixels keeps the path. -/
theorem path_clearRect (scanner : Scanner) (x y width height : Int) (color : Color) :
    (scanner.clearRect x y width height color).edges = scanner.edges ∧
      (scanner.clearRect x y width height color).subpath = scanner.subpath ∧
      (scanner.clearRect x y width height color).probe = scanner.probe ∧
      (scanner.clearRect x y width height color).cache = scanner.cache := by
  simp only [Scanner.clearRect]
  split <;> exact ⟨rfl, rfl, rfl, rfl⟩

/-- The end of a path leaves nothing received. -/
theorem idle_of_send_finish {scanner received : Scanner} {commands : List LineCommand}
    (sent : scanner.send (commands ++ [.finish]) = .ok received) : received.Idle := by
  rw [send_append] at sent
  obtain ⟨before, _, finished⟩ := exists_of_bind_eq_ok sent
  change before.finish >>= pure = .ok received at finished
  rw [bind_pure] at finished
  exact idle_of_finish finished

theorem Idle.replay {scanner replayed : Scanner} (idle : scanner.Idle) {cache : CoverageCache}
    (done : scanner.replay cache = .ok replayed) : replayed.Idle := by
  obtain ⟨touches, box, scratch, rfl⟩ := exists_of_replay done
  exact ⟨idle.edges, idle.subpath, idle.probe⟩

end Scanner

namespace Canvas

/-- What holds of a canvas between calls. -/
structure Sound (canvas : Canvas) : Prop where
  steady : canvas.scanner.Steady
  idle : canvas.drawing = false → canvas.scanner.Idle

theorem sound_new (surface : Surface) (config : Config) : (new surface config).Sound :=
  ⟨(Scanner.steady_new surface).setGrid _ _, fun _ =>
    (Scanner.idle_new surface).setGrid _ _⟩

/-! ## Sending -/

/-- The lines that a canvas sends for some commands. -/
def lines (canvas : Canvas) (route : Route) (commands : List PathCommand) : List LineCommand :=
  match route with
  | .fill => Stage.output FillChain.step canvas.readyFill commands
  | .stroke => Stage.output StrokeChain.step canvas.readyStroke commands
  | .text => Stage.output FillChain.step canvas.readyText commands

/-- On every route the end of the path is sent last. -/
theorem exists_lines_eq (canvas : Canvas) (route : Route) (commands : List PathCommand) :
    ∃ before, canvas.lines route (commands ++ [.finish]) = before ++ [.finish] := by
  cases route with
  | fill => exact ⟨_, canvas.readyFill.run_finish commands⟩
  | stroke => exact canvas.readyStroke.exists_run_finish commands
  | text => exact ⟨_, canvas.readyText.run_finish commands⟩

/-- Sending changes the chain and the scanner only. -/
theorem scanner_send {canvas next : Canvas} {route : Route} {commands : List PathCommand}
    (sent : canvas.send route commands = .ok next) :
    canvas.scanner.send (canvas.lines route commands) = .ok next.scanner ∧
      next.drawing = canvas.drawing := by
  cases route with
  | fill =>
      obtain ⟨received, answered, updated⟩ := exists_of_bind_eq_ok sent
      cases updated
      exact ⟨answered, rfl⟩
  | stroke =>
      obtain ⟨received, answered, updated⟩ := exists_of_bind_eq_ok sent
      cases updated
      exact ⟨answered, rfl⟩
  | text =>
      obtain ⟨received, answered, updated⟩ := exists_of_bind_eq_ok sent
      cases updated
      exact ⟨answered, rfl⟩

theorem idle_of_send_finish {canvas next : Canvas} {route : Route} {commands : List PathCommand}
    (sent : canvas.send route (commands ++ [.finish]) = .ok next) : next.scanner.Idle := by
  obtain ⟨before, ends⟩ := canvas.exists_lines_eq route commands
  have answered := (scanner_send sent).1
  rw [ends] at answered
  exact Scanner.idle_of_send_finish answered

/-! ## Changes -/

/-- What holds of a canvas at any time, whether or not a cache is attached. -/
structure Paced (canvas : Canvas) : Prop where
  ready : canvas.scanner.Ready
  idle : canvas.drawing = false → canvas.scanner.Idle

/-- A change that keeps the path. -/
theorem Paced.keepPath {canvas next : Canvas} (paced : canvas.Paced)
    (ready : next.scanner.Ready) (drawing : next.drawing = canvas.drawing)
    (edges : next.scanner.edges = canvas.scanner.edges)
    (subpath : next.scanner.subpath = canvas.scanner.subpath)
    (probe : next.scanner.probe = canvas.scanner.probe) : next.Paced := by
  refine ⟨ready, ?_⟩
  intro between
  obtain ⟨noEdges, noSubpath, fresh⟩ := paced.idle (drawing.symm.trans between)
  exact ⟨edges.trans noEdges, subpath.trans noSubpath, probe.trans fresh⟩

theorem Paced.setCache {canvas : Canvas} (paced : canvas.Paced) (cache : Option CoverageCache) :
    (canvas.withScanner (canvas.scanner.setCache cache)).Paced :=
  paced.keepPath ⟨paced.ready.lgX_le, paced.ready.lgY_le, paced.ready.clip⟩ rfl rfl rfl rfl

/-- A path that is started is ended before it is left. -/
theorem Paced.change {canvas next : Canvas} (paced : canvas.Paced)
    (change : canvas.Change next) : next.Paced := by
  cases change with
  | transform transform => exact paced.keepPath (paced.ready.setPaint _) rfl rfl rfl rfl
  | paint paint => exact paced.keepPath (paced.ready.setPaint _) rfl rfl rfl rfl
  | quality quality => exact paced.keepPath (paced.ready.setPaint _) rfl rfl rfl rfl
  | clip clip => exact paced.keepPath (paced.ready.setClip _) rfl rfl rfl rfl
  | antialiasing antialiasing =>
      unfold Canvas.setAntialiasing
      split
      · exact paced
      · exact paced.keepPath (paced.ready.setGrid _ _) rfl rfl rfl rfl
  | textExtra extra =>
      unfold Canvas.withTextExtra
      split
      · exact paced
      · exact ⟨paced.ready, paced.idle⟩
  | stroke | plain => exact ⟨paced.ready, paced.idle⟩
  | start region mode rule => exact ⟨paced.ready.begun _ _, fun between => nomatch between⟩
  | send drawing sent =>
      obtain ⟨answered, same⟩ := scanner_send sent
      refine ⟨paced.ready.send answered, ?_⟩
      intro between
      rw [same, drawing] at between
      cases between
  | finish sent =>
      have idle := idle_of_send_finish sent
      exact ⟨(paced.ready.send (scanner_send sent).1).setClip _,
        fun _ => ⟨idle.edges, idle.subpath, idle.probe⟩⟩
  | replay replayed =>
      obtain ⟨scanner, done, updated⟩ := exists_of_bind_eq_ok replayed
      cases updated
      exact ⟨paced.ready.replay done, fun between => (paced.idle between).replay done⟩
  | clear x y width height =>
      obtain ⟨edges, subpath, probe, _⟩ :=
        canvas.scanner.path_clearRect x y width height canvas.color
      exact paced.keepPath (paced.ready.clearRect x y width height canvas.color) rfl edges subpath
        probe

/-- No change attaches a cache. -/
theorem cache_change {canvas next : Canvas} (detached : canvas.scanner.cache = none)
    (change : canvas.Change next) : next.scanner.cache = none := by
  cases change with
  | antialiasing antialiasing =>
      unfold Canvas.setAntialiasing
      split <;> exact detached
  | textExtra extra =>
      unfold Canvas.withTextExtra
      split <;> exact detached
  | send drawing sent => exact Scanner.cache_of_send detached (scanner_send sent).1
  | @finish _ _ drawn sent =>
      have kept : drawn.scanner.cache = none :=
        Scanner.cache_of_send detached (scanner_send sent).1
      exact kept
  | replay replayed =>
      obtain ⟨scanner, done, updated⟩ := exists_of_bind_eq_ok replayed
      cases updated
      obtain ⟨touches, box, scratch, rfl⟩ := Scanner.exists_of_replay done
      exact detached
  | clear x y width height =>
      exact (canvas.scanner.path_clearRect x y width height canvas.color).2.2.2.trans detached
  | _ => exact detached

/-- A cache that was attached for some changes is detached after them. -/
theorem Changes.cache_eq_none {canvas next : Canvas} (changes : canvas.Changes next)
    (detached : canvas.scanner.cache = none) : next.scanner.cache = none := by
  induction changes with
  | refl _ => exact detached
  | tail _ change inductionHypothesis => exact cache_change (inductionHypothesis detached) change
  | record _ _ _ _ _ => rfl

theorem Sound.changes {canvas next : Canvas} (sound : canvas.Sound)
    (changes : canvas.Changes next) : next.Sound := by
  have paced : canvas.Paced := ⟨sound.steady.ready, sound.idle⟩
  obtain ⟨ready, idle⟩ :=
    changes.keep Paced.change (fun cache paced => paced.setCache cache) paced
  exact ⟨⟨ready, changes.cache_eq_none sound.steady.detached⟩, idle⟩

theorem Sound.performAll {canvas next : Canvas} (sound : canvas.Sound) {calls : List Call}
    (performed : canvas.performAll calls = .ok next) : next.Sound :=
  sound.changes (changes_performAll performed)

/-- Every reachable canvas is sound. -/
theorem Reachable.sound {canvas : Canvas} (reachable : canvas.Reachable) : canvas.Sound := by
  obtain ⟨surface, config, calls, reached⟩ := reachable
  exact (sound_new surface config).performAll reached

end Canvas

end Raster
