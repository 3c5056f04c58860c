import Raster.Coverage.Cache
import Raster.Paint.Basic
import Raster.Path.Command
import Raster.Scan.Loop
import Raster.Scan.RectFill

/-!
# The scan converter

A scanner receives paths without curves in device space and draws each of them on
its surface when the path is finished.  Open subpaths are closed on the way.  While
a cache is attached, the coverage of a path goes there instead.

What is only worked on while a path is drawn is kept for the next path all the same,
as is the last alpha table, so that neither need be made again.
-/

namespace Raster

/-- The ends of a subpath that is being received. -/
structure OpenSubpath where
  start : Point
  current : Point
deriving Repr, DecidableEq

/-- What a scan converter keeps of the drawing of a path. -/
structure Scratch where
  /-- The active edges of the last sweep. -/
  active : Array Edge
  /-- The counters of the last sweep. -/
  coverage : Array Nat
  /-- The colors of the row that was painted last. -/
  colors : Array Nat
  /-- The alpha table that was used last. -/
  alphas : Option Alpha.Memo
deriving Repr, DecidableEq

namespace Scratch

/-- Nothing is kept. -/
def empty : Scratch := ⟨#[], #[], #[], none⟩

/-- The row of colors that is painted over: the last one, in another length. -/
def row (scratch : Scratch) (count : Nat) : List Nat :=
  (resized scratch.colors count).toList

/-- Keeps the colors of a row that was painted. -/
def keep (scratch : Scratch) : RowSource → Scratch
  | .flat _ => scratch
  | .perPixel colors => { scratch with colors := colors.toArray }

end Scratch

/-- A surface with the settings and the path of a scan converter. -/
structure Scanner where
  surface : Surface
  grid : Grid
  rule : WindingRule
  /-- The pixels that may be drawn, all of them on the surface. -/
  clip : PixelBox
  paint : Paint
  cache : Option CoverageCache
  /-- The pixels that the last path touched. -/
  boundingBox : Option PixelBox
  edges : Array Edge
  subpath : Option OpenSubpath
  probe : RectProbe
  scratch : Scratch
deriving Repr, DecidableEq

namespace Scanner

/-- A scanner on a surface, with the settings in use until others are set. -/
def new (surface : Surface) : Scanner :=
  { surface := surface
    grid := .finest
    rule := .nonZero
    clip := surface.bounds
    paint := .default
    cache := none
    boundingBox := none
    edges := #[]
    subpath := none
    probe := .fresh
    scratch := .empty }

/-! ## Settings -/

/-- The scanner with another grid. -/
def setGrid (scanner : Scanner) (lgX lgY : Nat) : Scanner :=
  { scanner with grid := .limited lgX lgY }

/-- The part of a box on a surface; a box beside the surface leaves no pixel, and
without a box the whole surface is left. -/
def clipOn (surface : Surface) : Option PixelBox → PixelBox
  | none => surface.bounds
  | some box => (box.intersection? surface.bounds).getD .zero

/-- The scanner with another clip box. -/
def setClip (scanner : Scanner) (clip : Option PixelBox) : Scanner :=
  { scanner with clip := clipOn scanner.surface clip }

/-- The scanner with another winding rule. -/
def setRule (scanner : Scanner) (rule : WindingRule) : Scanner :=
  { scanner with rule := rule }

/-- The scanner with another paint. -/
def setPaint (scanner : Scanner) (paint : Paint) : Scanner :=
  { scanner with paint := paint }

/-- The scanner with another cache, or with none. -/
def setCache (scanner : Scanner) (cache : Option CoverageCache) : Scanner :=
  { scanner with cache := cache }

/-- The scanner with the pixels of a box inside the clip box overwritten. -/
def clearRect (scanner : Scanner) (x y width height : Int) (color : Color) : Scanner :=
  let box := PixelBox.ofSize x y (max width 0) (max height 0)
  match box.intersection? scanner.clip with
  | none => scanner
  | some box => { scanner with surface := scanner.surface.fill box color.argb }

/-! ## Receiving a path -/

/-- The scanner with the edge of a segment, if the segment crosses sample rows. -/
def addEdge (scanner : Scanner) (source target : Point) : Scanner :=
  match Edge.ofSegment? scanner.grid scanner.clip source target with
  | none => scanner
  | some edge => { scanner with edges := scanner.edges.push edge }

/-- The scanner with the current subpath closed and left. -/
def closeSubpath (scanner : Scanner) : Scanner :=
  match scanner.subpath with
  | none => scanner
  | some subpath =>
      let idle := { scanner with subpath := none }
      if subpath.current = subpath.start then
        idle
      else
        idle.addEdge subpath.current subpath.start

/-- Starts a subpath.  The path may only be a rectangle if this is its first. -/
def moveTo (scanner : Scanner) (point : Point) : Scanner :=
  let closed := scanner.closeSubpath
  let probe :=
    if closed.edges.isEmpty && closed.probe.isFresh then
      closed.probe.push point
    else
      .failed
  { closed with probe := probe, subpath := some ⟨point, point⟩ }

/-- Draws a line; without a subpath it is ignored. -/
def lineTo (scanner : Scanner) (point : Point) : Scanner :=
  match scanner.subpath with
  | none => scanner
  | some subpath =>
      let drawn := scanner.addEdge subpath.current point
      { drawn with
        probe := drawn.probe.push point
        subpath := some { subpath with current := point } }

/-- Returns to the start of the subpath, which stays open for more lines. -/
def close (scanner : Scanner) : Scanner :=
  match scanner.subpath with
  | none => scanner
  | some subpath =>
      if subpath.current = subpath.start then
        scanner
      else
        let drawn := scanner.addEdge subpath.current subpath.start
        { drawn with
          probe := drawn.probe.push subpath.start
          subpath := some ⟨subpath.start, subpath.start⟩ }

/-- The scanner without a path. -/
def reset (scanner : Scanner) : Scanner :=
  { scanner with edges := #[], subpath := none, probe := .fresh }

/-! ## Drawing -/

/-- The alpha of a flat color is part of the opacities of coverage values. -/
def sourceAlpha (scanner : Scanner) : Nat :=
  match scanner.paint.solidColor? with
  | some color => color.alpha.toNat
  | none => 255

/-- An alpha table, computed anew only if it is not the last one. -/
def alphaTable (scanner : Scanner) (maxCoverage sourceAlpha : Nat) : Array Nat :=
  (Alpha.Memo.ofLast scanner.scratch.alphas maxCoverage sourceAlpha).table

/-- The scanner that keeps an alpha table. -/
def remember (scanner : Scanner) (maxCoverage sourceAlpha : Nat) : Scanner :=
  let memo := Alpha.Memo.ofLast scanner.scratch.alphas maxCoverage sourceAlpha
  { scanner with scratch := { scanner.scratch with alphas := some memo } }

/-- The opacities of coverage values under the current paint. -/
def alphas (scanner : Scanner) (maxCoverage : Nat) : Array Nat :=
  scanner.alphaTable maxCoverage scanner.sourceAlpha

/-- The colors of the current paint for a row of pixels. -/
def source (scanner : Scanner) (x y : Int) (count : Nat) : Except Fault RowSource :=
  match scanner.paint.solidColor? with
  | some color => .ok (.flat color.argb)
  | none => do
      pure (.perPixel (← scanner.paint.paintRow x y (scanner.scratch.row count)))

/-- What a row of pixels is drawn with. -/
def target (scanner : Scanner) (alphas : Array Nat) (source : RowSource) : RowTarget :=
  { width := scanner.surface.width
    height := scanner.surface.height
    alphas := alphas
    source := source }

/-- The scanner with some pixels drawn. -/
def draw (scanner : Scanner) (touches : List Touch) : Scanner :=
  { scanner with surface := scanner.surface.draw touches }

/-- The scanner with a row of pixels drawn, which keeps the colors of the row. -/
def drawFrom (scanner : Scanner) (source : RowSource) (touches : List Touch) : Scanner :=
  { scanner.draw touches with scratch := scanner.scratch.keep source }

/-- Draws the touches of a row of pixels. -/
def drawOver (scanner : Scanner) (alphas : Array Nat) (x y : Int) (count : Nat)
    (touches : RowTarget → Except Fault (List Touch)) : Except Fault Scanner := do
  let source ← scanner.source x y count
  pure (scanner.drawFrom source (← touches (scanner.target alphas source)))

/-- Draws a row of coverage. -/
def drawRow (alphas : Array Nat) (scanner : Scanner) (row : CoverageRow) :
    Except Fault Scanner :=
  scanner.drawOver alphas row.x row.y row.values.length row.touches

/-- Draws a row of runs. -/
def drawRuns (alphas : Array Nat) (scanner : Scanner) (row : RunRow) :
    Except Fault Scanner :=
  scanner.drawOver alphas row.x row.y (RunRow.count row.runs) row.touches

/-- How the current path is scanned. -/
def frame (scanner : Scanner) : ScanFrame :=
  ⟨scanner.grid, scanner.rule, scanner.clip⟩

/-- The coverage of the current path. -/
def coverageRows (scanner : Scanner) : List CoverageRow :=
  Sweep.coverageRows scanner.frame scanner.edges.toList

/-- Sweeps the edges of the current path.  The buffers of the last sweep are used again. -/
def sweep (scanner : Scanner) : Scanner × List CoverageRow :=
  let edges := scanner.edges.toList
  let loop := SweepLoop.restart scanner.scratch.active scanner.scratch.coverage scanner.frame edges
  let (swept, rows) := Stage.run (SweepLoop.visitLine scanner.frame) loop
    (Sweep.linesOf scanner.grid edges)
  let scratch := { scanner.scratch with active := swept.active, coverage := swept.coverage }
  ({ scanner with boundingBox := Sweep.boxOf rows, scratch := scratch }, rows)

/-- Draws the current path, or records it if a cache is attached.  A degenerate
paint draws nothing, yet does not keep a path from being recorded. -/
def rasterize (scanner : Scanner) : Except Fault Scanner :=
  let maxCoverage := scanner.grid.maxCoverage
  let drawable := scanner.cache.isSome || !scanner.paint.isDegenerate
  if scanner.edges.isEmpty || scanner.clip.isEmpty || !drawable then
    .ok
      { scanner with
        boundingBox := none
        cache := scanner.cache.map fun cache => cache.record maxCoverage [] none }
  else
    let alphas := scanner.alphas maxCoverage
    let (swept, rows) := (scanner.remember maxCoverage scanner.sourceAlpha).sweep
    match scanner.cache with
    | some cache =>
        .ok { swept with cache := some (cache.record maxCoverage rows swept.boundingBox) }
    | none => rows.foldlM (drawRow alphas) swept

/-- Fills a rectangle with a color. -/
def fillRect (scanner : Scanner) (rect : Rect) (color : Color) : Except Fault Scanner := do
  let cells := CellRect.ofRect scanner.grid scanner.clip rect
  if cells.isEmpty then
    pure { scanner with boundingBox := none }
  else
    let maxCoverage := scanner.grid.maxCoverage
    let alpha := color.alpha.toNat
    let touches ← cells.touches scanner.grid scanner.surface.width scanner.surface.height
      (scanner.alphaTable maxCoverage alpha) color.argb
    let boxed := { scanner with boundingBox := some (cells.box scanner.grid) }
    pure ((boxed.remember maxCoverage alpha).draw touches)

/-- The current path as a rectangle to be filled with a flat color. -/
def filledRect? (scanner : Scanner) : Option (Rect × Color) :=
  match scanner.cache, scanner.paint.solidColor?, scanner.probe.rect? with
  | none, some color, some rect => some (rect, color)
  | _, _, _ => none

/-- Ends the path and draws it. -/
def finish (scanner : Scanner) : Except Fault Scanner := do
  let closed := scanner.closeSubpath
  let drawn ←
    match closed.filledRect? with
    | some (rect, color) => closed.fillRect rect color
    | none => closed.rasterize
  pure drawn.reset

/-- Answers one command. -/
def step (scanner : Scanner) : LineCommand → Except Fault Scanner
  | .moveTo point => .ok (scanner.moveTo point)
  | .lineJoin => .ok scanner
  | .lineTo point => .ok (scanner.lineTo point)
  | .close => .ok scanner.close
  | .finish => scanner.finish

/-- Answers a list of commands. -/
def send (scanner : Scanner) (commands : List LineCommand) : Except Fault Scanner :=
  commands.foldlM step scanner

/-- Draws a recorded path with the current paint.  An invalid cache and a degenerate
paint leave everything as it is. -/
def replay (scanner : Scanner) (cache : CoverageCache) : Except Fault Scanner := do
  if !cache.isValid || scanner.paint.isDegenerate then
    pure scanner
  else
    let alphas := scanner.alphas cache.maxCoverage
    let remembering := scanner.remember cache.maxCoverage scanner.sourceAlpha
    let drawn ← cache.rows.foldlM (drawRuns alphas) remembering
    pure { drawn with boundingBox := cache.boundingBox }

end Scanner

end Raster
