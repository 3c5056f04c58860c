import Raster.Proofs.Coverage.Touching
import Raster.Proofs.Scan.Reusing
import Raster.Proofs.Scan.Tracing

/-!
# Compositing rows

Rows are composited one after another.  On the surface this is no fault exactly if their
values are in the alpha table and the paint has their colors, and what is drawn depends on the
surface and the paint only.
-/

namespace Raster

namespace Scanner

/-- The touches of a row of pixels. -/
def touchesOver (scanner : Scanner) (alphas : Array Nat) (x y : Int) (count : Nat)
    (touches : RowTarget → Except Fault (List Touch)) : Except Fault (List Touch) := do
  touches (scanner.target alphas (← scanner.paint.rowSource x y count))

/-- The touches of a row of coverage. -/
def rowTouches (scanner : Scanner) (alphas : Array Nat) (row : CoverageRow) :
    Except Fault (List Touch) :=
  scanner.touchesOver alphas row.x row.y row.values.length row.touches

/-- The touches of a row of runs. -/
def runTouches (scanner : Scanner) (alphas : Array Nat) (row : RunRow) :
    Except Fault (List Touch) :=
  scanner.touchesOver alphas row.x row.y (RunRow.count row.runs) row.touches

/-- The touches of a row depend only on the size of the surface and on the paint. -/
theorem touchesOver_congr {scanner other : Scanner}
    (width : other.surface.width = scanner.surface.width)
    (height : other.surface.height = scanner.surface.height)
    (paint : other.paint = scanner.paint) : other.touchesOver = scanner.touchesOver := by
  funext alphas x y count touches
  simp only [touchesOver, target, width, height, paint]

@[simp]
theorem touchesOver_drawFrom (scanner : Scanner) (source : RowSource) (drawn : List Touch) :
    (scanner.drawFrom source drawn).touchesOver = scanner.touchesOver :=
  touchesOver_congr (scanner.surface.width_draw drawn) (scanner.surface.height_draw drawn) rfl

/-- Drawing a row is drawing its touches, unless they have a fault. -/
theorem drawOver_cases {scanner : Scanner} (sound : scanner.paint.isDegenerate = false)
    (alphas : Array Nat) (x y : Int) (count : Nat)
    (touches : RowTarget → Except Fault (List Touch)) :
    (∃ fault, scanner.drawOver alphas x y count touches = .error fault ∧
      scanner.touchesOver alphas x y count touches = .error fault) ∨
    ∃ source here, scanner.drawOver alphas x y count touches = .ok (scanner.drawFrom source here) ∧
      scanner.touchesOver alphas x y count touches = .ok here := by
  rw [drawOver, source_eq sound, touchesOver]
  cases scanner.paint.rowSource x y count with
  | error fault => exact .inl ⟨fault, rfl, rfl⟩
  | ok source =>
      simp only [bind, Except.bind]
      cases touches (scanner.target alphas source) with
      | error fault => exact .inl ⟨fault, rfl, rfl⟩
      | ok here => exact .inr ⟨source, here, rfl, rfl⟩

/-- Drawing rows one after another is drawing all their touches, unless one has a fault. -/
theorem map_bare_foldlM_drawOver {ρ : Type} (alphas : Array Nat) (x y : ρ → Int) (count : ρ → Nat)
    (touches : ρ → RowTarget → Except Fault (List Touch)) {scanner : Scanner}
    (sound : scanner.paint.isDegenerate = false) (rows : List ρ) :
    (rows.foldlM (fun before row =>
        drawOver before alphas (x row) (y row) (count row) (touches row)) scanner).map bare =
      (rows.mapM fun row =>
        scanner.touchesOver alphas (x row) (y row) (count row) (touches row)).map fun drawn =>
          (scanner.draw drawn.flatten).bare := by
  induction rows generalizing scanner with
  | nil => rfl
  | cons row rest inductionHypothesis =>
      rw [List.foldlM_cons, List.mapM_cons]
      rcases drawOver_cases sound alphas (x row) (y row) (count row) (touches row) with
        ⟨fault, stepped, touched⟩ | ⟨source, here, stepped, touched⟩
      · rw [stepped, touched]
        rfl
      · -- What is drawn changes the touches of no later row.
        have later := @inductionHypothesis (scanner.drawFrom source here) sound
        rw [touchesOver_drawFrom] at later
        rw [stepped, touched]
        refine later.trans ?_
        cases rest.mapM fun row =>
            scanner.touchesOver alphas (x row) (y row) (count row) (touches row) with
        | error fault => rfl
        | ok all =>
            change Except.ok ((scanner.draw here).draw all.flatten).bare =
              Except.ok (scanner.draw (here :: all).flatten).bare
            rw [List.flatten_cons]
            simp only [Scanner.draw, Surface.draw_append]

theorem map_bare_foldlM_drawRow (alphas : Array Nat) {scanner : Scanner}
    (sound : scanner.paint.isDegenerate = false) (rows : List CoverageRow) :
    (rows.foldlM (drawRow alphas) scanner).map bare =
      (rows.mapM (scanner.rowTouches alphas)).map fun drawn =>
        (scanner.draw drawn.flatten).bare :=
  map_bare_foldlM_drawOver alphas CoverageRow.x CoverageRow.y
    (fun row => row.values.length) CoverageRow.touches sound rows

theorem map_bare_foldlM_drawRuns (alphas : Array Nat) {scanner : Scanner}
    (sound : scanner.paint.isDegenerate = false) (rows : List RunRow) :
    (rows.foldlM (drawRuns alphas) scanner).map bare =
      (rows.mapM (scanner.runTouches alphas)).map fun drawn =>
        (scanner.draw drawn.flatten).bare :=
  map_bare_foldlM_drawOver alphas RunRow.x RunRow.y (fun row => RunRow.count row.runs)
    RunRow.touches sound rows

/-- What rows of coverage draw, if they have no fault. -/
theorem exists_of_foldlM_drawRow {alphas : Array Nat} {scanner drawn : Scanner}
    (sound : scanner.paint.isDegenerate = false) {rows : List CoverageRow}
    (done : rows.foldlM (drawRow alphas) scanner = .ok drawn) :
    ∃ touches, rows.mapM (scanner.rowTouches alphas) = .ok touches ∧
      drawn = { scanner.draw touches.flatten with scratch := drawn.scratch } := by
  have answered := map_bare_foldlM_drawRow alphas sound rows
  rw [done] at answered
  obtain ⟨touches, touched, same⟩ := exists_of_map_eq_ok answered.symm
  exact ⟨touches, touched, eq_of_bare_eq same.symm⟩

/-- The pixels of the row lie on the surface. -/
def Shows (scanner : Scanner) (row : CoverageRow) : Prop :=
  ∀ alphas source, (scanner.target alphas source).Shows row.x row.y row.values.length

theorem Shows.congr {scanner other : Scanner} {row : CoverageRow} (shown : scanner.Shows row)
    (width : other.surface.width = scanner.surface.width)
    (height : other.surface.height = scanner.surface.height) : other.Shows row := by
  intro alphas source
  have here := shown alphas source
  simp only [target, width, height] at here ⊢
  exact here

theorem Shows.draw {scanner : Scanner} {row : CoverageRow} (shown : scanner.Shows row)
    (touches : List Touch) : (scanner.draw touches).Shows row :=
  shown.congr (scanner.surface.width_draw touches) (scanner.surface.height_draw touches)

/-- The paint has a color for each pixel of the row. -/
def Colors (scanner : Scanner) (row : CoverageRow) : Prop :=
  ∃ source, scanner.paint.rowSource row.x row.y row.values.length = .ok source

theorem colors_of_isWhole {scanner : Scanner} (whole : scanner.paint.IsWhole)
    (sound : scanner.paint.isDegenerate = false) (row : CoverageRow) : scanner.Colors row :=
  whole.exists_rowSource sound row.x row.y row.values.length

/-- A row on the surface with colors is touched without a fault if its values are in the table. -/
theorem Shows.exists_rowTouches {scanner : Scanner} {row : CoverageRow} (shown : scanner.Shows row)
    (colored : scanner.Colors row) {alphas : Array Nat}
    (inTable : ∀ value ∈ row.values, value < alphas.size) :
    ∃ touches, scanner.rowTouches alphas row = .ok touches := by
  obtain ⟨source, colored⟩ := colored
  rw [rowTouches, touchesOver, colored]
  exact ⟨_, CoverageRow.touches_eq_ok (shown alphas source) inTable⟩

/-- A row on the surface that is touched without a fault has colors, and its values are in the
table. -/
theorem Shows.of_rowTouches {scanner : Scanner} {row : CoverageRow} (shown : scanner.Shows row)
    {alphas : Array Nat} {touches : List Touch}
    (touched : scanner.rowTouches alphas row = .ok touches) :
    scanner.Colors row ∧ ∀ value ∈ row.values, value < alphas.size := by
  obtain ⟨source, colored, here⟩ := exists_of_bind_eq_ok touched
  exact ⟨⟨source, colored⟩, CoverageRow.lt_size_of_touches (shown alphas source)
    (Nat.le_of_eq (Paint.length_colors_rowSource colored).symm) here⟩

/-- Rows on the surface are drawn without a fault if they have colors and their values are in the
table. -/
theorem exists_foldlM_drawRow {alphas : Array Nat} {rows : List CoverageRow} {scanner : Scanner}
    (sound : scanner.paint.isDegenerate = false) (shown : ∀ row ∈ rows, scanner.Shows row)
    (colored : ∀ row ∈ rows, scanner.Colors row)
    (inTable : ∀ row ∈ rows, ∀ value ∈ row.values, value < alphas.size) :
    ∃ drawn, rows.foldlM (drawRow alphas) scanner = .ok drawn := by
  obtain ⟨touches, answered⟩ := exists_mapM_eq_ok fun row member =>
    (shown row member).exists_rowTouches (colored row member) (inTable row member)
  have drawn := map_bare_foldlM_drawRow alphas sound rows
  rw [answered] at drawn
  obtain ⟨result, done, _⟩ := exists_of_map_eq_ok drawn
  exact ⟨result, done⟩

/-- Rows on the surface that are drawn without a fault have colors, and their values are in the
table. -/
theorem lt_size_of_foldlM_drawRow {alphas : Array Nat} {rows : List CoverageRow}
    {scanner drawn : Scanner} (sound : scanner.paint.isDegenerate = false)
    (shown : ∀ row ∈ rows, scanner.Shows row)
    (drawnRows : rows.foldlM (drawRow alphas) scanner = .ok drawn) :
    ∀ row ∈ rows, scanner.Colors row ∧ ∀ value ∈ row.values, value < alphas.size := by
  intro row member
  obtain ⟨results, answered, _⟩ := exists_of_foldlM_drawRow sound drawnRows
  obtain ⟨touches, here⟩ := exists_eq_ok_of_mapM answered member
  exact (shown row member).of_rowTouches here

/-- Rows of runs are drawn like the rows of their values. -/
theorem foldlM_drawRuns_encoded {alphas : Array Nat} {rows : List CoverageRow}
    {scanner : Scanner} (sound : scanner.paint.isDegenerate = false)
    (shown : ∀ row ∈ rows, scanner.Shows row)
    (inTable : ∀ row ∈ rows, ∀ value ∈ row.values, value < alphas.size) :
    (rows.map CoverageRow.encoded).foldlM (drawRuns alphas) scanner =
      rows.foldlM (drawRow alphas) scanner := by
  induction rows generalizing scanner with
  | nil => rfl
  | cons row rest inductionHypothesis =>
      have inTableHere := inTable row List.mem_cons_self
      have counted : RunRow.count row.encoded.runs = row.values.length :=
        RunRow.count_runs row.values
      have same : drawRuns alphas scanner row.encoded = drawRow alphas scanner row := by
        rw [drawRuns, drawRow, counted, drawOver, drawOver]
        change (scanner.source row.x row.y row.values.length >>= _) = _
        rw [source_eq sound]
        cases colored : scanner.paint.rowSource row.x row.y row.values.length with
        | error fault => rfl
        | ok source =>
            have shownHere := shown row List.mem_cons_self alphas source
            obtain ⟨touches, found, equal⟩ := RunRow.exists_touches_encoded shownHere
              (Paint.length_colors_rowSource colored) inTableHere
            change (row.encoded.touches _ >>= _) = (row.touches _ >>= _)
            rw [found, CoverageRow.touches_eq_ok shownHere inTableHere]
            change Except.ok (scanner.drawFrom source touches) = Except.ok _
            simp only [drawFrom, Scanner.draw, equal]
      rw [List.map_cons, List.foldlM_cons, List.foldlM_cons, same]
      cases drawnHere : drawRow alphas scanner row with
      | error fault => rfl
      | ok next =>
          obtain ⟨source, _, drew⟩ := exists_of_bind_eq_ok drawnHere
          obtain ⟨touches, _, updated⟩ := exists_of_bind_eq_ok drew
          cases updated
          have shownNext : ∀ other ∈ rest, (scanner.drawFrom source touches).Shows other :=
            fun other member => (shown other (List.mem_cons_of_mem _ member)).draw touches
          exact inductionHypothesis sound shownNext
            fun other member => inTable other (List.mem_cons_of_mem _ member)

theorem replay_of_isDegenerate {scanner : Scanner} {cache : CoverageCache}
    (idle : cache.isValid = false ∨ scanner.paint.isDegenerate = true) :
    scanner.replay cache = .ok scanner := by
  rw [replay, if_pos]
  · rfl
  · rcases idle with invalid | degenerate
    · rw [invalid]
      rfl
    · rw [degenerate, Bool.or_true]

/-- What a replay draws, but for what is kept of it. -/
theorem map_bare_replay {scanner : Scanner} {cache : CoverageCache} (valid : cache.isValid = true)
    (sound : scanner.paint.isDegenerate = false) :
    (scanner.replay cache).map bare =
      (cache.rows.mapM (scanner.runTouches (scanner.alphas cache.maxCoverage))).map fun drawn =>
        { scanner.draw drawn.flatten with boundingBox := cache.boundingBox : Scanner }.bare := by
  have soundHere : (scanner.remember cache.maxCoverage scanner.sourceAlpha).paint.isDegenerate =
      false := sound
  have runs : _ = (cache.rows.mapM (scanner.runTouches (scanner.alphas cache.maxCoverage))).map _ :=
    map_bare_foldlM_drawRuns (scanner.alphas cache.maxCoverage) soundHere cache.rows
  have boxed : ∀ answer : Except Fault Scanner,
      (answer >>= fun drawn =>
        pure { drawn with boundingBox := cache.boundingBox : Scanner }).map bare =
      (answer.map bare).map fun drawn => { drawn with boundingBox := cache.boundingBox } := by
    intro answer
    cases answer <;> rfl
  simp only [replay, valid, sound, Bool.not_true, Bool.or_self, Bool.false_eq_true, if_false]
  rw [boxed, runs, map_map]
  rfl

/-- A replay draws and changes nothing else but the bounding box and what is kept of drawings. -/
theorem exists_of_replay {scanner replayed : Scanner} {cache : CoverageCache}
    (done : scanner.replay cache = .ok replayed) :
    ∃ touches box scratch, replayed =
      { scanner with
        surface := scanner.surface.draw touches
        boundingBox := box
        scratch := scratch } := by
  by_cases idle : cache.isValid = false ∨ scanner.paint.isDegenerate = true
  · rw [replay_of_isDegenerate idle] at done
    cases done
    exact ⟨[], scanner.boundingBox, scanner.scratch, rfl⟩
  · obtain ⟨valid, sound⟩ := not_or.mp idle
    have replays := map_bare_replay (Bool.not_eq_false _ ▸ valid) (Bool.not_eq_true _ ▸ sound)
    rw [done] at replays
    obtain ⟨drawn, _, same⟩ := exists_of_map_eq_ok replays.symm
    exact ⟨drawn.flatten, cache.boundingBox, replayed.scratch, eq_of_bare_eq same.symm⟩

/-- A cache whose runs have no value beyond its table is replayed on every scanner whose paint lacks
no colors. -/
theorem exists_replay_of_le {cache : CoverageCache}
    (inTable : ∀ row ∈ cache.rows, ∀ run ∈ row.runs, run.1 ≤ cache.maxCoverage)
    {scanner : Scanner} (whole : scanner.paint.IsWhole) :
    ∃ replayed, scanner.replay cache = .ok replayed := by
  by_cases idle : cache.isValid = false ∨ scanner.paint.isDegenerate = true
  · exact ⟨scanner, replay_of_isDegenerate idle⟩
  · obtain ⟨valid, notDegenerate⟩ := not_or.mp idle
    have sound : scanner.paint.isDegenerate = false := Bool.not_eq_true _ ▸ notDegenerate
    have size : cache.maxCoverage < (scanner.alphas cache.maxCoverage).size := by
      rw [alphas_eq, Alpha.size_table]
      omega
    have touchable : ∀ row ∈ cache.rows, ∃ touches,
        scanner.runTouches (scanner.alphas cache.maxCoverage) row = .ok touches := by
      intro row member
      obtain ⟨source, colored⟩ :=
        whole.exists_rowSource sound row.x row.y (RunRow.count row.runs)
      rw [runTouches, touchesOver, colored]
      change ∃ touches, row.touches (scanner.target _ source) = .ok touches
      unfold RunRow.touches
      split
      · apply RunRow.exists_touchesFrom_eq_ok
        intro run runMember
        exact Nat.lt_of_le_of_lt (inTable row member run runMember) size
      · exact ⟨[], rfl⟩
    obtain ⟨touches, answered⟩ := exists_mapM_eq_ok touchable
    have replays := map_bare_replay (Bool.not_eq_false _ ▸ valid) sound
    rw [answered] at replays
    obtain ⟨replayed, done, _⟩ := exists_of_map_eq_ok replays
    exact ⟨replayed, done⟩

/-- A recorded path whose values its table has is replayed on every scanner whose paint lacks no
colors. -/
theorem exists_replay {cache : CoverageCache} {rows : List CoverageRow}
    (recorded : cache.rows = rows.map CoverageRow.encoded)
    (inTable : ∀ row ∈ rows, ∀ value ∈ row.values, value ≤ cache.maxCoverage)
    {scanner : Scanner} (whole : scanner.paint.IsWhole) :
    ∃ replayed, scanner.replay cache = .ok replayed := by
  refine exists_replay_of_le ?_ whole
  rw [recorded]
  intro row member run runMember
  obtain ⟨source, sourceMember, rfl⟩ := List.mem_map.mp member
  exact inTable source sourceMember run.1 (RunRow.fst_mem_of_mem_runs runMember)

theorem Ready.replay {scanner replayed : Scanner} (ready : scanner.Ready)
    {cache : CoverageCache} (done : scanner.replay cache = .ok replayed) : replayed.Ready := by
  obtain ⟨touches, box, scratch, rfl⟩ := exists_of_replay done
  obtain ⟨lgX, lgY, clip⟩ := ready
  exact ⟨lgX, lgY, clip.of_bounds_eq (scanner.surface.bounds_draw touches)⟩

/-- What rows draw depends only on the surface and the paint. -/
theorem exists_foldlM_drawRow_congr {scanner other : Scanner}
    (surface : other.surface = scanner.surface) (paint : other.paint = scanner.paint)
    (sound : scanner.paint.isDegenerate = false) {alphas : Array Nat} {rows : List CoverageRow}
    {drawn : Scanner} (drawnRows : rows.foldlM (drawRow alphas) scanner = .ok drawn) :
    ∃ scratch, rows.foldlM (drawRow alphas) other =
      .ok { other with surface := drawn.surface, scratch := scratch } := by
  obtain ⟨touches, answered, drew⟩ := exists_of_foldlM_drawRow sound drawnRows
  have alike : other.rowTouches alphas = scanner.rowTouches alphas := by
    funext row
    rw [rowTouches, rowTouches, touchesOver_congr (congrArg Surface.width surface)
      (congrArg Surface.height surface) paint]
  have otherSound : other.paint.isDegenerate = false := paint ▸ sound
  have rows := map_bare_foldlM_drawRow alphas otherSound rows
  rw [alike, answered] at rows
  obtain ⟨result, done, same⟩ := exists_of_map_eq_ok rows
  refine ⟨result.scratch, done.trans (congrArg Except.ok ?_)⟩
  rw [drew]
  simp only [Scanner.draw, ← surface]
  exact eq_of_bare_eq same

end Scanner

end Raster
