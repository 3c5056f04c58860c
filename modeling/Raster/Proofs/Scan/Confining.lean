import Raster.Proofs.Coverage.Confining
import Raster.Proofs.Scan.Rectangle
import Raster.Scan.Call

/-!
# Where a scanner draws

The pixels that a scanner accesses are told apart from what it draws there.  The end of a path
and the clearing of a rectangle access pixels inside the clip box, and a replay accesses pixels
of the surface, wherever its cache was recorded.  This rests on what all calls keep: the clip
box lies on the surface, and the surface is one that its constructor has accepted.
-/

namespace Raster

/-- Filling cells touches only those pixels of their box that are on the surface. -/
theorem CellRect.bounds_of_mem_touches {grid : Grid} {cells : CellRect} {width height : Nat}
    {alphas : Array Nat} {argb : Nat} {touches : List Touch}
    (touched : cells.touches grid width height alphas argb = .ok touches) {touch : Touch}
    (member : touch ∈ touches) :
    cells.isEmpty = false ∧
      ((cells.box grid).left ≤ touch.x ∧ touch.x < (cells.box grid).right) ∧
      ((cells.box grid).top ≤ touch.y ∧ touch.y < (cells.box grid).bottom) ∧
      (0 ≤ touch.x ∧ touch.x < width) ∧ 0 ≤ touch.y ∧ touch.y < height := by
  unfold CellRect.touches at touched
  split at touched
  · cases touched
    cases member
  · rename_i nonempty
    obtain ⟨⟨x, y⟩, position, answered⟩ := exists_of_mem_mapM touched member
    obtain ⟨opacity, _, rfl⟩ := exists_of_map_eq_ok answered
    simp only [pixels, List.mem_flatMap, List.mem_map, List.mem_range, Prod.mk.injEq] at position
    obtain ⟨line, ⟨row, rowLt, rfl⟩, column, ⟨index, indexLt, rfl⟩, rfl, rfl⟩ := position
    refine ⟨Bool.eq_false_iff.mpr nonempty, ?_⟩
    simp only
    omega

/-- A nonempty intersection lies in the second box. -/
theorem PixelBox.bounds_of_intersection? {box other common : PixelBox}
    (meets : box.intersection? other = some common) :
    other.left ≤ common.left ∧ common.left < common.right ∧ common.right ≤ other.right ∧
      other.top ≤ common.top ∧ common.top < common.bottom ∧ common.bottom ≤ other.bottom := by
  simp only [intersection?] at meets
  split at meets
  · cases meets
  · rename_i nonempty
    cases meets
    simp only [isEmpty, Bool.or_eq_true, decide_eq_true_eq, not_or] at nonempty
    simp only
    omega

/-- Within the greatest size of a surface an extent does not saturate. -/
theorem Word.clamp32_add_clamp32_sub {first stop : Int} (nonneg : 0 ≤ first)
    (ordered : first ≤ stop) (small : stop ≤ Surface.maxSize) :
    clamp32 (first + clamp32 (stop - first)) = stop := by
  unfold Surface.maxSize at small
  have fits : ∀ value, 0 ≤ value → value ≤ stop → clamp32 value = value := by
    intro value low high
    apply clamp32_eq_self
    unfold Fits32 min32 max32
    omega
  rw [fits (stop - first) (by omega) (by omega),
    fits (first + (stop - first)) (by omega) (by omega)]
  omega

theorem Surface.confines_of_touches {surface : Surface} (accepted : surface.Accepted)
    {box : PixelBox} {touches : List Touch}
    (inside : ∀ touch ∈ touches, box.contains touch.x touch.y = true ∧
      surface.HasPixel touch.pixel) :
    surface.Confines box (touches.map Touch.pixel) (surface.draw touches) := by
  constructor
  · intro pixel member
    obtain ⟨touch, touchMember, rfl⟩ := List.mem_map.mp member
    exact (inside touch touchMember).1
  · intro pixel member
    obtain ⟨touch, touchMember, rfl⟩ := List.mem_map.mp member
    exact accepted.indexOf_lt _ (inside touch touchMember).2
  · exact surface.changesOnly_draw touches

namespace Scanner

/-! ## Accesses -/

/-- The touches of rows up to the first one that is a fault, before which nothing of that row
is touched. -/
def untilFault : List (Except Fault (List Touch)) → List Touch
  | .ok touches :: rest => touches ++ untilFault rest
  | _ => []

theorem untilFault_singleton (touches : List Touch) : untilFault [.ok touches] = touches :=
  List.append_nil touches

theorem exists_of_mem_untilFault {rows : List (Except Fault (List Touch))} {touch : Touch}
    (member : touch ∈ untilFault rows) : ∃ touches, .ok touches ∈ rows ∧ touch ∈ touches := by
  induction rows with
  | nil => cases member
  | cons row rest inductionHypothesis =>
      cases row with
      | error fault => cases member
      | ok touches =>
          rcases List.mem_append.mp member with here | later
          · exact ⟨touches, List.mem_cons_self, here⟩
          · obtain ⟨others, othersMember, found⟩ := inductionHypothesis later
            exact ⟨others, List.mem_cons_of_mem _ othersMember, found⟩

/-- Without a fault all rows are touched. -/
theorem untilFault_map {ρ : Type} {rowTouches : ρ → Except Fault (List Touch)} {rows : List ρ}
    {touches : List (List Touch)} (answered : rows.mapM rowTouches = .ok touches) :
    untilFault (rows.map rowTouches) = touches.flatten := by
  induction rows generalizing touches with
  | nil =>
      cases answered
      rfl
  | cons row rest inductionHypothesis =>
      rw [List.mapM_cons] at answered
      obtain ⟨first, here, continued⟩ := exists_of_bind_eq_ok answered
      obtain ⟨others, later, done⟩ := exists_of_bind_eq_ok continued
      cases done
      rw [List.map_cons, here, untilFault, inductionHypothesis later, List.flatten_cons]

/-- The touches with which a closed path is drawn.  There are none while paths are recorded or
the paint is degenerate. -/
def pathTouches (scanner : Scanner) : List Touch :=
  match scanner.filledRect? with
  | some (rect, color) =>
      untilFault
        [(CellRect.ofRect scanner.grid scanner.clip rect).touches scanner.grid
          scanner.surface.width scanner.surface.height
          (Alpha.table scanner.grid.maxCoverage color.alpha.toNat) color.argb]
  | none =>
      if scanner.cache.isSome || scanner.paint.isDegenerate then
        []
      else
        untilFault (scanner.coverageRows.map
          (scanner.rowTouches (scanner.alphas scanner.grid.maxCoverage)))

/-- The touches with which a recorded path is drawn again. -/
def replayTouches (scanner : Scanner) (cache : CoverageCache) : List Touch :=
  if !cache.isValid || scanner.paint.isDegenerate then
    []
  else
    untilFault (cache.rows.map (scanner.runTouches (scanner.alphas cache.maxCoverage)))

/-- The pixels of a rectangle that are cleared. -/
def clearedPixels (scanner : Scanner) (x y width height : Int) : List (Int × Int) :=
  match (PixelBox.ofSize x y (max width 0) (max height 0)).intersection? scanner.clip with
  | none => []
  | some box => scanner.surface.visible box

theorem surface_of_rasterize {scanner drawn : Scanner} (noRect : scanner.filledRect? = none)
    (rasterized : scanner.rasterize = .ok drawn) :
    drawn.surface = scanner.surface.draw scanner.pathTouches := by
  cases attached : scanner.cache with
  | some cache =>
      obtain ⟨scratch, recorded⟩ := exists_rasterize_of_cache attached
      rw [recorded] at rasterized
      cases rasterized
      simp only [pathTouches, noRect, attached, Option.isSome_some, Bool.true_or, if_true]
      rfl
  | none =>
      cases degenerate : scanner.paint.isDegenerate with
      | true =>
          rw [rasterize_of_isDegenerate attached degenerate] at rasterized
          cases rasterized
          simp only [pathTouches, noRect, degenerate, Bool.or_true, if_true]
          rfl
      | false =>
          have answered := map_bare_rasterize attached degenerate
          rw [rasterized] at answered
          obtain ⟨touches, touched, same⟩ := exists_of_map_eq_ok answered.symm
          simp only [pathTouches, noRect, attached, degenerate, Option.isSome_none, Bool.or_self,
            Bool.false_eq_true, if_false, untilFault_map touched]
          exact (congrArg Scanner.surface same :).symm

theorem surface_closeSubpath (scanner : Scanner) :
    scanner.closeSubpath.surface = scanner.surface := by
  rw [closeSubpath_eq]

/-- The end of a path draws the touches of the closed path. -/
theorem surface_of_finish {scanner drawn : Scanner} (finished : scanner.finish = .ok drawn) :
    drawn.surface = scanner.surface.draw scanner.closeSubpath.pathTouches := by
  rw [← scanner.surface_closeSubpath]
  cases rect : scanner.closeSubpath.filledRect? with
  | none =>
      rw [finish_of_noRect rect] at finished
      obtain ⟨swept, rasterized, done⟩ := exists_of_bind_eq_ok finished
      cases done
      exact (surface_of_rasterize rect rasterized :)
  | some filled =>
      obtain ⟨rect', color⟩ := filled
      simp only [finish, rect] at finished
      obtain ⟨filled, answered, done⟩ := exists_of_bind_eq_ok finished
      cases done
      simp only [pathTouches, rect]
      simp only [fillRect, alphaTable_eq] at answered
      split at answered
      · rename_i empty
        cases answered
        rw [CellRect.touches, if_pos empty, untilFault_singleton]
        rfl
      · obtain ⟨touches, touched, drew⟩ := exists_of_bind_eq_ok answered
        cases drew
        rw [touched, untilFault_singleton]
        rfl

/-- A replay draws the touches of the recorded path. -/
theorem surface_of_replay {scanner drawn : Scanner} {cache : CoverageCache}
    (replayed : scanner.replay cache = .ok drawn) :
    drawn.surface = scanner.surface.draw (scanner.replayTouches cache) := by
  by_cases idle : cache.isValid = false ∨ scanner.paint.isDegenerate = true
  · rw [replay_of_isDegenerate idle] at replayed
    cases replayed
    rw [replayTouches, if_pos]
    · rfl
    · rcases idle with invalid | degenerate
      · rw [invalid, Bool.not_false, Bool.true_or]
      · rw [degenerate, Bool.or_true]
  · obtain ⟨notInvalid, notDegenerate⟩ := not_or.mp idle
    have valid : cache.isValid = true := Bool.not_eq_false _ ▸ notInvalid
    have sound : scanner.paint.isDegenerate = false := Bool.not_eq_true _ ▸ notDegenerate
    have answered := map_bare_replay valid sound
    rw [replayed] at answered
    obtain ⟨touches, touched, same⟩ := exists_of_map_eq_ok answered.symm
    simp only [replayTouches, valid, sound, Bool.not_true, Bool.or_self, Bool.false_eq_true,
      if_false, untilFault_map touched]
    exact (congrArg Scanner.surface same :).symm

/-- Clearing a rectangle changes only the surface. -/
theorem clearRect_eq (scanner : Scanner) (x y width height : Int) (color : Color) :
    scanner.clearRect x y width height color =
      { scanner with surface := (scanner.clearRect x y width height color).surface } := by
  cases meets : (PixelBox.ofSize x y (max width 0) (max height 0)).intersection? scanner.clip with
  | none => simp only [clearRect, meets]
  | some box => simp only [clearRect, meets]

/-- Clearing a rectangle overwrites the cleared pixels. -/
theorem surface_clearRect (scanner : Scanner) (x y width height : Int) (color : Color) :
    (scanner.clearRect x y width height color).surface =
      (scanner.clearedPixels x y width height).foldl
        (fun surface (x, y) => surface.store color.argb x y) scanner.surface := by
  cases meets : (PixelBox.ofSize x y (max width 0) (max height 0)).intersection? scanner.clip with
  | none => simp only [clearRect, clearedPixels, meets, List.foldl_nil]
  | some box => simp only [clearRect, clearedPixels, meets, Surface.fill]

/-! ## One operation -/

/-- What all calls to a scanner keep: it is ready for every path, on an accepted surface. -/
structure Placed (scanner : Scanner) : Prop where
  ready : scanner.Ready
  accepted : scanner.surface.Accepted

/-- Pixels inside the clip box are pixels of the surface. -/
theorem Ready.hasPixel_of_contains {scanner : Scanner} (ready : scanner.Ready) {x y : Int}
    (contained : scanner.clip.contains x y = true) : scanner.surface.HasPixel (x, y) := by
  obtain ⟨leftNonneg, topNonneg, _, _, rightLe, bottomLe⟩ := ready.clip
  obtain ⟨widthLe, heightLe⟩ := scanner.surface.bounds_le
  rw [PixelBox.contains_iff] at contained
  simp only [Surface.HasPixel]
  omega

/-- Touches inside the clip box are confined to it. -/
theorem Placed.confines {scanner : Scanner} (placed : scanner.Placed) {touches : List Touch}
    (contained : ∀ touch ∈ touches, scanner.clip.contains touch.x touch.y = true) :
    scanner.surface.Confines scanner.clip (touches.map Touch.pixel)
      (scanner.surface.draw touches) :=
  Surface.confines_of_touches placed.accepted fun touch member =>
    ⟨contained touch member, placed.ready.hasPixel_of_contains (contained touch member)⟩

/-- The end of a path whose edges were clipped to the clip box accesses pixels inside it. -/
theorem Placed.confines_path {scanner : Scanner} (placed : scanner.Placed) {trace : Trace}
    (follows : scanner.Follows trace) :
    scanner.surface.Confines scanner.clip (scanner.closeSubpath.pathTouches.map Touch.pixel)
      (scanner.surface.draw scanner.closeSubpath.pathTouches) := by
  have clip := placed.ready.clip
  have segments := follows.closeSubpath
  obtain ⟨edges, closed⟩ := scanner.exists_closeSubpath_eq
  rw [closed] at segments ⊢
  apply placed.confines
  intro touch member
  rw [PixelBox.contains_iff]
  unfold pathTouches at member
  split at member
  · rename_i rect color filled
    obtain ⟨touches, listed, found⟩ := exists_of_mem_untilFault member
    have touched := (List.mem_singleton.mp listed).symm
    obtain ⟨nonempty, ⟨left, right⟩, ⟨top, bottom⟩, _⟩ :=
      CellRect.bounds_of_mem_touches touched found
    have encloses : Sweep.Encloses scanner.frame _ :=
      Sweep.encloses_ofRect clip.left_le clip.top_le rfl nonempty
    obtain ⟨⟨clipLeft, _, clipRight⟩, clipTop, _, clipBottom⟩ := encloses.box
    exact ⟨⟨clipLeft.trans left, right.trans_le clipRight⟩, clipTop.trans top,
      bottom.trans_le clipBottom⟩
  · split at member
    · cases member
    · obtain ⟨touches, listed, touchMember⟩ := exists_of_mem_untilFault member
      obtain ⟨row, covered, answered⟩ := List.mem_map.mp listed
      obtain ⟨source, _, rowTouched⟩ := exists_of_bind_eq_ok answered
      obtain ⟨_, _, onLine, left, right⟩ :=
        CoverageRow.bounds_of_mem_touches rowTouched touchMember
      have traced : edges.toList =
        Edge.ofSegments scanner.frame.grid scanner.frame.clip trace.closed := segments
      change row ∈ Sweep.coverageRows scanner.frame edges.toList at covered
      rw [traced] at covered
      obtain ⟨⟨clipLeft, clipRight⟩, clipTop, clipBottom⟩ :=
        Sweep.bounds_of_mem_coverageRows placed.ready.width_eq covered
      rw [onLine]
      exact ⟨⟨clipLeft.trans left, right.trans_le clipRight⟩, clipTop, clipBottom⟩

/-- Clearing a rectangle accesses pixels inside the clip box. -/
theorem Placed.confines_clearRect {scanner : Scanner} (placed : scanner.Placed)
    (x y width height : Int) (color : Color) :
    scanner.surface.Confines scanner.clip (scanner.clearedPixels x y width height)
      (scanner.clearRect x y width height color).surface := by
  have ready := placed.ready
  cases meets : (PixelBox.ofSize x y (max width 0) (max height 0)).intersection? scanner.clip with
  | none =>
      simp only [clearedPixels, clearRect, meets]
      exact ⟨fun _ absent => absurd absent List.not_mem_nil,
        fun _ absent => absurd absent List.not_mem_nil, Surface.ChangesOnly.refl _ _⟩
  | some box =>
      simp only [clearedPixels, clearRect, meets]
      have inClip : ∀ pixel ∈ scanner.surface.visible box,
          scanner.clip.contains pixel.1 pixel.2 = true := by
        intro pixel member
        obtain ⟨⟨left, right⟩, ⟨top, bottom⟩, _⟩ := Surface.hasPixel_of_mem_visible member
        obtain ⟨clipLeft, _, clipRight, clipTop, _, clipBottom⟩ :=
          PixelBox.bounds_of_intersection? meets
        obtain ⟨clipLeftNonneg, clipTopNonneg, _, _, clipRightLe, clipBottomLe⟩ := ready.clip
        obtain ⟨rightLe, bottomLe⟩ := scanner.surface.bounds_le
        have widthLe := placed.accepted.width_le
        have heightLe := placed.accepted.height_le
        rw [PixelBox.width, Word.clamp32_add_clamp32_sub (by omega) (by omega)
          (Int.le_trans (by omega) (Int.ofNat_le.mpr widthLe))] at right
        rw [PixelBox.height, Word.clamp32_add_clamp32_sub (by omega) (by omega)
          (Int.le_trans (by omega) (Int.ofNat_le.mpr heightLe))] at bottom
        rw [PixelBox.contains_iff]
        omega
      refine ⟨inClip, ?_, scanner.surface.changesOnly_fill box color.argb⟩
      intro pixel member
      exact placed.accepted.indexOf_lt _ (Surface.hasPixel_of_mem_visible member).2.2

/-- A replay accesses pixels of the surface. -/
theorem Placed.confines_replay {scanner : Scanner} (placed : scanner.Placed)
    (cache : CoverageCache) :
    scanner.surface.Confines scanner.surface.bounds ((scanner.replayTouches cache).map Touch.pixel)
      (scanner.surface.draw (scanner.replayTouches cache)) := by
  apply Surface.confines_of_touches placed.accepted
  intro touch member
  have bounds := placed.accepted.contains_bounds_iff touch.pixel
  rw [Touch.pixel] at bounds ⊢
  rw [bounds, and_self]
  unfold replayTouches at member
  split at member
  · cases member
  · obtain ⟨touches, listed, touchMember⟩ := exists_of_mem_untilFault member
    obtain ⟨row, _, answered⟩ := List.mem_map.mp listed
    obtain ⟨source, _, rowTouched⟩ := exists_of_bind_eq_ok answered
    obtain ⟨column, line⟩ := RunRow.bounds_of_mem_touches rowTouched touchMember
    simp only [RowTarget.hasColumn, RowTarget.hasLine, Bool.and_eq_true,
      decide_eq_true_eq] at column line
    exact ⟨column, line⟩

/-! ## All calls -/

theorem placed_new {surface : Surface} (accepted : surface.Accepted) :
    (Scanner.new surface).Placed :=
  ⟨ready_new surface, accepted⟩

theorem Placed.step {scanner next : Scanner} {command : LineCommand} (placed : scanner.Placed)
    (stepped : scanner.step command = .ok next) : next.Placed := by
  refine ⟨placed.ready.step stepped, ?_⟩
  obtain ⟨touches, _, _, _, _, _, _, rfl, _⟩ := exists_of_step stepped
  exact (scanner.surface.changesOnly_draw touches).accepted placed.accepted

theorem Placed.perform {scanner next : Scanner} (placed : scanner.Placed) {call : Call}
    (performed : scanner.perform call = .ok next) : next.Placed := by
  cases call with
  | setGrid lgX lgY =>
      cases performed
      exact ⟨placed.ready.setGrid lgX lgY, placed.accepted⟩
  | setRule rule =>
      cases performed
      exact ⟨⟨placed.ready.lgX_le, placed.ready.lgY_le, placed.ready.clip⟩, placed.accepted⟩
  | setClip clip =>
      cases performed
      exact ⟨placed.ready.setClip clip, placed.accepted⟩
  | setPaint paint =>
      cases performed
      exact ⟨placed.ready.setPaint paint, placed.accepted⟩
  | setCache cache =>
      cases performed
      exact ⟨⟨placed.ready.lgX_le, placed.ready.lgY_le, placed.ready.clip⟩, placed.accepted⟩
  | send commands => exact send_keeps (fun holds stepped => holds.step stepped) placed performed
  | clearRect x y width height color =>
      cases performed
      exact ⟨placed.ready.clearRect x y width height color,
        (placed.confines_clearRect x y width height color).changes.accepted placed.accepted⟩
  | replay cache =>
      refine ⟨placed.ready.replay performed, ?_⟩
      obtain ⟨touches, box, scratch, rfl⟩ := exists_of_replay performed
      exact (scanner.surface.changesOnly_draw touches).accepted placed.accepted

theorem Placed.performAll {scanner next : Scanner} (placed : scanner.Placed) {calls : List Call}
    (performed : scanner.performAll calls = .ok next) : next.Placed :=
  foldlM_keeps (fun _ placed performed => placed.perform performed) placed performed

/-- The line commands that a call sends. -/
def Call.sent : Call → List LineCommand
  | send commands => commands
  | _ => []

/-- Every command is traced; the end of a path leaves nothing traced. -/
theorem Follows.answer {scanner next : Scanner} {trace : Trace} (follows : scanner.Follows trace)
    {command : LineCommand} (stepped : scanner.step command = .ok next) :
    next.Follows (trace.step command) := by
  by_cases unfinished : command = .finish
  · subst unfinished
    exact (idle_of_finish stepped).follows
  · exact follows.step unfinished stepped

theorem Follows.answers {scanner next : Scanner} {trace : Trace} (follows : scanner.Follows trace)
    {commands : List LineCommand} (sent : scanner.send commands = .ok next) :
    next.Follows (commands.foldl Trace.step trace) := by
  induction commands generalizing scanner trace with
  | nil =>
      cases sent
      exact follows
  | cons command rest inductionHypothesis =>
      obtain ⟨middle, stepped, continued⟩ := exists_of_bind_eq_ok sent
      exact inductionHypothesis (follows.answer stepped) continued

/-- A call that keeps the clip box and the grid traces the commands that it sends. -/
theorem Follows.perform {scanner next : Scanner} {trace : Trace} (follows : scanner.Follows trace)
    {call : Call} (keeps : call.keepsFrame = true) (performed : scanner.perform call = .ok next) :
    next.Follows (call.sent.foldl Trace.step trace) := by
  cases call with
  | setGrid lgX lgY => cases keeps
  | setRule rule =>
      cases performed
      exact ⟨follows.edges, follows.subpath⟩
  | setClip clip => cases keeps
  | setPaint paint =>
      cases performed
      exact ⟨follows.edges, follows.subpath⟩
  | setCache cache =>
      cases performed
      exact ⟨follows.edges, follows.subpath⟩
  | send commands => exact follows.answers performed
  | clearRect x y width height color =>
      cases performed
      rw [clearRect_eq]
      exact ⟨follows.edges, follows.subpath⟩
  | replay cache =>
      obtain ⟨touches, box, scratch, rfl⟩ := exists_of_replay performed
      exact ⟨follows.edges, follows.subpath⟩

theorem Follows.performAll {scanner next : Scanner} {trace : Trace}
    (follows : scanner.Follows trace) {calls : List Call}
    (keep : ∀ call ∈ calls, call.keepsFrame = true)
    (performed : scanner.performAll calls = .ok next) :
    next.Follows ((calls.flatMap Call.sent).foldl Trace.step trace) := by
  induction calls generalizing scanner trace with
  | nil =>
      cases performed
      exact follows
  | cons call rest inductionHypothesis =>
      obtain ⟨middle, first, continued⟩ := exists_of_bind_eq_ok performed
      rw [List.flatMap_cons, List.foldl_append]
      exact inductionHypothesis (follows.perform (keep call List.mem_cons_self) first)
        (fun later member => keep later (List.mem_cons_of_mem _ member)) continued

/-- The edges that the scanner keeps were clipped to its clip box. -/
def Clipped (scanner : Scanner) : Prop :=
  ∃ trace, scanner.Follows trace

theorem Clipped.performAll {scanner next : Scanner} (clipped : scanner.Clipped)
    {calls : List Call} (keep : ∀ call ∈ calls, call.keepsFrame = true)
    (performed : scanner.performAll calls = .ok next) : next.Clipped := by
  obtain ⟨trace, follows⟩ := clipped
  exact ⟨_, follows.performAll keep performed⟩

/-- What a drawing accesses of a surface: it is the given touches, all of them inside a box.  If
the drawing is a fault, these are the touches before it. -/
structure Draws (scanner : Scanner) (box : PixelBox) (touches : List Touch)
    (result : Except Fault Scanner) : Prop where
  surface : ∀ drawn, result = .ok drawn → drawn.surface = scanner.surface.draw touches
  confined : scanner.surface.Confines box (touches.map Touch.pixel) (scanner.surface.draw touches)

/-- The end of a path accesses only pixels inside the clip box. -/
theorem Placed.draws_finish {scanner : Scanner} (placed : scanner.Placed)
    (clipped : scanner.Clipped) :
    scanner.Draws scanner.clip scanner.closeSubpath.pathTouches scanner.finish := by
  obtain ⟨trace, follows⟩ := clipped
  exact ⟨fun _ => surface_of_finish, placed.confines_path follows⟩

/-- The end of a path that counts no more samples than a pixel has is no fault, unless the paint
lacks colors. -/
theorem Placed.exists_finish {scanner : Scanner} (placed : scanner.Placed)
    (clipped : scanner.Clipped)
    (inTable : ∀ row ∈ scanner.closeSubpath.coverageRows, ∀ value ∈ row.values,
      value ≤ scanner.grid.maxCoverage)
    (whole : scanner.cache = none → scanner.paint.IsWhole) :
    ∃ drawn, scanner.finish = .ok drawn := by
  obtain ⟨trace, follows⟩ := clipped
  have traced := follows.closeSubpath
  obtain ⟨edges, closed⟩ := scanner.exists_closeSubpath_eq
  have shown : ∀ row ∈ (scanner.withPath edges none scanner.probe).coverageRows,
      (scanner.withPath edges none scanner.probe).Shows row := by
    intro row member
    rw [closed] at traced
    change edges.toList = _ at traced
    change row ∈ Sweep.coverageRows scanner.frame edges.toList at member
    rw [traced] at member
    exact placed.ready.shows member
  refine (exists_finish_iff closed shown).mpr fun detached _ sound row member => ⟨?_, ?_⟩
  · exact colors_of_isWhole (whole detached) sound row
  · rw [← closed] at member
    exact inTable row member

/-- On every accepted surface, whatever its layout, and after any calls: the end of a path that
was received under one clip box and grid, and that counts no more samples than a pixel has,
accesses only pixels inside the clip box, and so does clearing a rectangle.  A replay of any
cache that holds no greater values accesses only pixels of the surface.  The elements of all
these pixels are in the buffer, and every other element keeps its value.  Only colors that the
paint lacks can be a fault. -/
theorem accesses_confined {format : PixelFormat} {width height : Nat} {layout : Layout}
    {elements : Array Nat} {surface : Surface}
    (made : Surface.new? format width height layout elements = .ok surface) :
    (∀ {before during : List Call} {started received : Scanner},
      (Scanner.new surface).performAll before = .ok started → started.Idle →
        started.performAll during = .ok received →
        (∀ call ∈ during, call.keepsFrame = true) →
        (∀ row ∈ received.closeSubpath.coverageRows, ∀ value ∈ row.values,
          value ≤ received.grid.maxCoverage) →
        received.Draws received.clip received.closeSubpath.pathTouches received.finish ∧
          ((received.cache = none → received.paint.IsWhole) →
            ∃ drawn, received.finish = .ok drawn)) ∧
    (∀ {calls : List Call} {scanner : Scanner},
      (Scanner.new surface).performAll calls = .ok scanner → ∀ x y width height color,
        (scanner.clearRect x y width height color).surface =
            (scanner.clearedPixels x y width height).foldl
              (fun surface (x, y) => surface.store color.argb x y) scanner.surface ∧
          scanner.surface.Confines scanner.clip (scanner.clearedPixels x y width height)
            (scanner.clearRect x y width height color).surface) ∧
    (∀ {calls : List Call} {scanner : Scanner},
      (Scanner.new surface).performAll calls = .ok scanner → ∀ {cache : CoverageCache},
        (∀ row ∈ cache.rows, ∀ run ∈ row.runs, run.1 ≤ cache.maxCoverage) →
        scanner.Draws scanner.surface.bounds (scanner.replayTouches cache)
            (scanner.replay cache) ∧
          (scanner.paint.IsWhole → ∃ drawn, scanner.replay cache = .ok drawn)) := by
  have fresh := placed_new (Surface.accepted_of_new? made)
  refine ⟨?_, ?_, ?_⟩
  · intro before during started received reached idle sent keep inTable
    have clipped : received.Clipped :=
      Clipped.performAll ⟨.empty, idle.follows⟩ keep sent
    have placed := (fresh.performAll reached).performAll sent
    exact ⟨placed.draws_finish clipped, placed.exists_finish clipped inTable⟩
  · intro calls scanner reached x y width height color
    exact ⟨scanner.surface_clearRect x y width height color,
      (fresh.performAll reached).confines_clearRect x y width height color⟩
  · intro calls scanner reached cache inTable
    have placed := fresh.performAll reached
    exact ⟨⟨fun _ => surface_of_replay, placed.confines_replay cache⟩,
      exists_replay_of_le inTable⟩

/-- A triangle, with a rectangle cleared while it is received, on a surface whose four pixels
all lie at the middle one of three elements: the elements beside it keep their values. -/
theorem accesses_confined_zero_strides :
    let surface : Surface := ⟨.gray8, 2, 2, ⟨1, 0, 0⟩, #[5, 6, 7]⟩
    let before : List Call := [.setGrid 0 0, .setClip (some ⟨-3, 0, 1, 9⟩)]
    let during : List Call :=
      [.send [.moveTo ⟨0, 0⟩, .lineTo ⟨131072, 0⟩, .lineTo ⟨0, 131072⟩], .setRule .evenOdd,
        .clearRect 0 1 5 5 .black]
    Surface.new? .gray8 2 2 ⟨1, 0, 0⟩ #[5, 6, 7] = .ok surface ∧
      ∃ started received drawn, (Scanner.new surface).performAll before = .ok started ∧
        started.performAll during = .ok received ∧ received.finish = .ok drawn ∧
          received.Draws received.clip received.closeSubpath.pathTouches received.finish ∧
            received.closeSubpath.pathTouches.length = 1 ∧
            drawn.surface.elements[0]? = received.surface.elements[0]? ∧
              drawn.surface.elements[2]? = received.surface.elements[2]? := by
  have made : Surface.new? .gray8 2 2 ⟨1, 0, 0⟩ #[5, 6, 7] =
    .ok ⟨.gray8, 2, 2, ⟨1, 0, 0⟩, #[5, 6, 7]⟩ := rfl
  obtain ⟨started, reached, idle, during⟩ : ∃ started : Scanner,
      (Scanner.new ⟨.gray8, 2, 2, ⟨1, 0, 0⟩, #[5, 6, 7]⟩).performAll
          [.setGrid 0 0, .setClip (some ⟨-3, 0, 1, 9⟩)] = .ok started ∧ started.Idle ∧
        ∃ received : Scanner, started.performAll
            [.send [.moveTo ⟨0, 0⟩, .lineTo ⟨131072, 0⟩, .lineTo ⟨0, 131072⟩],
              .setRule .evenOdd, .clearRect 0 1 5 5 .black] = .ok received ∧
          received.surface.layout = ⟨1, 0, 0⟩ ∧ received.paint = .default ∧
          (∀ row ∈ received.closeSubpath.coverageRows, ∀ value ∈ row.values,
            value ≤ received.grid.maxCoverage) ∧
          received.closeSubpath.pathTouches.length = 1 :=
    ⟨_, rfl, ⟨rfl, rfl, rfl⟩, _, rfl, rfl, rfl, by decide +kernel, by decide +kernel⟩
  obtain ⟨received, sent, layout, paint, inTable, touched⟩ := during
  obtain ⟨draws, ends⟩ := (accesses_confined made).1 reached idle sent (by decide) inTable
  obtain ⟨drawn, finished⟩ := ends fun _ => by
    rw [paint]
    exact Paint.isWhole_of_not_image fun _ same => by cases same
  have elsewhere : ∀ index, index ≠ 1 →
      drawn.surface.elements[index]? = received.surface.elements[index]? := by
    intro index different
    rw [draws.surface drawn finished]
    apply draws.confined.changes.elements
    rintro pixel _ rfl
    rw [Surface.indexOf, layout] at different
    exact different rfl
  exact ⟨made, started, received, drawn, reached, sent, finished, draws, touched,
    elsewhere 0 (by decide), elsewhere 2 (by decide)⟩

end Scanner

end Raster
