import Raster.Proofs.Coverage.Recording
import Raster.Proofs.Fault

/-!
# Touching pixels

A row of coverage on the surface touches its pixels one by one if every value has an
opacity in the alpha table, and is a fault otherwise.  A row of runs then draws the same:
it leaves out only touches without opacity, which change nothing.
-/

namespace Raster

/-! ## Touches without opacity -/

namespace Surface

/-- A touch without opacity changes nothing. -/
theorem touch_of_opacity_eq_zero (surface : Surface) {touch : Touch}
    (clear : touch.opacity = 0) : surface.touch touch = surface := by
  obtain ⟨format, width, height, layout, elements⟩ := surface
  simp only [Surface.touch, clear, PixelFormat.composite_zero, Surface.mk.injEq, true_and]
  apply Array.ext
  · simp
  · intro index _ _
    rw [Array.getElem_modify]
    split <;> rfl

theorem draw_of_opacity_eq_zero (surface : Surface) {touches : List Touch}
    (clear : ∀ touch ∈ touches, touch.opacity = 0) : surface.draw touches = surface := by
  induction touches with
  | nil => rfl
  | cons touch rest inductionHypothesis =>
      rw [draw_cons, touch_of_opacity_eq_zero surface (clear touch List.mem_cons_self)]
      exact inductionHypothesis fun other member => clear other (List.mem_cons_of_mem _ member)

@[simp]
theorem width_draw (surface : Surface) (touches : List Touch) :
    (surface.draw touches).width = surface.width := by
  induction touches generalizing surface with
  | nil => rfl
  | cons touch rest inductionHypothesis => exact inductionHypothesis (surface.touch touch)

@[simp]
theorem height_draw (surface : Surface) (touches : List Touch) :
    (surface.draw touches).height = surface.height := by
  induction touches generalizing surface with
  | nil => rfl
  | cons touch rest inductionHypothesis => exact inductionHypothesis (surface.touch touch)

end Surface

/-! ## Rows on the surface -/

namespace RowTarget

theorem place_cons {α : Type} (x : Int) (value : α) (rest : List α) :
    place x (value :: rest) = (x, value) :: place (x + 1) rest := by
  simp only [place, List.zipIdx_cons, List.map_cons]
  rw [List.zipIdx_eq_map_add, List.map_map]
  congr 1
  · simp
  · apply List.map_congr_left
    rintro ⟨other, index⟩ _
    simp only [Function.comp_apply, Prod.mk.injEq, and_true]
    omega

theorem place_append {α : Type} (x : Int) (first second : List α) :
    place x (first ++ second) = place x first ++ place (x + first.length) second := by
  induction first generalizing x with
  | nil => simp [place]
  | cons value rest inductionHypothesis =>
      rw [List.cons_append, place_cons, inductionHypothesis, place_cons, List.cons_append,
        List.length_cons]
      congr 3
      omega

theorem bounds_of_mem_place {α : Type} {x column : Int} {value : α} {values : List α}
    (member : (column, value) ∈ place x values) :
    value ∈ values ∧ x ≤ column ∧ column < x + values.length := by
  induction values generalizing x with
  | nil => cases member
  | cons first rest inductionHypothesis =>
      rw [place_cons] at member
      rcases List.mem_cons.mp member with here | later
      · obtain ⟨rfl, rfl⟩ := Prod.mk.inj here
        exact ⟨List.mem_cons_self, Int.le_refl _, by simp only [List.length_cons]; omega⟩
      · obtain ⟨restMember, left, right⟩ := inductionHypothesis later
        refine ⟨List.mem_cons_of_mem _ restMember, by omega, ?_⟩
        simp only [List.length_cons]
        omega

theorem map_snd_place {α : Type} (x : Int) (values : List α) :
    (place x values).map Prod.snd = values := by
  induction values generalizing x with
  | nil => rfl
  | cons value rest inductionHypothesis =>
      rw [place_cons, List.map_cons, inductionHypothesis]

theorem hasColumn_iff (target : RowTarget) (x : Int) :
    target.hasColumn x = true ↔ 0 ≤ x ∧ x < target.width := by
  simp only [hasColumn, Bool.and_eq_true, decide_eq_true_eq]

/-- The target shows `count` pixels from `(x, y)` onward. -/
structure Shows (target : RowTarget) (x y : Int) (count : Nat) : Prop where
  top : 0 ≤ y
  bottom : y < target.height
  left : 0 ≤ x
  right : x + count ≤ target.width

theorem Shows.hasLine {target : RowTarget} {x y : Int} {count : Nat}
    (shown : target.Shows x y count) : target.hasLine y = true := by
  simp only [RowTarget.hasLine, Bool.and_eq_true, decide_eq_true_eq]
  exact ⟨shown.top, shown.bottom⟩

/-- No pixel of a shown row is left out. -/
theorem Shows.filter_place {α : Type} {target : RowTarget} {x y : Int} {count : Nat}
    (shown : target.Shows x y count) {values : List α} (fits : values.length ≤ count) :
    (place x values).filter (fun pixel => target.hasColumn pixel.1) = place x values := by
  rw [List.filter_eq_self]
  rintro ⟨column, value⟩ member
  obtain ⟨_, left, right⟩ := bounds_of_mem_place member
  have atLeast := shown.left
  have below := shown.right
  rw [hasColumn_iff]
  omega

/-- The touches of neighboring pixels. -/
def touchesOf (target : RowTarget) (x y : Int) (values colors : List Nat) : List Touch :=
  (place x (values.zip colors)).map fun (x, coverage, argb) =>
    target.touchOf y (target.alphas[coverage]?.getD 0) x argb

theorem touchesOf_append (target : RowTarget) (x y : Int) {first firstColors : List Nat}
    (same : first.length = firstColors.length) (second secondColors : List Nat) :
    target.touchesOf x y (first ++ second) (firstColors ++ secondColors) =
      target.touchesOf x y first firstColors ++
        target.touchesOf (x + first.length) y second secondColors := by
  simp only [touchesOf]
  rw [List.zip_append same, place_append, List.map_append, List.length_zip, ← same,
    Nat.min_self]

/-- The touches of those of some neighboring pixels that are in a column of the surface. -/
def visibleOf (target : RowTarget) (x y : Int) (values colors : List Nat) : List Touch :=
  (target.touchesOf x y values colors).filter fun touch => target.hasColumn touch.x

theorem visibleOf_append (target : RowTarget) (x y : Int) {first firstColors : List Nat}
    (same : first.length = firstColors.length) (second secondColors : List Nat) :
    target.visibleOf x y (first ++ second) (firstColors ++ secondColors) =
      target.visibleOf x y first firstColors ++
        target.visibleOf (x + first.length) y second secondColors := by
  rw [visibleOf, touchesOf_append target x y same, List.filter_append, visibleOf, visibleOf]

/-- Columns are left out before or after their opacities are known. -/
theorem visibleOf_eq_map (target : RowTarget) (x y : Int) (values colors : List Nat) :
    target.visibleOf x y values colors =
      ((place x (values.zip colors)).filter fun pixel => target.hasColumn pixel.1).map
        fun (x, coverage, argb) =>
          target.touchOf y (target.alphas[coverage]?.getD 0) x argb := by
  rw [visibleOf, touchesOf, List.filter_map]
  rfl

/-- All pixels of a shown row are visible. -/
theorem Shows.visibleOf {target : RowTarget} {x y : Int} {count : Nat}
    (shown : target.Shows x y count) {values : List Nat} (fits : values.length ≤ count)
    (colors : List Nat) :
    target.visibleOf x y values colors = target.touchesOf x y values colors := by
  have zipped : (values.zip colors).length ≤ count := by
    rw [List.length_zip]
    omega
  rw [visibleOf_eq_map, shown.filter_place zipped, touchesOf]

end RowTarget

/-! ## Opacities -/

namespace Alpha

theorem lookup_of_lt {table : Array Nat} {coverage : Nat} (below : coverage < table.size) :
    lookup table coverage = .ok (table[coverage]?.getD 0) := by
  rw [lookup, Array.getElem?_eq_getElem below]
  rfl

theorem lookup_eq_ok_iff {table : Array Nat} {coverage : Nat} :
    (∃ opacity, lookup table coverage = .ok opacity) ↔ coverage < table.size := by
  constructor
  · rintro ⟨opacity, found⟩
    apply Nat.lt_of_not_le
    intro beyond
    rw [lookup, Array.getElem?_eq_none beyond] at found
    cases found
  · intro below
    exact ⟨_, lookup_of_lt below⟩

end Alpha

/-! ## Rows -/

namespace CoverageRow

/-- A row on the surface is drawn pixel by pixel. -/
theorem touches_of_shows {row : CoverageRow} {target : RowTarget}
    (shown : target.Shows row.x row.y row.values.length) :
    row.touches target =
      (RowTarget.place row.x (row.values.zip (target.source.colors row.values.length))).mapM
        (fun (x, coverage, argb) => do
          pure (target.touchOf row.y (← Alpha.lookup target.alphas coverage) x argb)) := by
  have fits : (row.values.zip (target.source.colors row.values.length)).length ≤
      row.values.length := by
    rw [List.length_zip]
    exact Nat.min_le_left _ _
  simp only [touches, shown.hasLine, if_true, shown.filter_place fits]

/-- The visible pixels of a row with values in the table have opacities. -/
theorem touches_eq_visible {row : CoverageRow} {target : RowTarget}
    (line : target.hasLine row.y = true)
    (inTable : ∀ value ∈ row.values, value < target.alphas.size) :
    row.touches target =
      .ok (target.visibleOf row.x row.y row.values
        (target.source.colors row.values.length)) := by
  simp only [touches, line, if_true, RowTarget.visibleOf_eq_map]
  apply mapM_eq_ok
  rintro ⟨column, coverage, argb⟩ member
  obtain ⟨zipped, _⟩ := RowTarget.bounds_of_mem_place (List.mem_filter.mp member).1
  simp only [Alpha.lookup_of_lt (inTable coverage (List.of_mem_zip zipped).1)]
  rfl

/-- Values in the table have opacities. -/
theorem touches_eq_ok {row : CoverageRow} {target : RowTarget}
    (shown : target.Shows row.x row.y row.values.length)
    (inTable : ∀ value ∈ row.values, value < target.alphas.size) :
    row.touches target =
      .ok (target.touchesOf row.x row.y row.values
        (target.source.colors row.values.length)) := by
  rw [touches_eq_visible shown.hasLine inTable, shown.visibleOf (Nat.le_refl _)]

/-- A row on the surface that is drawn without a fault has all its values in the table. -/
theorem lt_size_of_touches {row : CoverageRow} {target : RowTarget} {touches : List Touch}
    (shown : target.Shows row.x row.y row.values.length)
    (colored : row.values.length ≤ (target.source.colors row.values.length).length)
    (drawn : row.touches target = .ok touches) :
    ∀ value ∈ row.values, value < target.alphas.size := by
  intro value member
  rw [touches_of_shows shown] at drawn
  obtain ⟨⟨coverage, argb⟩, zipped, rfl⟩ : ∃ pair ∈
      row.values.zip (target.source.colors row.values.length), pair.1 = value := by
    rw [← List.mem_map, List.map_fst_zip colored]
    exact member
  obtain ⟨⟨column, pair⟩, placed, rfl⟩ : ∃ pixel ∈
      RowTarget.place row.x (row.values.zip (target.source.colors row.values.length)),
      pixel.2 = (coverage, argb) := by
    rw [← List.mem_map, RowTarget.map_snd_place]
    exact zipped
  obtain ⟨touch, touched⟩ := exists_eq_ok_of_mapM drawn placed
  apply Alpha.lookup_eq_ok_iff.mp
  cases found : Alpha.lookup target.alphas coverage with
  | ok opacity => exact ⟨opacity, rfl⟩
  | error fault =>
      simp only [found] at touched
      cases touched

end CoverageRow

namespace RunRow

/-- The visible pixels of a run have one opacity. -/
theorem visibleOf_replicate (target : RowTarget) (x y : Int) (value : Nat) (colors : List Nat) :
    target.visibleOf x y (List.replicate colors.length value) colors =
      ((RowTarget.place x colors).filter fun (x, _) => target.hasColumn x).map
        fun (x, argb) => target.touchOf y (target.alphas[value]?.getD 0) x argb := by
  rw [RowTarget.visibleOf_eq_map]
  induction colors generalizing x with
  | nil => rfl
  | cons argb rest inductionHypothesis =>
      rw [List.length_cons, List.replicate_succ, List.zip_cons_cons, RowTarget.place_cons,
        RowTarget.place_cons, List.filter_cons, List.filter_cons]
      split <;> simp only [List.map_cons, inductionHypothesis]

/-- A run draws like as many pixels of its value, even if it is left out for having no
opacity. -/
theorem draw_run {target : RowTarget} {x y : Int} {value length : Nat} {colors : List Nat}
    (colored : colors.length = length) (surface : Surface) :
    surface.draw
        (if target.alphas[value]?.getD 0 = 0 then
          []
        else
          ((RowTarget.place x colors).filter fun (x, _) => target.hasColumn x).map
            fun (x, argb) => target.touchOf y (target.alphas[value]?.getD 0) x argb) =
      surface.draw (target.visibleOf x y (List.replicate length value) colors) := by
  subst colored
  rw [visibleOf_replicate]
  split
  · rename_i clear
    rw [Surface.draw_nil, eq_comm]
    apply Surface.draw_of_opacity_eq_zero
    intro touch member
    obtain ⟨⟨column, argb⟩, _, rfl⟩ := List.mem_map.mp member
    simp only [RowTarget.touchOf, clear, RowSource.opacity]
    cases target.source with
    | flat color => rfl
    | perPixel colors => simp [Alpha.modulate]
  · rfl

/-- Runs whose values are in the table draw like the values that they stand for, wherever they
lie. -/
theorem exists_touchesFrom {target : RowTarget} {x y : Int} {colors : List Nat}
    {runs : List (Nat × Nat)} (colored : colors.length = count runs)
    (inTable : ∀ run ∈ runs, run.1 < target.alphas.size) :
    ∃ touches, touchesFrom target y x colors runs = .ok touches ∧
      ∀ surface : Surface,
        surface.draw touches = surface.draw (target.visibleOf x y (expand runs) colors) := by
  induction runs generalizing x colors with
  | nil =>
      obtain rfl : colors = [] := List.eq_nil_of_length_eq_zero colored
      exact ⟨[], rfl, fun _ => rfl⟩
  | cons run rest inductionHypothesis =>
      obtain ⟨value, length⟩ := run
      have total : count ((value, length) :: rest) = length + count rest := rfl
      rw [total] at colored
      have taken : (colors.take length).length = length := by
        rw [List.length_take]
        omega
      have dropped : (colors.drop length).length = count rest := by
        rw [List.length_drop]
        omega
      obtain ⟨touches, found, same⟩ := inductionHypothesis (x := x + length) dropped
        fun other member => inTable other (List.mem_cons_of_mem _ member)
      have lookup := Alpha.lookup_of_lt (inTable (value, length) List.mem_cons_self)
      refine ⟨_, by simp only [touchesFrom, lookup, found]; rfl, ?_⟩
      intro surface
      have filled : (List.replicate length value).length = (colors.take length).length := by
        rw [taken, List.length_replicate]
      have parts : target.visibleOf x y (List.replicate length value ++ expand rest) colors =
          target.visibleOf x y (List.replicate length value) (colors.take length) ++
            target.visibleOf (x + length) y (expand rest) (colors.drop length) := by
        have appended := target.visibleOf_append x y filled (expand rest) (colors.drop length)
        rwa [List.take_append_drop, List.length_replicate] at appended
      rw [expand_cons, parts, Surface.draw_append, Surface.draw_append, draw_run taken, same]

/-- Runs whose values are in the table are no fault, wherever they lie. -/
theorem exists_touchesFrom_eq_ok {target : RowTarget} {runs : List (Nat × Nat)}
    (inTable : ∀ run ∈ runs, run.1 < target.alphas.size) (y x : Int) (colors : List Nat) :
    ∃ touches, touchesFrom target y x colors runs = .ok touches := by
  induction runs generalizing x colors with
  | nil => exact ⟨[], rfl⟩
  | cons run rest inductionHypothesis =>
      obtain ⟨value, length⟩ := run
      obtain ⟨later, found⟩ := inductionHypothesis
        (fun other member => inTable other (List.mem_cons_of_mem _ member)) (x + length)
        (colors.drop length)
      have lookup := Alpha.lookup_of_lt (inTable (value, length) List.mem_cons_self)
      exact ⟨_, by simp only [touchesFrom, lookup, found]; rfl⟩

/-- Runs have no values of their own. -/
theorem fst_mem_of_mem_runs {values : List Nat} {run : Nat × Nat}
    (member : run ∈ CoverageCache.runs values) : run.1 ∈ values := by
  have fromCurrent : ∀ {value count : Nat} {rest : List Nat},
      run ∈ CoverageCache.runsFrom value count rest → run.1 ∈ value :: rest := by
    intro value count rest
    induction rest generalizing value count with
    | nil =>
        intro only
        rw [List.mem_singleton.mp only]
        exact List.mem_cons_self
    | cons next rest inductionHypothesis =>
        intro runMember
        unfold CoverageCache.runsFrom at runMember
        split at runMember
        · rename_i same
          rw [same.1]
          exact List.mem_cons_of_mem _ (inductionHypothesis runMember)
        · rcases List.mem_cons.mp runMember with rfl | later
          · exact List.mem_cons_self
          · exact List.mem_cons_of_mem _ (inductionHypothesis later)
  cases values with
  | nil => cases member
  | cons value rest => exact fromCurrent member

@[simp]
theorem count_runs (values : List Nat) : count (CoverageCache.runs values) = values.length := by
  rw [← length_expand, CoverageCache.expand_runs]

/-- A row of runs draws like the row of their values. -/
theorem exists_touches_encoded {row : CoverageRow} {target : RowTarget}
    (shown : target.Shows row.x row.y row.values.length)
    (colored : (target.source.colors row.values.length).length = row.values.length)
    (inTable : ∀ value ∈ row.values, value < target.alphas.size) :
    ∃ touches, row.encoded.touches target = .ok touches ∧
      ∀ surface : Surface, surface.draw touches =
        surface.draw (target.touchesOf row.x row.y row.values
          (target.source.colors row.values.length)) := by
  have runsColored : (target.source.colors row.values.length).length =
      count (CoverageCache.runs row.values) := by
    rwa [count_runs]
  have runs := exists_touchesFrom (x := row.x) (y := row.y) runsColored fun run member =>
    inTable run.1 (fst_mem_of_mem_runs member)
  rw [CoverageCache.expand_runs, shown.visibleOf (Nat.le_refl _)] at runs
  simp only [touches, CoverageRow.encoded, shown.hasLine, if_true, count_runs]
  exact runs

end RunRow

end Raster
