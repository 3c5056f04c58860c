import Raster.Proofs.Coverage.Touching

/-!
# One color from two sources

The alpha of a flat color is part of the alpha table, while the alpha of a paint scales the
opacities of an opaque table afterward.  As the samples of a pixel divide the full opacity,
the opaque table is exact and there is one rounding either way.
-/

namespace Raster

namespace Alpha

variable {maxCoverage : Nat}

/-- If the samples of a pixel divide the full opacity, opaque coverage is not rounded. -/
theorem ofCoverage_exact (positive : 0 < maxCoverage) {share : Nat}
    (shares : maxCoverage * share = full) (coverage : Nat) :
    ofCoverage maxCoverage 255 coverage = coverage * share := by
  have denominator : 0 < maxCoverage * 255 := Nat.mul_pos positive (by decide)
  have exact : coverage * 255 * full = coverage * share * (maxCoverage * 255) := by
    rw [← shares]
    ac_rfl
  have half : maxCoverage * 255 / 2 / (maxCoverage * 255) = 0 :=
    Nat.div_eq_of_lt (Nat.div_lt_self denominator (by decide))
  rw [ofCoverage, exact, Nat.add_comm, Nat.add_mul_div_right _ _ denominator, half, Nat.zero_add]

/-- Scaling an exact opacity by an alpha rounds as the alpha table does. -/
theorem ofCoverage_eq_modulate (divides : maxCoverage ∣ full) (sourceAlpha coverage : Nat) :
    ofCoverage maxCoverage sourceAlpha coverage =
      modulate (ofCoverage maxCoverage 255 coverage) sourceAlpha := by
  obtain ⟨share, shares⟩ := divides
  have positive : 0 < maxCoverage := by
    apply Nat.pos_of_ne_zero
    rintro rfl
    rw [Nat.zero_mul] at shares
    cases shares
  have exact : coverage * sourceAlpha * full = coverage * share * sourceAlpha * maxCoverage := by
    rw [shares]
    ac_rfl
  have half : maxCoverage * 255 / 2 / maxCoverage = 127 := by
    rw [Nat.div_div_eq_div_mul, Nat.mul_comm 2, Nat.mul_div_mul_left _ _ positive]
  calc ofCoverage maxCoverage sourceAlpha coverage
      = (coverage * share * sourceAlpha * maxCoverage + maxCoverage * 255 / 2) /
          maxCoverage / 255 := by
        rw [ofCoverage, exact, Nat.div_div_eq_div_mul]
    _ = (coverage * share * sourceAlpha + 127) / 255 := by
        rw [Nat.add_comm, Nat.add_mul_div_right _ _ positive, half, Nat.add_comm]
    _ = modulate (ofCoverage maxCoverage 255 coverage) sourceAlpha := by
        rw [ofCoverage_exact positive shares.symm, modulate]

/-- The table of a flat color is the opaque table scaled by the alpha of the color. -/
theorem getElem?_table_eq_modulate (divides : maxCoverage ∣ full) (sourceAlpha coverage : Nat) :
    (table maxCoverage sourceAlpha)[coverage]? =
      (table maxCoverage 255)[coverage]?.map (modulate · sourceAlpha) := by
  have atLeastOne : max maxCoverage 1 = maxCoverage := by
    apply Nat.max_eq_left
    exact Nat.pos_of_dvd_of_pos divides (by decide)
  by_cases inTable : coverage ≤ max maxCoverage 1
  · rw [getElem?_table inTable, getElem?_table inTable, Option.map_some, atLeastOne,
      ofCoverage_eq_modulate divides]
  · rw [Array.getElem?_eq_none (by rw [size_table]; omega),
      Array.getElem?_eq_none (by rw [size_table]; omega), Option.map_none]

theorem lookup_table_eq_modulate (divides : maxCoverage ∣ full) (sourceAlpha coverage : Nat) :
    lookup (table maxCoverage sourceAlpha) coverage =
      (lookup (table maxCoverage 255) coverage).map (modulate · sourceAlpha) := by
  simp only [lookup, getElem?_table_eq_modulate divides sourceAlpha]
  cases (table maxCoverage 255)[coverage]? with
  | none => rfl
  | some opacity => rfl

theorem modulate_zero (paintAlpha : Nat) : modulate 0 paintAlpha = 0 := by
  simp [modulate]

end Alpha

/-! ## Rows -/

namespace RowTarget

/-- The first target draws in a flat color and the second one with `count` pixels of a paint
that is of this color everywhere. -/
structure Tints (flat tinted : RowTarget) (argb count : Nat) : Prop where
  width : tinted.width = flat.width
  height : tinted.height = flat.height
  flatSource : flat.source = .flat argb
  tintedSource : tinted.source = .perPixel (List.replicate count argb)
  lookup : ∀ coverage, Alpha.lookup flat.alphas coverage =
    (Alpha.lookup tinted.alphas coverage).map (Alpha.modulate · (Argb.alpha argb))

variable {flat tinted : RowTarget} {argb count : Nat}

theorem Tints.hasLine (tints : flat.Tints tinted argb count) : tinted.hasLine = flat.hasLine := by
  funext y
  rw [RowTarget.hasLine, tints.height, RowTarget.hasLine]

theorem Tints.hasColumn (tints : flat.Tints tinted argb count) :
    tinted.hasColumn = flat.hasColumn := by
  funext x
  rw [RowTarget.hasColumn, tints.width, RowTarget.hasColumn]

/-- A pixel of the paint has the opacity that the color has from its own table. -/
theorem Tints.touchOf (tints : flat.Tints tinted argb count) (y : Int) (opacity : Nat) (x : Int) :
    flat.touchOf y (Alpha.modulate opacity (Argb.alpha argb)) x argb =
      tinted.touchOf y opacity x argb := by
  simp only [RowTarget.touchOf, tints.flatSource, tints.tintedSource, RowSource.opacity]

end RowTarget

variable {flat tinted : RowTarget} {argb count : Nat}

/-- A row touches its pixels in the same way in a color and in a paint of that color. -/
theorem CoverageRow.touches_of_tints {row : CoverageRow}
    (tints : flat.Tints tinted argb row.values.length) :
    row.touches flat = row.touches tinted := by
  simp only [touches, tints.hasLine, tints.hasColumn, tints.flatSource, tints.tintedSource,
    RowSource.colors]
  split
  · apply mapM_congr
    rintro ⟨x, coverage, color⟩ member
    obtain ⟨zipped, _⟩ := RowTarget.bounds_of_mem_place (List.mem_filter.mp member).1
    obtain rfl : color = argb := List.eq_of_mem_replicate (List.of_mem_zip zipped).2
    simp only [tints.lookup]
    cases Alpha.lookup tinted.alphas coverage with
    | error fault => rfl
    | ok opacity => exact congrArg Except.ok (tints.touchOf row.y opacity x)
  · rfl

namespace RunRow

/-- What drawing some touches does to a surface. -/
def effect (touches : List Touch) (surface : Surface) : Surface :=
  surface.draw touches

theorem effect_append (here later : List Touch) :
    effect (here ++ later) = effect later ∘ effect here := by
  funext surface
  exact surface.draw_append here later

/-- Two lists of touches, one after the other, do what each of them does. -/
theorem effect_bind {here here' later later' : Except Fault (List Touch)}
    (sameHere : here.map effect = here'.map effect)
    (sameLater : later.map effect = later'.map effect) :
    (do pure ((← here) ++ (← later)) : Except Fault (List Touch)).map effect =
      (do pure ((← here') ++ (← later')) : Except Fault (List Touch)).map effect := by
  cases here with
  | error fault =>
      cases here' with
      | error fault' => exact sameHere
      | ok touches' => cases sameHere
  | ok touches =>
      cases here' with
      | error fault' => cases sameHere
      | ok touches' =>
          cases later with
          | error fault =>
              cases later' with
              | error fault' => exact sameLater
              | ok laterTouches' => cases sameLater
          | ok laterTouches =>
              cases later' with
              | error fault' => cases sameLater
              | ok laterTouches' =>
                  have equalHere := Except.ok.inj sameHere
                  have equalLater := Except.ok.inj sameLater
                  change Except.ok (effect (touches ++ laterTouches)) =
                    Except.ok (effect (touches' ++ laterTouches'))
                  rw [effect_append, effect_append, equalHere, equalLater]

/-- All touches of some rows do what the touches of each of them do. -/
theorem effect_mapM {ρ : Type} {touches touches' : ρ → Except Fault (List Touch)} {rows : List ρ}
    (same : ∀ row ∈ rows, (touches row).map effect = (touches' row).map effect) :
    ((rows.mapM touches).map List.flatten).map effect =
      ((rows.mapM touches').map List.flatten).map effect := by
  have split : ∀ (f : ρ → Except Fault (List Touch)) (row : ρ) (rest : List ρ),
      ((row :: rest).mapM f).map List.flatten =
        (do pure ((← f row) ++ (← (rest.mapM f).map List.flatten))) := by
    intro f row rest
    rw [List.mapM_cons]
    cases f row with
    | error fault => rfl
    | ok here =>
        cases rest.mapM f with
        | error fault => rfl
        | ok later => rfl
  induction rows with
  | nil => rfl
  | cons row rest inductionHypothesis =>
      rw [split, split]
      exact effect_bind (same row List.mem_cons_self) (inductionHypothesis fun other member =>
        same other (List.mem_cons_of_mem _ member))

/-- A run of a paint is left out if it has no opacity before the alpha of the paint, a run of
a color if it has none afterward.  Touches are only left out where they change nothing. -/
theorem effect_run (tints : flat.Tints tinted argb count) {pixels : List (Int × Nat)}
    (same : ∀ pixel ∈ pixels, pixel.2 = argb) (y : Int) (opacity : Nat) :
    effect (if Alpha.modulate opacity (Argb.alpha argb) = 0 then [] else
        pixels.map fun (x, color) =>
          flat.touchOf y (Alpha.modulate opacity (Argb.alpha argb)) x color) =
      effect (if opacity = 0 then [] else
        pixels.map fun (x, color) => tinted.touchOf y opacity x color) := by
  have touches : (pixels.map fun (x, color) =>
      flat.touchOf y (Alpha.modulate opacity (Argb.alpha argb)) x color) =
      pixels.map fun (x, color) => tinted.touchOf y opacity x color := by
    apply List.map_congr_left
    rintro ⟨x, color⟩ member
    obtain rfl : color = argb := same _ member
    exact tints.touchOf y opacity x
  by_cases clear : opacity = 0
  · rw [clear, Alpha.modulate_zero, if_pos rfl, if_pos rfl]
  · by_cases faded : Alpha.modulate opacity (Argb.alpha argb) = 0
    · rw [if_pos faded, if_neg clear, ← touches]
      funext surface
      symm
      apply Surface.draw_of_opacity_eq_zero
      intro touch member
      obtain ⟨⟨x, color⟩, _, rfl⟩ := List.mem_map.mp member
      simp only [RowTarget.touchOf, tints.flatSource, RowSource.opacity, faded]
    · rw [if_neg faded, if_neg clear, touches]

/-- Runs draw the same in a color and in a paint of that color, or are a fault in both. -/
theorem effect_touchesFrom (tints : flat.Tints tinted argb count) (y x : Int)
    {colors : List Nat} (same : ∀ color ∈ colors, color = argb) (runs : List (Nat × Nat)) :
    (touchesFrom flat y x colors runs).map effect =
      (touchesFrom tinted y x colors runs).map effect := by
  induction runs generalizing x colors with
  | nil => rfl
  | cons run rest inductionHypothesis =>
      obtain ⟨value, length⟩ := run
      have later := inductionHypothesis (x + length) fun color member =>
        same color (List.mem_of_mem_drop (i := length) member)
      simp only [touchesFrom, tints.lookup, tints.hasColumn]
      cases Alpha.lookup tinted.alphas value with
      | error fault => rfl
      | ok opacity =>
          have visible : ∀ pixel ∈ (RowTarget.place x (colors.take length)).filter
              (fun (x, _) => flat.hasColumn x), pixel.2 = argb := by
            rintro ⟨column, color⟩ member
            obtain ⟨taken, _⟩ := RowTarget.bounds_of_mem_place (List.mem_filter.mp member).1
            exact same color (List.mem_of_mem_take taken)
          have here : (Except.ok _ : Except Fault (List Touch)).map effect =
              (Except.ok _ : Except Fault (List Touch)).map effect :=
            congrArg Except.ok (effect_run tints visible y opacity)
          exact effect_bind here later

/-- A row of runs draws the same in a color and in a paint of that color, or is a fault in
both. -/
theorem effect_touches {row : RunRow} (tints : flat.Tints tinted argb (RunRow.count row.runs)) :
    (row.touches flat).map effect = (row.touches tinted).map effect := by
  simp only [touches, tints.hasLine, tints.flatSource, tints.tintedSource, RowSource.colors]
  split
  · exact effect_touchesFrom tints row.y row.x (fun _ member => List.eq_of_mem_replicate member)
      row.runs
  · rfl

end RunRow

end Raster
