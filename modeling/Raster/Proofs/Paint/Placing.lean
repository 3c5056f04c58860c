import Mathlib.Tactic.Ring
import Raster.Paint.Basic

/-!
# Pixels of a row

The color of a pixel is a function of the place of the pixel alone, wherever the row that it is
evaluated in starts.  Fractions and texture coordinates are stepped along a row in integers, and
integers that wrap still add up.  Radial gradients are left out: their fractions are stepped in
floating point, which rounds.
-/

namespace Raster

/-- Every value has a result exactly if the results are those of the values, one by one. -/
theorem mapM_eq_some_iff {α β : Type} {f : α → Option β} {values : List α} {results : List β} :
    values.mapM f = some results ↔ values.map f = results.map some := by
  induction values generalizing results with
  | nil => cases results <;> simp
  | cons value rest inductionHypothesis =>
      rw [List.mapM_cons, List.map_cons]
      cases results with
      | nil => cases f value <;> cases rest.mapM f <;> simp
      | cons result later =>
          rw [List.map_cons, List.cons.injEq, ← inductionHypothesis]
          cases f value <;> cases rest.mapM f <;> simp

theorem length_of_mapM_eq_some {α β : Type} {f : α → Option β} {values : List α}
    {results : List β} (answered : values.mapM f = some results) :
    results.length = values.length := by
  have lengths := congrArg List.length (mapM_eq_some_iff.mp answered)
  rw [List.length_map, List.length_map] at lengths
  exact lengths.symm

/-- Sums that wrap at every step are the sums that wrap once. -/
theorem Word.steps_wrap64 (step : Int) (count : Nat) (first : Int) :
    steps step count (wrap64 first) =
      (List.range count).map fun index : Nat => wrap64 (first + index * step) := by
  induction count generalizing first with
  | zero => rfl
  | succ count inductionHypothesis =>
      have next : wrap64 (wrap64 first + step) = wrap64 (first + step) := by
        unfold wrap64
        omega
      rw [steps, next, inductionHypothesis, List.range_succ_eq_map, List.map_cons, List.map_map]
      congr 1
      · rw [Nat.cast_zero, zero_mul, add_zero]
      · apply List.map_congr_left
        intro index _
        rw [Function.comp_apply, Nat.cast_succ, add_one_mul, add_assoc, add_comm step]

/-- The fractions of a row are those of its pixels. -/
theorem FractionPlane.steps_fraction (plane : FractionPlane) (x y : Int) (count : Nat) :
    Word.steps plane.perX count (plane.fraction x y) =
      (List.range count).map fun index : Nat => plane.fraction (x + index) y := by
  rw [fraction, Word.steps_wrap64]
  apply List.map_congr_left
  intro index _
  rw [fraction]
  congr 1
  ring

namespace Texture

theorem steps_coordinate (perX perY base x y : Int) (count : Nat) :
    Word.steps perX count (coordinate perX perY base x y) =
      (List.range count).map fun index : Nat => coordinate perX perY base (x + index) y := by
  rw [coordinate, Word.steps_wrap64]
  apply List.map_congr_left
  intro index _
  rw [coordinate]
  congr 1
  ring

/-- The texture position of the center of a pixel. -/
def position (inverse : Affine) (x y : Int) : Int × Int :=
  (coordinate inverse.xx inverse.xy inverse.dx x y,
    coordinate inverse.yx inverse.yy inverse.dy x y)

/-- The positions of a row are those of its pixels. -/
theorem positions_eq (inverse : Affine) (x y : Int) (count : Nat) :
    positions inverse x y count =
      (List.range count).map fun index : Nat => position inverse (x + index) y := by
  rw [positions, steps_coordinate, steps_coordinate, List.zip_map']
  rfl

theorem row?_eq {texture : Texture} {inverse : Affine} (present : texture.inverse = some inverse)
    (x y : Int) (count : Nat) :
    texture.row? x y count = (List.range count).mapM fun index : Nat =>
      texture.sample? (position inverse (x + index) y).1 (position inverse (x + index) y).2 := by
  rw [row?, present, Option.bind_some, positions_eq, List.mapM_map]
  rfl

end Texture

namespace Paint

/-- A row has a color for each of its pixels. -/
theorem length_row? {paint : Paint} {x y : Int} {count : Nat} {colors : List Nat}
    (row : paint.row? x y count = some colors) : colors.length = count := by
  cases paint with
  | solid color =>
      simp only [row?, Option.some.injEq] at row
      rw [← row, List.length_replicate]
  | linear gradient =>
      simp only [row?, LinearGradient.row?, Option.map_eq_some_iff] at row
      obtain ⟨plane, _, rfl⟩ := row
      rw [List.length_map, Word.length_steps]
  | radial gradient =>
      simp only [row?, RadialGradient.row?, Option.map_eq_some_iff] at row
      obtain ⟨setup, _, rfl⟩ := row
      rw [List.length_map]
      generalize setup.walk x y = walk
      induction count generalizing walk with
      | zero => rfl
      | succ count inductionHypothesis =>
          rw [RadialWalk.fractions, List.length_cons, inductionHypothesis]
  | image texture =>
      simp only [row?, Texture.row?, Option.bind_eq_some_iff] at row
      obtain ⟨inverse, _, sampled⟩ := row
      rw [length_of_mapM_eq_some sampled, Texture.positions_eq, List.length_map, List.length_range]

theorem row?_of_isDegenerate {paint : Paint} (blank : paint.isDegenerate = true) (x y : Int)
    (count : Nat) : paint.row? x y count = none := by
  cases paint with
  | solid color => cases blank
  | linear gradient =>
      rw [row?, LinearGradient.row?, Option.isNone_iff_eq_none.mp blank, Option.map_none]
  | radial gradient =>
      rw [row?, RadialGradient.row?, Option.isNone_iff_eq_none.mp blank, Option.map_none]
  | image texture =>
      rw [row?, Texture.row?, Option.isNone_iff_eq_none.mp blank, Option.bind_none]

/-! ## Missing texels -/

/-- Every row that the paint can color at all has its colors. -/
def IsWhole (paint : Paint) : Prop :=
  paint.isDegenerate = false → ∀ x y count, (paint.row? x y count).isSome = true

/-- Only a texture can lack colors. -/
theorem isWhole_of_not_image {paint : Paint} (flat : ∀ texture, paint ≠ .image texture) :
    paint.IsWhole := by
  intro sound x y count
  cases paint with
  | solid color => rfl
  | linear gradient =>
      rw [row?, LinearGradient.row?, Option.isSome_map]
      exact Option.isNone_eq_false_iff.mp sound
  | radial gradient =>
      rw [row?, RadialGradient.row?, Option.isSome_map]
      exact Option.isNone_eq_false_iff.mp sound
  | image texture => exact absurd rfl (flat texture)

/-- A texture lacks no colors if it has one at every position. -/
theorem isWhole_image {texture : Texture} (held : ∀ x y, (texture.sample? x y).isSome = true) :
    (image texture).IsWhole := by
  intro sound x y count
  obtain ⟨inverse, present⟩ := Option.isSome_iff_exists.mp (Option.isNone_eq_false_iff.mp sound)
  rw [row?, Texture.row?_eq present, Option.isSome_iff_exists]
  exact ⟨_, mapM_eq_some_iff.mpr ((List.map_map ..).trans
    (List.map_congr_left fun index _ => Option.some_get (held _ _))).symm⟩

/-! ## Places -/

/-- Whether the paint is a radial gradient. -/
def isRadial : Paint → Bool
  | radial _ => true
  | _ => false

/-- The color of a pixel as a row of its own. -/
def pixel? (paint : Paint) (x y : Int) : Option Nat :=
  (paint.row? x y 1).bind fun colors => colors[0]?

section Placed

variable {paint : Paint}

/-- The colors of a paint, place by place. -/
theorem exists_color (placed : paint.isRadial = false) (sound : paint.isDegenerate = false) :
    ∃ color : Int → Int → Option Nat, ∀ x y count, paint.row? x y count =
      (List.range count).mapM fun index : Nat => color (x + index) y := by
  cases paint with
  | solid color =>
      refine ⟨fun _ _ => some color.argb, fun x y count => ?_⟩
      rw [eq_comm, row?, mapM_eq_some_iff, List.map_const', List.length_range,
        List.map_replicate]
  | linear gradient =>
      obtain ⟨plane, present⟩ := Option.isSome_iff_exists.mp
        (Option.isNone_eq_false_iff.mp sound)
      refine ⟨fun x y => some (gradient.ramp.lookup (plane.fraction x y)), fun x y count => ?_⟩
      rw [row?, LinearGradient.row?, present, Option.map_some, plane.steps_fraction, eq_comm,
        mapM_eq_some_iff, List.map_map, List.map_map]
      rfl
  | radial gradient => cases placed
  | image texture =>
      obtain ⟨inverse, present⟩ := Option.isSome_iff_exists.mp
        (Option.isNone_eq_false_iff.mp sound)
      exact ⟨fun x y => texture.sample? (Texture.position inverse x y).1
        (Texture.position inverse x y).2, fun x y count => Texture.row?_eq present x y count⟩

/-- A row is made of its pixels, each of them evaluated alone. -/
theorem row?_eq_mapM_pixel? (placed : paint.isRadial = false) (sound : paint.isDegenerate = false)
    (x y : Int) (count : Nat) : paint.row? x y count =
      (List.range count).mapM fun index : Nat => paint.pixel? (x + index) y := by
  obtain ⟨color, rows⟩ := exists_color placed sound
  have alone : ∀ x, paint.pixel? x y = color x y := by
    intro x
    rw [pixel?, rows, List.range_one, List.mapM_cons, List.mapM_nil, Nat.cast_zero, add_zero]
    cases color x y <;> rfl
  simp only [rows, alone]

/-- A pixel has the same color in every row that holds it. -/
theorem getElem?_row? (placed : paint.isRadial = false) {x y : Int} {count : Nat}
    {colors : List Nat} (row : paint.row? x y count = some colors) {index : Nat}
    (inside : index < count) : colors[index]? = paint.pixel? (x + index) y := by
  cases sound : paint.isDegenerate with
  | true =>
      rw [row?_of_isDegenerate sound] at row
      cases row
  | false =>
      rw [row?_eq_mapM_pixel? placed sound, mapM_eq_some_iff] at row
      have element := congrArg (·[index]?) row
      simp only [List.getElem?_map, List.getElem?_range inside, Option.map_some] at element
      cases found : colors[index]? with
      | none =>
          rw [found] at element
          cases element
      | some color =>
          rw [found] at element
          exact (Option.some.inj element).symm

end Placed

end Paint

end Raster
