import Raster.Proofs.Paint.Placing
import Raster.Proofs.Scan.Looping

/-!
# Reusing scratch data

A scanner keeps its buffers and its last alpha table from one path to the next.  A buffer is cleared
before a sweep, a row of colors is painted over from end to end, and an alpha table is asked for by
all that it is computed from.  So none of them depends on what was drawn before.
-/

namespace Raster

/-- A row of colors has the length that it is painted in. -/
theorem Scratch.length_row (scratch : Scratch) (count : Nat) :
    (scratch.row count).length = count := by
  simp only [row, resized, Array.length_toList, Array.size_append, Array.size_replicate,
    Array.take_eq_extract, Array.size_extract]
  omega

/-- The colors of a row of pixels, whatever they are painted over. -/
def Paint.rowSource (paint : Paint) (x y : Int) (count : Nat) : Except Fault RowSource :=
  match paint.solidColor? with
  | some color => .ok (.flat color.argb)
  | none =>
      match paint.row? x y count with
      | some colors => .ok (.perPixel colors)
      | none => .error .texelOutsideBorder

theorem Paint.IsWhole.exists_rowSource {paint : Paint} (whole : paint.IsWhole)
    (sound : paint.isDegenerate = false) (x y : Int) (count : Nat) :
    ∃ source, paint.rowSource x y count = .ok source := by
  rw [Paint.rowSource]
  cases paint.solidColor? with
  | some color => exact ⟨_, rfl⟩
  | none =>
      obtain ⟨colors, row⟩ := Option.isSome_iff_exists.mp (whole sound x y count)
      simp only [row]
      exact ⟨_, rfl⟩

/-- A row has a color for each of its pixels. -/
theorem Paint.length_colors_rowSource {paint : Paint} {x y : Int} {count : Nat} {source : RowSource}
    (colored : paint.rowSource x y count = .ok source) : (source.colors count).length = count := by
  rw [Paint.rowSource] at colored
  cases solid : paint.solidColor? with
  | some color =>
      rw [solid] at colored
      cases colored
      exact List.length_replicate
  | none =>
      rw [solid] at colored
      cases row : paint.row? x y count with
      | none =>
          rw [row] at colored
          cases colored
      | some colors =>
          rw [row] at colored
          cases colored
          exact Paint.length_row? row

namespace Scanner

/-- The scanner without what it keeps of drawings. -/
def bare (scanner : Scanner) : Scanner :=
  { scanner with scratch := .empty }

/-- Scanners that are equal but for what they keep of drawings. -/
theorem eq_of_bare_eq {first second : Scanner} (same : first.bare = second.bare) :
    first = { second with scratch := first.scratch } := by
  obtain ⟨surface, grid, rule, clip, paint, cache, box, edges, subpath, probe, scratch⟩ := first
  cases same
  rfl

/-! ## Alpha tables -/

/-- Whichever table was used last, the one that is asked for is found or computed. -/
@[simp]
theorem alphaTable_eq (scanner : Scanner) (maxCoverage sourceAlpha : Nat) :
    scanner.alphaTable maxCoverage sourceAlpha = Alpha.table maxCoverage sourceAlpha :=
  Alpha.Memo.table_ofLast _ _ _

theorem alphas_eq (scanner : Scanner) (maxCoverage : Nat) :
    scanner.alphas maxCoverage = Alpha.table maxCoverage scanner.sourceAlpha :=
  alphaTable_eq scanner maxCoverage scanner.sourceAlpha

/-- The opacities of coverage values depend on the paint only. -/
theorem alphas_congr {first second : Scanner} (paint : first.paint = second.paint)
    (maxCoverage : Nat) : first.alphas maxCoverage = second.alphas maxCoverage := by
  rw [alphas_eq, alphas_eq, sourceAlpha, sourceAlpha, paint]

/-- The table of every paint has the coverage of a pixel inside completely, and no more. -/
theorem size_alphas (scanner : Scanner) (grid : Grid) :
    (scanner.alphas grid.maxCoverage).size = grid.maxCoverage + 1 := by
  have positive : 0 < grid.maxCoverage :=
    Nat.mul_pos (Nat.pow_pos (by decide)) (Nat.pow_pos (by decide))
  rw [alphas_eq, Alpha.size_table]
  omega

/-! ## Rows of colors -/

/-- A row of colors is painted over from end to end. -/
theorem source_eq {scanner : Scanner} (sound : scanner.paint.isDegenerate = false) (x y : Int)
    (count : Nat) : scanner.source x y count = scanner.paint.rowSource x y count := by
  rw [source, Paint.rowSource]
  cases scanner.paint.solidColor? with
  | some color => rfl
  | none =>
      simp only [Paint.paintRow, sound, Bool.false_eq_true, if_false, Scratch.length_row]
      cases scanner.paint.row? x y count <;> rfl

/-! ## Sweeps -/

/-- Without edges there is nothing to sweep. -/
theorem coverageRows_of_isEmpty {scanner : Scanner}
    (empty : scanner.edges.isEmpty = true ∨ scanner.clip.isEmpty = true) :
    scanner.coverageRows = [] := by
  rw [coverageRows, Sweep.coverageRows]
  split
  · rfl
  · rename_i area
    have none : scanner.edges = #[] :=
      Array.isEmpty_iff.mp (empty.resolve_right area)
    rw [none]
    rfl

/-- The scanner that knows which pixels its path touches. -/
def boxed (scanner : Scanner) : Scanner :=
  { scanner with boundingBox := Sweep.boxOf scanner.coverageRows }

/-- A sweep answers the coverage of the path, whatever the buffers hold at its start. -/
theorem exists_sweep_eq {scanner : Scanner} (area : scanner.clip.isEmpty = false) :
    ∃ scratch, scanner.sweep =
      ({ scanner.boxed with scratch := scratch }, scanner.coverageRows) := by
  have rows : (Stage.run (SweepLoop.visitLine scanner.frame)
      (.start scanner.frame scanner.edges.toList)
        (Sweep.linesOf scanner.grid scanner.edges.toList)).2 = scanner.coverageRows := by
    rw [coverageRows, ← SweepLoop.coverageRows_eq, SweepLoop.coverageRows, if_neg]
    · rfl
    · exact Bool.eq_false_iff.mp area
  simp only [sweep, SweepLoop.restart_eq, rows]
  exact ⟨_, rfl⟩

end Scanner

end Raster
