import Raster.Proofs.Path.Attracting
import Raster.Stage

/-!
# How far vertices deviate from their curve

The flatness test bounds how far the control points of a piece deviate from the line of its chord,
up to roundings.  Halving and rounding keep the pieces near to the curve.  So the ends of a leaf are
near to the curve, and its control points are if they follow the chord.  Where a control point is
along the chord is not tested: it may point far out of the end of a piece that is accepted.
-/

namespace Raster

namespace Curve

/-! ## Displacements along a chord and across it -/

/-- The displacement of a point along a chord, times the length of the chord. -/
def along (start stop point : Point) : Int :=
  (stop.x - start.x) * (point.x - start.x) + (stop.y - start.y) * (point.y - start.y)

/-- The displacement of a point across a chord, times the length of the chord. -/
def across (start stop point : Point) : Int :=
  (stop.x - start.x) * (point.y - start.y) - (stop.y - start.y) * (point.x - start.x)

/-- The length of a chord. -/
noncomputable def chordLength (start stop : Point) : ℝ :=
  ‖stop.toComplex - start.toComplex‖

theorem sq_norm_toComplex_sub (p q : Point) :
    ‖q.toComplex - p.toComplex‖ ^ 2 = (lengthSq (q.x - p.x) (q.y - p.y) : ℝ) := by
  rw [Complex.sq_norm, Complex.normSq_apply]
  simp only [Point.toComplex, Complex.sub_re, Complex.sub_im, lengthSq]
  push_cast
  rfl

theorem sq_chordLength (start stop : Point) :
    chordLength start stop ^ 2 = chordSq start stop :=
  sq_norm_toComplex_sub start stop

theorem re_framed (start stop point : Point) :
    (framed start.toComplex stop.toComplex point.toComplex).re =
      along start stop point / chordLength start stop := by
  rw [framed, Complex.div_ofReal_re, chordLength]
  congr 1
  simp only [along, Point.toComplex, Complex.mul_re, Complex.sub_re, Complex.sub_im,
    Complex.conj_re, Complex.conj_im]
  push_cast
  ring

theorem im_framed (start stop point : Point) :
    (framed start.toComplex stop.toComplex point.toComplex).im =
      across start stop point / chordLength start stop := by
  rw [framed, Complex.div_ofReal_im, chordLength]
  congr 1
  simp only [across, Point.toComplex, Complex.mul_im, Complex.sub_re, Complex.sub_im,
    Complex.conj_re, Complex.conj_im]
  push_cast
  ring

/-! ## What the flatness test bounds -/

/-- The limit of the test, without its roundings. -/
theorem areaSq_le {flatness : Int} {start stop point : Point}
    (accepted : areaSq start stop point ≤ areaLimit flatness start stop) :
    areaSq start stop point * (65536 * 65536) ≤ chordSq start stop * (flatness * flatness) := by
  have scaled : flatness * flatness / 65536 * 65536 ≤ flatness * flatness :=
    Int.ediv_mul_le _ (by decide)
  calc areaSq start stop point * (65536 * 65536)
      ≤ areaLimit flatness start stop * (65536 * 65536) :=
        mul_le_mul_of_nonneg_right accepted (by decide)
    _ = areaLimit flatness start stop * 65536 * 65536 := by ring
    _ ≤ chordSq start stop * (flatness * flatness / 65536) * 65536 :=
        mul_le_mul_of_nonneg_right (Int.ediv_mul_le _ (by decide)) (by decide)
    _ = chordSq start stop * (flatness * flatness / 65536 * 65536) := by ring
    _ ≤ chordSq start stop * (flatness * flatness) :=
        mul_le_mul_of_nonneg_left scaled (lengthSq_nonneg _ _)

/-- Rounding an area down to whole units loses less than one of them. -/
theorem abs_le_of_area {displacement : Int} {bound : ℝ}
    (area : |(65536 * (displacement / 65536 : Int) : ℝ)| ≤ bound) :
    |(displacement : ℝ)| ≤ bound + 65536 := by
  have division : (displacement : ℝ) =
      65536 * (displacement / 65536 : Int) + (displacement % 65536 : Int) := by
    exact_mod_cast (Int.mul_ediv_add_emod displacement 65536).symm
  have remainder : |((displacement % 65536 : Int) : ℝ)| ≤ 65536 := by
    rw [abs_of_nonneg (Int.cast_nonneg (Int.emod_nonneg _ (by decide)))]
    exact_mod_cast (Int.emod_lt_of_pos displacement (by decide)).le
  rw [division]
  exact (abs_add_le _ _).trans (add_le_add area remainder)

/-- The displacement across the chord of a point that the test accepts. -/
theorem abs_across_le {flatness : Int} (nonneg : 0 ≤ flatness) {start stop point : Point}
    (accepted : areaSq start stop point ≤ areaLimit flatness start stop) :
    |(across start stop point : ℝ)| ≤ flatness * chordLength start stop + 65536 := by
  have squares : (65536 * (across start stop point / 65536 : Int) : ℝ) ^ 2 ≤
      (flatness * chordLength start stop) ^ 2 := by
    have area : areaSq start stop point =
        across start stop point / 65536 * (across start stop point / 65536) := rfl
    have exactly : (areaSq start stop point * (65536 * 65536) : ℝ) ≤
        chordSq start stop * (flatness * flatness) := by
      exact_mod_cast areaSq_le accepted
    rw [area, Int.cast_mul] at exactly
    rw [mul_pow (flatness : ℝ), sq_chordLength]
    linarith
  exact abs_le_of_area (abs_le_of_sq_le_sq squares
    (mul_nonneg (Int.cast_nonneg nonneg) (norm_nonneg _)))

/-! ## Vertices near the curve -/

/-- The points of a piece advance along its chord, all on one side of it.  The test rounds too much
for chords of one or two units. -/
structure FollowsChord (start : Point) (controls : List Point) (stop : Point) : Prop where
  notShort : 9 ≤ chordSq start stop
  advances : ((start :: (controls ++ [stop])).map (along start stop)).IsChain (· ≤ ·)
  sameSide : ∀ a ∈ controls, ∀ b ∈ controls, 0 ≤ across start stop a * across start stop b

/-- How far vertices may be away from their curve: as far as the flatness says, but half a pixel at
least. -/
noncomputable def tolerance (flatness : Int) : ℝ :=
  max flatness 32768

/-- A point lies near to a curve. -/
def NearCurve (reach : ℝ) (curve : ℝ → ℂ) (point : Point) : Prop :=
  ∃ t ∈ Set.Icc (0 : ℝ) 1, ‖point.toComplex - curve t‖ ≤ reach

/-- The points of a piece that is drawn for a part of a curve: the last one is near to the curve,
the control points are not far from the line through both ends of the piece, and near to the curve
too if they follow this line or lie close together. -/
structure StaysNear (flatness : Int) (curve : ℝ → ℂ) (start : Point) (controls : List Point)
    (stop : Point) : Prop where
  ends : NearCurve (tolerance flatness) curve stop
  beside : diagonalSq start (controls ++ [stop]) < minChordSq ∨
    ∀ control ∈ controls,
      |(across start stop control : ℝ)| ≤ flatness * chordLength start stop + 65536
  near : diagonalSq start (controls ++ [stop]) < minChordSq ∨ FollowsChord start controls stop →
    ∀ control ∈ controls, NearCurve (tolerance flatness) curve control

theorem isChord_of_followsChord {start stop : Point} {controls : List Point}
    (follows : FollowsChord start controls stop)
    (notLong : chordSq start stop ≤ maxChordSq) (flatness : Int) :
    IsChord (chordLength start stop) (tolerance flatness) := by
  have lower : (9 : ℝ) ≤ chordSq start stop := by exact_mod_cast follows.notShort
  have upper : (chordSq start stop : ℝ) ≤ 1099511627776 := by exact_mod_cast notLong
  constructor
  · apply (sq_le_sq₀ (by norm_num) (norm_nonneg _)).mp
    rw [← chordLength, sq_chordLength]
    linarith
  · apply (sq_le_sq₀ (norm_nonneg _) (by norm_num)).mp
    rw [← chordLength, sq_chordLength]
    linarith
  · exact le_max_right _ _

theorem abs_im_framed_le {flatness : Int} {start stop point : Point}
    (positive : 0 < chordLength start stop)
    (close : |(across start stop point : ℝ)| ≤ flatness * chordLength start stop + 65536) :
    |(framed start.toComplex stop.toComplex point.toComplex).im| ≤
      tolerance flatness + 65536 / chordLength start stop := by
  have scaled : |(across start stop point : ℝ)| / chordLength start stop ≤
      flatness + 65536 / chordLength start stop := by
    rw [div_le_iff₀ positive, add_mul, div_mul_cancel₀ _ positive.ne']
    exact close
  rw [im_framed, abs_div, abs_of_pos positive]
  exact scaled.trans (add_le_add_left (le_max_left _ _) _)

/-- No two points of a small box are farther apart than half a pixel. -/
theorem norm_toComplex_sub_le_of_small {start : Point} {rest : List Point}
    (small : diagonalSq start rest < minChordSq) {p q : Point} (pMember : p ∈ start :: rest)
    (qMember : q ∈ start :: rest) : ‖q.toComplex - p.toComplex‖ ≤ 32768 := by
  have squares : lengthSq (q.x - p.x) (q.y - p.y) ≤ 1073741824 :=
    ((lengthSq_sub_le_diagonalSq pMember qMember).trans_lt small).le
  apply (sq_le_sq₀ (norm_nonneg _) (by norm_num)).mp
  rw [sq_norm_toComplex_sub]
  norm_num
  exact_mod_cast squares

theorem along_start (start stop : Point) : along start stop start = 0 := by
  rw [along, Int.sub_self, Int.sub_self, mul_zero, mul_zero, add_zero]

theorem re_framed_nonneg {start stop point : Point} (ahead : 0 ≤ along start stop point) :
    0 ≤ (framed start.toComplex stop.toComplex point.toComplex).re := by
  rw [re_framed]
  exact div_nonneg (Int.cast_nonneg ahead) (norm_nonneg _)

theorem re_framed_stop {start stop : Point} (distinct : chordLength start stop ≠ 0) :
    (framed start.toComplex stop.toComplex stop.toComplex).re = chordLength start stop := by
  rw [framed_stop distinct, Complex.ofReal_re, chordLength]

theorem re_framed_le {start stop p q : Point} (ahead : along start stop p ≤ along start stop q) :
    (framed start.toComplex stop.toComplex p.toComplex).re ≤
      (framed start.toComplex stop.toComplex q.toComplex).re := by
  rw [re_framed, re_framed]
  exact div_le_div_of_nonneg_right (Int.cast_le.mpr ahead) (norm_nonneg _)

namespace Quad

/-- The control point of a small piece is near to the middle of the piece. -/
theorem exists_near_control_of_small (flatness : Int) {quad : Quad}
    (small : diagonalSq quad.start ([quad.control] ++ [quad.stop]) < minChordSq) :
    ∃ t ∈ Set.Icc (0 : ℝ) 1,
      ‖quad.control.toComplex - quad.pointAt t‖ ≤ tolerance flatness - 25 := by
  have wide : 32768 ≤ tolerance flatness := le_max_right _ _
  have toStart : ‖quad.control.toComplex - quad.start.toComplex‖ ≤ 32768 :=
    norm_toComplex_sub_le_of_small small List.mem_cons_self (by simp)
  have toStop : ‖quad.control.toComplex - quad.stop.toComplex‖ ≤ 32768 :=
    norm_toComplex_sub_le_of_small small (by simp) (by simp)
  have here := norm_sub_self_le le_rfl quad.control.toComplex
  refine ⟨1 / 2, by norm_num, ?_⟩
  have middle : ‖quad.control.toComplex - quad.pointAt (1 / 2)‖ ≤ _ :=
    norm_sub_blend_half_le (norm_sub_blend_half_le toStart here)
      (norm_sub_blend_half_le here toStop)
  linarith

/-- The control point of a flat piece is near to the piece if it follows the chord or lies close to
its ends. -/
theorem exists_near_control {flatness : Int} (nonneg : 0 ≤ flatness) {quad : Quad}
    (flat : kind.isFlat flatness quad = true)
    (orderly : diagonalSq quad.start ([quad.control] ++ [quad.stop]) < minChordSq ∨
      FollowsChord quad.start [quad.control] quad.stop) :
    ∃ t ∈ Set.Icc (0 : ℝ) 1,
      ‖quad.control.toComplex - quad.pointAt t‖ ≤ tolerance flatness - 25 := by
  obtain ⟨notLong, smallOrClose⟩ := isFlat_iff.mp flat
  by_cases small : diagonalSq quad.start ([quad.control] ++ [quad.stop]) < minChordSq
  · exact exists_near_control_of_small flatness small
  · have follows := orderly.resolve_left small
    have accepted := smallOrClose.resolve_left fun close => small close.2
    have chord := isChord_of_followsChord follows notLong flatness
    have positive := chord.pos
    have close := abs_im_framed_le positive (abs_across_le nonneg accepted.le)
    have advances := follows.advances
    simp only [List.cons_append, List.nil_append, List.map_cons, List.map_nil,
      List.isChain_cons_cons, List.isChain_singleton, and_true, along_start] at advances
    have beforeStop := re_framed_le advances.2
    rw [re_framed_stop positive.ne'] at beforeStop
    apply exists_near_of_framed positive.ne' _
      (exists_near_quad_control chord (re_framed_nonneg advances.1) beforeStop close)
    intro t
    rw [pointAt, framed_quadAt, framed_start, framed_stop positive.ne', chordLength]

end Quad

namespace Cubic

/-- The control points of a small piece are near to the middle of the piece. -/
theorem exists_near_control_of_small (flatness : Int) {cubic : Cubic}
    (small : diagonalSq cubic.start ([cubic.control₁, cubic.control₂] ++ [cubic.stop]) <
      minChordSq) :
    ∀ control ∈ [cubic.control₁, cubic.control₂], ∃ t ∈ Set.Icc (0 : ℝ) 1,
      ‖control.toComplex - cubic.pointAt t‖ ≤ tolerance flatness - 25 := by
  have wide : 32768 ≤ tolerance flatness := le_max_right _ _
  have close {p q : Point} := norm_toComplex_sub_le_of_small small (p := p) (q := q)
  intro control member
  refine ⟨1 / 2, by norm_num, ?_⟩
  have here := norm_sub_self_le le_rfl control.toComplex
  have toStart : ‖control.toComplex - cubic.start.toComplex‖ ≤ 32768 :=
    close List.mem_cons_self (List.mem_cons_of_mem _ (List.mem_append_left _ member))
  have toStop : ‖control.toComplex - cubic.stop.toComplex‖ ≤ 32768 :=
    close (by simp) (List.mem_cons_of_mem _ (List.mem_append_left _ member))
  rcases List.mem_pair.mp member with rfl | rfl
  · have across : ‖cubic.control₁.toComplex - cubic.control₂.toComplex‖ ≤ 32768 :=
      close (by simp) (by simp)
    have middle : ‖cubic.control₁.toComplex - cubic.pointAt (1 / 2)‖ ≤ _ :=
      norm_sub_blend_half_le
        (norm_sub_blend_half_le (norm_sub_blend_half_le toStart here)
          (norm_sub_blend_half_le here across))
        (norm_sub_blend_half_le (norm_sub_blend_half_le here across)
          (norm_sub_blend_half_le across toStop))
    linarith
  · have across : ‖cubic.control₂.toComplex - cubic.control₁.toComplex‖ ≤ 32768 :=
      close (by simp) (by simp)
    have middle : ‖cubic.control₂.toComplex - cubic.pointAt (1 / 2)‖ ≤ _ :=
      norm_sub_blend_half_le
        (norm_sub_blend_half_le (norm_sub_blend_half_le toStart across)
          (norm_sub_blend_half_le across here))
        (norm_sub_blend_half_le (norm_sub_blend_half_le across here)
          (norm_sub_blend_half_le here toStop))
    linarith

/-- The control points of a flat piece advance in the frame of its chord if they follow the
chord. -/
theorem advance_of_followsChord {flatness : Int} (nonneg : 0 ≤ flatness) {cubic : Cubic}
    (notLong : chordSq cubic.start cubic.stop ≤ maxChordSq)
    (follows : FollowsChord cubic.start [cubic.control₁, cubic.control₂] cubic.stop)
    (accepted : ∀ control ∈ [cubic.control₁, cubic.control₂],
      areaSq cubic.start cubic.stop control ≤ areaLimit flatness cubic.start cubic.stop) :
    Advance (chordLength cubic.start cubic.stop) (tolerance flatness)
      (framed cubic.start.toComplex cubic.stop.toComplex cubic.control₁.toComplex)
      (framed cubic.start.toComplex cubic.stop.toComplex cubic.control₂.toComplex) := by
  have chord := isChord_of_followsChord follows notLong flatness
  have positive := chord.pos
  have advances := follows.advances
  simp only [List.cons_append, List.nil_append, List.map_cons, List.map_nil,
    List.isChain_cons_cons, List.isChain_singleton, and_true, along_start] at advances
  obtain ⟨afterStart, ordered, beforeStop⟩ := advances
  constructor
  · exact chord
  · exact re_framed_nonneg afterStart
  · exact re_framed_le ordered
  · rw [← re_framed_stop positive.ne']
    exact re_framed_le beforeStop
  · rw [im_framed, im_framed, div_mul_div_comm, ← Int.cast_mul]
    exact div_nonneg (Int.cast_nonneg (follows.sameSide _ (by simp) _ (by simp)))
      (mul_self_nonneg _)
  · exact abs_im_framed_le positive (abs_across_le nonneg (accepted _ (by simp)))
  · exact abs_im_framed_le positive (abs_across_le nonneg (accepted _ (by simp)))

/-- The control points of a flat piece are near to the piece if they follow its chord or lie close
together. -/
theorem exists_near_control {flatness : Int} (nonneg : 0 ≤ flatness) {cubic : Cubic}
    (flat : kind.isFlat flatness cubic = true)
    (orderly :
      diagonalSq cubic.start ([cubic.control₁, cubic.control₂] ++ [cubic.stop]) < minChordSq ∨
        FollowsChord cubic.start [cubic.control₁, cubic.control₂] cubic.stop) :
    ∀ control ∈ [cubic.control₁, cubic.control₂], ∃ t ∈ Set.Icc (0 : ℝ) 1,
      ‖control.toComplex - cubic.pointAt t‖ ≤ tolerance flatness - 25 := by
  obtain ⟨notLong, smallOrClose⟩ := isFlat_iff.mp flat
  by_cases small :
      diagonalSq cubic.start ([cubic.control₁, cubic.control₂] ++ [cubic.stop]) < minChordSq
  · exact exists_near_control_of_small flatness small
  · have accepted := smallOrClose.resolve_left fun close => small close.2
    have advance := advance_of_followsChord nonneg notLong (orderly.resolve_left small)
      (List.forall_mem_cons.mpr ⟨accepted.1, List.forall_mem_singleton.mpr accepted.2.le⟩)
    have distinct : chordLength cubic.start cubic.stop ≠ 0 := advance.chord.pos.ne'
    have same (t : ℝ) : framed cubic.start.toComplex cubic.stop.toComplex (cubic.pointAt t) =
        cubicAt 0
          (framed cubic.start.toComplex cubic.stop.toComplex cubic.control₁.toComplex)
          (framed cubic.start.toComplex cubic.stop.toComplex cubic.control₂.toComplex)
          (chordLength cubic.start cubic.stop : ℝ) t := by
      rw [pointAt, framed_cubicAt, framed_start, framed_stop distinct, chordLength]
    intro control member
    rcases List.mem_pair.mp member with rfl | rfl
    · exact exists_near_of_framed distinct same advance.exists_near_first
    · exact exists_near_of_framed distinct same advance.exists_near_second

end Cubic

/-! ## Leaves near their curve -/

/-- What is near to a leaf is near to its curve: all roundings together move a leaf by no more than
twenty-five units. -/
theorem Kind.Follows.nearCurve {κ : Type} {kind : Kind κ} {pointAt : κ → ℝ → ℂ}
    (follows : kind.Follows pointAt) {flatness : Int} {curve : κ} {leaf : Leaf κ}
    (member : leaf ∈ kind.leaves flatness curve) (notDeep : leaf.depth ≤ deepest) {point : Point}
    (near : ∃ t ∈ Set.Icc (0 : ℝ) 1,
      ‖point.toComplex - pointAt leaf.piece t‖ ≤ tolerance flatness - 25) :
    NearCurve (tolerance flatness) (pointAt curve) point := by
  have drift : (leaf.depth : ℝ) * roundoff ≤ 25 := by
    have depth : (leaf.depth : ℝ) ≤ 20 := by exact_mod_cast notDeep
    rw [roundoff]
    linarith
  have whole := ((follows.runsAlong member).mono drift).exists_near near
  rw [sub_add_cancel] at whole
  exact whole

theorem exists_near_stop (flatness : Int) {point : Point} {piece : ℝ → ℂ}
    (ends : piece 1 = point.toComplex) :
    ∃ t ∈ Set.Icc (0 : ℝ) 1, ‖point.toComplex - piece t‖ ≤ tolerance flatness - 25 := by
  have wide : 32768 ≤ tolerance flatness := le_max_right _ _
  refine ⟨1, Set.right_mem_Icc.mpr zero_le_one, ?_⟩
  rw [ends]
  exact norm_sub_self_le (by linarith) _

theorem Quad.staysNear {flatness : Int} (nonneg : 0 ≤ flatness) {quad : Quad}
    (fits : ∀ point ∈ kind.points quad, point.Fits32) {leaf : Leaf Quad}
    (member : leaf ∈ kind.leaves flatness quad) :
    StaysNear flatness quad.pointAt leaf.piece.start [leaf.piece.control] leaf.piece.stop := by
  obtain ⟨notDeep, flat⟩ := shrinks.leaf (hasLegs_of_fits32 fits) member
  constructor
  · exact follows.nearCurve member notDeep (exists_near_stop flatness (quadAt_one _ _ _))
  · refine (isFlat_iff.mp flat).2.imp And.right ?_
    intro accepted control only
    rw [List.mem_singleton.mp only]
    exact abs_across_le nonneg accepted.le
  · intro orderly control only
    rw [List.mem_singleton.mp only]
    exact follows.nearCurve member notDeep (exists_near_control nonneg flat orderly)

theorem Cubic.staysNear {flatness : Int} (nonneg : 0 ≤ flatness) {cubic : Cubic}
    (fits : ∀ point ∈ kind.points cubic, point.Fits32) {leaf : Leaf Cubic}
    (member : leaf ∈ kind.leaves flatness cubic) :
    StaysNear flatness cubic.pointAt leaf.piece.start [leaf.piece.control₁, leaf.piece.control₂]
      leaf.piece.stop := by
  obtain ⟨notDeep, flat⟩ := shrinks.leaf (hasLegs_of_fits32 fits) member
  constructor
  · exact follows.nearCurve member notDeep (exists_near_stop flatness (cubicAt_one _ _ _ _))
  · refine (isFlat_iff.mp flat).2.imp And.right ?_
    intro accepted control either
    rcases List.mem_pair.mp either with rfl | rfl
    · exact abs_across_le nonneg accepted.1
    · exact abs_across_le nonneg accepted.2.le
  · intro orderly control either
    exact follows.nearCurve member notDeep (exists_near_control nonneg flat orderly control either)

/-- Flattening draws the points of the leaves of a curve, and they stay near to the exact curve as
`StaysNear` says: within the flatness or half a pixel, but for control points that point out of the
ends of their leaf or lie on both sides of it. -/
theorem leaves_stay_near {flatness : Int} (positive : 0 < flatness) :
    (∀ quad : Quad, (∀ point ∈ Quad.kind.points quad, point.Fits32) →
      quadVertices flatness maxDepth quad.start quad.control quad.stop =
        (Quad.kind.leaves flatness quad).flatMap (fun leaf =>
          [leaf.piece.control] ++ [leaf.piece.stop]) ∧
      ∀ leaf ∈ Quad.kind.leaves flatness quad,
        StaysNear flatness quad.pointAt leaf.piece.start [leaf.piece.control] leaf.piece.stop) ∧
    ∀ cubic : Cubic, (∀ point ∈ Cubic.kind.points cubic, point.Fits32) →
      cubicVertices flatness maxDepth cubic.start cubic.control₁ cubic.control₂ cubic.stop =
        (Cubic.kind.leaves flatness cubic).flatMap (fun leaf =>
          [leaf.piece.control₁, leaf.piece.control₂] ++ [leaf.piece.stop]) ∧
      ∀ leaf ∈ Cubic.kind.leaves flatness cubic,
        StaysNear flatness cubic.pointAt leaf.piece.start
          [leaf.piece.control₁, leaf.piece.control₂] leaf.piece.stop := by
  constructor
  · intro quad fits
    exact ⟨(Quad.draws flatness).eq_leaves maxDepth 0 quad,
      fun leaf member => Quad.staysNear positive.le fits member⟩
  · intro cubic fits
    exact ⟨(Cubic.draws flatness).eq_leaves maxDepth 0 cubic,
      fun leaf member => Cubic.staysNear positive.le fits member⟩

/-- An arch is drawn by two leaves, whose control points follow their chords. -/
theorem leaves_stay_near_arch :
    let quad : Quad := ⟨⟨0, 0⟩, ⟨100000, 50000⟩, ⟨200000, 0⟩⟩
    let vertices : List Point := [⟨50000, 25000⟩, ⟨100000, 25000⟩, ⟨150000, 25000⟩, ⟨200000, 0⟩]
    (0 : Int) < 32768 ∧ (∀ point ∈ Quad.kind.points quad, point.Fits32) ∧
      quadVertices 32768 maxDepth quad.start quad.control quad.stop = vertices ∧
      ∀ vertex ∈ vertices, NearCurve (tolerance 32768) quad.pointAt vertex := by
  intro quad vertices
  have positive : (0 : Int) < 32768 := by decide
  have fits : ∀ point ∈ Quad.kind.points quad, point.Fits32 := by decide
  obtain ⟨_, near⟩ := (leaves_stay_near positive).1 quad fits
  have leaves : Quad.kind.leaves 32768 quad =
      [⟨1, ⟨0, 0⟩, ⟨50000, 25000⟩, ⟨100000, 25000⟩⟩,
        ⟨1, ⟨100000, 25000⟩, ⟨150000, 25000⟩, ⟨200000, 0⟩⟩] := by rfl
  rw [leaves] at near
  have rising := near _ List.mem_cons_self
  have falling := near _ (List.mem_cons_of_mem _ List.mem_cons_self)
  have risingFollows : FollowsChord ⟨0, 0⟩ [⟨50000, 25000⟩] ⟨100000, 25000⟩ :=
    ⟨by decide, by simp [along], by decide⟩
  have fallingFollows : FollowsChord ⟨100000, 25000⟩ [⟨150000, 25000⟩] ⟨200000, 0⟩ :=
    ⟨by decide, by simp [along], by decide⟩
  refine ⟨positive, fits, by decide +kernel, ?_⟩
  simp only [vertices, List.forall_mem_cons]
  exact ⟨rising.near (.inr risingFollows) _ List.mem_cons_self, rising.ends,
    falling.near (.inr fallingFollows) _ List.mem_cons_self, falling.ends, List.forall_mem_nil _⟩

/-- A control point on the line of the chord deviates from it by nothing, however far it points out
of the end: the piece is drawn to a point that is far away from the curve. -/
theorem far_from_curve_of_overshoot :
    let quad : Quad := ⟨⟨0, 0⟩, ⟨262144, 0⟩, ⟨65536, 0⟩⟩
    Stage.output Flattener.step (Flattener.new 32768)
        [.moveTo quad.start, .quadTo quad.control quad.stop] =
      [.moveTo quad.start, .lineJoin, .lineTo quad.control, .lineTo quad.stop] ∧
      ¬ NearCurve (tolerance 32768 + 4) quad.pointAt quad.control := by
  intro quad
  refine ⟨by decide +kernel, ?_⟩
  rintro ⟨t, unit, near⟩
  have tolerated : tolerance 32768 = 32768 := max_self _
  have re := (Complex.abs_re_le_norm _).trans near
  have distance : (quad.control.toComplex - quad.pointAt t).re =
      262144 - (2 * t * (1 - t) * 262144 + t ^ 2 * 65536) := by
    simp only [quad, Quad.pointAt, quadAt, Complex.sub_re, re_blend, Point.toComplex]
    push_cast
    ring
  rw [distance, tolerated] at re
  nlinarith [le_abs_self (262144 - (2 * t * (1 - t) * 262144 + t ^ 2 * 65536)),
    sq_nonneg (7 * t - 4)]

end Curve

end Raster
