import Mathlib.Algebra.Order.Ring.Abs
import Raster.Proofs.Path.Halving
import Raster.Stage

/-!
# Tighter flatness refines

What a tight flatness accepts as flat a loose one accepts too.  So the leaves of a curve under the
tight flatness refine those under the loose one, and every curve is drawn by at least as many
lines.  Flatness does not matter to the points that commands lead to.
-/

namespace Raster

namespace Curve

/-! ## Flatness tests -/

/-- A looser flatness allows larger areas, and the other limits don't depend on it. -/
theorem areaLimit_mono {tight loose : Int} (tighter : |tight| ≤ |loose|) (start stop : Point) :
    areaLimit tight start stop ≤ areaLimit loose start stop := by
  have squares : tight * tight ≤ loose * loose := abs_le_iff_mul_self_le.mp tighter
  have scaled : tight * tight / 65536 ≤ loose * loose / 65536 :=
    Int.ediv_le_ediv (by decide) squares
  exact Int.ediv_le_ediv (by decide) (mul_le_mul_of_nonneg_left scaled (lengthSq_nonneg _ _))

theorem isFlatQuad_of_tighter {tight loose : Int} (tighter : |tight| ≤ |loose|) (quad : Quad)
    (flat : Quad.kind.isFlat tight quad = true) : Quad.kind.isFlat loose quad = true := by
  obtain ⟨notLong, small | accepted⟩ := Quad.isFlat_iff.mp flat
  · exact Quad.isFlat_iff.mpr ⟨notLong, .inl small⟩
  · have looser := accepted.trans_le (areaLimit_mono tighter _ _)
    exact Quad.isFlat_iff.mpr ⟨notLong, .inr looser⟩

theorem isFlatCubic_of_tighter {tight loose : Int} (tighter : |tight| ≤ |loose|) (cubic : Cubic)
    (flat : Cubic.kind.isFlat tight cubic = true) : Cubic.kind.isFlat loose cubic = true := by
  obtain ⟨notLong, small | ⟨accepted₁, accepted₂⟩⟩ := Cubic.isFlat_iff.mp flat
  · exact Cubic.isFlat_iff.mpr ⟨notLong, .inl small⟩
  · have looser₁ := accepted₁.trans (areaLimit_mono tighter _ _)
    have looser₂ := accepted₂.trans_le (areaLimit_mono tighter _ _)
    exact Cubic.isFlat_iff.mpr ⟨notLong, .inr ⟨looser₁, looser₂⟩⟩

/-! ## Leaves -/

namespace Kind

variable {κ : Type} {kind : Kind κ} {tight loose : Int}

/-- A test that accepts more pieces leaves fewer of them. -/
theorem length_leavesFrom_le
    (relaxed : ∀ piece, kind.isFlat tight piece = true → kind.isFlat loose piece = true)
    (limit depth : Nat) (piece : κ) :
    (kind.leavesFrom loose limit depth piece).length ≤
      (kind.leavesFrom tight limit depth piece).length := by
  induction limit generalizing depth piece with
  | zero => exact le_refl 1
  | succ limit inductionHypothesis =>
      by_cases flatLoosely : kind.isFlat loose piece = true
      · rw [leavesFrom, if_pos flatLoosely]
        exact length_leavesFrom_pos (limit + 1) depth piece
      · have flatTightly := mt (relaxed piece) flatLoosely
        rw [leavesFrom, leavesFrom, if_neg flatLoosely, if_neg flatTightly, List.length_append,
          List.length_append]
        exact add_le_add (inductionHypothesis _ _) (inductionHypothesis _ _)

/-- Leaves of one kind have equally many vertices. -/
theorem length_flatMap_vertices {width : Nat}
    (equal : ∀ piece, (kind.vertices piece).length = width) (leaves : List (Leaf κ)) :
    (leaves.flatMap fun leaf => kind.vertices leaf.piece).length = leaves.length * width := by
  induction leaves with
  | nil => rw [List.flatMap_nil, List.length_nil, List.length_nil, Nat.zero_mul]
  | cons leaf rest inductionHypothesis =>
      rw [List.flatMap_cons, List.length_append, equal, inductionHypothesis, List.length_cons,
        Nat.succ_mul, Nat.add_comm]

/-- A test that accepts more pieces draws fewer vertices. -/
theorem Draws.length_le {tightDrawn looseDrawn : Nat → κ → List Point}
    (tightDraws : kind.Draws tight tightDrawn) (looseDraws : kind.Draws loose looseDrawn)
    (width : Nat) (equal : ∀ piece, (kind.vertices piece).length = width)
    (relaxed : ∀ piece, kind.isFlat tight piece = true → kind.isFlat loose piece = true)
    (limit : Nat) (piece : κ) :
    (looseDrawn limit piece).length ≤ (tightDrawn limit piece).length := by
  rw [looseDraws.eq_leaves limit 0, tightDraws.eq_leaves limit 0, length_flatMap_vertices equal,
    length_flatMap_vertices equal]
  exact Nat.mul_le_mul_right width (length_leavesFrom_le relaxed limit 0 piece)

end Kind

theorem length_quadVertices_le {tight loose : Int} (tighter : |tight| ≤ |loose|) (limit : Nat)
    (p₀ p₁ p₂ : Point) :
    (quadVertices loose limit p₀ p₁ p₂).length ≤ (quadVertices tight limit p₀ p₁ p₂).length :=
  (Quad.draws tight).length_le (Quad.draws loose) 2 (fun _ => rfl)
    (isFlatQuad_of_tighter tighter) limit ⟨p₀, p₁, p₂⟩

theorem length_cubicVertices_le {tight loose : Int} (tighter : |tight| ≤ |loose|) (limit : Nat)
    (p₀ p₁ p₂ p₃ : Point) :
    (cubicVertices loose limit p₀ p₁ p₂ p₃).length ≤
      (cubicVertices tight limit p₀ p₁ p₂ p₃).length :=
  (Cubic.draws tight).length_le (Cubic.draws loose) 3 (fun _ => rfl)
    (isFlatCubic_of_tighter tighter) limit ⟨p₀, p₁, p₂, p₃⟩

end Curve

/-! ## Flatteners -/

/-- Whether a command draws a line. -/
def LineCommand.isLine : LineCommand → Bool
  | .lineTo _ => true
  | _ => false

/-- The number of lines among some commands. -/
def LineCommand.countLines (commands : List LineCommand) : Nat :=
  commands.countP LineCommand.isLine

theorem LineCommand.countLines_polyline (vertices : List Point) :
    countLines (.lineJoin :: vertices.map .lineTo) = vertices.length := by
  rw [countLines, List.countP_cons_of_neg Bool.false_ne_true, List.countP_map]
  exact List.countP_eq_length.mpr fun _ _ => rfl

namespace Flattener

/-- The flatteners know the same points. -/
structure SamePlace (first second : Flattener) : Prop where
  start : first.start = second.start
  current : first.current = second.current

/-- A command leads from the same points to the same points, whatever the flatness. -/
theorem SamePlace.step {first second : Flattener} (same : first.SamePlace second)
    (command : PathCommand) : (first.step command).1.SamePlace (second.step command).1 := by
  obtain ⟨start, current⟩ := same
  cases command with
  | line command =>
      cases command with
      | moveTo point => exact ⟨rfl, rfl⟩
      | lineJoin => exact ⟨start, current⟩
      | lineTo point => exact ⟨start, rfl⟩
      | close => exact ⟨start, start⟩
      | finish => exact ⟨start, current⟩
  | quadTo control point => exact ⟨start, rfl⟩
  | cubicTo control₁ control₂ point => exact ⟨start, rfl⟩

theorem SamePlace.run {first second : Flattener} (same : first.SamePlace second)
    (commands : List PathCommand) :
    (Stage.run Flattener.step first commands).1.SamePlace
      (Stage.run Flattener.step second commands).1 := by
  induction commands generalizing first second with
  | nil => exact same
  | cons command rest inductionHypothesis => exact inductionHypothesis (same.step command)

/-- From the same points, a tighter flatness answers a command by at least as many lines. -/
theorem countLines_step_le {tight loose : Flattener} (tighter : |tight.flatness| ≤ |loose.flatness|)
    (same : tight.SamePlace loose) (command : PathCommand) :
    LineCommand.countLines (loose.step command).2 ≤
      LineCommand.countLines (tight.step command).2 := by
  cases command with
  | line command => cases command <;> exact le_refl _
  | quadTo control point =>
      simp only [Flattener.step, LineCommand.countLines_polyline, same.current]
      exact Curve.length_quadVertices_le tighter _ _ _ _
  | cubicTo control₁ control₂ point =>
      simp only [Flattener.step, LineCommand.countLines_polyline, same.current]
      exact Curve.length_cubicVertices_le tighter _ _ _ _ _

/-- Of two flatteners that receive the same commands from the same points, the one with the tighter
flatness answers each command by at least as many lines, and after each of them their current
points are the same. -/
theorem tighter_never_draws_fewer {tight loose : Flattener}
    (tighter : |tight.flatness| ≤ |loose.flatness|) (same : tight.SamePlace loose)
    (before : List PathCommand) (command : PathCommand) :
    LineCommand.countLines ((Stage.run step loose before).1.step command).2 ≤
        LineCommand.countLines ((Stage.run step tight before).1.step command).2 ∧
      ((Stage.run step tight before).1.step command).1.current =
        ((Stage.run step loose before).1.step command).1.current := by
  have sameHere := same.run before
  have flatness (flattener : Flattener) :
      (Stage.run step flattener before).1.flatness = flattener.flatness :=
    Stage.view_run flatness_step flattener before
  have tighterHere : |(Stage.run step tight before).1.flatness| ≤
      |(Stage.run step loose before).1.flatness| := by
    rw [flatness, flatness]
    exact tighter
  exact ⟨countLines_step_le tighterHere sameHere command, (sameHere.step command).current⟩

/-- An arch after a moved start: the tight flatness halves it more often than the loose one, whose
sign does not matter. -/
theorem tighter_never_draws_fewer_arch :
    let tight := Flattener.new 8192
    let loose := Flattener.new (-65536)
    let before : List PathCommand := [.moveTo ⟨1, 2⟩, .lineTo ⟨0, 0⟩]
    let arch : PathCommand := .cubicTo ⟨0, 300000⟩ ⟨400000, 300001⟩ ⟨400000, 0⟩
    |tight.flatness| ≤ |loose.flatness| ∧ tight.SamePlace loose ∧
      (LineCommand.countLines ((Stage.run step loose before).1.step arch).2 = 12 ∧
        LineCommand.countLines ((Stage.run step tight before).1.step arch).2 = 24) ∧
      LineCommand.countLines ((Stage.run step loose before).1.step arch).2 ≤
        LineCommand.countLines ((Stage.run step tight before).1.step arch).2 ∧
      ((Stage.run step tight before).1.step arch).1.current =
        ((Stage.run step loose before).1.step arch).1.current := by
  intro tight loose before arch
  have tighter : |tight.flatness| ≤ |loose.flatness| := by decide
  have same : tight.SamePlace loose := ⟨rfl, rfl⟩
  exact ⟨tighter, same, by decide +kernel, tighter_never_draws_fewer tighter same before arch⟩

end Flattener

end Raster
