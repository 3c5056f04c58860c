import Mathlib.Data.List.Chain
import Raster.Proofs.Path.Fitting

/-!
# Curves shrink when they are halved

The legs of a curve lead from each of its points to the next.  Halving halves them, up to one unit
for rounding down.  So wherever the points of a curve lie, after twenty halvings they are so close
together that the piece is flat whatever the flatness, and halving stops long before its limit.
-/

namespace Raster

namespace Point

/-- Both coordinates of the points differ by at most `reach`. -/
structure Near (reach : Int) (a b : Point) : Prop where
  x : |b.x - a.x| ≤ reach
  y : |b.y - a.y| ≤ reach

namespace Near

variable {reach more : Int} {a b c : Point}

theorem refl (nonneg : 0 ≤ reach) : Near reach a a := by
  constructor <;> rw [Int.sub_self, abs_zero] <;> exact nonneg

theorem symm (near : Near reach a b) : Near reach b a := by
  constructor
  · rw [abs_sub_comm]
    exact near.x
  · rw [abs_sub_comm]
    exact near.y

theorem mono (near : Near reach a b) (farther : reach ≤ more) : Near more a b :=
  ⟨near.x.trans farther, near.y.trans farther⟩

theorem trans (ab : Near reach a b) (bc : Near more b c) : Near (reach + more) a c := by
  constructor
  · rw [← sub_add_sub_cancel' b.x a.x c.x]
    exact (abs_add_le _ _).trans (add_le_add ab.x bc.x)
  · rw [← sub_add_sub_cancel' b.y a.y c.y]
    exact (abs_add_le _ _).trans (add_le_add ab.y bc.y)

end Near

theorem near_of_fits32 {a b : Point} (aFits : a.Fits32) (bFits : b.Fits32) :
    Near 4294967295 a b := by
  obtain ⟨⟨aLeft, aRight⟩, aTop, aBottom⟩ := aFits
  obtain ⟨⟨bLeft, bRight⟩, bTop, bBottom⟩ := bFits
  unfold Word.min32 Word.max32 at *
  exact ⟨abs_le.mpr (by omega), abs_le.mpr (by omega)⟩

end Point

namespace Curve

open Point (Near)

/-! ## Legs -/

/-- Every point is near to the next one. -/
def HasLegs (reach : Int) (points : List Point) : Prop :=
  points.IsChain (Near reach)

variable {reach : Int} {a b c d : Point}

/-- Points that are joined by legs lie close together. -/
theorem HasLegs.near {points : List Point} (legs : HasLegs reach points) (nonneg : 0 ≤ reach) :
    ∀ a ∈ points, ∀ b ∈ points, Near (points.length * reach) a b := by
  induction points with
  | nil => nofun
  | cons first rest inductionHypothesis =>
      obtain ⟨next, legsRest⟩ := List.isChain_cons.mp legs
      have later := inductionHypothesis legsRest
      have longer : ((first :: rest).length : Int) * reach = reach + rest.length * reach := by
        rw [List.length_cons, Nat.cast_succ]
        ring
      have fromFirst : ∀ b ∈ rest, Near ((first :: rest).length * reach) first b := by
        intro b member
        obtain ⟨second, others, rfl⟩ := List.exists_cons_of_ne_nil (List.ne_nil_of_mem member)
        rw [longer]
        exact (next second rfl).trans (later second List.mem_cons_self b member)
      intro a aMember b bMember
      rcases List.mem_cons.mp aMember with rfl | aLater
      · rcases List.mem_cons.mp bMember with rfl | bLater
        · exact Near.refl (mul_nonneg (Nat.cast_nonneg _) nonneg)
        · exact fromFirst b bLater
      · rcases List.mem_cons.mp bMember with rfl | bLater
        · exact (fromFirst a aLater).symm
        · apply (later a aLater b bLater).mono
          rw [longer]
          exact le_add_of_nonneg_left nonneg

/-- Rounding down adds at most one unit to half of a leg. -/
theorem near_middle₂ (ab : Near reach a b) :
    Near (reach / 2 + 1) a (middle₂ a b) ∧ Near (reach / 2 + 1) (middle₂ a b) b := by
  have ⟨x₁, x₂⟩ := abs_le.mp ab.x
  have ⟨y₁, y₂⟩ := abs_le.mp ab.y
  constructor <;> constructor <;> simp only [abs_le, x_middle₂, y_middle₂] <;> omega

theorem near_middle₃ (ab : Near reach a b) (bc : Near reach b c) :
    Near (reach / 2 + 1) (middle₂ a b) (middle₃ a b c) ∧
      Near (reach / 2 + 1) (middle₃ a b c) (middle₂ b c) := by
  have ⟨x₁, x₂⟩ := abs_le.mp ab.x
  have ⟨y₁, y₂⟩ := abs_le.mp ab.y
  have ⟨x₃, x₄⟩ := abs_le.mp bc.x
  have ⟨y₃, y₄⟩ := abs_le.mp bc.y
  constructor <;> constructor <;>
    simp only [abs_le, x_middle₂, y_middle₂, x_middle₃, y_middle₃] <;> omega

theorem near_middle₄ (ab : Near reach a b) (bc : Near reach b c) (cd : Near reach c d) :
    Near (reach / 2 + 1) (middle₃ a b c) (middle₄ a b c d) ∧
      Near (reach / 2 + 1) (middle₄ a b c d) (middle₃ b c d) := by
  have ⟨x₁, x₂⟩ := abs_le.mp ab.x
  have ⟨y₁, y₂⟩ := abs_le.mp ab.y
  have ⟨x₃, x₄⟩ := abs_le.mp bc.x
  have ⟨y₃, y₄⟩ := abs_le.mp bc.y
  have ⟨x₅, x₆⟩ := abs_le.mp cd.x
  have ⟨y₅, y₆⟩ := abs_le.mp cd.y
  constructor <;> constructor <;>
    simp only [abs_le, x_middle₃, y_middle₃, x_middle₄, y_middle₄] <;> omega

/-! ## Small boxes -/

/-- No two of the points are farther apart than the diagonal of the box around them is long. -/
theorem lengthSq_sub_le_diagonalSq {start : Point} {rest : List Point} {a b : Point}
    (aMember : a ∈ start :: rest) (bMember : b ∈ start :: rest) :
    lengthSq (b.x - a.x) (b.y - a.y) ≤ diagonalSq start rest := by
  have extent (coordinate : Point → Int) :
      (coordinate b - coordinate a) * (coordinate b - coordinate a) ≤
        spread (coordinate start) (rest.map coordinate) *
          spread (coordinate start) (rest.map coordinate) := by
    have first : coordinate a ∈ coordinate start :: rest.map coordinate :=
      List.mem_map_of_mem aMember
    have second : coordinate b ∈ coordinate start :: rest.map coordinate :=
      List.mem_map_of_mem bMember
    have forward := sub_le_spread second first
    have backward := sub_le_spread first second
    rw [← abs_mul_abs_self]
    exact mul_self_le_mul_self (abs_nonneg _) (abs_le.mpr (by omega))
  exact add_le_add (extent Point.x) (extent Point.y)

/-- A curve whose points lie close together is flat.  Its chord is shorter than the diagonal of the
box around its points, so that the test of long chords does not come before this one. -/
theorem isFlat_of_diagonalSq_lt (flatness : Int) {start stop : Point} {controls : List Point}
    (deviation : Int → Bool) (small : diagonalSq start (controls ++ [stop]) < minChordSq) :
    isFlat flatness start controls stop deviation = true := by
  have short : chordSq start stop < minChordSq :=
    lt_of_le_of_lt (lengthSq_sub_le_diagonalSq List.mem_cons_self (by simp)) small
  have notLong : chordSq start stop ≤ maxChordSq := short.le.trans (by decide)
  exact isFlat_iff.mpr ⟨notLong, .inl ⟨short, small⟩⟩

/-- A box with short sides has a short diagonal. -/
theorem diagonalSq_lt {start : Point} {rest : List Point}
    (near : ∀ a ∈ start :: rest, ∀ b ∈ start :: rest, Near 16388 a b) :
    diagonalSq start rest < minChordSq := by
  have side (coordinate : Point → Int)
      (close : ∀ a ∈ start :: rest, ∀ b ∈ start :: rest, |coordinate b - coordinate a| ≤ 16388) :
      spread (coordinate start) (rest.map coordinate) *
        spread (coordinate start) (rest.map coordinate) ≤ 16388 * 16388 := by
    obtain ⟨greatest, greatestMember, least, leastMember, extent⟩ :=
      exists_spread_eq (coordinate start) (rest.map coordinate)
    rw [← List.map_cons] at greatestMember leastMember
    obtain ⟨a, aMember, rfl⟩ := List.mem_map.mp greatestMember
    obtain ⟨b, bMember, rfl⟩ := List.mem_map.mp leastMember
    rw [extent, ← abs_mul_abs_self]
    exact mul_self_le_mul_self (abs_nonneg _) (close b bMember a aMember)
  have wide := side Point.x fun a aMember b bMember => (near a aMember b bMember).x
  have tall := side Point.y fun a aMember b bMember => (near a aMember b bMember).y
  exact lt_of_le_of_lt (add_le_add wide tall) (by decide)

/-! ## How often a curve is halved -/

/-- How long the legs of a piece with 32-bit points may be after some halvings. -/
def legAfter : Nat → Int
  | 0 => 4294967295
  | depth + 1 => legAfter depth / 2 + 1

/-- The number of halvings after which every piece with 32-bit points is flat. -/
def deepest : Nat := 20

namespace Kind

/-- Halving halves the legs, and pieces with short legs are flat. -/
structure Shrinks {κ : Type} (kind : Kind κ) : Prop where
  first : ∀ {reach : Int} {piece : κ}, HasLegs reach (kind.points piece) →
    HasLegs (reach / 2 + 1) (kind.points (kind.first piece))
  second : ∀ {reach : Int} {piece : κ}, HasLegs reach (kind.points piece) →
    HasLegs (reach / 2 + 1) (kind.points (kind.second piece))
  isFlat : ∀ (flatness : Int) {piece : κ}, HasLegs (legAfter deepest) (kind.points piece) →
    kind.isFlat flatness piece = true

/-- Halving stops because of flatness, before its limit. -/
theorem Shrinks.leaf {κ : Type} {kind : Kind κ} (shrinks : kind.Shrinks) {flatness : Int}
    {curve : κ} (legs : HasLegs (legAfter 0) (kind.points curve)) {leaf : Leaf κ}
    (member : leaf ∈ kind.leaves flatness curve) :
    leaf.depth ≤ deepest ∧ kind.isFlat flatness leaf.piece = true := by
  have bounded : HasLegs (legAfter leaf.depth) (kind.points leaf.piece) ∧ leaf.depth ≤ deepest := by
    refine forall_mem_leavesFrom
      (fun depth piece => HasLegs (legAfter depth) (kind.points piece) ∧ depth ≤ deepest) ?_
      ⟨legs, Nat.zero_le _⟩ leaf member
    rintro depth piece curved ⟨short, notDeep⟩
    -- A piece at the greatest depth would be flat, so there is at least one more halving to go.
    have deeper : depth + 1 ≤ deepest := by
      rcases Nat.lt_or_eq_of_le notDeep with below | rfl
      · exact below
      · rw [shrinks.isFlat flatness short] at curved
        cases curved
    exact ⟨⟨shrinks.first short, deeper⟩, shrinks.second short, deeper⟩
  rcases isFlat_or_depth_eq member with flat | stopped
  · exact ⟨bounded.2, flat⟩
  · have limit := bounded.2
    rw [stopped] at limit
    exact absurd limit (by decide)

end Kind

theorem Quad.shrinks : kind.Shrinks where
  first legs := by
    simp only [HasLegs, kind, List.isChain_cons_cons, List.isChain_singleton, and_true] at *
    exact ⟨(near_middle₂ legs.1).1, (near_middle₃ legs.1 legs.2).1⟩
  second legs := by
    simp only [HasLegs, kind, List.isChain_cons_cons, List.isChain_singleton, and_true] at *
    exact ⟨(near_middle₃ legs.1 legs.2).2, (near_middle₂ legs.2).2⟩
  isFlat flatness quad legs := by
    have bound : ((3 : Nat) : Int) * legAfter deepest ≤ 16388 := by decide
    have near : ∀ a ∈ quad.start :: ([quad.control] ++ [quad.stop]),
        ∀ b ∈ quad.start :: ([quad.control] ++ [quad.stop]), Near 16388 a b :=
      fun a aMember b bMember => (legs.near (by decide) a aMember b bMember).mono bound
    change isFlatQuad flatness quad.start quad.control quad.stop = true
    rw [isFlatQuad]
    exact isFlat_of_diagonalSq_lt flatness _ (diagonalSq_lt near)

theorem Cubic.shrinks : kind.Shrinks where
  first legs := by
    simp only [HasLegs, kind, List.isChain_cons_cons, List.isChain_singleton, and_true] at *
    obtain ⟨ab, bc, cd⟩ := legs
    exact ⟨(near_middle₂ ab).1, (near_middle₃ ab bc).1, (near_middle₄ ab bc cd).1⟩
  second legs := by
    simp only [HasLegs, kind, List.isChain_cons_cons, List.isChain_singleton, and_true] at *
    obtain ⟨ab, bc, cd⟩ := legs
    exact ⟨(near_middle₄ ab bc cd).2, (near_middle₃ bc cd).2, (near_middle₂ cd).2⟩
  isFlat flatness cubic legs := by
    have bound : ((4 : Nat) : Int) * legAfter deepest ≤ 16388 := by decide
    have near : ∀ a ∈ cubic.start :: ([cubic.control₁, cubic.control₂] ++ [cubic.stop]),
        ∀ b ∈ cubic.start :: ([cubic.control₁, cubic.control₂] ++ [cubic.stop]), Near 16388 a b :=
      fun a aMember b bMember => (legs.near (by decide) a aMember b bMember).mono bound
    change isFlatCubic flatness cubic.start cubic.control₁ cubic.control₂ cubic.stop = true
    rw [isFlatCubic]
    exact isFlat_of_diagonalSq_lt flatness _ (diagonalSq_lt near)

theorem hasLegs_of_fits32 {points : List Point} (fits : ∀ point ∈ points, point.Fits32) :
    HasLegs (legAfter 0) points := by
  induction points with
  | nil => exact List.isChain_nil
  | cons first rest inductionHypothesis =>
      obtain ⟨firstFits, restFits⟩ := List.forall_mem_cons.mp fits
      refine List.isChain_cons.mpr ⟨?_, inductionHypothesis restFits⟩
      intro second head
      exact Point.near_of_fits32 firstFits (restFits second (List.mem_of_mem_head? head))

/-- Flattening draws the leaves of a curve, and each of them is a leaf because it is flat: it was
halved less often than the limit allows, and the test of flatness, in words as on integers, accepts
it.  For whatever the chord and the flatness are, a curve whose points lie close together is
accepted. -/
theorem leaves_flat_below_limit {flatness : Int} (word : Word.Fits32 flatness) :
    (∀ quad : Quad, (∀ point ∈ Quad.kind.points quad, point.Fits32) →
      quadVertices flatness maxDepth quad.start quad.control quad.stop =
        (Quad.kind.leaves flatness quad).flatMap (fun leaf => Quad.kind.vertices leaf.piece) ∧
      ∀ leaf ∈ Quad.kind.leaves flatness quad, leaf.depth < maxDepth ∧
        isFlatQuad flatness leaf.piece.start leaf.piece.control leaf.piece.stop = true ∧
        isFlatQuad? (flatness * flatness / 65536) leaf.piece.start leaf.piece.control
          leaf.piece.stop = some true) ∧
    (∀ cubic : Cubic, (∀ point ∈ Cubic.kind.points cubic, point.Fits32) →
      cubicVertices flatness maxDepth cubic.start cubic.control₁ cubic.control₂ cubic.stop =
        (Cubic.kind.leaves flatness cubic).flatMap (fun leaf => Cubic.kind.vertices leaf.piece) ∧
      ∀ leaf ∈ Cubic.kind.leaves flatness cubic, leaf.depth < maxDepth ∧
        isFlatCubic flatness leaf.piece.start leaf.piece.control₁ leaf.piece.control₂
          leaf.piece.stop = true ∧
        isFlatCubic? (flatness * flatness / 65536) leaf.piece.start leaf.piece.control₁
          leaf.piece.control₂ leaf.piece.stop = some true) ∧
    ∀ (start stop : Point) (controls : List Point) (deviation : Int → Bool),
      diagonalSq start (controls ++ [stop]) < minChordSq →
        isFlat flatness start controls stop deviation = true := by
  have early {depth : Nat} (notDeep : depth ≤ deepest) : depth < maxDepth :=
    lt_of_le_of_lt notDeep (by decide)
  refine ⟨?_, ?_, fun _ _ _ => isFlat_of_diagonalSq_lt flatness⟩
  · intro quad fits
    refine ⟨(Quad.draws flatness).eq_leaves maxDepth 0 quad, ?_⟩
    intro leaf member
    obtain ⟨notDeep, flat⟩ := Quad.shrinks.leaf (hasLegs_of_fits32 fits) member
    have leafFits : ∀ point ∈ Quad.kind.points leaf.piece, point.Fits32 := fun point pointMember =>
      (Quad.contained.inBox_leavesFrom member point pointMember).fits32 fits
    refine ⟨early notDeep, flat, ?_⟩
    rw [isFlatQuad?_eq word leafFits, flat]
  · intro cubic fits
    refine ⟨(Cubic.draws flatness).eq_leaves maxDepth 0 cubic, ?_⟩
    intro leaf member
    obtain ⟨notDeep, flat⟩ := Cubic.shrinks.leaf (hasLegs_of_fits32 fits) member
    have leafFits : ∀ point ∈ Cubic.kind.points leaf.piece, point.Fits32 :=
      fun point pointMember =>
        (Cubic.contained.inBox_leavesFrom member point pointMember).fits32 fits
    refine ⟨early notDeep, flat, ?_⟩
    rw [isFlatCubic?_eq word leafFits, flat]

/-- With no flatness at all, a small arch and a cubic curve that goes to and fro between both ends
of the coordinates. -/
theorem leaves_flat_below_limit_zigzag :
    let quad : Quad := ⟨⟨0, 0⟩, ⟨32768, 32768⟩, ⟨65536, 0⟩⟩
    let cubic : Cubic :=
      ⟨⟨-2147483648, 0⟩, ⟨2147483647, 0⟩, ⟨-2147483648, 0⟩, ⟨2147483647, 0⟩⟩
    Word.Fits32 0 ∧ (∀ point ∈ Quad.kind.points quad, point.Fits32) ∧
      (∀ point ∈ Cubic.kind.points cubic, point.Fits32) ∧
      (Quad.kind.leaves 0 quad).map Leaf.depth = [2, 2, 2, 2] ∧
      (∀ leaf ∈ Quad.kind.leaves 0 quad, leaf.depth < maxDepth ∧
        Quad.kind.isFlat 0 leaf.piece = true) ∧
      ∀ leaf ∈ Cubic.kind.leaves 0 cubic, leaf.depth < maxDepth ∧
        Cubic.kind.isFlat 0 leaf.piece = true := by
  intro quad cubic
  have word : Word.Fits32 0 := by decide
  have quadFits : ∀ point ∈ Quad.kind.points quad, point.Fits32 := by decide
  have cubicFits : ∀ point ∈ Cubic.kind.points cubic, point.Fits32 := by decide
  obtain ⟨quads, cubics, _⟩ := leaves_flat_below_limit word
  refine ⟨word, quadFits, cubicFits, by decide +kernel, ?_, ?_⟩
  · intro leaf member
    obtain ⟨early, flat, _⟩ := (quads quad quadFits).2 leaf member
    exact ⟨early, flat⟩
  · intro leaf member
    obtain ⟨early, flat, _⟩ := (cubics cubic cubicFits).2 leaf member
    exact ⟨early, flat⟩

end Curve

end Raster
