import Mathlib.Algebra.Order.Ring.Int
import Raster.Path.Flattener

/-!
# Halving curves

A curve that is flattened is cut into pieces: a piece that is not flat is halved, and what
remains is drawn by control polygons.  The leaves of a curve are the pieces at which this stops,
in order, each with the number of halvings that led to it.  What both halves of every piece have
if the piece has it, all leaves have.  Halves never leave the smallest box around the points of
their piece, although their points are rounded down.
-/

namespace Raster

namespace Point

/-- The point lies in the smallest box around some points. -/
structure InBox (points : List Point) (point : Point) : Prop where
  left : ∃ other ∈ points, other.x ≤ point.x
  top : ∃ other ∈ points, other.y ≤ point.y
  right : ∃ other ∈ points, point.x ≤ other.x
  bottom : ∃ other ∈ points, point.y ≤ other.y

theorem inBox_of_mem {points : List Point} {point : Point} (member : point ∈ points) :
    point.InBox points :=
  ⟨⟨point, member, Int.le_refl _⟩, ⟨point, member, Int.le_refl _⟩, ⟨point, member, Int.le_refl _⟩,
    ⟨point, member, Int.le_refl _⟩⟩

/-- More points have a larger box. -/
theorem InBox.mono {points more : List Point} {point : Point} (inside : point.InBox points)
    (subset : points ⊆ more) : point.InBox more := by
  obtain ⟨⟨a, aMember, left⟩, ⟨b, bMember, top⟩, ⟨c, cMember, right⟩, ⟨d, dMember, bottom⟩⟩ := inside
  exact ⟨⟨a, subset aMember, left⟩, ⟨b, subset bMember, top⟩, ⟨c, subset cMember, right⟩,
    ⟨d, subset dMember, bottom⟩⟩

/-- A box around points of another box lies in it. -/
theorem InBox.trans {inner outer : List Point} {point : Point} (inside : point.InBox inner)
    (within : ∀ other ∈ inner, other.InBox outer) : point.InBox outer := by
  obtain ⟨⟨a, aMember, left⟩, ⟨b, bMember, top⟩, ⟨c, cMember, right⟩, ⟨d, dMember, bottom⟩⟩ := inside
  obtain ⟨a', aMember', left'⟩ := (within a aMember).left
  obtain ⟨b', bMember', top'⟩ := (within b bMember).top
  obtain ⟨c', cMember', right'⟩ := (within c cMember).right
  obtain ⟨d', dMember', bottom'⟩ := (within d dMember).bottom
  exact ⟨⟨a', aMember', Int.le_trans left' left⟩, ⟨b', bMember', Int.le_trans top' top⟩,
    ⟨c', cMember', Int.le_trans right right'⟩, ⟨d', dMember', Int.le_trans bottom bottom'⟩⟩

/-- Between coordinates that fit there are only coordinates that fit. -/
theorem InBox.fits32 {points : List Point} {point : Point} (inside : point.InBox points)
    (fits : ∀ other ∈ points, other.Fits32) : point.Fits32 := by
  obtain ⟨⟨a, aMember, left⟩, ⟨b, bMember, top⟩, ⟨c, cMember, right⟩, ⟨d, dMember, bottom⟩⟩ := inside
  exact ⟨⟨Int.le_trans (fits a aMember).1.1 left, Int.le_trans right (fits c cMember).1.2⟩,
    ⟨Int.le_trans (fits b bMember).2.1 top, Int.le_trans bottom (fits d dMember).2.2⟩⟩

end Point

namespace Curve

/-! ## Kinds of curves -/

/-- What flattening has to know of the curves of one kind: the points of a curve in order, whether
the curve is flat, and its halves. -/
structure Kind (κ : Type) where
  points : κ → List Point
  isFlat : Int → κ → Bool
  first : κ → κ
  second : κ → κ

/-- A piece at which halving stops, with the number of halvings that led to it. -/
structure Leaf (κ : Type) where
  depth : Nat
  piece : κ

namespace Kind

variable {κ : Type} (kind : Kind κ) (flatness : Int)

/-- The leaves of a piece that `depth` halvings led to and that is halved at most `limit` times
more. -/
def leavesFrom : Nat → Nat → κ → List (Leaf κ)
  | 0, depth, piece => [⟨depth, piece⟩]
  | limit + 1, depth, piece =>
      if kind.isFlat flatness piece then
        [⟨depth, piece⟩]
      else
        leavesFrom limit (depth + 1) (kind.first piece) ++
          leavesFrom limit (depth + 1) (kind.second piece)

/-- The leaves of a curve, which is halved as often as flattening allows. -/
def leaves (curve : κ) : List (Leaf κ) :=
  kind.leavesFrom flatness maxDepth 0 curve

/-- The vertices that are drawn for a piece after its start. -/
def vertices (piece : κ) : List Point :=
  (kind.points piece).tail

variable {kind flatness}

/-- What holds of a curve and passes from a piece that is not flat to both of its halves holds of
all leaves. -/
theorem forall_mem_leavesFrom (holds : Nat → κ → Prop)
    (passes : ∀ depth piece, kind.isFlat flatness piece = false → holds depth piece →
      holds (depth + 1) (kind.first piece) ∧ holds (depth + 1) (kind.second piece))
    {limit depth : Nat} {piece : κ} (root : holds depth piece) :
    ∀ leaf ∈ kind.leavesFrom flatness limit depth piece, holds leaf.depth leaf.piece := by
  induction limit generalizing depth piece with
  | zero =>
      intro leaf member
      rw [List.mem_singleton.mp member]
      exact root
  | succ limit inductionHypothesis =>
      intro leaf member
      unfold leavesFrom at member
      split at member
      · rw [List.mem_singleton.mp member]
        exact root
      · rename_i curved
        obtain ⟨first, second⟩ := passes depth piece (Bool.eq_false_iff.mpr curved) root
        rcases List.mem_append.mp member with before | after
        · exact inductionHypothesis first leaf before
        · exact inductionHypothesis second leaf after

/-- A leaf is flat unless halving stopped because of its limit. -/
theorem isFlat_or_depth_eq {limit depth : Nat} {piece : κ} {leaf : Leaf κ}
    (member : leaf ∈ kind.leavesFrom flatness limit depth piece) :
    kind.isFlat flatness leaf.piece = true ∨ leaf.depth = depth + limit := by
  induction limit generalizing depth piece with
  | zero =>
      rw [List.mem_singleton.mp member]
      exact .inr rfl
  | succ limit inductionHypothesis =>
      unfold leavesFrom at member
      split at member
      · rename_i flat
        rw [List.mem_singleton.mp member]
        exact .inl flat
      · rw [← Nat.succ_add_eq_add_succ]
        rcases List.mem_append.mp member with before | after
        · exact inductionHypothesis before
        · exact inductionHypothesis after

theorem length_leavesFrom_pos (limit depth : Nat) (piece : κ) :
    0 < (kind.leavesFrom flatness limit depth piece).length := by
  induction limit generalizing depth piece with
  | zero => exact Nat.one_pos
  | succ limit inductionHypothesis =>
      unfold leavesFrom
      split
      · exact Nat.one_pos
      · rw [List.length_append]
        exact Nat.add_pos_left (inductionHypothesis _ _) _

/-- Vertices are drawn by flattening: those of a piece that is flat or may not be halved, and
otherwise those of its halves. -/
structure Draws (kind : Kind κ) (flatness : Int) (drawn : Nat → κ → List Point) : Prop where
  whole : ∀ piece, drawn 0 piece = kind.vertices piece
  halved : ∀ limit piece, drawn (limit + 1) piece =
    if kind.isFlat flatness piece then
      kind.vertices piece
    else
      drawn limit (kind.first piece) ++ drawn limit (kind.second piece)

/-- Flattening draws the leaves of a curve. -/
theorem Draws.eq_leaves {drawn : Nat → κ → List Point} (draws : kind.Draws flatness drawn)
    (limit depth : Nat) (piece : κ) :
    drawn limit piece =
      (kind.leavesFrom flatness limit depth piece).flatMap fun leaf =>
        kind.vertices leaf.piece := by
  induction limit generalizing depth piece with
  | zero => rw [draws.whole, leavesFrom, List.flatMap_singleton]
  | succ limit inductionHypothesis =>
      rw [draws.halved, leavesFrom]
      split
      · rw [List.flatMap_singleton]
      · rw [List.flatMap_append, ← inductionHypothesis, ← inductionHypothesis]

/-- Flattening ends where the curve does, as the second half of each piece does. -/
theorem Draws.getLast?_eq {drawn : Nat → κ → List Point} (draws : kind.Draws flatness drawn)
    {stop : κ → Point} (ends : ∀ piece, (kind.vertices piece).getLast? = some (stop piece))
    (second : ∀ piece, stop (kind.second piece) = stop piece) (limit : Nat) (piece : κ) :
    (drawn limit piece).getLast? = some (stop piece) := by
  induction limit generalizing piece with
  | zero => rw [draws.whole, ends]
  | succ limit inductionHypothesis =>
      rw [draws.halved]
      split
      · exact ends piece
      · rw [List.getLast?_append, inductionHypothesis, second]
        rfl

/-- The halves of a piece lie in the smallest box around its points. -/
structure Contained (kind : Kind κ) : Prop where
  first : ∀ piece, ∀ point ∈ kind.points (kind.first piece), point.InBox (kind.points piece)
  second : ∀ piece, ∀ point ∈ kind.points (kind.second piece), point.InBox (kind.points piece)

/-- Leaves lie in the smallest box around the points of their curve. -/
theorem Contained.inBox_leavesFrom (contained : kind.Contained) {limit depth : Nat} {curve : κ}
    {leaf : Leaf κ} (member : leaf ∈ kind.leavesFrom flatness limit depth curve) :
    ∀ point ∈ kind.points leaf.piece, point.InBox (kind.points curve) := by
  refine forall_mem_leavesFrom
    (fun _ piece => ∀ point ∈ kind.points piece, point.InBox (kind.points curve))
    ?_ (fun point => Point.inBox_of_mem) leaf member
  intro depth piece _ inside
  constructor
  · intro point first
    exact (contained.first piece point first).trans inside
  · intro point second
    exact (contained.second piece point second).trans inside

end Kind

/-! ## The extent of coordinates -/

/-- The extent of some coordinates is the difference between two of them. -/
theorem exists_spread_eq (first : Int) (rest : List Int) :
    ∃ greatest ∈ first :: rest, ∃ least ∈ first :: rest,
      spread first rest = greatest - least := by
  have greatest : (first :: rest).max? = some (rest.foldl max first) := List.max?_cons'
  have least : (first :: rest).min? = some (rest.foldl min first) := List.min?_cons'
  exact ⟨_, (List.max?_eq_some_iff.mp greatest).1, _, (List.min?_eq_some_iff.mp least).1, rfl⟩

/-- No two of the coordinates are farther apart than their extent. -/
theorem sub_le_spread {first : Int} {rest : List Int} {a b : Int} (aMember : a ∈ first :: rest)
    (bMember : b ∈ first :: rest) : a - b ≤ spread first rest := by
  have greatest : (first :: rest).max? = some (rest.foldl max first) := List.max?_cons'
  have least : (first :: rest).min? = some (rest.foldl min first) := List.min?_cons'
  exact Int.sub_le_sub ((List.max?_eq_some_iff.mp greatest).2 a aMember)
    ((List.min?_eq_some_iff.mp least).2 b bMember)

/-! ## The flatness test -/

theorem lengthSq_nonneg (dx dy : Int) : 0 ≤ lengthSq dx dy :=
  add_nonneg (mul_self_nonneg dx) (mul_self_nonneg dy)

/-- The squared length of the chord between two points. -/
def chordSq (start stop : Point) : Int :=
  lengthSq (stop.x - start.x) (stop.y - start.y)

/-- The squared area that the test allows a point and a chord to span. -/
def areaLimit (flatness : Int) (start stop : Point) : Int :=
  chordSq start stop * (flatness * flatness / 65536) / 65536

/-- The squared area that a point and a chord span, as the test computes it. -/
def areaSq (start stop point : Point) : Int :=
  deviationSq start (stop.x - start.x) (stop.y - start.y) point

/-- A curve is flat if its chord is not long, and if its points lie close together or do not
deviate. -/
theorem isFlat_iff {flatness : Int} {start stop : Point} {controls : List Point}
    {deviation : Int → Bool} :
    isFlat flatness start controls stop deviation = true ↔
      chordSq start stop ≤ maxChordSq ∧
        (chordSq start stop < minChordSq ∧ diagonalSq start (controls ++ [stop]) < minChordSq ∨
          deviation (areaLimit flatness start stop) = true) := by
  change (if chordSq start stop > maxChordSq then false
    else if chordSq start stop < minChordSq && diagonalSq start (controls ++ [stop]) < minChordSq
      then true else deviation (areaLimit flatness start stop)) = true ↔ _
  by_cases long : chordSq start stop > maxChordSq
  · rw [if_pos long]
    exact ⟨nofun, fun flat => absurd flat.1 (Int.not_le.mpr long)⟩
  · rw [if_neg long, Bool.if_true_left, Bool.or_eq_true, decide_eq_true_eq, Bool.and_eq_true,
      decide_eq_true_eq, decide_eq_true_eq]
    exact ⟨fun flat => ⟨Int.not_lt.mp long, flat⟩, fun flat => flat.2⟩

/-! ## Rounded means -/

@[simp]
theorem x_middle₂ (a b : Point) : (middle₂ a b).x = (a.x + b.x) / 2 :=
  rfl

@[simp]
theorem y_middle₂ (a b : Point) : (middle₂ a b).y = (a.y + b.y) / 2 :=
  rfl

@[simp]
theorem x_middle₃ (a b c : Point) : (middle₃ a b c).x = (a.x + 2 * b.x + c.x) / 4 :=
  rfl

@[simp]
theorem y_middle₃ (a b c : Point) : (middle₃ a b c).y = (a.y + 2 * b.y + c.y) / 4 :=
  rfl

@[simp]
theorem x_middle₄ (a b c d : Point) :
    (middle₄ a b c d).x = (a.x + 3 * b.x + 3 * c.x + d.x) / 8 :=
  rfl

@[simp]
theorem y_middle₄ (a b c d : Point) :
    (middle₄ a b c d).y = (a.y + 3 * b.y + 3 * c.y + d.y) / 8 :=
  rfl

/-- Rounding down does not take the mean of integers below the least of them. -/
theorem inBox_middle₂ (a b : Point) : (middle₂ a b).InBox [a, b] := by
  constructor <;>
    simp only [x_middle₂, y_middle₂, List.mem_cons, List.not_mem_nil, or_false,
      exists_eq_or_imp, exists_eq_left] <;>
    omega

theorem inBox_middle₃ (a b c : Point) : (middle₃ a b c).InBox [a, b, c] := by
  constructor <;>
    simp only [x_middle₃, y_middle₃, List.mem_cons, List.not_mem_nil, or_false,
      exists_eq_or_imp, exists_eq_left] <;>
    omega

theorem inBox_middle₄ (a b c d : Point) : (middle₄ a b c d).InBox [a, b, c, d] := by
  constructor <;>
    simp only [x_middle₄, y_middle₄, List.mem_cons, List.not_mem_nil, or_false,
      exists_eq_or_imp, exists_eq_left] <;>
    omega

/-! ## Quadratic curves -/

/-- A quadratic curve. -/
structure Quad where
  start : Point
  control : Point
  stop : Point

namespace Quad

/-- Quadratic curves as flattening halves them. -/
def kind : Kind Quad where
  points quad := [quad.start, quad.control, quad.stop]
  isFlat flatness quad := isFlatQuad flatness quad.start quad.control quad.stop
  first quad :=
    ⟨quad.start, middle₂ quad.start quad.control, middle₃ quad.start quad.control quad.stop⟩
  second quad :=
    ⟨middle₃ quad.start quad.control quad.stop, middle₂ quad.control quad.stop, quad.stop⟩

theorem isFlat_iff {flatness : Int} {quad : Quad} :
    kind.isFlat flatness quad = true ↔
      chordSq quad.start quad.stop ≤ maxChordSq ∧
        (chordSq quad.start quad.stop < minChordSq ∧
            diagonalSq quad.start ([quad.control] ++ [quad.stop]) < minChordSq ∨
          areaSq quad.start quad.stop quad.control < areaLimit flatness quad.start quad.stop) := by
  change isFlatQuad flatness quad.start quad.control quad.stop = true ↔ _
  rw [isFlatQuad, Curve.isFlat_iff, decide_eq_true_eq]
  rfl

theorem draws (flatness : Int) : kind.Draws flatness fun limit quad =>
    quadVertices flatness limit quad.start quad.control quad.stop :=
  ⟨fun _ => rfl, fun _ _ => rfl⟩

theorem getLast?_vertices (flatness : Int) (limit : Nat) (quad : Quad) :
    (quadVertices flatness limit quad.start quad.control quad.stop).getLast? = some quad.stop :=
  (draws flatness).getLast?_eq (fun _ => rfl) (fun _ => rfl) limit quad

theorem contained : kind.Contained := by
  constructor
  · rintro ⟨start, control, stop⟩
    simp only [kind, List.forall_mem_cons]
    exact ⟨Point.inBox_of_mem List.mem_cons_self,
      (inBox_middle₂ start control).mono (by simp), inBox_middle₃ start control stop, nofun⟩
  · rintro ⟨start, control, stop⟩
    simp only [kind, List.forall_mem_cons]
    exact ⟨inBox_middle₃ start control stop, (inBox_middle₂ control stop).mono (by simp),
      Point.inBox_of_mem (by simp), nofun⟩

end Quad

/-! ## Cubic curves -/

/-- A cubic curve. -/
structure Cubic where
  start : Point
  control₁ : Point
  control₂ : Point
  stop : Point

namespace Cubic

/-- Cubic curves as flattening halves them. -/
def kind : Kind Cubic where
  points cubic := [cubic.start, cubic.control₁, cubic.control₂, cubic.stop]
  isFlat flatness cubic :=
    isFlatCubic flatness cubic.start cubic.control₁ cubic.control₂ cubic.stop
  first cubic :=
    { start := cubic.start
      control₁ := middle₂ cubic.start cubic.control₁
      control₂ := middle₃ cubic.start cubic.control₁ cubic.control₂
      stop := middle₄ cubic.start cubic.control₁ cubic.control₂ cubic.stop }
  second cubic :=
    { start := middle₄ cubic.start cubic.control₁ cubic.control₂ cubic.stop
      control₁ := middle₃ cubic.control₁ cubic.control₂ cubic.stop
      control₂ := middle₂ cubic.control₂ cubic.stop
      stop := cubic.stop }

theorem isFlat_iff {flatness : Int} {cubic : Cubic} :
    kind.isFlat flatness cubic = true ↔
      chordSq cubic.start cubic.stop ≤ maxChordSq ∧
        (chordSq cubic.start cubic.stop < minChordSq ∧
            diagonalSq cubic.start ([cubic.control₁, cubic.control₂] ++ [cubic.stop]) <
              minChordSq ∨
          areaSq cubic.start cubic.stop cubic.control₁ ≤
              areaLimit flatness cubic.start cubic.stop ∧
            areaSq cubic.start cubic.stop cubic.control₂ <
              areaLimit flatness cubic.start cubic.stop) := by
  change isFlatCubic flatness cubic.start cubic.control₁ cubic.control₂ cubic.stop = true ↔ _
  rw [isFlatCubic, Curve.isFlat_iff, Bool.and_eq_true, decide_eq_true_eq, decide_eq_true_eq]
  rfl

theorem draws (flatness : Int) : kind.Draws flatness fun limit cubic =>
    cubicVertices flatness limit cubic.start cubic.control₁ cubic.control₂ cubic.stop :=
  ⟨fun _ => rfl, fun _ _ => rfl⟩

theorem getLast?_vertices (flatness : Int) (limit : Nat) (cubic : Cubic) :
    (cubicVertices flatness limit cubic.start cubic.control₁ cubic.control₂ cubic.stop).getLast? =
      some cubic.stop :=
  (draws flatness).getLast?_eq (fun _ => rfl) (fun _ => rfl) limit cubic

theorem contained : kind.Contained := by
  constructor
  · rintro ⟨start, control₁, control₂, stop⟩
    simp only [kind, List.forall_mem_cons]
    exact ⟨Point.inBox_of_mem List.mem_cons_self, (inBox_middle₂ start control₁).mono (by simp),
      (inBox_middle₃ start control₁ control₂).mono (by simp),
      inBox_middle₄ start control₁ control₂ stop, nofun⟩
  · rintro ⟨start, control₁, control₂, stop⟩
    simp only [kind, List.forall_mem_cons]
    exact ⟨inBox_middle₄ start control₁ control₂ stop,
      (inBox_middle₃ control₁ control₂ stop).mono (by simp),
      (inBox_middle₂ control₂ stop).mono (by simp), Point.inBox_of_mem (by simp), nofun⟩

end Cubic

end Curve

end Raster
