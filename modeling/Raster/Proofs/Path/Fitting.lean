import Mathlib.Algebra.Order.Ring.Abs
import Mathlib.Tactic.Linarith
import Mathlib.Tactic.Ring
import Raster.Proofs.Path.Halving
import Raster.Proofs.Path.Storing
import Raster.Proofs.Word

/-!
# Flattening in machine words

Here flattening is done in words: every sum, difference and product has a width, and has no
result if the exact one does not fit; the squares of the flatness test saturate instead; halves
are narrowed to coordinates; and the current point is handed from the first half of a curve to
the second.  With coordinates that fit, every operation has a result, and the results are those
of integers without bounds.
-/

namespace Raster

/-! ## Points -/

namespace Point

/-- A point with both coordinates as 32-bit words. -/
def word32? (point : Point) : Option Point := do
  let x ← Word.word32? point.x
  let y ← Word.word32? point.y
  return ⟨x, y⟩

/-- A point with both coordinates as 64-bit words. -/
def word64? (point : Point) : Option Point := do
  let x ← Word.word64? point.x
  let y ← Word.word64? point.y
  return ⟨x, y⟩

/-- The sum of two points, in 64 bits. -/
def sum? (a b : Point) : Option Point :=
  word64? ⟨a.x + b.x, a.y + b.y⟩

/-- A sum of points divided by their number, rounded down and narrowed to 32 bits. -/
def mean? (sum : Point) (number : Int) : Option Point :=
  word32? ⟨sum.x / number, sum.y / number⟩

theorem word32?_eq_some {point : Point} (fits : point.Fits32) : point.word32? = some point := by
  rw [word32?, Word.word32?_eq_some fits.1, Word.word32?_eq_some fits.2]
  rfl

theorem word64?_eq_some {point : Point} (x : Word.Fits64 point.x) (y : Word.Fits64 point.y) :
    point.word64? = some point := by
  rw [word64?, Word.word64?_eq_some x, Word.word64?_eq_some y]
  rfl

end Point

namespace Curve

/-! ## The flatness test -/

/-- The squared length of a displacement, saturated to 64 bits. -/
def saturatedLengthSq (dx dy : Int) : Int :=
  Word.clamp64 (Word.clamp64 (dx * dx) + Word.clamp64 (dy * dy))

/-- The squared diagonal of the smallest box around some points. -/
def diagonalSq? (first : Point) (rest : List Point) : Option Int := do
  let dx ← Word.word64? (spread first.x (rest.map (·.x)))
  let dy ← Word.word64? (spread first.y (rest.map (·.y)))
  return saturatedLengthSq dx dy

/-- The squared area spanned by a chord and the displacement of a point. -/
def deviationSq? (origin : Point) (dx dy : Int) (point : Point) : Option Int := do
  let px ← Word.word64? (point.x - origin.x)
  let py ← Word.word64? (point.y - origin.y)
  let along ← Word.word128? (dx * py)
  let across ← Word.word128? (dy * px)
  let area ← Word.word128? (along - across)
  Word.word128? (area / 65536 * (area / 65536))

/-- Whether the points of a curve lie close together.  The box around them is only looked at if
the chord is short. -/
def isSmall? (chordSq : Int) (start : Point) (rest : List Point) : Option Bool :=
  if chordSq < minChordSq then
    (diagonalSq? start rest).map fun diagonalSq => decide (diagonalSq < minChordSq)
  else
    some false

/-- The flatness test that both kinds of curve share. -/
def isFlat? (flatnessSq : Int) (start : Point) (controls : List Point) (stop : Point)
    (deviation? : Int → Int → Int → Option Bool) : Option Bool := do
  let dx ← Word.word64? (stop.x - start.x)
  let dy ← Word.word64? (stop.y - start.y)
  let chordSq := saturatedLengthSq dx dy
  if chordSq > maxChordSq then
    return false
  else if ← isSmall? chordSq start (controls ++ [stop]) then
    return true
  else
    let scaled ← Word.word128? (chordSq * flatnessSq)
    deviation? dx dy (scaled / 65536)

/-- Whether a quadratic curve lies close enough to its chord. -/
def isFlatQuad? (flatnessSq : Int) (p₀ p₁ p₂ : Point) : Option Bool :=
  isFlat? flatnessSq p₀ [p₁] p₂ fun dx dy limit => do
    let deviation ← deviationSq? p₀ dx dy p₁
    return deviation < limit

/-- Whether a cubic curve lies close enough to its chord. -/
def isFlatCubic? (flatnessSq : Int) (p₀ p₁ p₂ p₃ : Point) : Option Bool :=
  isFlat? flatnessSq p₀ [p₁, p₂] p₃ fun dx dy limit => do
    let deviation₁ ← deviationSq? p₀ dx dy p₁
    if deviation₁ ≤ limit then
      let deviation₂ ← deviationSq? p₀ dx dy p₂
      return deviation₂ < limit
    else
      return false

/-- Saturation changes squared lengths only where they are far beyond the limits of the test. -/
theorem saturatedLengthSq_eq (dx dy : Int) :
    saturatedLengthSq dx dy = min (lengthSq dx dy) Word.max64 := by
  have wide : 0 ≤ dx * dx := mul_self_nonneg dx
  have tall : 0 ≤ dy * dy := mul_self_nonneg dy
  unfold saturatedLengthSq lengthSq Word.clamp64 Word.max64 Word.min64
  split_ifs <;> omega

/-- Between 32-bit coordinates there are only differences that fit 64 bits. -/
theorem fits64_spread {coordinate : Point → Int} {first : Point} {rest : List Point}
    (fits : ∀ point ∈ first :: rest, Word.Fits32 (coordinate point)) :
    Word.Fits64 (spread (coordinate first) (rest.map coordinate)) := by
  have all : ∀ value ∈ coordinate first :: rest.map coordinate, Word.Fits32 value := by
    rw [← List.map_cons, List.forall_mem_map]
    exact fits
  obtain ⟨greatest, greatestMember, least, leastMember, extent⟩ :=
    exists_spread_eq (coordinate first) (rest.map coordinate)
  have above := all greatest greatestMember
  have below := all least leastMember
  unfold Word.Fits32 Word.min32 Word.max32 at above below
  unfold Word.Fits64 Word.min64 Word.max64
  omega

theorem isSmall?_eq {start : Point} {rest : List Point}
    (fits : ∀ point ∈ start :: rest, point.Fits32) (dx dy : Int) :
    isSmall? (saturatedLengthSq dx dy) start rest =
      some (lengthSq dx dy < minChordSq && diagonalSq start rest < minChordSq) := by
  have limit : minChordSq < Word.max64 := by decide
  have short (dx dy : Int) : saturatedLengthSq dx dy < minChordSq ↔ lengthSq dx dy < minChordSq := by
    rw [saturatedLengthSq_eq]
    omega
  have wide := fits64_spread fun point member => (fits point member).1
  have tall := fits64_spread fun point member => (fits point member).2
  by_cases near : lengthSq dx dy < minChordSq
  · rw [isSmall?, if_pos ((short dx dy).mpr near), diagonalSq?, Word.word64?_eq_some wide,
      Word.word64?_eq_some tall]
    simp only [near, diagonalSq, ← short, decide_true, Bool.true_and]
    rfl
  · rw [isSmall?, if_neg (mt (short dx dy).mp near)]
    simp only [near, decide_false, Bool.false_and]

/-- A displacement that is not longer than a chord may be has short sides. -/
theorem sides_le_of_lengthSq_le {dx dy : Int} (short : lengthSq dx dy ≤ maxChordSq) :
    |dx| ≤ 1048576 ∧ |dy| ≤ 1048576 := by
  unfold lengthSq maxChordSq at short
  constructor
  · apply abs_le_of_sq_le_sq _ (by decide)
    linarith [sq dx, mul_self_nonneg dy]
  · apply abs_le_of_sq_le_sq _ (by decide)
    linarith [sq dy, mul_self_nonneg dx]

/-- A chord that is not too long spans areas that fit. -/
theorem deviationSq?_eq {origin point : Point} {dx dy : Int} (originFits : origin.Fits32)
    (pointFits : point.Fits32) (short : lengthSq dx dy ≤ maxChordSq) :
    deviationSq? origin dx dy point = some (deviationSq origin dx dy point) := by
  obtain ⟨wide, tall⟩ := sides_le_of_lengthSq_le short
  obtain ⟨⟨originLeft, originRight⟩, originTop, originBottom⟩ := originFits
  obtain ⟨⟨left, right⟩, top, bottom⟩ := pointFits
  unfold Word.min32 Word.max32 at *
  have px : |point.x - origin.x| ≤ 4294967296 := abs_le.mpr (by omega)
  have py : |point.y - origin.y| ≤ 4294967296 := abs_le.mpr (by omega)
  have along : |dx * (point.y - origin.y)| ≤ 1048576 * 4294967296 := by
    rw [abs_mul]
    exact mul_le_mul wide py (abs_nonneg _) (by decide)
  have across : |dy * (point.x - origin.x)| ≤ 1048576 * 4294967296 := by
    rw [abs_mul]
    exact mul_le_mul tall px (abs_nonneg _) (by decide)
  rw [abs_le] at px py along across
  have area : |(dx * (point.y - origin.y) - dy * (point.x - origin.x)) / 65536| ≤ 137438953472 := by
    rw [abs_le]
    omega
  have square : (dx * (point.y - origin.y) - dy * (point.x - origin.x)) / 65536 *
      ((dx * (point.y - origin.y) - dy * (point.x - origin.x)) / 65536) ≤
        137438953472 * 137438953472 := by
    rw [← abs_mul_abs_self]
    exact mul_le_mul area area (abs_nonneg _) (by decide)
  have positive := mul_self_nonneg ((dx * (point.y - origin.y) - dy * (point.x - origin.x)) / 65536)
  have fits64 {value : Int} (bounds : -4294967296 ≤ value ∧ value ≤ 4294967296) :
      Word.Fits64 value := by
    unfold Word.Fits64 Word.min64 Word.max64
    omega
  have fits128 {value : Int} (bounds : -18889465931478580854784 ≤ value ∧
      value ≤ 18889465931478580854784) : Word.Fits128 value := by
    unfold Word.Fits128 Word.min128 Word.max128
    omega
  rw [deviationSq?, Word.word64?_eq_some (fits64 px), Word.word64?_eq_some (fits64 py)]
  simp only [Option.bind_eq_bind, Option.bind_some]
  rw [Word.word128?_eq_some (fits128 (by omega)), Word.word128?_eq_some (fits128 (by omega))]
  simp only [Option.bind_some]
  rw [Word.word128?_eq_some (fits128 (by omega))]
  simp only [Option.bind_some]
  rw [Word.word128?_eq_some (fits128 (by omega))]
  rfl

/-- The squared flatness in 48 bits, as the test scales it. -/
def flatnessSq? (flatness : Int) : Option Int :=
  (Word.word64? (flatness * flatness)).map (· / 65536)

theorem flatness_sq_le {flatness : Int} (word : Word.Fits32 flatness) :
    flatness * flatness ≤ 4611686018427387904 := by
  have bounded : |flatness| ≤ 2147483648 := by
    unfold Word.Fits32 Word.min32 Word.max32 at word
    exact abs_le.mpr (by omega)
  rw [← abs_mul_abs_self]
  exact mul_le_mul bounded bounded (abs_nonneg _) (by decide)

theorem flatnessSq?_eq {flatness : Int} (word : Word.Fits32 flatness) :
    flatnessSq? flatness = some (flatness * flatness / 65536) := by
  have greatest := flatness_sq_le word
  have least := mul_self_nonneg flatness
  have fits : Word.Fits64 (flatness * flatness) := by
    unfold Word.Fits64 Word.min64 Word.max64
    omega
  rw [flatnessSq?, Word.word64?_eq_some fits]
  rfl

/-- The flatness test in words is the one on integers, if the tests against the scaled flatness
are. -/
theorem isFlat?_eq {flatness : Int} (word : Word.Fits32 flatness) {start stop : Point}
    {controls : List Point} (fits : ∀ point ∈ start :: (controls ++ [stop]), point.Fits32)
    {deviation? : Int → Int → Int → Option Bool} {deviation : Int → Bool}
    (exact : lengthSq (stop.x - start.x) (stop.y - start.y) ≤ maxChordSq →
      ∀ limit, deviation? (stop.x - start.x) (stop.y - start.y) limit = some (deviation limit)) :
    isFlat? (flatness * flatness / 65536) start controls stop deviation? =
      some (isFlat flatness start controls stop deviation) := by
  have fits64 {a b : Int} (aFits : Word.Fits32 a) (bFits : Word.Fits32 b) :
      Word.Fits64 (a - b) := by
    unfold Word.Fits32 Word.min32 Word.max32 at aFits bFits
    unfold Word.Fits64 Word.min64 Word.max64
    omega
  have startFits := fits start List.mem_cons_self
  have stopFits := fits stop (by simp)
  rw [isFlat?, Word.word64?_eq_some (fits64 stopFits.1 startFits.1),
    Word.word64?_eq_some (fits64 stopFits.2 startFits.2)]
  simp only [Option.bind_eq_bind, Option.bind_some, isSmall?_eq fits]
  rw [saturatedLengthSq_eq, isFlat]
  by_cases long : lengthSq (stop.x - start.x) (stop.y - start.y) > maxChordSq
  · have saturated : min (lengthSq (stop.x - start.x) (stop.y - start.y)) Word.max64 >
        maxChordSq := lt_min long (by decide)
    rw [if_pos saturated, if_pos long]
    rfl
  · have exactly : min (lengthSq (stop.x - start.x) (stop.y - start.y)) Word.max64 =
        lengthSq (stop.x - start.x) (stop.y - start.y) :=
      min_eq_left ((not_lt.mp long).trans (by decide))
    rw [exactly, if_neg long, if_neg long]
    split
    · rfl
    · have nonneg : 0 ≤ flatness * flatness / 65536 :=
        Int.ediv_nonneg (mul_self_nonneg flatness) (by decide)
      have bounded : flatness * flatness / 65536 ≤ 70368744177664 := by
        have := flatness_sq_le word
        omega
      have product := mul_le_mul (not_lt.mp long) bounded nonneg (by decide)
      have scaled : Word.Fits128 (lengthSq (stop.x - start.x) (stop.y - start.y) *
          (flatness * flatness / 65536)) := by
        constructor
        · exact le_trans (by decide) (mul_nonneg (lengthSq_nonneg _ _) nonneg)
        · exact le_trans product (by decide)
      rw [Word.word128?_eq_some scaled]
      exact exact (not_lt.mp long) _

theorem isFlatQuad?_eq {flatness : Int} (word : Word.Fits32 flatness) {quad : Quad}
    (fits : ∀ point ∈ Quad.kind.points quad, point.Fits32) :
    isFlatQuad? (flatness * flatness / 65536) quad.start quad.control quad.stop =
      some (Quad.kind.isFlat flatness quad) := by
  have startFits := fits quad.start List.mem_cons_self
  have controlFits := fits quad.control (by simp [Quad.kind])
  have allFit : ∀ point ∈ quad.start :: ([quad.control] ++ [quad.stop]), point.Fits32 := fits
  change _ = some (isFlatQuad flatness quad.start quad.control quad.stop)
  rw [isFlatQuad?, isFlatQuad]
  refine isFlat?_eq word allFit ?_
  intro short limit
  rw [deviationSq?_eq startFits controlFits short]
  rfl

theorem isFlatCubic?_eq {flatness : Int} (word : Word.Fits32 flatness) {cubic : Cubic}
    (fits : ∀ point ∈ Cubic.kind.points cubic, point.Fits32) :
    isFlatCubic? (flatness * flatness / 65536) cubic.start cubic.control₁ cubic.control₂
      cubic.stop = some (Cubic.kind.isFlat flatness cubic) := by
  have startFits := fits cubic.start List.mem_cons_self
  have controlFits₁ := fits cubic.control₁ (by simp [Cubic.kind])
  have controlFits₂ := fits cubic.control₂ (by simp [Cubic.kind])
  have allFit : ∀ point ∈ cubic.start :: ([cubic.control₁, cubic.control₂] ++ [cubic.stop]),
      point.Fits32 := fits
  change _ = some (isFlatCubic flatness cubic.start cubic.control₁ cubic.control₂ cubic.stop)
  rw [isFlatCubic?, isFlatCubic]
  refine isFlat?_eq word allFit ?_
  intro short limit
  rw [deviationSq?_eq startFits controlFits₁ short, deviationSq?_eq startFits controlFits₂ short]
  by_cases first : deviationSq cubic.start (cubic.stop.x - cubic.start.x)
      (cubic.stop.y - cubic.start.y) cubic.control₁ ≤ limit
  · simp only [Option.bind_eq_bind, Option.bind_some, first, decide_true,
      Bool.true_and]
    rfl
  · simp only [Option.bind_eq_bind, Option.bind_some, first, decide_false,
      Bool.false_and]
    rfl

/-! ## Halving -/

/-- Both halves of a quadratic curve. -/
def Quad.halves? (quad : Quad) : Option (Quad × Quad) := do
  let s₀₁ ← quad.start.sum? quad.control
  let s₁₂ ← quad.control.sum? quad.stop
  let s₀₁₂ ← s₀₁.sum? s₁₂
  let m₀₁ ← s₀₁.mean? 2
  let m₀₁₂ ← s₀₁₂.mean? 4
  let m₁₂ ← s₁₂.mean? 2
  return (⟨quad.start, m₀₁, m₀₁₂⟩, ⟨m₀₁₂, m₁₂, quad.stop⟩)

/-- Both halves of a cubic curve. -/
def Cubic.halves? (cubic : Cubic) : Option (Cubic × Cubic) := do
  let s₀₁ ← cubic.start.sum? cubic.control₁
  let s₁₂ ← cubic.control₁.sum? cubic.control₂
  let s₂₃ ← cubic.control₂.sum? cubic.stop
  let s₀₁₂ ← s₀₁.sum? s₁₂
  let s₁₂₃ ← s₁₂.sum? s₂₃
  let s₀₁₂₃ ← s₀₁₂.sum? s₁₂₃
  let m₀₁ ← s₀₁.mean? 2
  let m₀₁₂ ← s₀₁₂.mean? 4
  let m₀₁₂₃ ← s₀₁₂₃.mean? 8
  let m₁₂₃ ← s₁₂₃.mean? 4
  let m₂₃ ← s₂₃.mean? 2
  return (⟨cubic.start, m₀₁, m₀₁₂, m₀₁₂₃⟩, ⟨m₀₁₂₃, m₁₂₃, m₂₃, cubic.stop⟩)

/-- The current point after a quadratic curve was flattened, and its vertices.  The second half
starts where the first one left the current point. -/
def quadVertices? (flatnessSq : Int) :
    Nat → Point → Point → Point → Option (Point × List Point)
  | 0, _, p₁, p₂ => some (p₂, [p₁, p₂])
  | depth + 1, p₀, p₁, p₂ => do
      if ← isFlatQuad? flatnessSq p₀ p₁ p₂ then
        return (p₂, [p₁, p₂])
      else
        let (first, second) ← Quad.halves? ⟨p₀, p₁, p₂⟩
        let (current, before) ← quadVertices? flatnessSq depth p₀ first.control first.stop
        let (_, after) ← quadVertices? flatnessSq depth current second.control p₂
        return (p₂, before ++ after)

/-- The current point after a cubic curve was flattened, and its vertices.  The second half
starts where the first one left the current point. -/
def cubicVertices? (flatnessSq : Int) :
    Nat → Point → Point → Point → Point → Option (Point × List Point)
  | 0, _, p₁, p₂, p₃ => some (p₃, [p₁, p₂, p₃])
  | depth + 1, p₀, p₁, p₂, p₃ => do
      if ← isFlatCubic? flatnessSq p₀ p₁ p₂ p₃ then
        return (p₃, [p₁, p₂, p₃])
      else
        let (first, second) ← Cubic.halves? ⟨p₀, p₁, p₂, p₃⟩
        let (current, before) ←
          cubicVertices? flatnessSq depth p₀ first.control₁ first.control₂ first.stop
        let (_, after) ←
          cubicVertices? flatnessSq depth current second.control₁ second.control₂ p₃
        return (p₃, before ++ after)

/-- Both coordinates of a point are at most `bound` away from zero. -/
def Reaches (bound : Int) (point : Point) : Prop :=
  |point.x| ≤ bound ∧ |point.y| ≤ bound

theorem reaches_of_fits32 {point : Point} (fits : point.Fits32) : Reaches 2147483648 point := by
  obtain ⟨⟨left, right⟩, top, bottom⟩ := fits
  unfold Word.min32 Word.max32 at *
  exact ⟨abs_le.mpr (by omega), abs_le.mpr (by omega)⟩

/-- The sum of points that are far from the ends of 64 bits. -/
theorem sum?_eq {bound : Int} (far : bound < 4611686018427387904) {a b : Point}
    (aReaches : Reaches bound a) (bReaches : Reaches bound b) :
    a.sum? b = some ⟨a.x + b.x, a.y + b.y⟩ ∧ Reaches (2 * bound) ⟨a.x + b.x, a.y + b.y⟩ := by
  simp only [Reaches, abs_le] at aReaches bReaches ⊢
  constructor
  · apply Point.word64?_eq_some
    all_goals
      unfold Word.Fits64 Word.min64 Word.max64
      simp only
      omega
  · omega

theorem mean?_middle₂ {a b : Point} (fits : (middle₂ a b).Fits32) :
    Point.mean? ⟨a.x + b.x, a.y + b.y⟩ 2 = some (middle₂ a b) :=
  Point.word32?_eq_some fits

theorem mean?_middle₃ {a b c : Point} (fits : (middle₃ a b c).Fits32) :
    Point.mean? ⟨a.x + b.x + (b.x + c.x), a.y + b.y + (b.y + c.y)⟩ 4 = some (middle₃ a b c) := by
  have x : a.x + b.x + (b.x + c.x) = a.x + 2 * b.x + c.x := by ring
  have y : a.y + b.y + (b.y + c.y) = a.y + 2 * b.y + c.y := by ring
  rw [x, y]
  exact Point.word32?_eq_some fits

theorem mean?_middle₄ {a b c d : Point} (fits : (middle₄ a b c d).Fits32) :
    Point.mean? ⟨a.x + b.x + (b.x + c.x) + (b.x + c.x + (c.x + d.x)),
      a.y + b.y + (b.y + c.y) + (b.y + c.y + (c.y + d.y))⟩ 8 = some (middle₄ a b c d) := by
  have x : a.x + b.x + (b.x + c.x) + (b.x + c.x + (c.x + d.x)) =
      a.x + 3 * b.x + 3 * c.x + d.x := by ring
  have y : a.y + b.y + (b.y + c.y) + (b.y + c.y + (c.y + d.y)) =
      a.y + 3 * b.y + 3 * c.y + d.y := by ring
  rw [x, y]
  exact Point.word32?_eq_some fits

theorem Quad.halves?_eq {quad : Quad} (fits : ∀ point ∈ kind.points quad, point.Fits32) :
    quad.halves? = some (kind.first quad, kind.second quad) := by
  have firstFits : ∀ point ∈ kind.points (kind.first quad), point.Fits32 :=
    fun point member => (contained.first quad point member).fits32 fits
  have secondFits : ∀ point ∈ kind.points (kind.second quad), point.Fits32 :=
    fun point member => (contained.second quad point member).fits32 fits
  simp only [kind, List.forall_mem_cons] at fits firstFits secondFits
  obtain ⟨fits₀, fits₁, fits₂, _⟩ := fits
  obtain ⟨_, fits₀₁, fits₀₁₂, _⟩ := firstFits
  obtain ⟨_, fits₁₂, _⟩ := secondFits
  obtain ⟨s₀₁, reaches₀₁⟩ :=
    sum?_eq (by decide) (reaches_of_fits32 fits₀) (reaches_of_fits32 fits₁)
  obtain ⟨s₁₂, reaches₁₂⟩ :=
    sum?_eq (by decide) (reaches_of_fits32 fits₁) (reaches_of_fits32 fits₂)
  obtain ⟨s₀₁₂, _⟩ := sum?_eq (by decide) reaches₀₁ reaches₁₂
  rw [halves?]
  apply bind_eq_of_eq_some s₀₁
  apply bind_eq_of_eq_some s₁₂
  apply bind_eq_of_eq_some s₀₁₂
  apply bind_eq_of_eq_some (mean?_middle₂ fits₀₁)
  apply bind_eq_of_eq_some (mean?_middle₃ fits₀₁₂)
  apply bind_eq_of_eq_some (mean?_middle₂ fits₁₂)
  rfl

theorem Cubic.halves?_eq {cubic : Cubic} (fits : ∀ point ∈ kind.points cubic, point.Fits32) :
    cubic.halves? = some (kind.first cubic, kind.second cubic) := by
  have firstFits : ∀ point ∈ kind.points (kind.first cubic), point.Fits32 :=
    fun point member => (contained.first cubic point member).fits32 fits
  have secondFits : ∀ point ∈ kind.points (kind.second cubic), point.Fits32 :=
    fun point member => (contained.second cubic point member).fits32 fits
  simp only [kind, List.forall_mem_cons] at fits firstFits secondFits
  obtain ⟨fits₀, fits₁, fits₂, fits₃, _⟩ := fits
  obtain ⟨_, fits₀₁, fits₀₁₂, fits₀₁₂₃, _⟩ := firstFits
  obtain ⟨_, fits₁₂₃, fits₂₃, _⟩ := secondFits
  obtain ⟨s₀₁, reaches₀₁⟩ :=
    sum?_eq (by decide) (reaches_of_fits32 fits₀) (reaches_of_fits32 fits₁)
  obtain ⟨s₁₂, reaches₁₂⟩ :=
    sum?_eq (by decide) (reaches_of_fits32 fits₁) (reaches_of_fits32 fits₂)
  obtain ⟨s₂₃, reaches₂₃⟩ :=
    sum?_eq (by decide) (reaches_of_fits32 fits₂) (reaches_of_fits32 fits₃)
  obtain ⟨s₀₁₂, reaches₀₁₂⟩ := sum?_eq (by decide) reaches₀₁ reaches₁₂
  obtain ⟨s₁₂₃, reaches₁₂₃⟩ := sum?_eq (by decide) reaches₁₂ reaches₂₃
  obtain ⟨s₀₁₂₃, _⟩ := sum?_eq (by decide) reaches₀₁₂ reaches₁₂₃
  rw [halves?]
  apply bind_eq_of_eq_some s₀₁
  apply bind_eq_of_eq_some s₁₂
  apply bind_eq_of_eq_some s₂₃
  apply bind_eq_of_eq_some s₀₁₂
  apply bind_eq_of_eq_some s₁₂₃
  apply bind_eq_of_eq_some s₀₁₂₃
  apply bind_eq_of_eq_some (mean?_middle₂ fits₀₁)
  apply bind_eq_of_eq_some (mean?_middle₃ fits₀₁₂)
  apply bind_eq_of_eq_some (mean?_middle₄ fits₀₁₂₃)
  apply bind_eq_of_eq_some (mean?_middle₃ fits₁₂₃)
  apply bind_eq_of_eq_some (mean?_middle₂ fits₂₃)
  rfl

/-- The current point after a quadratic curve is its end, and its vertices are those of integers
without bounds. -/
theorem quadVertices?_eq {flatness : Int} (word : Word.Fits32 flatness) (depth : Nat) {quad : Quad}
    (fits : ∀ point ∈ Quad.kind.points quad, point.Fits32) :
    quadVertices? (flatness * flatness / 65536) depth quad.start quad.control quad.stop =
      some (quad.stop, quadVertices flatness depth quad.start quad.control quad.stop) := by
  induction depth generalizing quad with
  | zero => rfl
  | succ depth inductionHypothesis =>
      have first := inductionHypothesis
        fun point member => (Quad.contained.first quad point member).fits32 fits
      have second := inductionHypothesis
        fun point member => (Quad.contained.second quad point member).fits32 fits
      rw [quadVertices?, quadVertices]
      apply bind_eq_of_eq_some (isFlatQuad?_eq word fits)
      by_cases flat : isFlatQuad flatness quad.start quad.control quad.stop = true
      · rw [if_pos flat]
        exact if_pos flat
      · rw [if_neg flat]
        refine (if_neg flat).trans ?_
        apply bind_eq_of_eq_some (Quad.halves?_eq fits)
        apply bind_eq_of_eq_some first
        apply bind_eq_of_eq_some second
        rfl

/-- The current point after a cubic curve is its end, and its vertices are those of integers
without bounds. -/
theorem cubicVertices?_eq {flatness : Int} (word : Word.Fits32 flatness) (depth : Nat)
    {cubic : Cubic} (fits : ∀ point ∈ Cubic.kind.points cubic, point.Fits32) :
    cubicVertices? (flatness * flatness / 65536) depth cubic.start cubic.control₁ cubic.control₂
        cubic.stop =
      some (cubic.stop, cubicVertices flatness depth cubic.start cubic.control₁ cubic.control₂
        cubic.stop) := by
  induction depth generalizing cubic with
  | zero => rfl
  | succ depth inductionHypothesis =>
      have first := inductionHypothesis
        fun point member => (Cubic.contained.first cubic point member).fits32 fits
      have second := inductionHypothesis
        fun point member => (Cubic.contained.second cubic point member).fits32 fits
      rw [cubicVertices?, cubicVertices]
      apply bind_eq_of_eq_some (isFlatCubic?_eq word fits)
      by_cases flat : isFlatCubic flatness cubic.start cubic.control₁ cubic.control₂ cubic.stop =
          true
      · rw [if_pos flat]
        exact if_pos flat
      · rw [if_neg flat]
        refine (if_neg flat).trans ?_
        apply bind_eq_of_eq_some (Cubic.halves?_eq fits)
        apply bind_eq_of_eq_some first
        apply bind_eq_of_eq_some second
        rfl

end Curve

namespace Flattener

/-- Answers one command in words. -/
def step? (flattener : Flattener) : PathCommand → Option (Flattener × List LineCommand)
  | .line command => some (flattener.step (.line command))
  | .quadTo control point => do
      let flatnessSq ← Curve.flatnessSq? flattener.flatness
      let (current, vertices) ←
        Curve.quadVertices? flatnessSq Curve.maxDepth flattener.current control point
      return ({ flattener with current := current }, .lineJoin :: vertices.map .lineTo)
  | .cubicTo control₁ control₂ point => do
      let flatnessSq ← Curve.flatnessSq? flattener.flatness
      let (current, vertices) ←
        Curve.cubicVertices? flatnessSq Curve.maxDepth flattener.current control₁ control₂ point
      return ({ flattener with current := current }, .lineJoin :: vertices.map .lineTo)

/-- The flatness and both points of a flattener are words. -/
structure Fits32 (flattener : Flattener) : Prop where
  flatness : Word.Fits32 flattener.flatness
  start : flattener.start.Fits32
  current : flattener.current.Fits32

/-- Commands that fit lead to points that fit. -/
theorem Fits32.step {flattener : Flattener} (fits : flattener.Fits32) {command : PathCommand}
    (commandFits : command.Fits32) : (flattener.step command).1.Fits32 := by
  obtain ⟨flatness, start, current⟩ := fits
  cases command with
  | line command =>
      cases command with
      | moveTo point =>
          have pointFits := commandFits point List.mem_cons_self
          exact ⟨flatness, pointFits, pointFits⟩
      | lineJoin => exact ⟨flatness, start, current⟩
      | lineTo point => exact ⟨flatness, start, commandFits point List.mem_cons_self⟩
      | close => exact ⟨flatness, start, start⟩
      | finish => exact ⟨flatness, start, current⟩
  | quadTo control point => exact ⟨flatness, start, commandFits point (by simp [PathCommand.points])⟩
  | cubicTo control₁ control₂ point =>
      exact ⟨flatness, start, commandFits point (by simp [PathCommand.points])⟩

/-- Every operation on words has a result, and together they give the answer of integers without
bounds. -/
theorem Fits32.step?_eq {flattener : Flattener} (fits : flattener.Fits32) {command : PathCommand}
    (commandFits : command.Fits32) : flattener.step? command = some (flattener.step command) := by
  cases command with
  | line command => rfl
  | quadTo control point =>
      have points : ∀ other ∈ Curve.Quad.kind.points ⟨flattener.current, control, point⟩,
          other.Fits32 := List.forall_mem_cons.mpr ⟨fits.current, commandFits⟩
      have vertices := Curve.quadVertices?_eq fits.flatness Curve.maxDepth points
      rw [step?, Curve.flatnessSq?_eq fits.flatness, Option.bind_eq_bind, Option.bind_some, vertices]
      rfl
  | cubicTo control₁ control₂ point =>
      have points :
          ∀ other ∈ Curve.Cubic.kind.points ⟨flattener.current, control₁, control₂, point⟩,
          other.Fits32 := List.forall_mem_cons.mpr ⟨fits.current, commandFits⟩
      have vertices := Curve.cubicVertices?_eq fits.flatness Curve.maxDepth points
      rw [step?, Curve.flatnessSq?_eq fits.flatness, Option.bind_eq_bind, Option.bind_some, vertices]
      rfl

end Flattener

end Raster
