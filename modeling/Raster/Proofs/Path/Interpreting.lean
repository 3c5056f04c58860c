import Raster.Path.Data

/-!
# Path data read from left to right

Reading is a relation of codes, coordinates and the commands that they stand for.  Every pair of
lists is read in exactly one way, which is the one that is computed.  What is read from some lists
does not depend on what follows them, if the first list takes all that the second one has.
-/

namespace Raster.PathData

/-- The number of pairs of coordinates that a code takes.  A code that is not known takes none. -/
def pairs : Nat → Nat
  | 0 => 1
  | 1 => 1
  | 2 => 2
  | 3 => 3
  | _ => 0

/-- The number of pairs of coordinates that some codes take. -/
def needed : List Nat → Nat
  | [] => 0
  | code :: codes => pairs code + needed codes

/-- The command that a code makes of its coordinates. -/
inductive Takes : Nat → List Float32 → PathCommand → Prop where
  | move (x y : Float32) : Takes 0 [x, y] (.moveTo (.ofFloat32s x y))
  | line (x y : Float32) : Takes 1 [x, y] (.lineTo (.ofFloat32s x y))
  | quad (x₁ y₁ x y : Float32) :
      Takes 2 [x₁, y₁, x, y] (.quadTo (.ofFloat32s x₁ y₁) (.ofFloat32s x y))
  | cubic (x₁ y₁ x₂ y₂ x y : Float32) :
      Takes 3 [x₁, y₁, x₂, y₂, x, y]
        (.cubicTo (.ofFloat32s x₁ y₁) (.ofFloat32s x₂ y₂) (.ofFloat32s x y))
  | close : Takes 4 [] .close

/-- What codes and coordinates stand for. -/
inductive Reads : List Nat → List Float32 → List PathCommand → Prop where
  | done (coordinates : List Float32) : Reads [] coordinates []
  /-- A code that is not known leaves all coordinates to the codes after it. -/
  | skip {code : Nat} {codes : List Nat} {coordinates : List Float32} {read : List PathCommand}
      (unknown : 4 < code) (rest : Reads codes coordinates read) :
      Reads (code :: codes) coordinates read
  | take {code : Nat} {codes : List Nat} {own coordinates : List Float32} {command : PathCommand}
      {read : List PathCommand} (takes : Takes code own command)
      (rest : Reads codes coordinates read) :
      Reads (code :: codes) (own ++ coordinates) (command :: read)
  /-- The first code that lacks a coordinate ends the path, whatever follows it. -/
  | stop {code : Nat} {codes : List Nat} {coordinates : List Float32}
      (lacking : coordinates.length < 2 * pairs code) : Reads (code :: codes) coordinates []

/-! ## Single codes -/

theorem Takes.length_eq {code : Nat} {own : List Float32} {command : PathCommand}
    (takes : Takes code own command) : own.length = 2 * pairs code := by
  cases takes <;> rfl

theorem pairs_of_unknown {code : Nat} (unknown : 4 < code) : pairs code = 0 := by
  unfold pairs
  split
  all_goals first | rfl | omega

theorem ofNat?_of_unknown {code : Nat} (unknown : 4 < code) : PathCode.ofNat? code = none := by
  unfold PathCode.ofNat?
  split
  all_goals first | rfl | omega

/-- A code that takes pairs is known. -/
theorem exists_ofNat?_of_pairs_pos {code : Nat} (takesSome : 0 < pairs code) :
    ∃ known, PathCode.ofNat? code = some known ∧ known.arity = pairs code := by
  unfold pairs at takesSome ⊢
  split at takesSome
  · exact ⟨.move, rfl, rfl⟩
  · exact ⟨.line, rfl, rfl⟩
  · exact ⟨.quad, rfl, rfl⟩
  · exact ⟨.cubic, rfl, rfl⟩
  · omega

/-- A known code takes as many coordinates as it needs. -/
theorem exists_takes {code : Nat} (known : code ≤ 4) {own : List Float32}
    (enough : own.length = 2 * pairs code) : ∃ command, Takes code own command := by
  match code, own with
  | 0, [x, y] => exact ⟨_, .move x y⟩
  | 1, [x, y] => exact ⟨_, .line x y⟩
  | 2, [x₁, y₁, x, y] => exact ⟨_, .quad x₁ y₁ x y⟩
  | 3, [x₁, y₁, x₂, y₂, x, y] => exact ⟨_, .cubic x₁ y₁ x₂ y₂ x y⟩
  | 4, [] => exact ⟨_, .close⟩

/-! ## The computed reading -/

/-- Two coordinates are one point, and a single one is none. -/
theorem length_points (coordinates : List Float32) :
    (points coordinates).length = coordinates.length / 2 := by
  match coordinates with
  | [] => simp [points]
  | [_] => simp [points]
  | x :: y :: rest =>
      rw [points, List.length_cons, length_points rest, List.length_cons, List.length_cons]
      omega

/-- Nothing is computed from a code that lacks a coordinate, nor from the codes after it. -/
theorem commands_of_lacking {code : Nat} {coordinates : List Float32}
    (lacking : coordinates.length < 2 * pairs code) (codes : List Nat) :
    commands (code :: codes) (points coordinates) = [] := by
  obtain ⟨known, meaning, arity⟩ := exists_ofNat?_of_pairs_pos (by omega : 0 < pairs code)
  have few : (points coordinates).length < known.arity := by
    rw [length_points, arity]
    omega
  simp only [commands, meaning, (known.take?_eq_none_iff _).mpr few]

theorem Takes.commands_eq {code : Nat} {own : List Float32} {command : PathCommand}
    (takes : Takes code own command) (codes : List Nat) (coordinates : List Float32) :
    commands (code :: codes) (points (own ++ coordinates)) =
      command :: commands codes (points coordinates) := by
  cases takes <;> simp [points, commands, PathCode.ofNat?, PathCode.take?]

/-- What is read is what is computed. -/
theorem Reads.eq_commands {codes : List Nat} {coordinates : List Float32}
    {read : List PathCommand} (reads : Reads codes coordinates read) :
    read = commands codes (points coordinates) := by
  induction reads with
  | done coordinates => rfl
  | skip unknown _ inductionHypothesis =>
      rw [inductionHypothesis, commands, ofNat?_of_unknown unknown]
  | take takes _ inductionHypothesis => rw [takes.commands_eq, inductionHypothesis]
  | stop lacking => rw [commands_of_lacking lacking]

/-- Every pair of lists can be read. -/
theorem exists_reads (codes : List Nat) (coordinates : List Float32) :
    ∃ read, Reads codes coordinates read := by
  induction codes generalizing coordinates with
  | nil => exact ⟨[], .done coordinates⟩
  | cons code codes inductionHypothesis =>
      rcases Nat.lt_or_ge 4 code with unknown | known
      · obtain ⟨read, reads⟩ := inductionHypothesis coordinates
        exact ⟨read, .skip unknown reads⟩
      · rcases Nat.lt_or_ge coordinates.length (2 * pairs code) with lacking | enough
        · exact ⟨[], .stop lacking⟩
        · obtain ⟨command, takes⟩ := exists_takes known (List.length_take_of_le enough)
          obtain ⟨read, reads⟩ := inductionHypothesis (coordinates.drop (2 * pairs code))
          have both := Reads.take takes reads
          rw [List.take_append_drop] at both
          exact ⟨_, both⟩

/-! ## Parts -/

/-- Codes that take all coordinates leave none for the codes after them, and lack none. -/
theorem Reads.append {codes : List Nat} {coordinates : List Float32} {read : List PathCommand}
    (reads : Reads codes coordinates read) (exact : coordinates.length = 2 * needed codes)
    {laterCodes : List Nat} {laterCoordinates : List Float32} {laterRead : List PathCommand}
    (later : Reads laterCodes laterCoordinates laterRead) :
    Reads (codes ++ laterCodes) (coordinates ++ laterCoordinates) (read ++ laterRead) := by
  induction reads with
  | done coordinates =>
      obtain rfl := List.eq_nil_of_length_eq_zero exact
      exact later
  | skip unknown _ inductionHypothesis =>
      rw [needed, pairs_of_unknown unknown, Nat.zero_add] at exact
      exact .skip unknown (inductionHypothesis exact)
  | take takes _ inductionHypothesis =>
      rw [needed, List.length_append, takes.length_eq] at exact
      rw [List.append_assoc]
      exact .take takes (inductionHypothesis (by omega))
  | stop lacking =>
      rw [needed] at exact
      omega

/-- A coordinate without a partner is never read. -/
theorem Reads.append_single {codes : List Nat} {coordinates : List Float32}
    {read : List PathCommand} (reads : Reads codes coordinates read)
    (paired : coordinates.length % 2 = 0) (single : Float32) :
    Reads codes (coordinates ++ [single]) read := by
  induction reads with
  | done coordinates => exact .done _
  | skip unknown _ inductionHypothesis => exact .skip unknown (inductionHypothesis paired)
  | take takes _ inductionHypothesis =>
      rw [List.length_append, takes.length_eq] at paired
      rw [List.append_assoc]
      exact .take takes (inductionHypothesis (by omega))
  | stop lacking =>
      apply Reads.stop
      rw [List.length_append, List.length_singleton]
      omega

end Raster.PathData
