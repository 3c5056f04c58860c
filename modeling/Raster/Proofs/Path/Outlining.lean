import Raster.Path.Dasher
import Raster.Path.Stroker
import Raster.Proofs.Affine.Saturating
import Raster.Proofs.Double
import Raster.Stage

/-!
# What dashes and strokes are made of

A dasher answers with open polylines, a stroker with closed polygons, and both pass on
every end of a path.  This holds in every state and whatever the doubles come out as: no
comparison of numbers decides anything but which pieces are drawn.
-/

namespace Raster

/-! ## Pieces -/

/-- An open polyline that starts at a corner, whose other vertices may be corners too. -/
inductive IsDash : List LineCommand → Prop
  | start (source target : Point) : IsDash [.moveTo source, .lineJoin, .lineTo target]
  | line {dash : List LineCommand} (begun : IsDash dash) (point : Point) :
      IsDash (dash ++ [.lineTo point])
  | corner {dash : List LineCommand} (begun : IsDash dash) (point : Point) :
      IsDash (dash ++ [.lineJoin, .lineTo point])

/-- A closed polygon with at least three vertices. -/
inductive IsPolygon : List LineCommand → Prop
  | through (first second third : Point) (rest : List Point) :
      IsPolygon (.moveTo first :: .lineTo second :: .lineTo third ::
        rest.map .lineTo ++ [.close])

/-- The commands are whole pieces, one after the other. -/
def MadeOf (piece : List LineCommand → Prop) (commands : List LineCommand) : Prop :=
  ∃ pieces : List (List LineCommand),
    (∀ commands ∈ pieces, piece commands) ∧ commands = pieces.flatten

/-- The answers to some commands end as many paths as the commands do, and what they draw
between the ends, before the first and after the last is made of whole pieces. -/
structure DrawnBy (piece : List LineCommand → Prop) (commands answers : List LineCommand) :
    Prop where
  ends : answers.count .finish = commands.count .finish
  made : ∀ path ∈ answers.splitOn .finish, MadeOf piece path

theorem IsDash.finish_not_mem {dash : List LineCommand} (isDash : IsDash dash) :
    .finish ∉ dash := by
  induction isDash with
  | start source target => simp
  | line begun point inductionHypothesis => simp [inductionHypothesis]
  | corner begun point inductionHypothesis => simp [inductionHypothesis]

theorem IsPolygon.finish_not_mem {polygon : List LineCommand} (isPolygon : IsPolygon polygon) :
    .finish ∉ polygon := by
  cases isPolygon
  simp

namespace MadeOf

variable {piece : List LineCommand → Prop}

theorem nil : MadeOf piece [] :=
  ⟨[], nofun, rfl⟩

theorem single {commands : List LineCommand} (whole : piece commands) : MadeOf piece commands :=
  ⟨[commands], by simpa using whole, by simp⟩

theorem append {first second : List LineCommand} (firstMade : MadeOf piece first)
    (secondMade : MadeOf piece second) : MadeOf piece (first ++ second) := by
  obtain ⟨firstPieces, firstWhole, rfl⟩ := firstMade
  obtain ⟨secondPieces, secondWhole, rfl⟩ := secondMade
  refine ⟨firstPieces ++ secondPieces, ?_, List.flatten_append.symm⟩
  intro commands member
  exact (List.mem_append.mp member).elim (firstWhole commands) (secondWhole commands)

theorem finish_not_mem (unfinished : ∀ {commands}, piece commands → .finish ∉ commands)
    {commands : List LineCommand} (made : MadeOf piece commands) : .finish ∉ commands := by
  obtain ⟨pieces, whole, rfl⟩ := made
  rw [List.mem_flatten]
  rintro ⟨commands, member, finishes⟩
  exact unfinished (whole commands member) finishes

end MadeOf

/-! ## Stages that draw pieces -/

/-- `drawing state path` says of a state that `path` has been answered since the last end.  The
stage answers with whole pieces, or goes on with the piece that it has begun, and answers the end
of a path with the end of a path. -/
structure Stage.Draws {σ : Type} (step : σ → LineCommand → σ × List LineCommand)
    (piece : List LineCommand → Prop) (drawing : σ → List LineCommand → Prop) : Prop where
  unfinished : ∀ {commands}, piece commands → .finish ∉ commands
  made : ∀ {state path}, drawing state path → MadeOf piece path
  continues : ∀ {state path command}, drawing state path → command ≠ .finish →
    drawing (step state command).1 (path ++ (step state command).2)
  finishes : ∀ {state path}, drawing state path → ∃ last,
    (step state .finish).2 = last ++ [.finish] ∧ MadeOf piece (path ++ last) ∧
      drawing (step state .finish).1 []

namespace Stage.Draws

variable {σ : Type} {step : σ → LineCommand → σ × List LineCommand}
  {piece : List LineCommand → Prop} {drawing : σ → List LineCommand → Prop}

/-- The answers that follow a path in progress complete it, and the paths after it are drawn by
pieces too. -/
theorem drawnBy_append (draws : Stage.Draws step piece drawing) {state : σ}
    {path : List LineCommand} (begun : drawing state path) (commands : List LineCommand) :
    DrawnBy piece commands (path ++ Stage.output step state commands) := by
  induction commands generalizing state path with
  | nil =>
      have made := draws.made begun
      have absent := made.finish_not_mem draws.unfinished
      rw [Stage.output, Stage.run_nil, List.append_nil]
      constructor
      · rw [List.count_eq_zero_of_not_mem absent, List.count_nil]
      · intro whole member
        rw [List.splitOn_eq_singleton absent, List.mem_singleton] at member
        exact member ▸ made
  | cons command rest inductionHypothesis =>
      rw [Stage.output, Stage.run_cons]
      by_cases finishes : command = .finish
      · subst finishes
        obtain ⟨last, answer, made, next⟩ := draws.finishes begun
        obtain ⟨ends, later⟩ := inductionHypothesis next
        have absent := made.finish_not_mem draws.unfinished
        rw [List.nil_append, Stage.output] at ends later
        have parts : ∀ others : List LineCommand,
            path ++ (last ++ [.finish] ++ others) = (path ++ last) ++ .finish :: others := by
          simp
        rw [answer, parts]
        constructor
        · rw [List.count_append, List.count_eq_zero_of_not_mem absent, Nat.zero_add,
            List.count_cons_self, List.count_cons_self, ends]
        · intro whole member
          rw [List.splitOn_append_cons_self_of_not_mem absent] at member
          rcases List.mem_cons.mp member with rfl | member
          · exact made
          · exact later whole member
      · obtain ⟨ends, made⟩ := inductionHypothesis (draws.continues begun finishes)
        rw [Stage.output, List.append_assoc] at ends made
        refine ⟨?_, made⟩
        rw [ends, List.count_cons_of_ne finishes]

end Stage.Draws

/-! ## Dashes -/

namespace Dasher

/-- A path is made of dashes, and ends in one if its last dash may be continued. -/
structure Drawn (continues : Bool) (path : List LineCommand) : Prop where
  made : MadeOf IsDash path
  begun : continues = true →
    ∃ before dash, MadeOf IsDash before ∧ IsDash dash ∧ path = before ++ dash

theorem drawn_nil : Drawn false [] :=
  ⟨.nil, nofun⟩

theorem drawn_append {before dash : List LineCommand} (made : MadeOf IsDash before)
    (isDash : IsDash dash) (continues : Bool) : Drawn continues (before ++ dash) :=
  ⟨made.append (.single isDash), fun _ => ⟨before, dash, made, isDash, rfl⟩⟩

theorem Drawn.ended {continues : Bool} {path : List LineCommand} (drawn : Drawn continues path) :
    Drawn false path :=
  ⟨drawn.made, nofun⟩

/-- The part of an interval that lies on a segment starts a dash or continues the last one. -/
theorem Drawn.piece {dasher : Dasher} {path : List LineCommand}
    (drawn : Drawn dasher.drawing path) (segment : Segment) (source target : Float) :
    Drawn (dasher.drawing || dasher.isOn) (path ++ dasher.piece segment source target) := by
  unfold Dasher.piece
  cases dasher.isOn with
  | false => simpa using drawn
  | true =>
      cases drawing : dasher.drawing with
      | false => exact drawn_append drawn.made (.start _ _) _
      | true =>
          obtain ⟨before, dash, made, isDash, rfl⟩ := drawn.begun drawing
          simp only [if_true, List.append_assoc]
          split
          · exact drawn_append made (isDash.corner _) _
          · exact drawn_append made (isDash.line _) _

/-- Cutting a segment keeps what is drawn in order, however many intervals it holds. -/
theorem Drawn.cut {segment : Segment} {path : List LineCommand} (limit : Nat) {dasher : Dasher}
    {distance : Float} {pieces : Array LineCommand}
    (drawn : Drawn dasher.drawing (path ++ pieces.toList)) :
    Drawn (Dasher.cut segment limit dasher distance pieces).1.drawing
      (path ++ (Dasher.cut segment limit dasher distance pieces).2.toList) := by
  induction limit generalizing dasher distance pieces with
  | zero => exact drawn
  | succ limit inductionHypothesis =>
      have emitted : ∀ more : List LineCommand,
          path ++ (pieces ++ more).toList = path ++ pieces.toList ++ more := by
        simp
      have further := drawn.piece segment distance (distance + dasher.remaining)
      rw [← emitted] at further
      simp only [Dasher.cut]
      split
      · exact further
      · split
        · exact further.ended
        · exact inductionHypothesis further.ended

theorem Drawn.lineTo {dasher : Dasher} {path : List LineCommand}
    (drawn : Drawn dasher.drawing path) (point : Point) :
    Drawn (dasher.lineTo point).1.drawing (path ++ (dasher.lineTo point).2) := by
  simp only [Dasher.lineTo]
  split
  · simpa using drawn
  · refine Drawn.cut cutLimit ?_
    simpa using drawn

/-- A dasher draws dashes. -/
theorem draws : Stage.Draws step IsDash fun dasher path => Drawn dasher.drawing path where
  unfinished := IsDash.finish_not_mem
  made := Drawn.made
  continues := by
    intro dasher path command drawn unfinished
    cases command with
    | moveTo point => simpa [step, restart] using drawn.ended
    | lineJoin => simpa [step] using drawn
    | lineTo point => exact drawn.lineTo point
    | close => exact (drawn.lineTo dasher.start).ended
    | finish => exact absurd rfl unfinished
  finishes := by
    intro dasher path drawn
    exact ⟨[], rfl, by simpa using drawn.made, drawn_nil⟩

theorem drawing_of_new? {pattern : List Int} {phase : Int} {transform : Affine} {dasher : Dasher}
    (created : new? pattern phase transform = some dasher) : dasher.drawing = false := by
  unfold new? at created
  split at created
  · cases created
  · dsimp only at created
    split at created
    · cases created
    · split at created
      · cases created
      · cases created
        rfl

end Dasher

/-! ## Strokes -/

namespace Stroker

theorem isPolygon_outlineCommands (first second third : Vec) (rest : List Vec) :
    IsPolygon (outlineCommands (first :: second :: third :: rest)) := by
  have through := IsPolygon.through first.toPoint second.toPoint third.toPoint
    (rest.map Vec.toPoint)
  rw [List.map_map] at through
  exact through

theorem exists_three_of_length {vertices : List Vec} (many : 3 ≤ vertices.length) :
    ∃ first second third rest, vertices = first :: second :: third :: rest := by
  match vertices, many with
  | first :: second :: third :: rest, _ => exact ⟨first, second, third, rest, rfl⟩

theorem madeOf_polygon (vertices : List Vec) : MadeOf IsPolygon (polygon vertices) := by
  unfold polygon
  split
  · rename_i first second third rest
    dsimp only
    split
    · exact .nil
    · split
      · exact .single (isPolygon_outlineCommands first second third rest)
      · -- Backward the polygon has other first vertices, yet as many.
        have many : 3 ≤ (first :: second :: third :: rest).reverse.length := by simp
        obtain ⟨first', second', third', rest', backward⟩ := exists_three_of_length many
        rw [backward]
        exact .single (isPolygon_outlineCommands first' second' third' rest')
  · exact .nil

/-- Whatever the buffer holds, polygons are drawn. -/
theorem madeOf_run_emit (stroker : Stroker) (polygons : List (List Vec)) :
    MadeOf IsPolygon (Stage.run emit stroker polygons).2 := by
  induction polygons generalizing stroker with
  | nil => exact .nil
  | cons vertices rest inductionHypothesis =>
      rw [Stage.run_cons]
      exact .append (madeOf_polygon _) (inductionHypothesis _)

/-- Every command but the end of a path is answered with whole polygons. -/
theorem madeOf_step (stroker : Stroker) {command : LineCommand} (unfinished : command ≠ .finish) :
    MadeOf IsPolygon (stroker.step command).2 := by
  simp only [step, if_neg unfinished]
  exact madeOf_run_emit _ _

/-- A stroker draws polygons. -/
theorem draws : Stage.Draws step IsPolygon fun _ path => MadeOf IsPolygon path where
  unfinished := IsPolygon.finish_not_mem
  made := id
  continues := fun made unfinished => made.append (madeOf_step _ unfinished)
  finishes := fun made => ⟨_, rfl, made.append (madeOf_run_emit _ _), .nil⟩

/-! ## Strokers without a pen -/

/-- A stroker without a pen keeps none and answers nothing but the end of a path. -/
theorem step_of_penless {stroker : Stroker} (penless : stroker.pen = none)
    (command : LineCommand) :
    (stroker.step command).1.pen = none ∧
      (stroker.step command).2 = if command = .finish then [.finish] else [] := by
  obtain ⟨cap, join, miterLimit, pen, subpath, corner, vertices⟩ := stroker
  obtain rfl : pen = none := penless
  cases command with
  | moveTo point => exact ⟨rfl, rfl⟩
  | lineJoin => exact ⟨rfl, rfl⟩
  | lineTo point => cases subpath <;> exact ⟨rfl, rfl⟩
  | close => cases subpath <;> exact ⟨rfl, rfl⟩
  | finish => exact ⟨rfl, rfl⟩

theorem output_of_penless {stroker : Stroker} (penless : stroker.pen = none)
    (commands : List LineCommand) :
    Stage.output step stroker commands = commands.filter (· = .finish) := by
  induction commands generalizing stroker with
  | nil => rfl
  | cons command rest inductionHypothesis =>
      obtain ⟨penlessNext, answer⟩ := step_of_penless penless command
      have later := inductionHypothesis penlessNext
      rw [Stage.output] at later
      rw [Stage.output, Stage.run_cons, answer, later, List.filter_cons]
      by_cases finishes : command = .finish <;> simp [finishes]

/-- There is no pen under a transformation whose determinant vanishes. -/
theorem pen_of_vanishing {transform : Affine} (vanishing : transform.linear.inverse? = none)
    (style : StrokeStyle) : (new style transform).pen = none := by
  simp only [new, Pen.new?, vanishing]

end Stroker

/-! ## Singular transformations -/

/-- The two products of the determinant are rounded alike if they are equal, so that its double is
zero, and not merely small. -/
theorem Affine.inverse?_linear_of_singular {transform : Affine} (fits : transform.Fits32)
    (singular : transform.xx * transform.yy = transform.xy * transform.yx) :
    transform.linear.inverse? = none := by
  have fitsMantissa : ∀ {raw : Int}, Word.Fits32 raw → raw.natAbs < 2 ^ 53 := by
    intro raw fits
    unfold Word.Fits32 Word.min32 Word.max32 at fits
    omega
  have vanishes := Double.vanishes_sub_mul_fixed (fitsMantissa fits.first.1)
    (fitsMantissa fits.second.2) (fitsMantissa fits.second.1) (fitsMantissa fits.first.2) singular
  exact if_pos vanishes.beq_zero

/-- Whatever they receive, a dasher answers with dashes and a stroker with polygons, path by path.
A stroker answers with the ends of paths only if the double of the determinant vanishes, which it
does under every singular transformation. -/
theorem drawnBy_dashes_and_polygons (pattern : List Int) (phase : Int) (style : StrokeStyle)
    (transform : Affine) (commands : List LineCommand) :
    (∀ dasher, Dasher.new? pattern phase transform = some dasher →
        DrawnBy IsDash commands (Stage.output Dasher.step dasher commands)) ∧
      DrawnBy IsPolygon commands
        (Stage.output Stroker.step (Stroker.new style transform) commands) ∧
      (transform.linear.inverse? = none →
        Stage.output Stroker.step (Stroker.new style transform) commands =
          commands.filter (· = .finish)) ∧
      (transform.Fits32 → transform.xx * transform.yy = transform.xy * transform.yx →
        Stage.output Stroker.step (Stroker.new style transform) commands =
          commands.filter (· = .finish)) := by
  have penless : transform.linear.inverse? = none →
      Stage.output Stroker.step (Stroker.new style transform) commands =
        commands.filter (· = .finish) := fun vanishing =>
    Stroker.output_of_penless (Stroker.pen_of_vanishing vanishing style) commands
  refine ⟨fun dasher created => ?_, ?_, penless, fun fits singular => ?_⟩
  · have unbegun : Dasher.Drawn dasher.drawing [] := by
      rw [Dasher.drawing_of_new? created]
      exact Dasher.drawn_nil
    exact Dasher.draws.drawnBy_append unbegun commands
  · have unbegun : MadeOf IsPolygon [] := .nil
    exact Stroker.draws.drawnBy_append unbegun commands
  · exact penless (Affine.inverse?_linear_of_singular fits singular)

/-- A line of three pixels, dashed one by one, stroked to a polygon one pixel high, and stroked under
two transformations that take the plane to a line: one along an axis, one askew. -/
theorem drawnBy_dashes_and_polygons_line :
    (∃ dasher, Dasher.new? [65536, 65536] 0 .identity = some dasher ∧
      DrawnBy IsDash [.moveTo .origin, .lineTo ⟨196608, 0⟩, .finish]
        (Stage.output Dasher.step dasher [.moveTo .origin, .lineTo ⟨196608, 0⟩, .finish]) ∧
      Stage.output Dasher.step dasher [.moveTo .origin, .lineTo ⟨196608, 0⟩, .finish] =
        [.moveTo .origin, .lineJoin, .lineTo ⟨65536, 0⟩, .moveTo ⟨131072, 0⟩, .lineJoin,
          .lineTo ⟨196608, 0⟩, .finish]) ∧
      (DrawnBy IsPolygon [.moveTo .origin, .lineTo ⟨196608, 0⟩, .finish]
          (Stage.output Stroker.step (Stroker.new .default .identity)
            [.moveTo .origin, .lineTo ⟨196608, 0⟩, .finish]) ∧
        Stage.output Stroker.step (Stroker.new .default .identity)
            [.moveTo .origin, .lineTo ⟨196608, 0⟩, .finish] =
          [.moveTo ⟨0, -32768⟩, .lineTo ⟨196608, -32768⟩, .lineTo ⟨196608, 32768⟩,
            .lineTo ⟨0, 32768⟩, .close, .finish]) ∧
      ((Affine.scale 0 65536).linear.inverse? = none ∧
        Stage.output Stroker.step (Stroker.new .default (.scale 0 65536))
          [.moveTo .origin, .lineTo ⟨196608, 0⟩, .finish] = [.finish]) ∧
      ∃ askew : Affine, askew = ⟨65536, 196608, 131072, 393216, 0, 0⟩ ∧ askew.Fits32 ∧
        askew.xx * askew.yy = askew.xy * askew.yx ∧
        Stage.output Stroker.step (Stroker.new .default askew)
          [.moveTo .origin, .lineTo ⟨196608, 0⟩, .finish] = [.finish] := by
  have dashes : (Dasher.new? [65536, 65536] 0 .identity).map
      (Stage.output Dasher.step · [.moveTo .origin, .lineTo ⟨196608, 0⟩, .finish]) =
        some [.moveTo .origin, .lineJoin, .lineTo ⟨65536, 0⟩, .moveTo ⟨131072, 0⟩, .lineJoin,
          .lineTo ⟨196608, 0⟩, .finish] := by
    decide +kernel
  have vanishing : (Affine.scale 0 65536).linear.inverse? = none := by decide +kernel
  have fits : (⟨65536, 196608, 131072, 393216, 0, 0⟩ : Affine).Fits32 :=
    ⟨by decide, by decide, by decide⟩
  obtain ⟨dasher, created, output⟩ := Option.map_eq_some_iff.mp dashes
  have stroked : Stage.output Stroker.step (Stroker.new .default .identity)
      [.moveTo .origin, .lineTo ⟨196608, 0⟩, .finish] =
        [.moveTo ⟨0, -32768⟩, .lineTo ⟨196608, -32768⟩, .lineTo ⟨196608, 32768⟩,
          .lineTo ⟨0, 32768⟩, .close, .finish] := by
    decide +kernel
  refine ⟨⟨dasher, created, ?_, output⟩, ⟨?_, stroked⟩, ⟨vanishing, ?_⟩, _, rfl, fits,
    by decide, ?_⟩
  · exact (drawnBy_dashes_and_polygons [65536, 65536] 0 .default .identity _).1 dasher created
  · exact (drawnBy_dashes_and_polygons [] 0 .default .identity _).2.1
  · exact (drawnBy_dashes_and_polygons [] 0 .default (.scale 0 65536) _).2.2.1 vanishing
  · exact (drawnBy_dashes_and_polygons [] 0 .default _ _).2.2.2 fits (by decide)

end Raster
