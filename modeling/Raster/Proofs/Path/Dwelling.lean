import Mathlib.Data.List.Induction
import Raster.Path.Dasher
import Raster.Path.Stroker
import Raster.Proofs.Path.Clearing
import Raster.Proofs.Path.Marking

/-!
# Lines that lead nowhere

A line to where the pen already is draws no dash.  A dasher lets it pass without a trace as long as
no corner mark waits: the line takes the mark, and if a dash goes on from there the corner is missing
from it.  Where no dash goes on the mark is not needed, and a stroker keeps its own mark for the
next segment that has a length.
-/

namespace Raster

/-! ## Where a path is -/

namespace Place

/-- Where a command leads the pen of a path, which has no place before its first subpath and none
after its end. -/
def proceed : Option Place → LineCommand → Option Place
  | _, .finish => none
  | place, command => follow place command

/-- Where some commands have led the pen of the path that they end in. -/
def standing (commands : List LineCommand) : Option Place :=
  commands.foldl proceed none

end Place

/-- Some commands from a place onward, and the same commands with lines that lead from where the
pen is to the same point.  None of these lines directly follows a corner mark. -/
inductive Dwells : Option Place → Bool → List LineCommand → List LineCommand → Prop
  | nil {place : Option Place} {marked : Bool} : Dwells place marked [] []
  | keep {place : Option Place} {marked : Bool} {rest slower : List LineCommand}
      (command : LineCommand)
      (later : Dwells (Place.proceed place command) (command = .lineJoin) rest slower) :
      Dwells place marked (command :: rest) (command :: slower)
  | dwell {place : Place} {commands slower : List LineCommand}
      (later : Dwells (some place) false commands slower) :
      Dwells (some place) false commands (.lineTo place.current :: slower)

namespace Dasher

/-- The displacement between two points, in units of `1 / 65536` pixel. -/
def displacement (source target : Point) : Vec :=
  ⟨Float.ofInt (target.x - source.x), Float.ofInt (target.y - source.y)⟩

/-- The length of a displacement in user space. -/
def measure (dasher : Dasher) (delta : Vec) : Float :=
  (dasher.toUser.apply delta).norm / 65536.0

/-- The segment to a point. -/
def segmentTo (dasher : Dasher) (point : Point) : Segment :=
  { source := dasher.current
    target := point
    delta := displacement dasher.current point
    length := dasher.measure (displacement dasher.current point)
    corner := dasher.corner }

/-- The dasher without a mark that waits. -/
def unmarked (dasher : Dasher) : Dasher :=
  { dasher with corner := false }

/-- Whether a line to a point continues a dash. -/
def continuesTo (dasher : Dasher) (point : Point) : Bool :=
  dasher.drawing && dasher.isOn
    && !decide (dasher.measure (displacement dasher.current point) ≤ 0.0)

/-- Whether a mark waits that the first of some commands puts into a dash. -/
def marksNext (dasher : Dasher) : List LineCommand → Bool
  | .lineTo point :: _ => dasher.corner && dasher.continuesTo point
  | .close :: _ => dasher.corner && dasher.continuesTo dasher.start
  | _ => false

/-! ## Segments without length -/

theorem displacement_self (point : Point) : displacement point point = ⟨0.0, 0.0⟩ := by
  have zero : Float.ofInt 0 = 0.0 := by decide +kernel
  rw [displacement, Int.sub_self, Int.sub_self, zero]

/-- A segment without length draws nothing and takes the mark. -/
theorem lineTo_of_short {dasher : Dasher} {point : Point}
    (short : dasher.measure (displacement dasher.current point) ≤ 0.0) :
    dasher.lineTo point = (dasher.unmarked, []) :=
  if_pos short

/-- Any other segment is cut from its source on. -/
theorem lineTo_of_long {dasher : Dasher} {point : Point}
    (long : ¬ dasher.measure (displacement dasher.current point) ≤ 0.0) :
    dasher.lineTo point =
      ({ (cut (dasher.segmentTo point) cutLimit dasher.unmarked 0.0 #[]).1 with current := point },
        (cut (dasher.segmentTo point) cutLimit dasher.unmarked 0.0 #[]).2.toList) := by
  simp only [measure, displacement] at long
  simp only [lineTo, segmentTo, measure, displacement, unmarked, if_neg long]

/-- A segment without length leaves the state as it is exactly if no mark waits. -/
theorem lineTo_eq_self_iff_of_short {dasher : Dasher} {point : Point}
    (short : dasher.measure (displacement dasher.current point) ≤ 0.0) :
    dasher.lineTo point = (dasher, []) ↔ dasher.corner = false := by
  obtain ⟨pattern, startIndex, startRemaining, toUser, start, current, index, remaining, drawing,
    corner⟩ := dasher
  rw [lineTo_of_short short, unmarked]
  simp [eq_comm]

/-- The intervals of a segment leave the start of the subpath and the mark alone. -/
theorem start_corner_cut (segment : Segment) (limit : Nat) (dasher : Dasher) (distance : Float)
    (pieces : Array LineCommand) :
    (cut segment limit dasher distance pieces).1.start = dasher.start ∧
      (cut segment limit dasher distance pieces).1.corner = dasher.corner := by
  induction limit generalizing dasher distance pieces with
  | zero => exact ⟨rfl, rfl⟩
  | succ limit inductionHypothesis =>
      simp only [cut]
      split
      · exact ⟨rfl, rfl⟩
      · split
        · exact ⟨rfl, rfl⟩
        · exact inductionHypothesis dasher.nextInterval _ _

/-! ## The place of a dasher -/

/-- A displacement by zero measures as length zero. -/
def Still (dasher : Dasher) : Prop :=
  dasher.measure ⟨0.0, 0.0⟩ ≤ 0.0

instance (dasher : Dasher) : Decidable dasher.Still :=
  inferInstanceAs (Decidable (_ ≤ _))

/-- The dasher is in the subpath of a place, no further from it than a segment without length, and
knows whether the place is marked. -/
structure At (dasher : Dasher) (place : Place) (marked : Bool) : Prop where
  start : dasher.start = place.start
  short : dasher.measure (displacement dasher.current place.current) ≤ 0.0
  corner : dasher.corner = marked

theorem Still.step {dasher : Dasher} (still : dasher.Still) (command : LineCommand) :
    (dasher.step command).1.Still := by
  have cleared := congrArg Dasher.toUser (dasher.cleared_step command)
  have kept : (dasher.step command).1.toUser = dasher.toUser := cleared
  rw [Still, measure, kept]
  exact still

theorem Still.short {dasher : Dasher} (still : dasher.Still) (point : Point) :
    dasher.measure (displacement point point) ≤ 0.0 := by
  rw [displacement_self]
  exact still

theorem Still.at_restart {dasher : Dasher} (still : dasher.Still) (point : Point) :
    (dasher.restart point).At ⟨point, point⟩ false :=
  ⟨rfl, still.short point, rfl⟩

/-- A segment leads to its end, or has no length. -/
theorem At.lineTo {dasher : Dasher} {place : Place} {marked : Bool}
    (standing : dasher.At place marked) (still : dasher.Still) (point : Point) :
    (dasher.lineTo point).1.At { place with current := point } false := by
  by_cases short : dasher.measure (displacement dasher.current point) ≤ 0.0
  · rw [lineTo_of_short short]
    exact ⟨standing.start, short, rfl⟩
  · have next := (still.step (.lineTo point)).short point
    have drawn := start_corner_cut (dasher.segmentTo point) cutLimit dasher.unmarked 0.0 #[]
    rw [step, lineTo_of_long short] at next
    rw [lineTo_of_long short]
    exact ⟨drawn.1.trans standing.start, next, drawn.2⟩

/-- A dasher follows a path from place to place. -/
theorem at_step {dasher : Dasher} (still : dasher.Still) {place : Option Place} {marked : Bool}
    (standing : ∀ here, place = some here → dasher.At here marked) (command : LineCommand) :
    ∀ here, Place.proceed place command = some here →
      (dasher.step command).1.At here (command = .lineJoin) := by
  intro there proceeded
  cases command with
  | moveTo point =>
      obtain rfl := Option.some.inj proceeded
      exact still.at_restart point
  | lineJoin =>
      cases place with
      | none => cases proceeded
      | some here =>
          obtain rfl := Option.some.inj proceeded
          obtain ⟨start, short, _⟩ := standing here rfl
          exact ⟨start, short, rfl⟩
  | lineTo point =>
      cases place with
      | none => cases proceeded
      | some here =>
          obtain rfl := Option.some.inj proceeded
          exact (standing here rfl).lineTo still point
  | close =>
      cases place with
      | none => cases proceeded
      | some here =>
          obtain rfl := Option.some.inj proceeded
          obtain ⟨start, _, _⟩ := standing here rfl
          rw [← start]
          exact (still.step (.lineTo dasher.start)).at_restart dasher.start
  | finish => cases proceeded

/-- Where some commands have led the pen, there is the dasher that received them. -/
theorem at_run {dasher : Dasher} (still : dasher.Still) (commands : List LineCommand) :
    (Stage.run step dasher commands).1.Still ∧
      ∀ here, Place.standing commands = some here →
        (Stage.run step dasher commands).1.At here (commands.getLast? = some .lineJoin) := by
  induction commands using List.reverseRecOn with
  | nil => exact ⟨still, nofun⟩
  | append_singleton before command inductionHypothesis =>
      obtain ⟨stillBefore, standing⟩ := inductionHypothesis
      rw [Stage.run_append, Place.standing, List.foldl_append, List.getLast?_concat]
      have stepped := at_step stillBefore standing command
      simp only [Option.some.injEq]
      exact ⟨stillBefore.step command, stepped⟩

/-- Lines that lead nowhere and meet no mark do not change what is drawn. -/
theorem output_of_dwells {dasher : Dasher} (still : dasher.Still) {place : Option Place}
    {marked : Bool} (standing : ∀ here, place = some here → dasher.At here marked)
    {commands slower : List LineCommand} (dwells : Dwells place marked commands slower) :
    Stage.output step dasher slower = Stage.output step dasher commands := by
  induction dwells generalizing dasher with
  | nil => rfl
  | keep command later inductionHypothesis =>
      have same := inductionHypothesis (still.step command) (at_step still standing command)
      rw [Stage.output, Stage.output] at same
      rw [Stage.output, Stage.output, Stage.run_cons, Stage.run_cons, same]
  | @dwell here commands slower later inductionHypothesis =>
      obtain ⟨_, short, corner⟩ := standing here rfl
      have stays := (lineTo_eq_self_iff_of_short short).mpr corner
      have same := inductionHypothesis still standing
      rw [Stage.output] at same
      rw [Stage.output, Stage.run_cons, step, stays]
      exact same

/-! ## The mark of a corner -/

/-- What has been emitted is a prefix of what a cut emits. -/
theorem cut_eq_append (segment : Segment) (limit : Nat) (dasher : Dasher) (distance : Float)
    (pieces : Array LineCommand) :
    cut segment limit dasher distance pieces =
      ((cut segment limit dasher distance #[]).1,
        pieces ++ (cut segment limit dasher distance #[]).2) := by
  induction limit generalizing dasher distance pieces with
  | zero => simp [cut]
  | succ limit inductionHypothesis =>
      have emitted : ∀ more : List LineCommand,
          pieces ++ more = pieces ++ ((#[] : Array LineCommand) ++ more) := by
        intro more
        apply Array.ext'
        simp
      simp only [cut]
      split
      · exact congrArg (_, ·) (emitted _)
      · split
        · exact congrArg (_, ·) (emitted _)
        · rw [inductionHypothesis, inductionHypothesis _ _ (#[] ++ _), emitted,
            Array.append_assoc]

/-- A dash that starts has its own mark. -/
theorem piece_of_not_drawing {dasher : Dasher} (fresh : dasher.drawing = false) (segment : Segment)
    (mark : Bool) (source target : Float) :
    dasher.piece { segment with corner := mark } source target =
      dasher.piece segment source target := by
  simp only [piece, fresh]
  rfl

theorem cut_of_not_drawing (segment : Segment) (mark : Bool) (limit : Nat) {dasher : Dasher}
    (fresh : dasher.drawing = false) (distance : Float) (pieces : Array LineCommand) :
    cut { segment with corner := mark } limit dasher distance pieces =
      cut segment limit dasher distance pieces := by
  induction limit generalizing dasher distance pieces with
  | zero => rfl
  | succ limit inductionHypothesis =>
      have later : dasher.nextInterval.drawing = false := rfl
      simp only [cut, piece_of_not_drawing fresh, inductionHypothesis later]

/-- The mark of a segment goes in front of the dash that it continues. -/
theorem piece_zero (dasher : Dasher) (segment : Segment) (mark : Bool) (target : Float) :
    dasher.piece { segment with corner := mark } 0.0 target =
      (if mark && (dasher.drawing && dasher.isOn) then [.lineJoin] else []) ++
        dasher.piece { segment with corner := false } 0.0 target := by
  have zero : ((0.0 : Float) == 0) = true := by decide +kernel
  cases on : dasher.isOn with
  | false => simp [piece, on]
  | true =>
      cases drawing : dasher.drawing with
      | false => simp [piece, on, drawing, zero, Segment.pointAtDistance, Segment.pointAt]
      | true =>
          cases mark <;> simp [piece, on, drawing, zero, Segment.pointAtDistance, Segment.pointAt]

/-- The mark of a segment goes in front of everything that is cut from the segment. -/
theorem cut_zero (segment : Segment) (mark : Bool) (limit : Nat) (dasher : Dasher) :
    cut { segment with corner := mark } (limit + 1) dasher 0.0 #[] =
      ((cut { segment with corner := false } (limit + 1) dasher 0.0 #[]).1,
        (if mark && (dasher.drawing && dasher.isOn) then #[.lineJoin] else #[]) ++
          (cut { segment with corner := false } (limit + 1) dasher 0.0 #[]).2) := by
  have first : ∀ target : Float,
      (#[] : Array LineCommand) ++ dasher.piece { segment with corner := mark } 0.0 target =
        (if mark && (dasher.drawing && dasher.isOn) then #[.lineJoin] else #[]) ++
          ((#[] : Array LineCommand) ++
            dasher.piece { segment with corner := false } 0.0 target) := by
    intro target
    rw [piece_zero]
    apply Array.ext'
    split <;> simp
  simp only [cut, first]
  split
  · rfl
  · split
    · rfl
    · -- Behind the first interval every dash starts anew.
      have later : dasher.nextInterval.drawing = false := rfl
      have anyMark : ∀ other : Bool, ∀ distance pieces,
          cut { segment with corner := other } limit dasher.nextInterval distance pieces =
            cut segment limit dasher.nextInterval distance pieces :=
        fun other => cut_of_not_drawing segment other limit later
      rw [anyMark mark, anyMark false, cut_eq_append, cut_eq_append segment _ _ _ (#[] ++ _),
        Array.append_assoc]

/-- A segment puts the mark in front of what it draws if it continues a dash, and takes it away
otherwise. -/
theorem lineTo_eq_unmarked (dasher : Dasher) (point : Point) :
    dasher.lineTo point =
      ((dasher.unmarked.lineTo point).1,
        (if dasher.corner && dasher.continuesTo point then [.lineJoin] else []) ++
          (dasher.unmarked.lineTo point).2) := by
  by_cases short : dasher.measure (displacement dasher.current point) ≤ 0.0
  · have shortUnmarked :
        dasher.unmarked.measure (displacement dasher.unmarked.current point) ≤ 0.0 := short
    have resting : dasher.continuesTo point = false := by simp [continuesTo, short]
    rw [lineTo_of_short short, lineTo_of_short shortUnmarked, resting, Bool.and_false]
    rfl
  · have longUnmarked :
        ¬ dasher.unmarked.measure (displacement dasher.unmarked.current point) ≤ 0.0 := short
    have continues : dasher.continuesTo point = (dasher.drawing && dasher.isOn) := by
      simp [continuesTo, short]
    have cutMarked : ∀ limit : Nat,
        cut (dasher.segmentTo point) (limit + 1) dasher.unmarked 0.0 #[] =
          ((cut (dasher.unmarked.segmentTo point) (limit + 1) dasher.unmarked 0.0 #[]).1,
            (if dasher.corner && (dasher.drawing && dasher.isOn) then #[.lineJoin] else #[]) ++
              (cut (dasher.unmarked.segmentTo point) (limit + 1) dasher.unmarked 0.0 #[]).2) :=
      fun limit => cut_zero (dasher.segmentTo point) dasher.corner limit dasher.unmarked
    obtain ⟨limit, positive⟩ : ∃ limit, cutLimit = limit + 1 := ⟨4611686018427387903, rfl⟩
    have again : dasher.unmarked.unmarked = dasher.unmarked := rfl
    rw [lineTo_of_long short, lineTo_of_long longUnmarked, continues, positive, cutMarked, again]
    split <;> simp

theorem corner_of_marksNext {dasher : Dasher} {commands : List LineCommand}
    (next : dasher.marksNext commands = true) : dasher.corner = true := by
  cases commands with
  | nil => cases next
  | cons command rest =>
      cases command with
      | moveTo point => cases next
      | lineJoin => cases next
      | lineTo point => exact (Bool.and_eq_true_iff.mp next).1
      | close => exact (Bool.and_eq_true_iff.mp next).1
      | finish => cases next

/-- A waiting mark goes in front of what some commands draw, or has no effect on it. -/
theorem output_eq_unmarked (dasher : Dasher) (commands : List LineCommand) :
    Stage.output step dasher commands =
      (if dasher.marksNext commands then [.lineJoin] else []) ++
        Stage.output step dasher.unmarked commands := by
  cases commands with
  | nil => rfl
  | cons command rest =>
      rw [Stage.output, Stage.output, Stage.run_cons, Stage.run_cons]
      cases command with
      | moveTo point => rfl
      | lineJoin => rfl
      | lineTo point =>
          simp only [step, marksNext]
          rw [lineTo_eq_unmarked]
          simp only [List.append_assoc]
          rfl
      | close =>
          have start : dasher.unmarked.start = dasher.start := rfl
          simp only [step, marksNext, start]
          rw [lineTo_eq_unmarked]
          simp only [List.append_assoc]
          rfl
      | finish => rfl

/-- A line to where the pen is takes the mark that waits there, and does nothing else. -/
theorem output_append_dwell {dasher : Dasher} (still : dasher.Still) {before : List LineCommand}
    {here : Place} (standing : Place.standing before = some here) (after : List LineCommand) :
    Stage.output step dasher (before ++ .lineTo here.current :: after) =
      Stage.output step dasher before ++
        Stage.output step (Stage.run step dasher before).1.unmarked after := by
  have stays := lineTo_of_short (((at_run still before).2 here standing).short)
  simp only [Stage.output, Stage.run_append, Stage.run_cons, step, stays, List.nil_append]

/-- Without the line the mark may go into the dash that continues. -/
theorem output_append (dasher : Dasher) (before after : List LineCommand) :
    Stage.output step dasher (before ++ after) =
      Stage.output step dasher before ++
        ((if (Stage.run step dasher before).1.marksNext after then [.lineJoin] else []) ++
          Stage.output step (Stage.run step dasher before).1.unmarked after) := by
  rw [Stage.output, Stage.run_append, ← output_eq_unmarked]
  rfl

end Dasher

/-- A stroker keeps its mark for the next segment that has a length. -/
theorem Stroker.step_of_short {stroker : Stroker} {subpath : Stroker.Subpath} {point : Point}
    (within : stroker.subpath = some subpath)
    (short : ∀ pen, stroker.pen = some pen →
      pen.heading? (.ofPoint point - subpath.current) = none) :
    stroker.step (.lineTo point) =
      ({ stroker with subpath := some { subpath with drawn := true } }, []) := by
  obtain ⟨cap, join, miterLimit, pen, _, corner, vertices⟩ := stroker
  obtain rfl := within
  cases pen with
  | none => rfl
  | some pen =>
      have none := short pen rfl
      simp only [step, trace, segmentTo, none]
      rfl

namespace Dasher

/-- A line to the current point draws nothing and changes nothing but a mark that waits.  Lines that
lead nowhere, inserted anywhere within the subpaths of a path but directly behind a mark, do not
change the dashes.  Directly behind a mark such a line changes them exactly if the next command
continues a dash, from which the line removes the mark, while a stroker keeps its mark. -/
theorem dwelling_takes_mark_only (dasher : Dasher) (still : dasher.Still) :
    dasher.step (.lineTo dasher.current) = (dasher.unmarked, []) ∧
      (dasher.step (.lineTo dasher.current) = (dasher, []) ↔ dasher.corner = false) ∧
      (∀ commands slower, Dwells none false commands slower →
        Stage.output step dasher slower = Stage.output step dasher commands) ∧
      (∀ before after here, Place.standing before = some here →
        (Stage.output step dasher (before ++ .lineTo here.current :: after) =
            Stage.output step dasher (before ++ after) ↔
          (Stage.run step dasher before).1.marksNext after = false) ∧
        ((Stage.run step dasher before).1.marksNext after = true →
          before.getLast? = some .lineJoin ∧
          ∃ later,
            Stage.output step dasher (before ++ after) =
              Stage.output step dasher before ++ .lineJoin :: later ∧
            Stage.output step dasher (before ++ .lineTo here.current :: after) =
              Stage.output step dasher before ++ later)) ∧
      ∀ (stroker : Stroker) (subpath : Stroker.Subpath) (point : Point),
        stroker.subpath = some subpath →
        (∀ pen, stroker.pen = some pen →
          pen.heading? (.ofPoint point - subpath.current) = none) →
        stroker.step (.lineTo point) =
          ({ stroker with subpath := some { subpath with drawn := true } }, []) := by
  have short := still.short dasher.current
  refine ⟨lineTo_of_short short, lineTo_eq_self_iff_of_short short, ?_, ?_, ?_⟩
  · intro commands slower dwells
    have nowhere : ∀ here, (none : Option Place) = some here → dasher.At here false := nofun
    exact output_of_dwells still nowhere dwells
  · intro before after here standing
    have waits := ((at_run still before).2 here standing).corner
    have slower := output_append_dwell still standing after
    have plain := dasher.output_append before after
    cases next : (Stage.run step dasher before).1.marksNext after with
    | false =>
        rw [next] at plain
        exact ⟨iff_of_true (slower.trans plain.symm) rfl, nofun⟩
    | true =>
        rw [next] at plain
        refine ⟨iff_of_false ?_ nofun, fun _ => ⟨?_, _, plain, slower⟩⟩
        · rw [slower, plain]
          intro same
          have lengths := congrArg List.length same
          simp at lengths
        · rw [corner_of_marksNext next] at waits
          exact of_decide_eq_true waits.symm
  · intro stroker subpath point within short
    exact Stroker.step_of_short within short

/-- A line of three pixels that rests at both of its ends. -/
theorem dwelling_takes_mark_only_line :
    ∃ dasher, new? [262144, 131072] 0 .identity = some dasher ∧ dasher.Still ∧
      dasher.step (.lineTo dasher.current) = (dasher, []) ∧
      Stage.output step dasher
          [.moveTo .origin, .lineTo .origin, .lineTo ⟨196608, 0⟩, .lineTo ⟨196608, 0⟩, .finish] =
        Stage.output step dasher [.moveTo .origin, .lineTo ⟨196608, 0⟩, .finish] := by
  have evaluated : (new? [262144, 131072] 0 .identity).map
      (fun dasher => (decide dasher.Still, dasher.corner)) = some (true, false) := by
    decide +kernel
  obtain ⟨dasher, created, results⟩ := Option.map_eq_some_iff.mp evaluated
  have ⟨still, unmarked⟩ := Prod.mk.inj results
  have ⟨_, unchanged, same, _⟩ :=
    dwelling_takes_mark_only dasher (of_decide_eq_true still)
  refine ⟨dasher, created, of_decide_eq_true still, unchanged.mpr unmarked, same _ _ ?_⟩
  exact .keep _ (.dwell (.keep _ (.dwell (.keep _ .nil))))

/-- A right angle in dashes of four pixels: with the path's pen at the corner a dash has one pixel
left, and with a line that leads nowhere behind the mark of the corner it turns there unmarked. -/
theorem mark_lost_of_dwelling :
    ∃ dasher, new? [262144, 131072] 0 .identity = some dasher ∧ dasher.Still ∧
      Place.standing [.moveTo .origin, .lineJoin, .lineTo ⟨196608, 0⟩, .lineJoin] =
        some ⟨.origin, ⟨196608, 0⟩⟩ ∧
      Stage.output step dasher
          [.moveTo .origin, .lineJoin, .lineTo ⟨196608, 0⟩, .lineJoin,
            .lineTo ⟨196608, 393216⟩, .finish] =
        [.moveTo .origin, .lineJoin, .lineTo ⟨196608, 0⟩, .lineJoin, .lineTo ⟨196608, 65536⟩,
          .moveTo ⟨196608, 196608⟩, .lineJoin, .lineTo ⟨196608, 393216⟩, .finish] ∧
      Stage.output step dasher
          [.moveTo .origin, .lineJoin, .lineTo ⟨196608, 0⟩, .lineJoin,
            .lineTo ⟨196608, 0⟩, .lineTo ⟨196608, 393216⟩, .finish] =
        [.moveTo .origin, .lineJoin, .lineTo ⟨196608, 0⟩, .lineTo ⟨196608, 65536⟩,
          .moveTo ⟨196608, 196608⟩, .lineJoin, .lineTo ⟨196608, 393216⟩, .finish] := by
  have evaluated : (new? [262144, 131072] 0 .identity).map (fun dasher =>
      (decide dasher.Still,
        Stage.output step dasher
          [.moveTo .origin, .lineJoin, .lineTo ⟨196608, 0⟩, .lineJoin,
            .lineTo ⟨196608, 393216⟩, .finish],
        Stage.output step dasher
          [.moveTo .origin, .lineJoin, .lineTo ⟨196608, 0⟩, .lineJoin,
            .lineTo ⟨196608, 0⟩, .lineTo ⟨196608, 393216⟩, .finish])) =
      some (true,
        [.moveTo .origin, .lineJoin, .lineTo ⟨196608, 0⟩, .lineJoin, .lineTo ⟨196608, 65536⟩,
          .moveTo ⟨196608, 196608⟩, .lineJoin, .lineTo ⟨196608, 393216⟩, .finish],
        [.moveTo .origin, .lineJoin, .lineTo ⟨196608, 0⟩, .lineTo ⟨196608, 65536⟩,
          .moveTo ⟨196608, 196608⟩, .lineJoin, .lineTo ⟨196608, 393216⟩, .finish]) := by
    decide +kernel
  obtain ⟨dasher, created, results⟩ := Option.map_eq_some_iff.mp evaluated
  have ⟨still, outputs⟩ := Prod.mk.inj results
  have ⟨plain, slower⟩ := Prod.mk.inj outputs
  exact ⟨dasher, created, of_decide_eq_true still, rfl, plain, slower⟩

end Dasher

end Raster
