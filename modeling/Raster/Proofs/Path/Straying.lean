import Raster.Proofs.Path.Restarting

/-!
# Commands without a current point

A command ahead of the first subpath of a path goes on from a point that the path does not have.
-/

namespace Raster

/-- Whether a command goes on from the current point, which a path has only after its first
subpath was started. -/
def LineCommand.continues : LineCommand → Bool
  | lineJoin => true
  | lineTo _ => true
  | close => true
  | _ => false

namespace Flattener

/-- A command that goes on from the current point becomes lines that do. -/
theorem continues_of_mem_step (flattener : Flattener) {command : PathCommand}
    (stray : command.mayStart = false) {line : LineCommand}
    (member : line ∈ (flattener.step command).2) : line.continues = true := by
  have polyline : ∀ vertices : List Point, line ∈ .lineJoin :: vertices.map LineCommand.lineTo →
      line.continues = true := by
    intro vertices member
    rcases List.mem_cons.mp member with rfl | drawn
    · rfl
    · obtain ⟨vertex, _, rfl⟩ := List.mem_map.mp drawn
      rfl
  cases command with
  | line command =>
      cases command with
      | moveTo point => cases stray
      | finish => cases stray
      | lineJoin => exact polyline [] member
      | lineTo point => exact polyline [point] member
      | close =>
          rcases List.mem_cons.mp member with rfl | closes
          · rfl
          · rw [List.mem_singleton.mp closes]
            rfl
  | quadTo control point => exact polyline _ member
  | cubicTo control₁ control₂ point => exact polyline _ member

end Flattener

namespace FillChain

theorem continues_of_mem_step (chain : FillChain) {command : PathCommand}
    (stray : command.mayStart = false) {line : LineCommand}
    (member : line ∈ (chain.step command).2) : line.continues = true := by
  rw [← PathCommand.mayStart_transform chain.transform] at stray
  exact chain.flattener.continues_of_mem_step stray member

theorem continues_of_mem_output (chain : FillChain) {strays : List PathCommand}
    (stray : ∀ command ∈ strays, command.mayStart = false) {line : LineCommand}
    (member : line ∈ Stage.output step chain strays) : line.continues = true := by
  induction strays generalizing chain with
  | nil => cases member
  | cons command rest inductionHypothesis =>
      rcases List.mem_append.mp member with here | later
      · exact chain.continues_of_mem_step (stray command List.mem_cons_self) here
      · exact inductionHypothesis (chain.step command).1
          (fun other member => stray other (List.mem_cons_of_mem _ member)) later

/-- Whatever a chain has received, it answers the next paths as if it had received nothing. -/
theorem output_append (chain : FillChain) (before : List PathCommand) {rest : List PathCommand}
    (starts : PathCommand.startsPaths false rest = true) :
    Stage.output step chain (before ++ rest) =
      Stage.output step chain before ++ Stage.output step chain rest := by
  rw [Stage.output, Stage.run_append]
  exact congrArg _ (output_congr (chain.cleared_run before) starts)

end FillChain

/-! ## Stroked paths -/

/-- Without a current point a stroker draws nothing. -/
theorem Stroker.step_of_continues {stroker : Stroker} (outside : stroker.subpath = none)
    {command : LineCommand} (continues : command.continues = true) :
    (stroker.step command).2 = [] ∧ (stroker.step command).1.subpath = none := by
  cases command with
  | moveTo point => cases continues
  | lineJoin => exact ⟨rfl, outside⟩
  | lineTo point =>
      simp only [step, trace, outside]
      exact ⟨rfl, outside⟩
  | close =>
      simp only [step, trace, outside]
      exact ⟨rfl, outside⟩
  | finish => cases continues

/-- Where there is no subpath, none has ends to be drawn when the next one starts. -/
theorem Stroker.step_cleared {stroker : Stroker} (outside : stroker.subpath = none)
    (empty : stroker.vertices = []) {command : LineCommand}
    (starts : command.continues = false) : stroker.cleared.step command = stroker.step command := by
  obtain ⟨cap, join, miterLimit, pen, _, corner, _⟩ := stroker
  obtain rfl := outside
  obtain rfl := empty
  cases command with
  | moveTo point => cases pen <;> rfl
  | finish => cases pen <;> rfl
  | lineJoin => cases starts
  | lineTo point => cases starts
  | close => cases starts

theorem Stroker.run_of_continues {stroker : Stroker} (outside : stroker.subpath = none)
    {commands : List LineCommand} (continues : ∀ command ∈ commands, command.continues = true) :
    (Stage.run step stroker commands).2 = [] ∧
      (Stage.run step stroker commands).1.subpath = none := by
  induction commands generalizing stroker with
  | nil => exact ⟨rfl, outside⟩
  | cons command rest inductionHypothesis =>
      obtain ⟨silent, outsideNext⟩ :=
        step_of_continues outside (continues command List.mem_cons_self)
      obtain ⟨silentRest, outsideLast⟩ := inductionHypothesis outsideNext fun other member =>
        continues other (List.mem_cons_of_mem _ member)
      rw [Stage.run_cons, silent, silentRest]
      exact ⟨rfl, outsideLast⟩

/-- Between paths a dasher is at the origin of device space, and goes on from there. -/
theorem Dasher.output_of_cleared {dasher : Dasher} (settled : dasher.cleared = dasher)
    (commands : List LineCommand) :
    Stage.output step dasher commands = Stage.output step dasher (.moveTo .origin :: commands) := by
  have moved : dasher.step (.moveTo .origin) = (dasher, []) := by
    rw [step]
    exact congrArg (·, []) settled
  rw [Stage.output, Stage.output, Stage.run_cons, moved]
  rfl

/-- The dashes of flattened paths do not depend on what was received before. -/
theorem Dasher.output_flattened_congr {first second : Flattener} (alike : first.Alike false second)
    {firstDasher secondDasher : Dasher} (same : firstDasher.cleared = secondDasher.cleared)
    {commands : List PathCommand} (starts : PathCommand.startsPaths false commands = true) :
    Stage.output step firstDasher (Stage.output Flattener.step first commands) =
      Stage.output step secondDasher (Stage.output Flattener.step second commands) := by
  induction commands generalizing firstDasher secondDasher with
  | nil => rfl
  | cons command rest inductionHypothesis =>
      cases command with
      | line command =>
          cases command with
          | moveTo point =>
              have startsHere : (false || (PathCommand.moveTo point).mayStart) = true := rfl
              have flattener := (alike.step startsHere).2.path rfl
              have restarted : firstDasher.restart point = secondDasher.restart point :=
                congrArg (·.restart point) same
              have moved : ∀ dasher : Dasher, ∀ flattener : Flattener,
                  Stage.output step dasher
                      (Stage.output Flattener.step flattener (.moveTo point :: rest)) =
                    Stage.output step (dasher.restart point) (Stage.output Flattener.step
                      (flattener.step (.moveTo point)).1 rest) := fun _ _ => rfl
              rw [moved, moved, restarted, flattener]
          | finish =>
              -- Both dashers are at the origin again, while the flatteners keep their points.
              have finished : ∀ dasher : Dasher, ∀ flattener : Flattener,
                  Stage.output step dasher
                      (Stage.output Flattener.step flattener (.finish :: rest)) =
                    .finish :: Stage.output step dasher.cleared
                      (Stage.output Flattener.step flattener rest) := fun _ _ => rfl
              rw [finished, finished, same]
              exact congrArg (.finish :: ·) (inductionHypothesis rfl starts)
          | lineJoin => cases starts
          | lineTo point => cases starts
          | close => cases starts
      | quadTo control point => cases starts
      | cubicTo control₁ control₂ point => cases starts

namespace StrokeChain

/-! ## Strokes without dashes -/

/-- The first chain has received commands without a current point, and the second has not. -/
structure Strayed (first second : StrokeChain) : Prop where
  cleared : first.cleared = second.cleared
  outside : first.stroker.subpath = none
  empty : first.stroker.vertices = []
  solid : first.dasher = none

/-- Without dashes a command without a current point draws nothing. -/
theorem Strayed.step {first second : StrokeChain} (strayed : first.Strayed second)
    {command : PathCommand} (stray : command.mayStart = false) :
    (first.step command).2 = [] ∧ (first.step command).1.Strayed second := by
  obtain ⟨cleared, outside, empty, solid⟩ := strayed
  have emptyNext := vertices_step empty command
  rw [← first.cleared_step command] at cleared
  rw [← PathCommand.mayStart_transform first.transform] at stray
  obtain ⟨transform, flattener, dasher, stroker⟩ := first
  obtain rfl : dasher = none := solid
  obtain ⟨silent, outsideNext⟩ := Stroker.run_of_continues outside
    fun line => flattener.continues_of_mem_step stray
  exact ⟨silent, cleared, outsideNext, emptyNext, rfl⟩

theorem Strayed.run {first second : StrokeChain} (strayed : first.Strayed second)
    {strays : List PathCommand} (stray : ∀ command ∈ strays, command.mayStart = false) :
    (Stage.run StrokeChain.step first strays).2 = [] ∧
      (Stage.run StrokeChain.step first strays).1.Strayed second := by
  induction strays generalizing first with
  | nil => exact ⟨rfl, strayed⟩
  | cons command rest inductionHypothesis =>
      obtain ⟨silent, next⟩ := strayed.step (stray command List.mem_cons_self)
      obtain ⟨silentRest, last⟩ := inductionHypothesis next
        fun other member => stray other (List.mem_cons_of_mem _ member)
      rw [Stage.run_cons, silent, silentRest]
      exact ⟨rfl, last⟩

/-- The start of a subpath, or the end of the path, leaves nothing of the commands before. -/
theorem Strayed.start {first second : StrokeChain} (strayed : first.Strayed second)
    (settled : second.Settled) {command : PathCommand} (starts : command.mayStart = true) :
    (first.step command).2 = (second.step command).2 ∧
      (first.step command).1.Alike (command.begunAfter false) (second.step command).1 := by
  obtain ⟨cleared, outside, empty, solid⟩ := strayed
  obtain ⟨transform, ⟨flatness, start, current⟩, dasher, stroker⟩ := first
  obtain ⟨_, ⟨_, secondStart, secondCurrent⟩, secondDasher, secondStroker⟩ := second
  obtain ⟨rfl, sameFlattener, sameDasher, sameStroker⟩ := StrokeChain.mk.inj cleared
  obtain ⟨rfl, _⟩ := Flattener.mk.inj sameFlattener
  obtain rfl : dasher = none := solid
  obtain rfl : secondDasher = none := settled.dasher.symm.trans sameDasher.symm
  obtain rfl : secondStroker = stroker.cleared := settled.stroker.symm.trans sameStroker.symm
  have answers : ∀ {line : LineCommand}, line.continues = false →
      stroker.cleared.step line = stroker.step line := Stroker.step_cleared outside empty
  cases command with
  | line command =>
      cases command with
      | moveTo point =>
          have starting : (LineCommand.moveTo (transform.apply point)).continues = false := rfl
          have same := answers starting
          refine ⟨?_, rfl, ⟨rfl, fun _ => rfl⟩, rfl, (congrArg Prod.fst same).symm⟩
          exact congrArg (·.2 ++ []) same.symm
      | finish =>
          have same := answers (rfl : LineCommand.finish.continues = false)
          refine ⟨?_, rfl, ⟨rfl, nofun⟩, rfl, (congrArg Prod.fst same).symm⟩
          exact congrArg (·.2 ++ []) same.symm
      | lineJoin => cases starts
      | lineTo point => cases starts
      | close => cases starts
  | quadTo control point => cases starts
  | cubicTo control₁ control₂ point => cases starts

/-- Without dashes commands without a current point draw nothing, and what follows them is drawn as
without them. -/
theorem Settled.output_append_of_solid {chain : StrokeChain} (settled : chain.Settled)
    (solid : chain.dasher = none) {strays rest : List PathCommand}
    (stray : ∀ command ∈ strays, command.mayStart = false)
    (starts : PathCommand.startsPaths false rest = true) :
    Stage.output StrokeChain.step chain (strays ++ rest) =
      Stage.output StrokeChain.step chain rest := by
  have itself : chain.Strayed chain := by
    refine ⟨rfl, ?_, settled.vertices, solid⟩
    rw [← settled.stroker]
    rfl
  obtain ⟨silent, strayed⟩ := itself.run stray
  rw [Stage.output, Stage.run_append, silent, List.nil_append]
  cases rest with
  | nil => rfl
  | cons command later =>
      obtain ⟨startsHere, startsLater⟩ := Bool.and_eq_true_iff.mp starts
      obtain ⟨lines, alike⟩ := strayed.start settled startsHere
      have answers := Stage.output_congr (fun alike starts => alike.step starts) alike startsLater
      rw [Stage.output, Stage.run_cons, Stage.run_cons, lines]
      exact congrArg ((chain.step command).2 ++ ·) answers

/-! ## Dashes -/

/-- The lines that a chain makes of some commands before it dashes them. -/
def flattened (chain : StrokeChain) (commands : List PathCommand) : List LineCommand :=
  Stage.output Flattener.step chain.flattener (commands.map (·.transform chain.transform))

/-- The dashes that a chain draws for some commands. -/
def dashes (chain : StrokeChain) (commands : List PathCommand) : List LineCommand :=
  match chain.dasher with
  | none => []
  | some dasher => Stage.output Dasher.step dasher (chain.flattened commands)

theorem dashes_cons (chain : StrokeChain) (command : PathCommand) (rest : List PathCommand) :
    chain.dashes (command :: rest) =
      chain.dashes [command] ++ (chain.step command).1.dashes rest := by
  obtain ⟨transform, flattener, dasher, stroker⟩ := chain
  cases dasher with
  | none => rfl
  | some dasher =>
      simp only [dashes, flattened, step, List.map_cons, List.map_nil, Stage.output,
        Stage.run_cons, Stage.run_nil, Stage.run_append, List.append_nil]

theorem step_of_dashed {chain : StrokeChain} (dashed : chain.dasher.isSome = true)
    (command : PathCommand) :
    (chain.step command).1.dasher.isSome = true ∧
      ((chain.step command).1.stroker, (chain.step command).2) =
        Stage.run Stroker.step chain.stroker (chain.dashes [command]) := by
  obtain ⟨transform, flattener, dasher, stroker⟩ := chain
  obtain ⟨dasher, rfl⟩ := Option.isSome_iff_exists.mp dashed
  refine ⟨rfl, ?_⟩
  simp only [step, dashes, flattened, List.map_cons, List.map_nil, Stage.output, Stage.run_cons,
    Stage.run_nil, List.append_nil]

/-- Dashes are stroked like any lines. -/
theorem output_eq_of_dashed {chain : StrokeChain} (dashed : chain.dasher.isSome = true)
    (commands : List PathCommand) :
    Stage.output StrokeChain.step chain commands =
      Stage.output Stroker.step chain.stroker (chain.dashes commands) := by
  induction commands generalizing chain with
  | nil =>
      obtain ⟨transform, flattener, dasher, stroker⟩ := chain
      cases dasher <;> rfl
  | cons command rest inductionHypothesis =>
      obtain ⟨dashedNext, stepped⟩ := step_of_dashed dashed command
      have later := inductionHypothesis dashedNext
      rw [dashes_cons, Stage.output, Stage.output, Stage.run_cons, Stage.run_append, ← stepped]
      exact congrArg ((chain.step command).2 ++ ·) later

/-- The dashes of paths do not depend on what was received before. -/
theorem dashes_congr {first second : StrokeChain} (same : first.cleared = second.cleared)
    {commands : List PathCommand} (starts : PathCommand.startsPaths false commands = true) :
    first.dashes commands = second.dashes commands := by
  obtain ⟨transform, flattener, dasher, _⟩ := StrokeChain.mk.inj same
  rw [← PathCommand.startsPaths_map_transform first.transform] at starts
  unfold dashes flattened
  cases firstDasher : first.dasher with
  | none =>
      rw [firstDasher] at dasher
      rw [Option.map_eq_none_iff.mp dasher.symm]
  | some dashed =>
      rw [firstDasher] at dasher
      obtain ⟨other, secondDasher, cleared⟩ := Option.map_eq_some_iff.mp dasher.symm
      simp only [secondDasher, ← transform]
      exact Dasher.output_flattened_congr (Flattener.alike_of_cleared flattener) cleared.symm starts

theorem dashes_append (chain : StrokeChain) (before : List PathCommand) {rest : List PathCommand}
    (starts : PathCommand.startsPaths false rest = true) :
    chain.dashes (before ++ rest) = chain.dashes before ++ chain.dashes rest := by
  rw [← dashes_congr (chain.cleared_run before) starts]
  clear starts
  induction before generalizing chain with
  | nil =>
      have silent : chain.dashes [] = [] := by
        unfold dashes
        split <;> rfl
      rw [silent]
      rfl
  | cons command later inductionHypothesis =>
      rw [List.cons_append, dashes_cons, inductionHypothesis, chain.dashes_cons command later,
        List.append_assoc]
      rfl

end StrokeChain

end Raster
