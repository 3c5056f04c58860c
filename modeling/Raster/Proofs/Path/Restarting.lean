import Raster.Path.Outline
import Raster.Proofs.Path.Clearing

/-!
# Chains between paths

The end of a path leaves nothing in a chain but two points of its flattener, and those are
replaced by the start of the next subpath.  So two chains that were built alike and have ended
their last paths answer the same commands by the same lines, as long as every path among the
commands starts with a subpath.
-/

namespace Raster

/-! ## Paths that start with a subpath -/

namespace PathCommand

/-- Whether a command may come before the first subpath of a path. -/
def mayStart : PathCommand → Bool
  | moveTo _ => true
  | finish => true
  | _ => false

/-- Whether a subpath was started once a command has been received. -/
def begunAfter (begun : Bool) : PathCommand → Bool
  | moveTo _ => true
  | finish => false
  | _ => begun

/-- Whether every path among some commands starts with a subpath.  A path is under way that
has a subpath if `begun`. -/
def startsPaths : Bool → List PathCommand → Bool
  | _, [] => true
  | begun, command :: rest =>
      (begun || command.mayStart) && startsPaths (command.begunAfter begun) rest

@[simp]
theorem mayStart_transform (transform : Affine) (command : PathCommand) :
    (command.transform transform).mayStart = command.mayStart := by
  cases command with
  | line command => cases command <;> rfl
  | quadTo control point => rfl
  | cubicTo control₁ control₂ point => rfl

@[simp]
theorem begunAfter_transform (begun : Bool) (transform : Affine) (command : PathCommand) :
    (command.transform transform).begunAfter begun = command.begunAfter begun := by
  cases command with
  | line command => cases command <;> rfl
  | quadTo control point => rfl
  | cubicTo control₁ control₂ point => rfl

theorem begunAfter_of_ne_finish {command : PathCommand} (unfinished : command ≠ .finish)
    (begun : Bool) : command.begunAfter begun = (begun || command.mayStart) := by
  cases command with
  | line command =>
      cases command with
      | moveTo point => exact (Bool.or_true begun).symm
      | finish => exact absurd rfl unfinished
      | lineJoin | lineTo | close => exact (Bool.or_false begun).symm
  | quadTo control point => exact (Bool.or_false begun).symm
  | cubicTo control₁ control₂ point => exact (Bool.or_false begun).symm

theorem startsPaths_map_transform (transform : Affine) (begun : Bool)
    (commands : List PathCommand) :
    startsPaths begun (commands.map (·.transform transform)) = startsPaths begun commands := by
  induction commands generalizing begun with
  | nil => rfl
  | cons command rest inductionHypothesis =>
      rw [List.map_cons, startsPaths, mayStart_transform, begunAfter_transform,
        inductionHypothesis]
      rfl

/-- Once a subpath was started, it does not matter what follows up to the end of the path. -/
theorem startsPaths_append_of_not_mem {first : List PathCommand} (unfinished : .finish ∉ first)
    (second : List PathCommand) : startsPaths true (first ++ second) = startsPaths true second := by
  induction first with
  | nil => rfl
  | cons command rest inductionHypothesis =>
      have ⟨notFirst, notRest⟩ := not_or.mp (mt List.mem_cons.mpr unfinished)
      rw [List.cons_append, startsPaths, begunAfter_of_ne_finish (Ne.symm notFirst), Bool.true_or,
        inductionHypothesis notRest]
      rfl

/-- The end of a path may follow everything. -/
theorem startsPaths_finish {begun : Bool} {commands : List PathCommand}
    (starts : startsPaths begun commands = true) :
    startsPaths begun (commands ++ [.finish]) = true := by
  induction commands generalizing begun with
  | nil => simp [startsPaths, mayStart]
  | cons command rest inductionHypothesis =>
      rw [startsPaths, Bool.and_eq_true] at starts
      rw [List.cons_append, startsPaths, starts.1, inductionHypothesis starts.2]
      rfl

theorem startsPaths_outline (outline : Outline) (begun : Bool) (rest : List PathCommand) :
    startsPaths begun (outline.commands ++ rest) =
      startsPaths true rest := by
  have unfinished : .finish ∉ outline.parts.map Outline.Part.toCommand ++
      (if outline.closed then [.close] else [] : List PathCommand) := by
    intro member
    rcases List.mem_append.mp member with drawn | closes
    · obtain ⟨part, _, command⟩ := List.mem_map.mp drawn
      cases part <;> cases command
    · split at closes
      · cases List.mem_singleton.mp closes
      · cases closes
  rw [Outline.commands, List.cons_append, List.cons_append, startsPaths,
    mayStart, Bool.or_true, Bool.true_and]
  exact startsPaths_append_of_not_mem unfinished rest

/-- Outlines are subpaths. -/
theorem startsPaths_outlines (outlines : List Outline) (begun : Bool) :
    startsPaths begun (outlines.flatMap Outline.commands) = true := by
  induction outlines generalizing begun with
  | nil => rfl
  | cons outline rest inductionHypothesis =>
      rw [List.flatMap_cons, startsPaths_outline]
      exact inductionHypothesis true

end PathCommand

/-- Two stages answer alike if they do so command by command, as long as what relates them may
depend on whether a subpath was started. -/
theorem Stage.output_congr {σ : Type} {step : σ → PathCommand → σ × List LineCommand}
    {related : Bool → σ → σ → Prop}
    (kept : ∀ {begun : Bool} {first second : σ} {command : PathCommand},
      related begun first second → (begun || command.mayStart) = true →
        (step first command).2 = (step second command).2 ∧
          related (command.begunAfter begun) (step first command).1 (step second command).1)
    {begun : Bool} {first second : σ} (alike : related begun first second)
    {commands : List PathCommand} (starts : PathCommand.startsPaths begun commands = true) :
    Stage.output step first commands = Stage.output step second commands := by
  induction commands generalizing begun first second with
  | nil => rfl
  | cons command rest inductionHypothesis =>
      rw [PathCommand.startsPaths, Bool.and_eq_true] at starts
      obtain ⟨answers, next⟩ := kept alike starts.1
      have later := inductionHypothesis next starts.2
      simp only [Stage.output, Stage.run_cons] at later ⊢
      rw [answers, later]

/-! ## Flatteners -/

namespace Flattener

/-- The flatteners differ in what they know of the path at most before its first subpath. -/
structure Alike (begun : Bool) (first second : Flattener) : Prop where
  flatness : first.flatness = second.flatness
  path : begun = true → first = second

theorem Alike.step {begun : Bool} {first second : Flattener} (alike : first.Alike begun second)
    {command : PathCommand} (starts : (begun || command.mayStart) = true) :
    (first.step command).2 = (second.step command).2 ∧
      (first.step command).1.Alike (command.begunAfter begun) (second.step command).1 := by
  cases begun with
  | true =>
      obtain rfl := alike.path rfl
      exact ⟨rfl, rfl, fun _ => rfl⟩
  | false =>
      cases command with
      | line command =>
          cases command with
          | moveTo point =>
              have same : first.step (.moveTo point) = second.step (.moveTo point) := by
                simp only [Flattener.step, alike.flatness]
              rw [same]
              exact ⟨rfl, rfl, fun _ => rfl⟩
          | finish => exact ⟨rfl, alike.flatness, nofun⟩
          | lineJoin => cases starts
          | lineTo point => cases starts
          | close => cases starts
      | quadTo control point => cases starts
      | cubicTo control₁ control₂ point => cases starts

theorem alike_of_cleared {first second : Flattener} (same : first.cleared = second.cleared) :
    first.Alike false second := by
  have flatness : first.cleared.flatness = second.cleared.flatness := by rw [same]
  exact ⟨flatness, nofun⟩

end Flattener

/-! ## Chains -/

namespace FillChain

/-- The chains differ in what their flatteners know of the path at most. -/
structure Alike (begun : Bool) (first second : FillChain) : Prop where
  transform : first.transform = second.transform
  flattener : first.flattener.Alike begun second.flattener

theorem Alike.step {begun : Bool} {first second : FillChain} (alike : first.Alike begun second)
    {command : PathCommand} (starts : (begun || command.mayStart) = true) :
    (first.step command).2 = (second.step command).2 ∧
      (first.step command).1.Alike (command.begunAfter begun) (second.step command).1 := by
  rw [← PathCommand.mayStart_transform first.transform] at starts
  obtain ⟨lines, next⟩ := alike.flattener.step starts
  rw [PathCommand.begunAfter_transform] at next
  simp only [FillChain.step, ← alike.transform]
  exact ⟨lines, rfl, next⟩

theorem Alike.cleared {begun : Bool} {first second : FillChain} (alike : first.Alike begun second) :
    first.cleared = second.cleared := by
  rw [FillChain.cleared, FillChain.cleared, Flattener.cleared, Flattener.cleared, alike.transform,
    alike.flattener.flatness]

theorem alike_of_cleared {first second : FillChain} (same : first.cleared = second.cleared) :
    first.Alike false second := by
  have transform : first.cleared.transform = second.cleared.transform := by rw [same]
  have flattener : first.cleared.flattener = second.cleared.flattener := by rw [same]
  exact ⟨transform, Flattener.alike_of_cleared flattener⟩

/-- Chains that were built alike answer paths alike. -/
theorem output_congr {first second : FillChain} (same : first.cleared = second.cleared)
    {commands : List PathCommand} (starts : PathCommand.startsPaths false commands = true) :
    Stage.output step first commands = Stage.output step second commands :=
  Stage.output_congr (fun alike starts => alike.step starts) (alike_of_cleared same) starts

end FillChain

namespace StrokeChain

/-- Nothing of a path is left but in the flattener. -/
structure Settled (chain : StrokeChain) : Prop where
  dasher : chain.dasher.map Dasher.cleared = chain.dasher
  stroker : chain.stroker.cleared = chain.stroker

theorem settled_build (config : Config) (transform : Affine) (style : StrokeStyle) :
    (build config transform style).Settled :=
  ⟨Dasher.map_cleared_new? _ _ _, rfl⟩

theorem Settled.vertices {chain : StrokeChain} (settled : chain.Settled) :
    chain.stroker.vertices = [] := by
  rw [← settled.stroker]
  rfl

/-- The end of a path is the end of what dasher and stroker know of it. -/
theorem settled_step_finish {chain : StrokeChain} (empty : chain.stroker.vertices = []) :
    (chain.step .finish).1.Settled := by
  obtain ⟨transform, flattener, dasher, stroker⟩ := chain
  cases dasher with
  | none => exact ⟨rfl, Stroker.cleared_step_finish empty⟩
  | some dasher => exact ⟨rfl, Stroker.cleared_step_finish empty⟩

theorem settled_run_finish {chain : StrokeChain} (empty : chain.stroker.vertices = [])
    (commands : List PathCommand) :
    (Stage.run step chain (commands ++ [.finish])).1.Settled := by
  rw [Stage.run_append]
  exact settled_step_finish (vertices_run empty commands)

/-- The chains differ in what their flatteners know of the path at most. -/
structure Alike (begun : Bool) (first second : StrokeChain) : Prop where
  transform : first.transform = second.transform
  flattener : first.flattener.Alike begun second.flattener
  dasher : first.dasher = second.dasher
  stroker : first.stroker = second.stroker

theorem Alike.step {begun : Bool} {first second : StrokeChain} (alike : first.Alike begun second)
    {command : PathCommand} (starts : (begun || command.mayStart) = true) :
    (first.step command).2 = (second.step command).2 ∧
      (first.step command).1.Alike (command.begunAfter begun) (second.step command).1 := by
  rw [← PathCommand.mayStart_transform first.transform] at starts
  obtain ⟨lines, next⟩ := alike.flattener.step starts
  rw [PathCommand.begunAfter_transform] at next
  simp only [StrokeChain.step, ← alike.transform, ← alike.dasher, ← alike.stroker, ← lines]
  cases first.dasher with
  | none => exact ⟨rfl, rfl, next, rfl, rfl⟩
  | some dasher => exact ⟨rfl, rfl, next, rfl, rfl⟩

/-- Chains that were built alike and have ended their paths answer paths alike. -/
theorem Settled.output_congr {first second : StrokeChain} (firstSettled : first.Settled)
    (secondSettled : second.Settled) (same : first.cleared = second.cleared)
    {commands : List PathCommand} (starts : PathCommand.startsPaths false commands = true) :
    Stage.output step first commands = Stage.output step second commands := by
  have transform : first.cleared.transform = second.cleared.transform := by rw [same]
  have flattener : first.cleared.flattener = second.cleared.flattener := by rw [same]
  have dasher : first.dasher = second.dasher := by
    rw [← firstSettled.dasher, ← secondSettled.dasher]
    exact congrArg StrokeChain.dasher same
  have stroker : first.stroker = second.stroker := by
    rw [← firstSettled.stroker, ← secondSettled.stroker]
    exact congrArg StrokeChain.stroker same
  have alike : first.Alike false second :=
    ⟨transform, Flattener.alike_of_cleared flattener, dasher, stroker⟩
  exact Stage.output_congr (fun alike starts => alike.step starts) alike starts

end StrokeChain

end Raster
