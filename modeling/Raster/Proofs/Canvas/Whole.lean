import Raster.Proofs.Canvas.Reaching
import Raster.Proofs.Path.Storing

/-!
# Whole paths

Whatever a canvas draws with its chains is one whole path that is started, sent along a route
and left.  A path that is received command by command is no exception: the commands that were
sent one after the other could have been sent at once.
-/

namespace Raster

namespace PathStore

/-- The commands of a recorded path with its end. -/
def path (store : PathStore) : List PathCommand :=
  store.commands ++ if store.isTerminated then [] else [.finish]

/-- Commands that are recorded in an empty store read back unchanged. -/
theorem commands_recordAll (commands : List PathCommand) :
    (empty.recordAll commands).commands = commands := by
  obtain ⟨tags, words, tagsEq, wordsEq, reads, _⟩ := empty.exists_readAll_recordAll commands
  have allTags : (empty.recordAll commands).tags.toList = tags := tagsEq
  have allWords : (empty.recordAll commands).words.toList = words ++ [] := by
    rw [wordsEq, List.append_nil]
    rfl
  rw [PathStore.commands, allTags, allWords]
  exact congrArg Prod.snd (reads [])

/-- A store ends its path exactly if the command that was recorded last does. -/
theorem isTerminated_record (store : PathStore) (command : PathCommand) :
    (store.record command).isTerminated = decide (command = .finish) := by
  obtain ⟨tag, words, appends⟩ := store.exists_appends_record command
  have leads := congrArg Prod.snd (appends.leads [])
  rw [isTerminated, appends.tags, Array.back?_push, decide_eq_decide]
  constructor
  · intro ends
    obtain rfl := Option.some.inj ends
    exact leads.symm
  · intro ends
    subst ends
    cases tag with
    | finish => rfl
    | _ => cases leads

theorem path_recordAll (commands : List PathCommand) :
    (empty.recordAll commands).path =
      commands ++ if commands.getLast? = some .finish then [] else [.finish] := by
  rw [path, commands_recordAll]
  rcases List.eq_nil_or_concat commands with rfl | ⟨before, last, rfl⟩
  · rfl
  · rw [recordAll, List.concat_eq_append, List.foldl_append, List.getLast?_concat]
    change before ++ [last] ++ (if ((before.foldl record empty).record last).isTerminated = true
      then [] else [.finish]) = _
    simp only [isTerminated_record, decide_eq_true_eq, Option.some.injEq]

/-- A path ends once, whether or not its end was recorded with it. -/
theorem path_recordAll_of_not_mem {commands : List PathCommand} (unfinished : .finish ∉ commands)
    {ending : List PathCommand} (ends : ending = [] ∨ ending = [.finish]) :
    (empty.recordAll (commands ++ ending)).path = commands ++ [.finish] := by
  rw [path_recordAll]
  rcases ends with rfl | rfl
  · have unterminated : commands.getLast? ≠ some .finish :=
      fun last => unfinished (List.mem_of_getLast? last)
    rw [List.append_nil, if_neg unterminated]
  · rw [List.getLast?_concat, if_pos rfl, List.append_nil]

end PathStore

namespace Canvas

/-! ## Sending -/

/-- The canvas with a scanner that has received what the commands become on a route. -/
def used (canvas : Canvas) (route : Route) (commands : List PathCommand) (scanner : Scanner) :
    Canvas :=
  match route with
  | .fill =>
      { canvas with
        fillChain := some (Stage.run FillChain.step canvas.readyFill commands).1
        scanner := scanner }
  | .stroke =>
      { canvas with
        strokeChain := some (Stage.run StrokeChain.step canvas.readyStroke commands).1
        scanner := scanner }
  | .text =>
      { canvas with
        textChain := some (Stage.run FillChain.step canvas.readyText commands).1
        scanner := scanner }

/-- Only the chain of the route and the scanner are used. -/
theorem exists_used_eq (canvas : Canvas) (route : Route) (commands : List PathCommand)
    (scanner : Scanner) :
    ∃ fill stroke text, canvas.used route commands scanner =
      { canvas with
        fillChain := fill, strokeChain := stroke, textChain := text, scanner := scanner } := by
  cases route <;> exact ⟨_, _, _, rfl⟩

theorem send_eq (canvas : Canvas) (route : Route) (commands : List PathCommand) :
    canvas.send route commands =
      (canvas.scanner.send (canvas.lines route commands)).map (canvas.used route commands) := by
  cases route with
  | fill =>
      simp only [send, lines, Stage.output]
      cases canvas.scanner.send (Stage.run FillChain.step canvas.readyFill commands).2 <;> rfl
  | stroke =>
      simp only [send, lines, Stage.output]
      cases canvas.scanner.send (Stage.run StrokeChain.step canvas.readyStroke commands).2 <;> rfl
  | text =>
      simp only [send, lines, Stage.output]
      cases canvas.scanner.send (Stage.run FillChain.step canvas.readyText commands).2 <;> rfl

theorem lines_append (canvas : Canvas) (route : Route) (first second : List PathCommand)
    (scanner : Scanner) :
    canvas.lines route (first ++ second) =
      canvas.lines route first ++ (canvas.used route first scanner).lines route second := by
  cases route <;> exact congrArg Prod.snd (Stage.run_append _ _ first second)

theorem used_append (canvas : Canvas) (route : Route) (first second : List PathCommand)
    (between scanner : Scanner) :
    canvas.used route (first ++ second) scanner =
      (canvas.used route first between).used route second scanner := by
  cases route <;> simp only [used, Stage.run_append] <;> rfl

/-- Commands may be sent one part after the other. -/
theorem send_append (canvas : Canvas) (route : Route) (first second : List PathCommand) :
    canvas.send route (first ++ second) =
      (canvas.send route first).bind fun sent => sent.send route second := by
  rw [send_eq, send_eq, canvas.lines_append route first second canvas.scanner,
    Scanner.send_append]
  cases canvas.scanner.send (canvas.lines route first) with
  | error fault => rfl
  | ok received =>
      have own : (canvas.used route first received).scanner = received := by cases route <;> rfl
      have lines : (canvas.used route first canvas.scanner).lines route second =
          (canvas.used route first received).lines route second := by
        cases route <;> rfl
      change (received.send _).map _ = (canvas.used route first received).send route second
      rw [send_eq, own, lines]
      cases received.send ((canvas.used route first received).lines route second) with
      | error fault => rfl
      | ok next => exact congrArg Except.ok (canvas.used_append route first second received next)

/-- The canvas with its last subpath open or not. -/
def withOpen (canvas : Canvas) (subpathOpen : Bool) : Canvas :=
  { canvas with subpathOpen := subpathOpen }

theorem withOpen_eq_self {canvas : Canvas} {subpathOpen : Bool}
    (same : canvas.subpathOpen = subpathOpen) : canvas.withOpen subpathOpen = canvas := by
  subst same
  rfl

/-- What is sent does not depend on whether a subpath is open. -/
theorem send_withOpen (canvas : Canvas) (subpathOpen : Bool) (route : Route)
    (commands : List PathCommand) :
    (canvas.withOpen subpathOpen).send route commands =
      (canvas.send route commands).map (·.withOpen subpathOpen) := by
  have lines : (canvas.withOpen subpathOpen).lines route commands =
      canvas.lines route commands := by
    cases route <;> rfl
  rw [send_eq, send_eq, lines]
  change (canvas.scanner.send (canvas.lines route commands)).map _ = _
  cases canvas.scanner.send (canvas.lines route commands) with
  | error fault => rfl
  | ok received => cases route <;> rfl

/-! ## Received paths -/

/-- What closes the last subpath of a path. -/
def closing (mode : PathMode) (subpathOpen : Bool) : List PathCommand :=
  if mode = .fill ∧ subpathOpen then [.close] else []

/-- What a canvas sends for a command of a path that it receives.  A corner mark is left out. -/
def sentFor (mode : PathMode) (subpathOpen : Bool) : PathCommand → List PathCommand
  | .moveTo point => closing mode subpathOpen ++ [.moveTo point]
  | .lineJoin => []
  | command => [command]

/-- Whether the last subpath is open after a command. -/
def openAfter (subpathOpen : Bool) : PathCommand → Bool
  | .moveTo _ => true
  | .close => false
  | _ => subpathOpen

/-- All that a canvas sends while it receives the commands of a path and its end.  Nothing follows
the end. -/
def received (mode : PathMode) : Bool → List PathCommand → List PathCommand
  | subpathOpen, [] => closing mode subpathOpen ++ [.finish]
  | subpathOpen, command :: rest =>
      if command = .finish then
        closing mode subpathOpen ++ [.finish]
      else
        sentFor mode subpathOpen command ++ received mode (openAfter subpathOpen command) rest

/-- What a canvas sends for the commands of a path before its end. -/
def sentAhead (mode : PathMode) : Bool → List PathCommand → List PathCommand
  | subpathOpen, [] => closing mode subpathOpen
  | subpathOpen, command :: rest =>
      sentFor mode subpathOpen command ++ sentAhead mode (openAfter subpathOpen command) rest

theorem received_eq_sentAhead {commands : List PathCommand} (unfinished : .finish ∉ commands)
    (mode : PathMode) (subpathOpen : Bool) :
    received mode subpathOpen commands = sentAhead mode subpathOpen commands ++ [.finish] := by
  induction commands generalizing subpathOpen with
  | nil => rfl
  | cons command rest inductionHypothesis =>
      have ⟨notFirst, notRest⟩ := not_or.mp (mt List.mem_cons.mpr unfinished)
      rw [received, if_neg (Ne.symm notFirst), inductionHypothesis notRest, sentAhead,
        List.append_assoc]

/-- A canvas closes subpaths on its own, and nothing else is sent that was not received. -/
theorem eq_close_or_mem_of_mem_sentAhead {mode : PathMode} {subpathOpen : Bool}
    {commands : List PathCommand} {sent : PathCommand}
    (member : sent ∈ sentAhead mode subpathOpen commands) : sent = .close ∨ sent ∈ commands := by
  have closes : ∀ {subpathOpen}, sent ∈ closing mode subpathOpen → sent = .close := by
    intro subpathOpen member
    unfold closing at member
    split at member
    · exact List.mem_singleton.mp member
    · cases member
  induction commands generalizing subpathOpen with
  | nil => exact .inl (closes member)
  | cons command rest inductionHypothesis =>
      rcases List.mem_append.mp member with here | later
      · have itself : sent = .close ∨ sent = command := by
          unfold sentFor at here
          split at here
          · rcases List.mem_append.mp here with closed | moved
            · exact .inl (closes closed)
            · exact .inr (List.mem_singleton.mp moved)
          · cases here
          · exact .inr (List.mem_singleton.mp here)
        rcases itself with closed | rfl
        · exact .inl closed
        · exact .inr List.mem_cons_self
      · exact (inductionHypothesis later).imp_right (List.mem_cons_of_mem command)

theorem finish_not_mem_sentAhead {commands : List PathCommand} (unfinished : .finish ∉ commands)
    (mode : PathMode) (subpathOpen : Bool) : .finish ∉ sentAhead mode subpathOpen commands := by
  intro member
  rcases eq_close_or_mem_of_mem_sentAhead member with closed | received
  · cases closed
  · exact unfinished received

/-- Ends a path with some commands. -/
def conclude (canvas : Canvas) (route : Route) (commands : List PathCommand) :
    Except Fault Canvas :=
  (canvas.send route commands).map fun drawn => (drawn.withOpen false).leave

theorem conclude_append (canvas : Canvas) (route : Route) (first second : List PathCommand) :
    canvas.conclude route (first ++ second) =
      (canvas.send route first).bind fun sent => sent.conclude route second := by
  rw [conclude, send_append]
  cases canvas.send route first <;> rfl

theorem conclude_withOpen (canvas : Canvas) (subpathOpen : Bool) (route : Route)
    (commands : List PathCommand) :
    (canvas.withOpen subpathOpen).conclude route commands = canvas.conclude route commands := by
  rw [conclude, conclude, send_withOpen]
  cases canvas.send route commands <;> rfl

theorem finish_eq_conclude {canvas : Canvas} (drawing : canvas.drawing = true) :
    canvas.finish = canvas.conclude (routeOf canvas.mode)
      (closing canvas.mode canvas.subpathOpen ++ [.finish]) := by
  have commands : (if routeOf canvas.mode ≠ .stroke ∧ canvas.subpathOpen then
      [.close, .finish] else [.finish] : List PathCommand) =
        closing canvas.mode canvas.subpathOpen ++ [.finish] := by
    unfold closing
    cases canvas.mode <;> cases canvas.subpathOpen <;> rfl
  rw [finish, if_pos drawing, finishOn, commands, conclude]
  cases canvas.send (routeOf canvas.mode) (closing canvas.mode canvas.subpathOpen ++ [.finish])
    <;> rfl

/-- Sending does not change how a path is received. -/
theorem receiving_of_send {canvas sent : Canvas} {route : Route} {commands : List PathCommand}
    (answered : canvas.send route commands = .ok sent) :
    sent.mode = canvas.mode ∧ sent.drawing = canvas.drawing ∧
      sent.subpathOpen = canvas.subpathOpen := by
  rw [send_eq] at answered
  obtain ⟨scanner, _, rfl⟩ := exists_of_map_eq_ok answered
  obtain ⟨_, _, _, used⟩ := canvas.exists_used_eq route commands scanner
  rw [used]
  exact ⟨rfl, rfl, rfl⟩

/-- Outside a path nothing is received. -/
theorem draw_of_left {canvas : Canvas} (left : canvas.drawing = false)
    (commands : List PathCommand) : canvas.draw commands = .ok canvas := by
  induction commands with
  | nil => rfl
  | cons command rest inductionHypothesis =>
      have ignored : canvas.step command = .ok canvas := by
        unfold step
        rw [left]
        rfl
      rw [draw, List.foldlM_cons, ignored]
      exact inductionHypothesis

/-- Nor is there a path to end. -/
theorem draw_finish_of_left {canvas : Canvas} (left : canvas.drawing = false)
    (commands : List PathCommand) : (canvas.draw commands).bind finish = .ok canvas := by
  rw [draw_of_left left]
  change canvas.finish = _
  rw [finish, left]
  rfl

/-- What a canvas does with a command of the path that it receives. -/
theorem step_eq_send {canvas : Canvas} (drawing : canvas.drawing = true) {command : PathCommand}
    (unfinished : command ≠ .finish) (marked : command ≠ .lineJoin) :
    canvas.step command =
      (canvas.send (routeOf canvas.mode) (sentFor canvas.mode canvas.subpathOpen command)).map
        (·.withOpen (openAfter canvas.subpathOpen command)) := by
  have segment : ∀ command, canvas.send (routeOf canvas.mode) [command] =
      (canvas.send (routeOf canvas.mode) [command]).map (·.withOpen canvas.subpathOpen) :=
    fun command => canvas.send_withOpen canvas.subpathOpen (routeOf canvas.mode) [command]
  unfold step
  rw [if_pos drawing]
  cases command with
  | line command =>
      cases command with
      | moveTo point =>
          have commands : (if canvas.mode = .fill ∧ canvas.subpathOpen then
              [.close, .moveTo point] else [.moveTo point] : List PathCommand) =
                closing canvas.mode canvas.subpathOpen ++ [.moveTo point] := by
            unfold closing
            split <;> rfl
          simp only [moveTo, commands]
          change _ = (canvas.send _ (closing canvas.mode canvas.subpathOpen ++ _)).map _
          cases canvas.send (routeOf canvas.mode)
            (closing canvas.mode canvas.subpathOpen ++ [.moveTo point]) <;> rfl
      | lineJoin => exact absurd rfl marked
      | lineTo point => exact segment (.lineTo point)
      | close =>
          simp only [close]
          change _ = (canvas.send _ [.close]).map _
          cases canvas.send (routeOf canvas.mode) [.close] <;> rfl
      | finish => exact absurd rfl unfinished
  | quadTo control point => exact segment (.quadTo control point)
  | cubicTo control₁ control₂ point => exact segment (.cubicTo control₁ control₂ point)

/-- The end of a path leaves it. -/
theorem drawing_of_conclude {canvas drawn : Canvas} {route : Route} {commands : List PathCommand}
    (concluded : canvas.conclude route commands = .ok drawn) : drawn.drawing = false := by
  obtain ⟨_, _, rfl⟩ := exists_of_map_eq_ok concluded
  rfl

/-- A path that is received command by command is sent as a whole. -/
theorem draw_finish_eq_conclude {canvas : Canvas} (drawing : canvas.drawing = true)
    (commands : List PathCommand) :
    (canvas.draw commands).bind finish =
      canvas.conclude (routeOf canvas.mode)
        (received canvas.mode canvas.subpathOpen commands) := by
  induction commands generalizing canvas with
  | nil => exact finish_eq_conclude drawing
  | cons command rest inductionHypothesis =>
      rw [draw, List.foldlM_cons]
      by_cases finished : command = .finish
      · subst finished
        have ends : canvas.step .finish = canvas.conclude (routeOf canvas.mode)
            (closing canvas.mode canvas.subpathOpen ++ [.finish]) := by
          unfold step
          rw [if_pos drawing]
          exact finish_eq_conclude drawing
        rw [ends, received, if_pos rfl]
        cases concluded : canvas.conclude (routeOf canvas.mode)
            (closing canvas.mode canvas.subpathOpen ++ [.finish]) with
        | error fault => rfl
        | ok drawn => exact draw_finish_of_left (drawing_of_conclude concluded) rest
      · rw [received, if_neg finished]
        by_cases marked : command = .lineJoin
        · subst marked
          have ignored : canvas.step .lineJoin = .ok canvas := by
            unfold step
            rw [if_pos drawing]
          rw [ignored]
          exact inductionHypothesis drawing
        · rw [step_eq_send drawing finished marked, conclude_append]
          cases answered : canvas.send (routeOf canvas.mode)
              (sentFor canvas.mode canvas.subpathOpen command) with
          | error fault => rfl
          | ok sent =>
              obtain ⟨mode, still, _⟩ := receiving_of_send answered
              have nextDrawing :
                  (sent.withOpen (openAfter canvas.subpathOpen command)).drawing = true :=
                still.trans drawing
              have later := inductionHypothesis nextDrawing
              change (Canvas.draw _ rest).bind finish = Canvas.conclude _ (routeOf sent.mode)
                (received sent.mode (openAfter canvas.subpathOpen command) rest) at later
              rw [conclude_withOpen, mode] at later
              exact later

/-! ## Whole paths -/

/-- Draws a whole path inside a region. -/
def drawWhole (canvas : Canvas) (region : Option PixelBox) (rule : WindingRule) (route : Route)
    (commands : List PathCommand) : Except Fault Canvas :=
  (canvas.startWith region route.mode rule).conclude route commands

/-- The scanner at the start of a whole path. -/
def begunScanner (canvas : Canvas) (region : Option PixelBox) (rule : WindingRule)
    (route : Route) : Scanner :=
  canvas.scanner.begun (clipWithin canvas.clip region)
    (if route.mode = .fill then rule else .nonZero)

/-- The canvas after a whole path. -/
def afterWhole (canvas : Canvas) (route : Route) (commands : List PathCommand)
    (scanner : Scanner) : Canvas :=
  { canvas.used route commands (scanner.setClip canvas.clip) with
    drawing := false
    subpathOpen := false }

/-- To draw a whole path its lines are sent to the scanner. -/
theorem drawWhole_eq (canvas : Canvas) (region : Option PixelBox) (rule : WindingRule)
    (route : Route) (commands : List PathCommand) :
    canvas.drawWhole region rule route commands =
      ((canvas.begunScanner region rule route).send (canvas.lines route commands)).map
        (canvas.afterWhole route commands) := by
  have lines : (canvas.startWith region route.mode rule).lines route commands =
      canvas.lines route commands := by
    cases route <;> rfl
  rw [drawWhole, conclude, send_eq, lines]
  change (((canvas.begunScanner region rule route).send _).map _).map _ = _
  cases (canvas.begunScanner region rule route).send (canvas.lines route commands) with
  | error fault => rfl
  | ok drawn => cases route <;> rfl

/-- A path that is started, received and finished is a whole path. -/
theorem bracket_eq_drawWhole (canvas : Canvas) (region : Option PixelBox) (rule : WindingRule)
    (commands : List PathCommand) :
    ((canvas.startWith region canvas.mode rule).draw commands).bind finish =
      canvas.drawWhole region rule (routeOf canvas.mode)
        (received canvas.mode false commands) := by
  have mode : (routeOf canvas.mode).mode = canvas.mode := by cases canvas.mode <;> rfl
  rw [drawWhole, mode]
  exact draw_finish_eq_conclude rfl commands

theorem fillData_eq_drawWhole (canvas : Canvas) (codes : List Nat) (coordinates : List Float32)
    (rule : WindingRule) :
    canvas.fillData codes coordinates rule =
      canvas.drawWhole none rule (routeOf canvas.mode)
        (received canvas.mode false (PathData.commands codes (PathData.points coordinates))) :=
  canvas.bracket_eq_drawWhole none rule _

theorem fillStore_eq_drawWhole (canvas : Canvas) (store : PathStore) (extra : Option Affine) :
    canvas.fillStore store extra =
      (canvas.withTextExtra extra).drawWhole none (canvas.withTextExtra extra).rule .text
        store.path := by
  obtain ⟨ready, readyEq⟩ : ∃ ready, canvas.withTextExtra extra = ready := ⟨_, rfl⟩
  rw [fillStore, readyEq, drawWhole, conclude]
  change (((ready.startWith none .fill ready.rule).send .text store.path).bind fun drawn =>
    .ok drawn.leave) = ((ready.startWith none .fill ready.rule).send .text store.path).map _
  cases answered : (ready.startWith none .fill ready.rule).send .text store.path with
  | error fault => rfl
  | ok sent =>
      obtain ⟨_, _, shut⟩ := receiving_of_send answered
      change Except.ok sent.leave = Except.ok (sent.withOpen false).leave
      have closed : sent.withOpen false = sent := withOpen_eq_self shut
      rw [closed]

/-- While a subpath was never opened, nothing has to be closed. -/
theorem finishOn_eq_conclude {canvas : Canvas} (shut : canvas.subpathOpen = false)
    (route : Route) : canvas.finishOn route = canvas.conclude route [.finish] := by
  rw [finishOn, shut, conclude]
  simp only [Bool.false_eq_true, and_false, if_false]
  cases canvas.send route [.finish] <;> rfl

theorem drawOutlines_eq_drawWhole (canvas : Canvas) (route : Route) (rule : WindingRule)
    (outlines : List Outline) :
    canvas.drawOutlines route rule outlines =
      canvas.drawWhole none rule route (outlines.flatMap Outline.commands ++ [.finish]) := by
  rw [drawWhole, conclude_append, drawOutlines]
  cases answered : (canvas.startWith none route.mode rule).send route
      (outlines.flatMap Outline.commands) with
  | error fault => rfl
  | ok sent =>
      obtain ⟨_, _, shut⟩ := receiving_of_send answered
      exact finishOn_eq_conclude shut route

theorem strokeLine_eq_drawWhole (canvas : Canvas) (source target : Point) :
    canvas.strokeLine source target =
      canvas.drawWhole none .nonZero .stroke
        ([.moveTo source, .lineTo target] ++ [.finish]) := by
  rw [drawWhole, conclude_append, strokeLine]
  change (do let sent ← (canvas.startWith none .stroke .nonZero).send .stroke _; _) =
    ((canvas.startWith none .stroke .nonZero).send .stroke _).bind _
  cases answered : (canvas.startWith none .stroke .nonZero).send .stroke
      [.moveTo source, .lineTo target] with
  | error fault => rfl
  | ok sent =>
      obtain ⟨_, _, shut⟩ := receiving_of_send answered
      exact finishOn_eq_conclude shut .stroke

/-! ## Calls -/

namespace Call

/-- Where and by which rule a path is drawn that a call starts. -/
def opens? : Call → Option (Option PixelBox × WindingRule)
  | start rule => some (none, rule)
  | startRegion x y width height rule => some (some (region x y width height), rule)
  | _ => none

/-- Whether a call feeds commands to the path that is being received. -/
def feeds : Call → Bool
  | draw _ => true
  | drawData _ _ => true
  | _ => false

/-- The commands that a call feeds to a path. -/
def fed : Call → List PathCommand
  | draw commands => commands
  | drawData codes coordinates => PathData.commands codes (PathData.points coordinates)
  | _ => []

end Call

/-- Only the commands count, not how they are distributed among calls. -/
theorem performAll_of_feeds (canvas : Canvas) {calls : List Call}
    (feed : ∀ call ∈ calls, call.feeds = true) :
    canvas.performAll calls = canvas.draw (calls.flatMap Call.fed) := by
  induction calls generalizing canvas with
  | nil => rfl
  | cons call rest inductionHypothesis =>
      have drawn : (canvas.perform call).map Prod.fst = canvas.draw call.fed := by
        have feeds := feed call List.mem_cons_self
        cases call with
        | draw commands =>
            change ((canvas.draw commands).map _).map _ = canvas.draw commands
            cases canvas.draw commands <;> rfl
        | drawData codes coordinates =>
            change ((canvas.drawData codes coordinates).map _).map _ = canvas.drawData _ _
            cases canvas.drawData codes coordinates <;> rfl
        | _ => cases feeds
      rw [performAll, List.foldlM_cons, drawn, List.flatMap_cons, draw, draw, List.foldlM_append]
      cases List.foldlM step canvas call.fed with
      | error fault => rfl
      | ok next =>
          exact inductionHypothesis next fun other member =>
            feed other (List.mem_cons_of_mem _ member)

/-- Calls that start a path, feed it and finish it draw one whole path. -/
theorem performAll_bracket (canvas : Canvas) {opening : Call} {inner : List Call}
    {region : Option PixelBox} {rule : WindingRule}
    (opens : opening.opens? = some (region, rule)) (feed : ∀ call ∈ inner, call.feeds = true) :
    canvas.performAll (opening :: inner ++ [.finish]) =
      canvas.drawWhole region rule (routeOf canvas.mode)
        (received canvas.mode false (inner.flatMap Call.fed)) := by
  have started : canvas.perform opening =
      .ok (canvas.startWith region canvas.mode rule, .done) := by
    cases opening with
    | start rule =>
        cases opens
        rfl
    | startRegion x y width height rule =>
        cases opens
        rfl
    | _ => cases opens
  rw [performAll, List.cons_append, List.foldlM_cons, started, ← bracket_eq_drawWhole]
  change (canvas.startWith region canvas.mode rule).performAll (inner ++ [.finish]) = _
  rw [performAll_append, performAll_of_feeds _ feed]
  cases (canvas.startWith region canvas.mode rule).draw (inner.flatMap Call.fed) with
  | error fault => rfl
  | ok sent =>
      change ((sent.finish.map _).map _).bind pure = sent.finish
      cases sent.finish <;> rfl

end Canvas

end Raster
