import Raster.Proofs.Scan.Stepping
import Raster.Scan.Scanner

/-!
# Tracing paths

The commands of a path trace directed segments, and every subpath is closed by a
segment back to its start.  A scanner that receives the commands keeps exactly the
edges of the traced segments, and nothing else in it changes before the path ends.
-/

namespace Raster

/-- A directed segment of a path. -/
structure Segment where
  source : Point
  target : Point
deriving Repr, DecidableEq

/-- The segments that some commands have traced, with the subpath they left open. -/
structure Trace where
  segments : List Segment
  subpath : Option OpenSubpath
deriving Repr, DecidableEq

namespace Trace

/-- Nothing traced. -/
def empty : Trace := ⟨[], none⟩

/-- The segments with the open subpath closed. -/
def closed (trace : Trace) : List Segment :=
  match trace.subpath with
  | none => trace.segments
  | some subpath => trace.segments ++ [⟨subpath.current, subpath.start⟩]

/-- The trace after one more command. -/
def step (trace : Trace) : LineCommand → Trace
  | .moveTo point => ⟨trace.closed, some ⟨point, point⟩⟩
  | .lineJoin => trace
  | .lineTo point =>
      match trace.subpath with
      | none => trace
      | some subpath =>
          { segments := trace.segments ++ [⟨subpath.current, point⟩]
            subpath := some { subpath with current := point } }
  | .close =>
      match trace.subpath with
      | none => trace
      | some subpath => ⟨trace.closed, some ⟨subpath.start, subpath.start⟩⟩
  | .finish => empty

/-- The trace of some commands. -/
def ofCommands (commands : List LineCommand) : Trace :=
  commands.foldl step empty

end Trace

/-- The segments of a path, all of whose subpaths are closed. -/
def segmentsOf (commands : List LineCommand) : List Segment :=
  (Trace.ofCommands commands).closed

namespace Edge

/-- A level segment crosses no row. -/
theorem ofSegment?_of_level {source target : Point} (level : source.y = target.y) (grid : Grid)
    (clip : PixelBox) : ofSegment? grid clip source target = none := by
  simp only [ofSegment?, level, if_pos (Int.le_refl _)]
  rw [if_neg (by omega)]

theorem ofSegment?_self (grid : Grid) (clip : PixelBox) (point : Point) :
    ofSegment? grid clip point point = none :=
  ofSegment?_of_level rfl grid clip

/-- The edges of some segments on the rows of a clip box. -/
def ofSegments (grid : Grid) (clip : PixelBox) (segments : List Segment) : List Edge :=
  segments.filterMap fun segment => ofSegment? grid clip segment.source segment.target

theorem ofSegments_append (grid : Grid) (clip : PixelBox) (first second : List Segment) :
    ofSegments grid clip (first ++ second) =
      ofSegments grid clip first ++ ofSegments grid clip second :=
  List.filterMap_append

theorem ofSegments_cons (grid : Grid) (clip : PixelBox) (segment : Segment)
    (rest : List Segment) :
    ofSegments grid clip (segment :: rest) =
      ofSegments grid clip [segment] ++ ofSegments grid clip rest :=
  ofSegments_append grid clip [segment] rest

theorem ofSegments_singleton (grid : Grid) (clip : PixelBox) (segment : Segment) :
    ofSegments grid clip [segment] =
      (ofSegment? grid clip segment.source segment.target).toList := by
  cases edge : ofSegment? grid clip segment.source segment.target with
  | none => simp [ofSegments, edge]
  | some edge' => simp [ofSegments, edge]

end Edge

/-- The box is ordered and lies on the surface. -/
structure Surface.Holds (surface : Surface) (box : PixelBox) : Prop where
  left_nonneg : 0 ≤ box.left
  top_nonneg : 0 ≤ box.top
  left_le : box.left ≤ box.right
  top_le : box.top ≤ box.bottom
  right_le : box.right ≤ surface.bounds.right
  bottom_le : box.bottom ≤ surface.bounds.bottom

namespace Surface

theorem holds_bounds (surface : Surface) : surface.Holds surface.bounds := by
  have nonneg : ∀ size : Nat, 0 ≤ Word.clamp32 (0 + size) := by
    intro size
    unfold Word.clamp32 Word.max32 Word.min32
    split
    · omega
    · split <;> omega
  exact ⟨Int.le_refl _, Int.le_refl _, nonneg _, nonneg _, Int.le_refl _, Int.le_refl _⟩

/-- The box is as wide as its corners tell: nothing saturates. -/
theorem Holds.width_eq {surface : Surface} {box : PixelBox} (holds : surface.Holds box) :
    box.width = box.right - box.left := by
  obtain ⟨_, _, _, _, rightLe, _⟩ := holds
  have bounded := (Word.fits32_clamp32 (0 + surface.width)).2
  have far : surface.bounds.right = Word.clamp32 (0 + surface.width) := rfl
  apply Word.clamp32_eq_self
  unfold Word.Fits32
  unfold Word.min32 Word.max32 at *
  omega

theorem bounds_foldl {α : Type} {change : Surface → α → Surface}
    (keeps : ∀ surface value, (change surface value).bounds = surface.bounds) (values : List α)
    (surface : Surface) : (values.foldl change surface).bounds = surface.bounds := by
  induction values generalizing surface with
  | nil => rfl
  | cons value rest inductionHypothesis =>
      rw [List.foldl_cons, inductionHypothesis, keeps]

theorem bounds_fill (surface : Surface) (box : PixelBox) (argb : Nat) :
    (surface.fill box argb).bounds = surface.bounds := by
  apply bounds_foldl
  intro surface pixel
  rfl

theorem bounds_draw (surface : Surface) (touches : List Touch) :
    (surface.draw touches).bounds = surface.bounds := by
  apply bounds_foldl
  intro surface touch
  rfl

/-- Whether a box lies on a surface depends on the size of the surface only. -/
theorem Holds.of_bounds_eq {surface other : Surface} {box : PixelBox} (holds : surface.Holds box)
    (size : other.bounds = surface.bounds) : other.Holds box := by
  obtain ⟨left, top, leftLe, topLe, right, bottom⟩ := holds
  rw [← size] at right bottom
  exact ⟨left, top, leftLe, topLe, right, bottom⟩

end Surface

namespace Scanner

/-! ## Scanners between paths -/

/-- The scanner has received no command of a path. -/
structure Idle (scanner : Scanner) : Prop where
  edges : scanner.edges = #[]
  subpath : scanner.subpath = none
  probe : scanner.probe = .fresh

/-- The grid is not too fine, and the clip box lies on the surface. -/
structure Ready (scanner : Scanner) : Prop where
  lgX_le : scanner.grid.lgX ≤ Grid.maxLg
  lgY_le : scanner.grid.lgY ≤ Grid.maxLg
  clip : scanner.surface.Holds scanner.clip

theorem idle_new (surface : Surface) : (Scanner.new surface).Idle :=
  ⟨rfl, rfl, rfl⟩

theorem Idle.setGrid {scanner : Scanner} (idle : scanner.Idle) (lgX lgY : Nat) :
    (scanner.setGrid lgX lgY).Idle :=
  ⟨idle.edges, idle.subpath, idle.probe⟩

theorem ready_new (surface : Surface) : (Scanner.new surface).Ready :=
  ⟨Nat.le_refl _, Nat.le_refl _, surface.holds_bounds⟩

theorem Ready.width_eq {scanner : Scanner} (ready : scanner.Ready) :
    scanner.frame.clip.width = scanner.frame.clip.right - scanner.frame.clip.left :=
  ready.clip.width_eq

theorem Ready.columns_le {scanner : Scanner} (ready : scanner.Ready) : scanner.grid.columns ≤ 8 :=
  Nat.pow_le_pow_right (by decide) ready.lgX_le

theorem Ready.rows_le {scanner : Scanner} (ready : scanner.Ready) : scanner.grid.rows ≤ 8 :=
  Nat.pow_le_pow_right (by decide) ready.lgY_le

theorem Ready.setGrid {scanner : Scanner} (ready : scanner.Ready) (lgX lgY : Nat) :
    (scanner.setGrid lgX lgY).Ready :=
  ⟨Nat.min_le_right _ _, Nat.min_le_right _ _, ready.clip⟩

theorem holds_clipOn (surface : Surface) (clip : Option PixelBox) :
    surface.Holds (clipOn surface clip) := by
  have bounds := surface.holds_bounds
  cases clip with
  | none => exact bounds
  | some box =>
      simp only [clipOn, PixelBox.intersection?]
      split
      · exact ⟨Int.le_refl _, Int.le_refl _, Int.le_refl _, Int.le_refl _, bounds.left_le,
          bounds.top_le⟩
      · rename_i nonempty
        simp only [PixelBox.isEmpty, Bool.or_eq_true, decide_eq_true_eq, not_or] at nonempty
        obtain ⟨leftNonneg, topNonneg, _, _, _, _⟩ := bounds
        constructor <;> simp only [Option.getD_some] <;> omega

theorem Ready.setClip {scanner : Scanner} (ready : scanner.Ready) (clip : Option PixelBox) :
    (scanner.setClip clip).Ready :=
  ⟨ready.lgX_le, ready.lgY_le, holds_clipOn scanner.surface clip⟩

theorem Ready.setPaint {scanner : Scanner} (ready : scanner.Ready) (paint : Paint) :
    (scanner.setPaint paint).Ready :=
  ⟨ready.lgX_le, ready.lgY_le, ready.clip⟩

theorem Ready.clearRect {scanner : Scanner} (ready : scanner.Ready) (x y width height : Int)
    (color : Color) : (scanner.clearRect x y width height color).Ready := by
  obtain ⟨lgX, lgY, clip⟩ := ready
  simp only [Scanner.clearRect]
  split
  · exact ⟨lgX, lgY, clip⟩
  · exact ⟨lgX, lgY, clip.of_bounds_eq (Surface.bounds_fill _ _ _)⟩

/-! ## Receiving a path -/

/-- The scanner with another path received. -/
def withPath (scanner : Scanner) (edges : Array Edge) (subpath : Option OpenSubpath)
    (probe : RectProbe) : Scanner :=
  { scanner with edges := edges, subpath := subpath, probe := probe }

/-- Two scanners keep the same path for the same samples. -/
structure SamePath (scanner other : Scanner) : Prop where
  grid : scanner.grid = other.grid
  clip : scanner.clip = other.clip
  edges : scanner.edges = other.edges
  subpath : scanner.subpath = other.subpath
  probe : scanner.probe = other.probe

theorem SamePath.refl (scanner : Scanner) : scanner.SamePath scanner :=
  ⟨rfl, rfl, rfl, rfl, rfl⟩

theorem addEdge_eq (scanner : Scanner) (source target : Point) :
    scanner.addEdge source target =
      { scanner with
        edges := scanner.edges ++
          (Edge.ofSegment? scanner.grid scanner.clip source target).toArray } := by
  unfold addEdge
  cases Edge.ofSegment? scanner.grid scanner.clip source target with
  | none => simp
  | some edge => simp

/-- Closing the subpath adds the edge of the segment back to its start. -/
theorem closeSubpath_eq (scanner : Scanner) :
    scanner.closeSubpath =
      { scanner with
        edges := scanner.edges ++
          (scanner.subpath.bind fun subpath =>
            Edge.ofSegment? scanner.grid scanner.clip subpath.current subpath.start).toArray
        subpath := none } := by
  unfold closeSubpath
  cases scanner with
  | mk surface grid rule clip paint cache boundingBox edges subpath probe =>
      cases subpath with
      | none => simp
      | some subpath =>
          simp only [addEdge_eq, Option.bind_some]
          split
          · rename_i closed
            rw [closed, Edge.ofSegment?_self]
            simp
          · rfl

/-- A command that does not end the path changes only the path, in the same way
whatever the other settings are. -/
theorem SamePath.step {scanner other : Scanner} (same : scanner.SamePath other)
    {command : LineCommand} (unfinished : command ≠ .finish) :
    ∃ edges subpath probe,
      scanner.step command = .ok (scanner.withPath edges subpath probe) ∧
        other.step command = .ok (other.withPath edges subpath probe) := by
  obtain ⟨surface, grid, rule, clip, paint, cache, boundingBox, edges, subpath, probe⟩ := scanner
  obtain ⟨surface', grid', rule', clip', paint', cache', boundingBox', edges', subpath',
    probe'⟩ := other
  obtain ⟨rfl, rfl, rfl, rfl, rfl⟩ := same
  cases command with
  | moveTo point =>
      simp only [Scanner.step, moveTo, closeSubpath_eq]
      exact ⟨_, _, _, rfl, rfl⟩
  | lineJoin => exact ⟨_, _, _, rfl, rfl⟩
  | lineTo point =>
      cases subpath with
      | none => exact ⟨_, _, _, rfl, rfl⟩
      | some subpath =>
          simp only [Scanner.step, lineTo, addEdge_eq]
          exact ⟨_, _, _, rfl, rfl⟩
  | close =>
      cases subpath with
      | none => exact ⟨_, _, _, rfl, rfl⟩
      | some subpath =>
          simp only [Scanner.step, close, addEdge_eq]
          split
          · exact ⟨_, _, _, rfl, rfl⟩
          · exact ⟨_, _, _, rfl, rfl⟩
  | finish => exact absurd rfl unfinished

theorem SamePath.withPath {scanner other : Scanner} (same : scanner.SamePath other)
    (edges : Array Edge) (subpath : Option OpenSubpath) (probe : RectProbe) :
    (scanner.withPath edges subpath probe).SamePath (other.withPath edges subpath probe) :=
  ⟨same.grid, same.clip, rfl, rfl, rfl⟩

theorem SamePath.send {scanner other : Scanner} (same : scanner.SamePath other)
    {commands : List LineCommand} (unfinished : .finish ∉ commands) :
    ∃ edges subpath probe,
      scanner.send commands = .ok (scanner.withPath edges subpath probe) ∧
        other.send commands = .ok (other.withPath edges subpath probe) := by
  induction commands generalizing scanner other with
  | nil =>
      obtain ⟨_, _, edges, subpath, probe⟩ := same
      refine ⟨scanner.edges, scanner.subpath, scanner.probe, rfl, ?_⟩
      rw [edges, subpath, probe]
      rfl
  | cons command rest inductionHypothesis =>
      have ⟨notFirst, notRest⟩ := not_or.mp (mt List.mem_cons.mpr unfinished)
      obtain ⟨_, _, _, stepped, otherStepped⟩ := same.step (Ne.symm notFirst)
      obtain ⟨edges, subpath, probe, sent, otherSent⟩ :=
        inductionHypothesis (same.withPath _ _ _) notRest
      refine ⟨edges, subpath, probe, ?_, ?_⟩
      · rw [Scanner.send, List.foldlM_cons, stepped]
        exact sent
      · rw [Scanner.send, List.foldlM_cons, otherStepped]
        exact otherSent

/-- Receiving a path changes only the path. -/
theorem exists_send_eq (scanner : Scanner) {commands : List LineCommand}
    (unfinished : .finish ∉ commands) :
    ∃ edges subpath probe,
      scanner.send commands = .ok (scanner.withPath edges subpath probe) := by
  obtain ⟨edges, subpath, probe, sent, _⟩ := (SamePath.refl scanner).send unfinished
  exact ⟨edges, subpath, probe, sent⟩

/-! ## The traced segments -/

/-- The scanner keeps the edges of the traced segments. -/
structure Follows (scanner : Scanner) (trace : Trace) : Prop where
  edges : scanner.edges.toList = Edge.ofSegments scanner.grid scanner.clip trace.segments
  subpath : scanner.subpath = trace.subpath

theorem Idle.follows {scanner : Scanner} (idle : scanner.Idle) : scanner.Follows .empty := by
  constructor
  · rw [idle.edges]
    rfl
  · exact idle.subpath

/-- A closed scanner keeps the edges of the closed segments. -/
theorem Follows.closeSubpath {scanner : Scanner} {trace : Trace}
    (follows : scanner.Follows trace) :
    scanner.closeSubpath.edges.toList =
      Edge.ofSegments scanner.grid scanner.clip trace.closed := by
  obtain ⟨edges, subpath⟩ := follows
  rw [closeSubpath_eq, Trace.closed]
  simp only [Array.toList_append, edges, subpath]
  cases trace.subpath with
  | none => simp
  | some subpath =>
      rw [Edge.ofSegments_append, Edge.ofSegments_singleton, Option.bind_some,
        Option.toList_toArray]

/-- One command traces the same segments in both. -/
theorem Follows.step {scanner next : Scanner} {trace : Trace} (follows : scanner.Follows trace)
    {command : LineCommand} (unfinished : command ≠ .finish)
    (stepped : scanner.step command = .ok next) : next.Follows (trace.step command) := by
  have closed := follows.closeSubpath
  obtain ⟨edges, subpath⟩ := follows
  cases command with
  | moveTo point =>
      cases stepped
      constructor
      · simp only [moveTo, closed, Trace.step]
        rw [closeSubpath_eq]
      · rfl
  | lineJoin =>
      cases stepped
      exact ⟨edges, subpath⟩
  | lineTo point =>
      cases stepped
      simp only [lineTo, Trace.step, ← subpath]
      cases current : scanner.subpath with
      | none => exact ⟨edges, by rw [← subpath, current]⟩
      | some subpath =>
          constructor
          · simp only [addEdge_eq, Array.toList_append, edges, Edge.ofSegments_append,
              Edge.ofSegments_singleton, Option.toList_toArray]
          · rfl
  | close =>
      cases stepped
      simp only [close, Trace.step, Trace.closed, ← subpath]
      cases current : scanner.subpath with
      | none => exact ⟨edges, by rw [← subpath, current]⟩
      | some subpath =>
          -- A closing segment without extent is traced, but has no edge.
          by_cases meet : subpath.current = subpath.start
          · simp only [if_pos meet]
            constructor
            · simp only [edges, Edge.ofSegments_append, Edge.ofSegments_singleton, meet,
                Edge.ofSegment?_self, Option.toList_none, List.append_nil]
            · obtain ⟨start, vertex⟩ := subpath
              obtain rfl : vertex = start := meet
              exact current
          · simp only [if_neg meet]
            constructor
            · simp only [addEdge_eq, Array.toList_append, edges, Edge.ofSegments_append,
                Edge.ofSegments_singleton, Option.toList_toArray]
            · rfl
  | finish => exact absurd rfl unfinished

/-- The edges that the scanner keeps are those of the traced segments. -/
theorem Follows.send {scanner received : Scanner} {trace : Trace}
    (follows : scanner.Follows trace) {commands : List LineCommand}
    (unfinished : .finish ∉ commands) (sent : scanner.send commands = .ok received) :
    received.Follows (commands.foldl Trace.step trace) := by
  induction commands generalizing scanner trace with
  | nil =>
      cases sent
      exact follows
  | cons command rest inductionHypothesis =>
      have ⟨notFirst, notRest⟩ := not_or.mp (mt List.mem_cons.mpr unfinished)
      obtain ⟨edges, subpath, probe, stepped, _⟩ :=
        (SamePath.refl scanner).step (Ne.symm notFirst)
      rw [Scanner.send, List.foldlM_cons, stepped] at sent
      exact inductionHypothesis (follows.step (Ne.symm notFirst) stepped) notRest sent

/-- An idle scanner receives every path, changes nothing else, and keeps the edges of all
segments once the last subpath is closed. -/
theorem Idle.exists_received {scanner : Scanner} (idle : scanner.Idle)
    {commands : List LineCommand} (unfinished : .finish ∉ commands) :
    ∃ received edges probe, scanner.send commands = .ok received ∧
      received.closeSubpath = scanner.withPath edges none probe ∧
      edges.toList = Edge.ofSegments scanner.grid scanner.clip (segmentsOf commands) := by
  obtain ⟨edges, subpath, probe, sent⟩ := scanner.exists_send_eq unfinished
  have closed := (idle.follows.send unfinished sent).closeSubpath
  refine ⟨_, _, _, sent, closeSubpath_eq _, ?_⟩
  rw [closeSubpath_eq] at closed
  exact closed

end Scanner

end Raster
