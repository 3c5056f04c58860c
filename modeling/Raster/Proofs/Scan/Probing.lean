import Raster.Proofs.Scan.Finishing

/-!
# Probing for rectangles

The vertices of a probe are those of the path so far, and the edges of the scanner are the
edges between them.  A path whose probe finds a rectangle has, once it is closed, the
edges of the four sides of that rectangle.
-/

namespace Raster

/-! ## Vertices -/

/-- The segments between some vertices, from a first one onward. -/
def polyline : Point → List Point → List Segment
  | _, [] => []
  | current, next :: rest => ⟨current, next⟩ :: polyline next rest

theorem polyline_concat (first : Point) (rest : List Point) (point : Point) :
    polyline first (rest ++ [point]) =
      polyline first rest ++ [⟨rest.getLastD first, point⟩] := by
  induction rest generalizing first with
  | nil => rfl
  | cons next rest inductionHypothesis =>
      rw [List.cons_append, polyline, inductionHypothesis, polyline, List.getLastD_cons]
      rfl

theorem RectProbe.vertices_push_eq_some {probe : RectProbe} {vertex : Point}
    {vertices : List Point} (pushed : (probe.push vertex).vertices = some vertices) :
    ∃ earlier, probe.vertices = some earlier ∧ vertices = earlier ++ [vertex] := by
  unfold push at pushed
  split at pushed
  · cases pushed
  · rename_i earlier kept
    split at pushed
    · exact ⟨earlier, kept, (Option.some.inj pushed).symm⟩
    · cases pushed

namespace Scanner

/-- As long as the probe keeps vertices, they are those of the only subpath. -/
structure Probes (scanner : Scanner) : Prop where
  fresh : scanner.probe.vertices = some [] → scanner.subpath = none ∧ scanner.edges = #[]
  vertices : ∀ first rest, scanner.probe.vertices = some (first :: rest) →
    scanner.subpath = some ⟨first, rest.getLastD first⟩ ∧
      scanner.edges.toList = Edge.ofSegments scanner.grid scanner.clip (polyline first rest)

theorem Idle.probes {scanner : Scanner} (idle : scanner.Idle) : scanner.Probes := by
  constructor
  · intro _
    exact ⟨idle.subpath, idle.edges⟩
  · intro first rest kept
    rw [idle.probe] at kept
    cases kept

/-- A line adds one vertex and one segment. -/
theorem Probes.line {scanner : Scanner} (probes : scanner.Probes) {subpath : OpenSubpath}
    (current : scanner.subpath = some subpath) (point : Point) :
    (scanner.withPath
      (scanner.edges ++
        (Edge.ofSegment? scanner.grid scanner.clip subpath.current point).toArray)
      (some ⟨subpath.start, point⟩) (scanner.probe.push point)).Probes := by
  constructor
  · intro empty
    obtain ⟨earlier, _, appended⟩ := RectProbe.vertices_push_eq_some empty
    cases earlier <;> cases appended
  · intro first rest kept
    obtain ⟨earlier, before, appended⟩ := RectProbe.vertices_push_eq_some kept
    cases earlier with
    | nil =>
        have none := (probes.fresh before).1
        rw [none] at current
        cases current
    | cons start between =>
        obtain ⟨started, edges⟩ := probes.vertices start between before
        obtain rfl := Option.some.inj (current.symm.trans started)
        rw [List.cons_append] at appended
        obtain ⟨rfl, rfl⟩ := List.cons.inj appended
        simp only [withPath, List.getLastD_concat, polyline_concat, Edge.ofSegments_append,
          Edge.ofSegments_singleton, Array.toList_append, edges, Option.toList_toArray, and_self]

theorem probes_of_failed {scanner : Scanner} (edges : Array Edge) (subpath : Option OpenSubpath) :
    (scanner.withPath edges subpath .failed).Probes := by
  constructor
  · intro empty
    cases empty
  · intro first rest kept
    cases kept

/-- A second subpath is no part of a rectangle. -/
theorem Probes.moveTo {scanner : Scanner} (probes : scanner.Probes) (point : Point) :
    (scanner.moveTo point).Probes := by
  have closed := scanner.closeSubpath_eq
  unfold Scanner.moveTo
  by_cases fresh : scanner.probe = .fresh
  · obtain ⟨idle, edges⟩ := probes.fresh (by rw [fresh]; rfl)
    rw [idle, edges] at closed
    rw [closed, fresh]
    constructor
    · intro empty
      cases empty
    · intro first rest kept
      cases kept
      exact ⟨rfl, rfl⟩
  · have notFresh : scanner.closeSubpath.probe.isFresh = false := by
      rw [closed]
      exact decide_eq_false fresh
    simp only [notFresh, Bool.and_false, Bool.false_eq_true, if_false]
    exact probes_of_failed (scanner.closeSubpath.edges) _

theorem Probes.step {scanner next : Scanner} (probes : scanner.Probes) {command : LineCommand}
    (stepped : scanner.step command = .ok next) : next.Probes := by
  cases command with
  | moveTo point =>
      cases stepped
      exact probes.moveTo point
  | lineJoin =>
      cases stepped
      exact probes
  | lineTo point =>
      cases stepped
      unfold lineTo
      cases current : scanner.subpath with
      | none => exact probes
      | some subpath =>
          have line := probes.line current point
          simp only [addEdge_eq]
          exact line
  | close =>
      cases stepped
      unfold close
      cases current : scanner.subpath with
      | none => exact probes
      | some subpath =>
          simp only
          split
          · exact probes
          · have line := probes.line current subpath.start
            simp only [addEdge_eq]
            exact line
  | finish => exact (idle_of_finish stepped).probes

/-! ## All commands -/

/-- A command changes the path.  The end of a path also draws and records. -/
theorem exists_of_step {scanner next : Scanner} {command : LineCommand}
    (stepped : scanner.step command = .ok next) :
    ∃ touches box cache edges subpath probe scratch,
      next =
        { scanner with
          surface := scanner.surface.draw touches
          boundingBox := box
          cache := cache
          edges := edges
          subpath := subpath
          probe := probe
          scratch := scratch } ∧
        cache.isSome = scanner.cache.isSome := by
  by_cases unfinished : command = .finish
  · subst unfinished
    obtain ⟨box, cache, touches, scratch, rfl, attached⟩ := exists_of_finish stepped
    exact ⟨touches, box, cache, #[], none, .fresh, scratch, rfl, attached⟩
  · obtain ⟨edges, subpath, probe, path, _⟩ := (SamePath.refl scanner).step unfinished
    obtain rfl := Except.ok.inj (path.symm.trans stepped)
    exact ⟨[], scanner.boundingBox, scanner.cache, edges, subpath, probe, scanner.scratch, rfl, rfl⟩

/-- What every command keeps is kept by a list of commands. -/
theorem send_keeps {property : Scanner → Prop}
    (kept : ∀ {scanner next : Scanner} {command : LineCommand}, property scanner →
      scanner.step command = .ok next → property next)
    {scanner received : Scanner} {commands : List LineCommand} (holds : property scanner)
    (sent : scanner.send commands = .ok received) : property received :=
  foldlM_keeps (fun _ => kept) holds sent

theorem Ready.step {scanner next : Scanner} (ready : scanner.Ready) {command : LineCommand}
    (stepped : scanner.step command = .ok next) : next.Ready := by
  obtain ⟨touches, _, _, _, _, _, _, rfl, _⟩ := exists_of_step stepped
  exact ⟨ready.lgX_le, ready.lgY_le,
    ready.clip.of_bounds_eq (scanner.surface.bounds_draw touches)⟩

theorem Ready.send {scanner received : Scanner} (ready : scanner.Ready)
    {commands : List LineCommand} (sent : scanner.send commands = .ok received) :
    received.Ready :=
  send_keeps (fun holds stepped => holds.step stepped) ready sent

theorem Probes.send {scanner received : Scanner} (probes : scanner.Probes)
    {commands : List LineCommand} (sent : scanner.send commands = .ok received) :
    received.Probes :=
  send_keeps (fun holds stepped => holds.step stepped) probes sent

/-- The second scanner has the samples, the clip box and the paint of the first one, on a
surface of the same size. -/
structure SameSettings (scanner next : Scanner) : Prop where
  grid : next.grid = scanner.grid
  clip : next.clip = scanner.clip
  paint : next.paint = scanner.paint
  bounds : next.surface.bounds = scanner.surface.bounds

theorem SameSettings.send {scanner received : Scanner} {commands : List LineCommand}
    (sent : scanner.send commands = .ok received) : scanner.SameSettings received := by
  have kept : ∀ {before next : Scanner} {command : LineCommand}, scanner.SameSettings before →
      before.step command = .ok next → scanner.SameSettings next := by
    intro before next command same stepped
    obtain ⟨touches, _, _, _, _, _, _, rfl, _⟩ := exists_of_step stepped
    exact ⟨same.grid, same.clip, same.paint,
      (before.surface.bounds_draw touches).trans same.bounds⟩
  exact send_keeps kept ⟨rfl, rfl, rfl, rfl⟩ sent

/-- No command sets a paint. -/
theorem paint_of_send {scanner received : Scanner} {commands : List LineCommand}
    (sent : scanner.send commands = .ok received) : received.paint = scanner.paint :=
  (SameSettings.send sent).paint

/-- No command attaches or detaches a cache. -/
theorem isSome_cache_of_send {scanner received : Scanner} {commands : List LineCommand}
    (sent : scanner.send commands = .ok received) :
    received.cache.isSome = scanner.cache.isSome := by
  have kept : ∀ {before next : Scanner} {command : LineCommand},
      before.cache.isSome = scanner.cache.isSome → before.step command = .ok next →
        next.cache.isSome = scanner.cache.isSome := by
    intro before next command same stepped
    obtain ⟨_, _, _, _, _, _, _, rfl, attached⟩ := exists_of_step stepped
    exact attached.trans same
  exact send_keeps kept rfl sent

theorem cache_of_send {scanner received : Scanner} (detached : scanner.cache = none)
    {commands : List LineCommand} (sent : scanner.send commands = .ok received) :
    received.cache = none := by
  have same := isSome_cache_of_send sent
  rw [detached, Option.isSome_none] at same
  exact Option.isNone_iff_eq_none.mp (Option.isSome_eq_false_iff.mp same)

/-- Once closed, the path runs along the vertices and back to the first one. -/
theorem Probes.closeSubpath {scanner : Scanner} (probes : scanner.Probes) {first : Point}
    {rest : List Point} (kept : scanner.probe.vertices = some (first :: rest)) :
    scanner.closeSubpath.edges.toList =
      Edge.ofSegments scanner.grid scanner.clip (polyline first (rest ++ [first])) := by
  obtain ⟨current, edges⟩ := probes.vertices first rest kept
  rw [closeSubpath_eq, current, polyline_concat, Edge.ofSegments_append,
    Edge.ofSegments_singleton]
  simp only [Option.bind_some, Array.toList_append, edges, Option.toList_toArray]

/-- A path that the probe takes for a rectangle has four sides. -/
theorem Probes.exists_sides {scanner : Scanner} (probes : scanner.Probes) {rect : Rect}
    (found : scanner.probe.rect? = some rect) :
    ∃ a b c d, RectProbe.rectOf? a b c d = some rect ∧
      scanner.closeSubpath.edges.toList =
        Edge.ofSegments scanner.grid scanner.clip [⟨a, b⟩, ⟨b, c⟩, ⟨c, d⟩, ⟨d, a⟩] := by
  unfold RectProbe.rect? at found
  split at found
  · rename_i a b c d kept
    exact ⟨a, b, c, d, found, probes.closeSubpath kept⟩
  · rename_i a b c d e kept
    split at found
    · rename_i closes
      subst closes
      -- The repeated corner adds a segment without extent.
      have level : Edge.ofSegments scanner.grid scanner.clip [⟨e, e⟩] = [] := by
        rw [Edge.ofSegments_singleton, Edge.ofSegment?_self, Option.toList_none]
      have sides : polyline e [b, c, d, e, e] =
          [⟨e, b⟩, ⟨b, c⟩, ⟨c, d⟩, ⟨d, e⟩] ++ [⟨e, e⟩] := rfl
      refine ⟨e, b, c, d, found, ?_⟩
      rw [probes.closeSubpath kept]
      change Edge.ofSegments _ _ (polyline e [b, c, d, e, e]) = _
      rw [sides, Edge.ofSegments_append, level, List.append_nil]
    · cases found
  · cases found

end Scanner

end Raster
