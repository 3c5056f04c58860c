import Raster.Path.Store

/-!
# Storing paths

A store and the reader of its encoded form keep the current point and the start of the
subpath apart from each other.  Every recorded command takes both to the same points, so
that the words of a command lead the reader back to exactly that command, and to the words of
the next one.
-/

namespace Raster

namespace PathCommand

/-- The points of a command, in order. -/
def points : PathCommand → List Point
  | moveTo point => [point]
  | lineJoin => []
  | lineTo point => [point]
  | close => []
  | finish => []
  | quadTo control point => [control, point]
  | cubicTo control₁ control₂ point => [control₁, control₂, point]

/-- All coordinates are signed 32-bit integers. -/
def Fits32 (command : PathCommand) : Prop :=
  ∀ point ∈ command.points, point.Fits32

instance (command : PathCommand) : Decidable command.Fits32 :=
  inferInstanceAs (Decidable (∀ point ∈ command.points, point.Fits32))

end PathCommand

namespace PathStore

/-- The number of words that the points of a tag take. -/
def Tag.wordCount : Tag → Nat
  | moveTo => 2
  | lineJoin => 0
  | lineTo => 2
  | shortLineTo => 1
  | quadTo => 4
  | shortQuadTo => 2
  | cubicTo => 6
  | close => 0
  | finish => 0

namespace Cursor

/-- The reader has all the words of a tag, and the points that it takes from them are pairs of
signed 32-bit integers. -/
structure Reads (cursor : Cursor) (tag : Tag) : Prop where
  enough : tag.wordCount ≤ cursor.words.length
  fits : (cursor.read tag).2.Fits32

/-- The reader has all the words of each of some tags, read one after another. -/
def ReadsAll (cursor : Cursor) : List Tag → Prop
  | [] => True
  | tag :: rest => cursor.Reads tag ∧ (cursor.read tag).1.ReadsAll rest

theorem readAll_cons (cursor : Cursor) (tag : Tag) (rest : List Tag) :
    cursor.readAll (tag :: rest) =
      (((cursor.read tag).1.readAll rest).1,
        (cursor.read tag).2 :: ((cursor.read tag).1.readAll rest).2) :=
  rfl

end Cursor

/-! ## One command -/

/-- A packed difference is a signed 32-bit integer. -/
theorem fits32_of_delta? {current point : Point} {word : Int}
    (packed : delta? current point = some word) : Word.Fits32 word := by
  obtain ⟨dx, dy, -, -, shortX, shortY, rfl⟩ := exists_of_delta? packed
  unfold packDelta Word.Fits32 Word.min32 Word.max32
  omega

/-- A tag and words append a command to a store if they take every reader that stands where
the store does to the command and to where the store does afterward. -/
structure Appends (store next : PathStore) (command : PathCommand) (tag : Tag)
    (words : List Int) : Prop where
  tags : next.tags = store.tags.push tag
  stream : next.words = store.words ++ words
  counted : words.length = tag.wordCount
  fits : command.Fits32 → ∀ word ∈ words, Word.Fits32 word
  leads : ∀ rest, Cursor.read ⟨words ++ rest, store.current, store.start⟩ tag =
    (⟨rest, next.current, next.start⟩, command)

theorem fits32_coordinates {points : List Point} (fits : ∀ point ∈ points, point.Fits32) :
    ∀ word ∈ coordinates points, Word.Fits32 word := by
  intro word member
  obtain ⟨point, pointMember, wordMember⟩ := List.mem_flatMap.mp member
  have ⟨x, y⟩ := fits point pointMember
  rcases List.mem_cons.mp wordMember with rfl | last
  · exact x
  · rw [List.mem_singleton.mp last]
    exact y

/-- Every command is recorded by a tag and words that lead back to it. -/
theorem exists_appends_record (store : PathStore) (command : PathCommand) :
    ∃ tag words, store.Appends (store.record command) command tag words := by
  cases command with
  | line command =>
      cases command with
      | moveTo point =>
          exact ⟨.moveTo, coordinates [point], rfl, rfl, rfl, fits32_coordinates, fun _ => rfl⟩
      | lineJoin => exact ⟨.lineJoin, [], rfl, rfl, rfl,
          fun _ _ absent => (nomatch absent), fun _ => rfl⟩
      | lineTo point =>
          cases short : delta? store.current point with
          | some word =>
              simp only [record, short]
              refine ⟨.shortLineTo, [word], rfl, rfl, rfl, ?_, ?_⟩
              · rintro _ _ member
                rw [List.mem_singleton.mp member]
                exact fits32_of_delta? short
              · intro rest
                have back := offset_of_delta? short
                simp [Cursor.read, nextOffset, nextWord, back, push]
          | none =>
              simp only [record, short]
              exact ⟨.lineTo, coordinates [point], rfl, rfl, rfl, fits32_coordinates,
                fun _ => rfl⟩
      | close => exact ⟨.close, [], rfl, rfl, rfl,
          fun _ _ absent => (nomatch absent), fun _ => rfl⟩
      | finish => exact ⟨.finish, [], rfl, rfl, rfl,
          fun _ _ absent => (nomatch absent), fun _ => rfl⟩
  | quadTo control point =>
      have whole : store.Appends
          (store.push .quadTo (coordinates [control, point]) point store.start)
          (.quadTo control point) .quadTo (coordinates [control, point]) :=
        ⟨rfl, rfl, rfl, fits32_coordinates, fun _ => rfl⟩
      cases short₁ : delta? store.current control with
      | none =>
          simp only [record, short₁]
          exact ⟨_, _, whole⟩
      | some word₁ =>
          cases short₂ : delta? store.current point with
          | none =>
              simp only [record, short₁, short₂]
              exact ⟨_, _, whole⟩
          | some word₂ =>
              simp only [record, short₁, short₂]
              refine ⟨.shortQuadTo, [word₁, word₂], rfl, rfl, rfl, ?_, ?_⟩
              · rintro _ _ member
                rcases List.mem_cons.mp member with rfl | last
                · exact fits32_of_delta? short₁
                · rw [List.mem_singleton.mp last]
                  exact fits32_of_delta? short₂
              · intro rest
                have back₁ := offset_of_delta? short₁
                have back₂ := offset_of_delta? short₂
                simp [Cursor.read, nextOffset, nextWord, back₁, back₂, push]
  | cubicTo control₁ control₂ point =>
      exact ⟨.cubicTo, coordinates [control₁, control₂, point], rfl, rfl, rfl,
        fits32_coordinates, fun _ => rfl⟩

/-! ## Whole paths -/

/-- The reader has all the words of a command that fits. -/
theorem Appends.reads {store next : PathStore} {command : PathCommand} {tag : Tag}
    {words : List Int} (appends : store.Appends next command tag words)
    (fits : command.Fits32) (rest : List Int) :
    Cursor.Reads ⟨words ++ rest, store.current, store.start⟩ tag := by
  constructor
  · rw [List.length_append, appends.counted]
    exact Nat.le_add_right _ _
  · rw [appends.leads]
    exact fits

/-- Recorded commands are appended to the tags and to the words.  A reader that stands where
the store does gets them back and stands where the store does afterward. -/
theorem exists_readAll_recordAll (store : PathStore) (commands : List PathCommand) :
    ∃ tags words, (store.recordAll commands).tags.toList = store.tags.toList ++ tags ∧
      (store.recordAll commands).words.toList = store.words.toList ++ words ∧
      (∀ rest, Cursor.readAll ⟨words ++ rest, store.current, store.start⟩ tags =
        (⟨rest, (store.recordAll commands).current, (store.recordAll commands).start⟩,
          commands)) ∧
      ((∀ command ∈ commands, command.Fits32) → (∀ word ∈ words, Word.Fits32 word) ∧
        ∀ rest, Cursor.ReadsAll ⟨words ++ rest, store.current, store.start⟩ tags) := by
  induction commands generalizing store with
  | nil =>
      refine ⟨[], [], by simp [recordAll], by simp [recordAll], fun _ => rfl, ?_⟩
      exact fun _ => ⟨fun _ absent => (nomatch absent), fun _ => trivial⟩
  | cons command later inductionHypothesis =>
      obtain ⟨tag, first, appends⟩ := store.exists_appends_record command
      obtain ⟨tags, words, tagsEq, wordsEq, reads, exact⟩ :=
        inductionHypothesis (store.record command)
      refine ⟨tag :: tags, first ++ words, ?_, ?_, ?_, ?_⟩
      · rw [recordAll, List.foldl_cons]
        change ((store.record command).recordAll later).tags.toList = _
        rw [tagsEq, appends.tags, Array.toList_push, List.append_assoc]
        rfl
      · rw [recordAll, List.foldl_cons]
        change ((store.record command).recordAll later).words.toList = _
        rw [wordsEq, appends.stream, Array.toList_appendList, List.append_assoc]
      · intro rest
        rw [List.append_assoc, Cursor.readAll_cons, appends.leads, reads]
        rfl
      · intro fits
        have fitsHere := fits command List.mem_cons_self
        obtain ⟨wordsFit, readsLater⟩ := exact fun other member =>
          fits other (List.mem_cons_of_mem _ member)
        constructor
        · intro word member
          rcases List.mem_append.mp member with here | after
          · exact appends.fits fitsHere word here
          · exact wordsFit word after
        · intro rest
          rw [List.append_assoc]
          refine ⟨appends.reads fitsHere _, ?_⟩
          rw [appends.leads]
          exact readsLater rest

/-- Commands that are recorded in a new or cleared store read back unchanged.  The reader
takes every word of the stream and no other, and all points that it meets fit their
coordinates.  The commands that are read back make an equal store. -/
theorem lossless_of_fresh {store : PathStore}
    (fresh : store = .empty ∨ ∃ used : PathStore, store = used.clear)
    {commands : List PathCommand} (fits : ∀ command ∈ commands, command.Fits32) :
    (store.recordAll commands).commands = commands ∧
      (Cursor.readAll ⟨(store.recordAll commands).words.toList, .origin, .origin⟩
        (store.recordAll commands).tags.toList).1.words = [] ∧
      Cursor.ReadsAll ⟨(store.recordAll commands).words.toList, .origin, .origin⟩
        (store.recordAll commands).tags.toList ∧
      (∀ word ∈ (store.recordAll commands).words.toList, Word.Fits32 word) ∧
      PathStore.empty.recordAll (store.recordAll commands).commands =
        store.recordAll commands := by
  obtain rfl : store = .empty := by
    rcases fresh with same | ⟨used, cleared⟩
    · exact same
    · rw [cleared, clear_eq_empty]
  obtain ⟨tags, words, tagsEq, wordsEq, reads, exact⟩ := empty.exists_readAll_recordAll commands
  obtain ⟨wordsFit, readsAll⟩ := exact fits
  have allTags : (empty.recordAll commands).tags.toList = tags := tagsEq
  have allWords : (empty.recordAll commands).words.toList = words ++ [] := by
    rw [wordsEq, List.append_nil]
    rfl
  have back : (empty.recordAll commands).commands = commands := by
    rw [PathStore.commands, allTags, allWords]
    exact congrArg Prod.snd (reads [])
  refine ⟨back, ?_, ?_, ?_, ?_⟩
  · rw [allTags, allWords]
    exact congrArg (fun read => read.1.words) (reads [])
  · rw [allTags, allWords]
    exact readsAll []
  · rw [allWords, List.append_nil]
    exact wordsFit
  · rw [back]

/-- A path at both ends of the coordinates: the differences of its second and third points
from the current one are too long to be packed, those of the curve are not. -/
theorem lossless_of_fresh_extremes :
    let used := empty.record (.moveTo ⟨7, 7⟩)
    let commands : List PathCommand :=
      [.close, .lineTo ⟨-2147483648, 5⟩, .lineTo ⟨2147483647, 5⟩,
        .quadTo ⟨2147450879, 32772⟩ ⟨2147483647, -32763⟩, .finish, .lineTo ⟨1, 1⟩, .close]
    (∀ command ∈ commands, command.Fits32) ∧
      (used.clear.recordAll commands).tags.toList =
        [.close, .lineTo, .lineTo, .shortQuadTo, .finish, .shortLineTo, .close] ∧
      (used.clear.recordAll commands).commands = commands := by
  have fits : ∀ command ∈ ([.close, .lineTo ⟨-2147483648, 5⟩, .lineTo ⟨2147483647, 5⟩,
      .quadTo ⟨2147450879, 32772⟩ ⟨2147483647, -32763⟩, .finish, .lineTo ⟨1, 1⟩,
      .close] : List PathCommand), command.Fits32 := by decide
  exact ⟨fits, by decide, (lossless_of_fresh (.inr ⟨_, rfl⟩) fits).1⟩

end PathStore

end Raster
