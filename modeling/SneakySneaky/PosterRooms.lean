import SneakySneaky.GlyphObjects
import SneakySneaky.Level

/-! # Rooms with posters

In a room with at least six posters the sequences can be drawn, and the row of displayed glyphs
tracks the puzzle through every handler.  The node at the position is white, except that the first
node of a row keeps the colour of its glyph, which may be grey.  With fewer posters `DelayedStart`
reads beyond the end of its pool. -/

namespace SneakySneaky

open SneakySneaky.Foundation

variable {Time : Type*}

/-! ## The row tracks the puzzle -/

/-- The materials of the posters that loading the objects of a room creates. -/
def posterMaterials (conversions : Conversions) (root : XMLElement) : List String :=
  RoomContents.posters ⟨(root.childrenNamed "object").map (LoadLevel.loadObject conversions), [], []⟩

theorem posters_loadRoom {conversions : Conversions} {cache : SoundCache} {position : Vector3}
    {root : XMLElement} {fuel : ℕ} {contents : RoomContents}
    (loaded : LoadLevel.loadRoom conversions cache position root fuel = some contents) :
    contents.posters = posterMaterials conversions root := by
  obtain ⟨objects, loadedObjects, loaded⟩ := Option.bind_eq_some_iff.mp loaded
  obtain ⟨guards, -, loaded⟩ := Option.bind_eq_some_iff.mp loaded
  obtain ⟨zones, -, rfl⟩ := Option.map_eq_some_iff.mp loaded
  rw [posterMaterials, ← LoadLevel.loadObjects_returned conversions loadedObjects]
  rfl

/-- The row is that of `full`, of which `current` remains. -/
structure ShowsSequence (cached : List MaterialObject) (objects : GlyphRoom Time)
    (full current : List MaterialPointer) : Prop where
  size : objects.displayGlyphs.length = full.length
  unmatched : current ≠ []
  remains : current = full.drop (objects.displayGlyphs.length - current.length)
  distinct : objects.displayGlyphs.Nodup
  unshared : ∀ pointer ∈ objects.displayGlyphs, some pointer ∉ objects.posters ∧ some pointer ∉ full
  copies : ∀ i glyph, full[i]? = some glyph → ∃ pointer original,
    objects.displayGlyphs[i]? = some pointer ∧ dereference cached glyph = .ok original ∧
      objects.materials[pointer]? = some
        { original with
          diffColor := (rowColor (objects.displayGlyphs.length - current.length) i).getD original.diffColor }

structure RowTracks (cached : List MaterialObject) (drawn : List (List MaterialPointer))
    (objects : GlyphRoom Time) : Prop where
  cleared : objects.sequences = [] → objects.displayGlyphs = []
  /-- Nothing is painted on the materials of the posters. -/
  unchanged : cached <+: objects.materials
  tracks : ∀ current later, objects.sequences = current :: later →
    ∃ full, (full :: later) <:+ drawn ∧ ShowsSequence cached objects full current

section Tracking

variable {cached : List MaterialObject} {created : List MaterialPointer}

theorem Refines.showsSequence {objects : GlyphRoom Time} {room : PuzzleRoom MaterialPointer Time}
    (refines : Refines cached created objects room) {full current : GlyphSequence MaterialPointer} {position : ℕ}
    (remains : current.glyphs = full.glyphs.drop position)
    (row : room.wright.displayGlyphs = glyphRow full.glyphs position) :
    ShowsSequence cached objects full.glyphs current.glyphs := by
  have displays := refines.displays
  rw [row] at displays
  have size : objects.displayGlyphs.length = full.glyphs.length := by
    rw [displays.copies.length_eq, length_glyphRow]
  have left : current.glyphs.length = full.glyphs.length - position := by
    rw [remains, List.length_drop]
  have unmatched : current.glyphs ≠ [] := by simp [GlyphSequence.glyphs]
  have some_left : 0 < current.glyphs.length := List.length_pos_of_ne_nil unmatched
  have position_eq : objects.displayGlyphs.length - current.glyphs.length = position := by omega
  have copies : ∀ i glyph, full.glyphs[i]? = some glyph → ∃ pointer original,
      objects.displayGlyphs[i]? = some pointer ∧ dereference cached glyph = .ok original ∧
        objects.materials[pointer]? = some
          { original with diffColor := (rowColor position i).getD original.diffColor } := by
    intro i glyph glyphAt
    have shown : (glyphRow full.glyphs position)[i]? = some ⟨glyph, rowColor position i⟩ := by
      rw [glyphRow, List.getElem?_mapIdx, glyphAt]
      rfl
    obtain ⟨pointer, nodeAt, original, cloned, stored⟩ := displays.nodeAt shown
    exact ⟨pointer, original, nodeAt, cloned, stored⟩
  constructor
  · exact size
  · exact unmatched
  · rw [position_eq, remains]
  · exact displays.distinct
  -- The clones were made after the cached objects, to which posters and sequences point.
  · intro pointer member
    have fresh := displays.fresh pointer member
    constructor
    · intro onPoster
      rw [refines.posters] at onPoster
      have cachedPointer := refines.owned pointer (refines.permuted.mem_iff.mp onPoster)
      omega
    · intro inSequence
      obtain ⟨i, glyphAt⟩ := List.mem_iff_getElem?.mp inSequence
      obtain ⟨clone, original, -, found, -⟩ := copies i _ glyphAt
      have cachedPointer := dereference_ok_lt found
      omega
  · rw [position_eq]
    exact copies

theorem Refines.rowTracks {objects : GlyphRoom Time} {room : PuzzleRoom MaterialPointer Time}
    (refines : Refines cached created objects room) {drawn : List (GlyphSequence MaterialPointer)}
    (shows : PuzzleRoom.RowShows drawn room) :
    RowTracks cached (drawn.map GlyphSequence.glyphs) objects := by
  constructor
  · intro finished
    rw [refines.sequences, List.map_eq_nil_iff] at finished
    have size := refines.displays.copies.length_eq
    rw [shows.cleared finished] at size
    exact List.eq_nil_of_length_eq_zero size
  · exact refines.displays.unchanged
  · intro current later shape
    rw [refines.sequences] at shape
    obtain ⟨front, rest, undrawn, rfl, rfl⟩ := List.map_eq_cons_iff.mp shape
    obtain ⟨full, position, suffix, remains, row⟩ := shows.row front rest undrawn
    exact ⟨full.glyphs, suffix.map GlyphSequence.glyphs, refines.showsSequence remains row⟩

end Tracking

/-! ## Every room with six posters -/

theorem MaterialCache.owned (materialCache : MaterialCache) (names : List String) :
    ∀ pointer, some pointer ∈ names.map materialCache.getResource → pointer < materialCache.materials.length := by
  intro pointer member
  obtain ⟨name, -, found⟩ := List.mem_map.mp member
  exact materialCache.loaded name pointer found

section Rooms

variable [Add Time] [LT Time] [DecidableLT Time] [OfNat Time 0] [OfNat Time 10]

/-- What holds of the handlers of a room from `DelayedStart` on: none of them faults, unless a poster
    has no material, and after each of them the row tracks the sequences that were drawn. -/
structure AlwaysTracks (materialCache : MaterialCache) (posters : List MaterialPointer)
    (started : Except Fault (GlyphRoom Time)) : Prop where
  faults : ∀ events fault, GlyphRoom.runAll started events = .error fault →
    fault = .nullMaterial ∧ none ∈ posters
  tracks : ∀ first events objects, started = .ok first → GlyphRoom.runAll started events = .ok objects →
    RowTracks materialCache.materials first.sequences objects

/-- In a room with at least six posters the row tracks the puzzle whatever happens in it. -/
theorem glyph_row_tracks (conversions : Conversions) (materialCache : MaterialCache) (root : XMLElement)
    (enough : 6 ≤ (posterMaterials conversions root).length) (random : Random) (swapTimer : Time) :
    AlwaysTracks materialCache ((posterMaterials conversions root).map materialCache.getResource)
      (GlyphRoom.delayedStart materialCache.materials
        ((posterMaterials conversions root).map materialCache.getResource) random swapTimer) := by
  have owned := materialCache.owned (posterMaterials conversions root)
  generalize posterMaterials conversions root = names at enough owned
  have sixPosters : 6 ≤ (names.map materialCache.getResource).length := by rwa [List.length_map]
  obtain ⟨drawn, room, growing, -, -, drawnRoom, shows, simulates⟩ :=
    delayedStart_simulates owned sixPosters random swapTimer
  generalize GlyphRoom.delayedStart materialCache.materials (names.map materialCache.getResource) random
    swapTimer = started at simulates
  constructor
  · intro events fault failed
    exact simulates.fault growing shows failed
  · intro first events objects begun succeeded
    have sequences : first.sequences = drawn.map GlyphSequence.glyphs := by
      subst begun
      cases simulates with
      | done refines => rw [refines.sequences, drawnRoom]
    obtain ⟨simulated, shows⟩ := simulates.runAll growing shows (fun _ => none) events
    rw [succeeded] at simulated
    cases simulated with
    | done refines =>
      rw [sequences]
      exact refines.rowTracks shows

end Rooms

/-! ### A grey row -/

def posterRoom (count : ℕ) (material : String) : XMLElement :=
  .mk "room" [] "" (List.replicate count
    (.mk "object" [("interaction", "InteractablePoster"), ("material", material)] "" []))

/-- The only material is `DefaultGrey`, which has no texture and a grey `MatDiffColor`. -/
def greyCache : MaterialCache where
  materials := [⟨"", .gray⟩]
  getResource name := if name = "Materials/DefaultGrey.xml" then some 0 else none
  loaded := by
    intro name pointer found
    split at found
    · cases found
      exact Nat.zero_lt_one
    · cases found

def noConversions : Conversions := ⟨fun _ => false, fun _ => 0, fun _ => ⟨0, 0⟩, fun _ => ⟨0, 0, 0⟩⟩

theorem glyph_row_tracks_grey :
    AlwaysTracks greyCache ((posterMaterials noConversions (posterRoom 6 "DefaultGrey")).map greyCache.getResource)
      (GlyphRoom.delayedStart greyCache.materials
        ((posterMaterials noConversions (posterRoom 6 "DefaultGrey")).map greyCache.getResource)
        Random.first (0 : ℤ)) :=
  glyph_row_tracks noConversions greyCache (posterRoom 6 "DefaultGrey") (by decide) Random.first (0 : ℤ)

/-- The node at the position is grey from the start when its glyph is: the first node of a row is not
    painted. -/
theorem grey_glyph_unpainted :
    ∃ first current later pointer object,
      GlyphRoom.delayedStart greyCache.materials
        ((posterMaterials noConversions (posterRoom 6 "DefaultGrey")).map greyCache.getResource)
        Random.first (0 : ℤ) = .ok first ∧
      first.sequences = current :: later ∧
      first.displayGlyphs[first.displayGlyphs.length - current.length]? = some pointer ∧
      first.materials[pointer]? = some object ∧ object.diffColor = .gray :=
  ⟨⟨[⟨"", .gray⟩, ⟨"", .gray⟩, ⟨"", .gray⟩], List.replicate 6 (some 0), 0,
      [List.replicate 2 (some 0), List.replicate 4 (some 0), List.replicate 6 (some 0)], [1, 2]⟩,
    [some 0, some 0], _, 1, ⟨"", .gray⟩, rfl, rfl, rfl, rfl, rfl⟩

/-! ## The draws, whatever the number of posters -/

/-- The glyphs of the sequence are those of different posters. -/
def DistinctPosters (posters sequence : List MaterialPointer) : Prop :=
  ∃ places : List ℕ, places.Nodup ∧ sequence.map some = places.map (posters[·]?)

theorem drawSequences_distinct {random : Random} {glyphs : List MaterialPointer} {sequenceCount : ℕ} :
    ∀ {glyphCount drawn : ℕ} {sequences : List (List MaterialPointer)},
      GlyphRoom.drawSequences random glyphs sequenceCount glyphCount drawn = .ok sequences →
      ∀ sequence ∈ sequences, DistinctPosters glyphs sequence := by
  induction sequenceCount with
  | zero =>
    rintro glyphCount drawn sequences ⟨⟩ sequence member
    cases member
  | succ sequenceCount inductionHypothesis =>
    intro glyphCount drawn sequences drew
    simp only [GlyphRoom.drawSequences] at drew
    split at drew
    · cases drew
    · rename_i first firstDrawn
      cases laterDrawn : GlyphRoom.drawSequences random glyphs sequenceCount (glyphCount + 2)
          (drawn + glyphCount) with
      | error fault =>
        rw [laterDrawn] at drew
        cases drew
      | ok later =>
        rw [laterDrawn] at drew
        cases drew
        intro sequence member
        cases List.mem_cons.mp member with
        | inl same =>
          subst same
          exact draw_places firstDrawn
        | inr member => exact inductionHypothesis laterDrawn sequence member

/-- The last sequence is two glyphs longer for each one before it. -/
theorem drawSequences_short (random : Random) (glyphs : List MaterialPointer) {sequenceCount : ℕ} :
    ∀ (glyphCount drawn : ℕ), 0 < sequenceCount → glyphs.length + 2 < glyphCount + 2 * sequenceCount →
      GlyphRoom.drawSequences random glyphs sequenceCount glyphCount drawn = .error .outsidePool := by
  induction sequenceCount with
  | zero =>
    intro glyphCount drawn some_sequence
    exact absurd some_sequence (Nat.lt_irrefl 0)
  | succ sequenceCount inductionHypothesis =>
    intro glyphCount drawn _ short
    simp only [GlyphRoom.drawSequences]
    by_cases shortNow : glyphs.length < glyphCount
    · rw [draw_short random drawn glyphCount glyphs shortNow]
    · rw [inductionHypothesis (glyphCount + 2) (drawn + glyphCount) (by omega) (by omega)]
      split <;> rfl

section Draws

variable [Add Time] [LT Time] [DecidableLT Time] [OfNat Time 0] [OfNat Time 10]

/-- `DelayedStart` stays within the pool, stores sequences of glyphs of different posters, and no
    handler after it takes the front of an empty sequence. -/
structure DrawsSafely (materials : List MaterialObject) (posters : List MaterialPointer) (random : Random)
    (swapTimer : Time) : Prop where
  draws : ∃ sequences, GlyphRoom.drawSequences random posters 3 2 0 = .ok sequences ∧
    ∀ sequence ∈ sequences, sequence ≠ [] ∧ DistinctPosters posters sequence
  runs : ∀ events fault,
    GlyphRoom.runAll (GlyphRoom.delayedStart materials posters random swapTimer) events = .error fault →
      fault ≠ .outsidePool ∧ fault ≠ .outsideSequence

theorem draws_safely_iff (conversions : Conversions) (materialCache : MaterialCache) (root : XMLElement)
    (random : Random) (swapTimer : Time) :
    DrawsSafely materialCache.materials ((posterMaterials conversions root).map materialCache.getResource) random
      swapTimer ↔ 6 ≤ (posterMaterials conversions root).length := by
  have owned := materialCache.owned (posterMaterials conversions root)
  have size : (posterMaterials conversions root).length =
      ((posterMaterials conversions root).map materialCache.getResource).length := by rw [List.length_map]
  rw [size]
  generalize (posterMaterials conversions root).map materialCache.getResource = posters at owned
  constructor
  · intro safely
    obtain ⟨sequences, drew, -⟩ := safely.draws
    by_contra few
    rw [drawSequences_short random posters 2 0 (by omega) (by omega)] at drew
    cases drew
  · intro enough
    obtain ⟨drawn, room, growing, drew, -, -, shows, simulates⟩ :=
      delayedStart_simulates owned enough random swapTimer
    constructor
    · refine ⟨drawn.map GlyphSequence.glyphs, drew, fun sequence member => ⟨?_, ?_⟩⟩
      · obtain ⟨front, -, rfl⟩ := List.mem_map.mp member
        simp [GlyphSequence.glyphs]
      · exact drawSequences_distinct drew sequence member
    · intro events fault failed
      obtain ⟨rfl, -⟩ := simulates.fault growing shows failed
      decide

end Draws

/-- A room with five posters: the third sequence is drawn beyond the end of the pool. -/
theorem fivePosters_outsidePool :
    ¬ DrawsSafely greyCache.materials
      ((posterMaterials noConversions (posterRoom 5 "DefaultGrey")).map greyCache.getResource) Random.first (0 : ℤ) := by
  intro safely
  have failed := (safely.runs [] .outsidePool (by decide)).1
  exact failed rfl

end SneakySneaky
