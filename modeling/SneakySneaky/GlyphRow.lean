import SneakySneaky.MrWright

/-! # The row of displayed glyphs

What `displayGlyphs_` shows follows from the sequence that is being matched, as it was drawn, and
from how much of it has been matched.  `UpdateDisplayGlyphs` rebuilds the row only when its length
differs from that of the front sequence, so the row is right because each sequence was drawn longer
than the one before. -/

namespace SneakySneaky

open SneakySneaky.Foundation

variable {Material Time : Type*}

/-! ## The row of a sequence -/

/-- The colour that the code has given to a node of the row when the node is at `position`. -/
def rowColor (position i : ℕ) : Option Color :=
  if i < position then some .green
  else if i = position then (if i = 0 then none else some .white)
  else some .gray

def glyphRow (drawn : List Material) (position : ℕ) : List (DisplayGlyph Material) :=
  drawn.mapIdx fun i glyph => ⟨glyph, rowColor position i⟩

@[simp] theorem length_glyphRow (drawn : List Material) (position : ℕ) :
    (glyphRow drawn position).length = drawn.length := by
  simp [glyphRow]

theorem glyphRow_zero (drawn : List Material) :
    glyphRow drawn 0 = drawn.mapIdx fun i glyph => ⟨glyph, if 0 < i then some .gray else none⟩ := by
  rw [glyphRow]
  congr 1
  funext i glyph
  by_cases first : i = 0
  · simp [rowColor, first]
  · have positive : 0 < i := Nat.pos_of_ne_zero first
    simp [rowColor, first, positive]

/-- A match paints the node at the position green and the next one, if there is one, white. -/
theorem glyphRow_advance (drawn : List Material) (position : ℕ) :
    ((glyphRow drawn position).modify position ({ · with diffColor := some .green })).modify (position + 1)
      ({ · with diffColor := some .white }) = glyphRow drawn (position + 1) := by
  apply List.ext_getElem?
  intro i
  simp only [List.getElem?_modify, glyphRow, List.getElem?_mapIdx, Option.map_eq_map, Option.map_map]
  congr 1
  funext glyph
  simp only [Function.comp]
  -- A node is matched, at the position, next to it, or later.
  rcases Nat.lt_trichotomy i position with before | here | after
  · have unpainted : ¬ position = i ∧ ¬ position + 1 = i := by omega
    simp [rowColor, unpainted, before, Nat.lt_succ_of_lt before]
  · subst here
    simp [rowColor]
  · by_cases next : i = position + 1
    · subst next
      simp [rowColor]
    · have unpainted : ¬ position = i ∧ ¬ position + 1 = i ∧ ¬ i < position ∧ ¬ i < position + 1 ∧
          ¬ i = position := by omega
      simp [rowColor, unpainted, next]

/-! ## What every step keeps -/

namespace PuzzleRoom

/-- The row shows the sequence that is being matched as it was drawn, and how far it is matched. -/
structure RowShows (drawn : List (GlyphSequence Material)) (room : PuzzleRoom Material Time) : Prop where
  cleared : room.wright.sequences = [] → room.wright.displayGlyphs = []
  row : ∀ current later, room.wright.sequences = current :: later → ∃ full position,
    (full :: later) <:+ drawn ∧ current.glyphs = full.glyphs.drop position ∧
      room.wright.displayGlyphs = glyphRow full.glyphs position

/-- Each sequence is drawn longer than the one before. -/
def Growing (drawn : List (GlyphSequence Material)) : Prop :=
  (drawn.map fun sequence => sequence.glyphs.length).Pairwise (· < ·)

theorem Growing.next_ne {drawn : List (GlyphSequence Material)} (growing : Growing drawn)
    {full next : GlyphSequence Material} {later : List (GlyphSequence Material)}
    (suffix : (full :: next :: later) <:+ drawn) : full.glyphs.length ≠ next.glyphs.length := by
  have pairwise : ((full :: next :: later).map fun sequence => sequence.glyphs.length).Pairwise (· < ·) :=
    List.Pairwise.sublist (suffix.sublist.map _) growing
  exact (List.rel_of_pairwise_cons pairwise List.mem_cons_self).ne

theorem RowShows.quiet {drawn : List (GlyphSequence Material)} {room next : PuzzleRoom Material Time}
    (shows : RowShows drawn room) (sequences : next.wright.sequences = room.wright.sequences)
    (displayGlyphs : next.wright.displayGlyphs = room.wright.displayGlyphs) : RowShows drawn next := by
  constructor
  · rw [sequences, displayGlyphs]
    exact shows.cleared
  · rw [sequences, displayGlyphs]
    exact shows.row

theorem RowShows.displayed {drawn : List (GlyphSequence Material)} {room : PuzzleRoom Material Time}
    (shows : RowShows drawn room) : room.wright.Displayed := by
  intro current later shape
  obtain ⟨full, position, -, remains, row⟩ := shows.row current later shape
  rw [remains, row, length_glyphRow, List.length_drop]
  exact Nat.sub_le _ _

/-- A row of another length is rebuilt. -/
theorem RowShows.updateDisplayGlyphs {drawn : List (GlyphSequence Material)} {posters : List Material}
    {wright : MrWright Material Time} (suffix : wright.sequences <:+ drawn)
    (differs : ∀ current later, wright.sequences = current :: later →
      wright.displayGlyphs.length ≠ current.glyphs.length) :
    RowShows drawn ⟨posters, wright.updateDisplayGlyphs⟩ := by
  constructor
  · intro finished
    rw [MrWright.updateDisplayGlyphs_sequences] at finished
    simp only [MrWright.updateDisplayGlyphs, finished]
  · intro current later shape
    rw [MrWright.updateDisplayGlyphs_sequences] at shape
    refine ⟨current, 0, shape ▸ suffix, rfl, ?_⟩
    simp only [MrWright.updateDisplayGlyphs, shape, if_pos (differs current later shape), glyphRow_zero]

theorem RowShows.matchFront {drawn : List (GlyphSequence Material)} (growing : Growing drawn)
    {room : PuzzleRoom Material Time} (shows : RowShows drawn room) {current : GlyphSequence Material}
    {later : List (GlyphSequence Material)} (shape : room.wright.sequences = current :: later) :
    RowShows drawn { room with wright := room.wright.matchFront current later } := by
  obtain ⟨full, position, suffix, remains, row⟩ := shows.row current later shape
  have size : current.glyphs.length = full.glyphs.length - position := by
    rw [remains, List.length_drop]
  have some_left : 0 < current.glyphs.length := by simp [GlyphSequence.glyphs]
  have index : room.wright.displayGlyphs.length - current.glyphs.length = position := by
    rw [row, length_glyphRow]
    omega
  have painted : (room.wright.displayGlyphs.modify position ({ · with diffColor := some .green })).modify
      (position + 1) ({ · with diffColor := some .white }) = glyphRow full.glyphs (position + 1) := by
    rw [row, glyphRow_advance]
  obtain ⟨front, rest⟩ := current
  cases rest with
  | nil =>
    simp only [MrWright.matchFront, index, painted, List.isEmpty_nil, if_true]
    apply RowShows.updateDisplayGlyphs
    · exact (List.suffix_cons full later).trans suffix
    · intro next later' shape'
      rw [length_glyphRow]
      change later = next :: later' at shape'
      subst shape'
      exact growing.next_ne suffix
  | cons next rest =>
    simp only [MrWright.matchFront, index, painted, List.isEmpty_cons, Bool.false_eq_true, if_false]
    constructor
    · intro finished
      cases finished
    · intro current' later' shape'
      obtain ⟨rfl, rfl⟩ := List.cons_eq_cons.mp shape'
      refine ⟨full, position + 1, suffix, ?_, rfl⟩
      change next :: rest = _
      rw [← List.drop_drop, ← remains]
      rfl

section Steps

variable [DecidableEq Material] [Add Time] [LT Time] [DecidableLT Time] [OfNat Time 0] [OfNat Time 10]

theorem RowShows.step {drawn : List (GlyphSequence Material)} (growing : Growing drawn)
    {room : PuzzleRoom Material Time} (shows : RowShows drawn room) (cache : SoundCache)
    (event : PuzzleEvent Time) : RowShows drawn (room.step cache event).1 := by
  cases event with
  | update timeStep random =>
    obtain ⟨swapTimer, posters, -, stepped⟩ := step_update cache room timeStep random
    rw [stepped]
    exact shows.quiet rfl rfl
  | touch poster otherIsPerson =>
    rcases step_touch cache room poster otherIsPerson with
      ⟨current, later, shape, -, -, stepped⟩ | ⟨result, -, -, stepped⟩
    · rw [stepped]
      exact shows.matchFront growing shape
    · rw [stepped]
      exact shows

end Steps

end PuzzleRoom

end SneakySneaky
