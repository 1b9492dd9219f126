import SneakySneaky.AudioManager
import SneakySneaky.Foundation.Draws

/-! # `MrWright` and his posters

Three sequences of glyphs are drawn from the posters of the room; the player touches
posters and has to match the glyphs in order, while a timer shuffles what the posters
show.  The shuffle permutes the materials of the posters, so that every glyph still to be
matched stays on some poster. -/

namespace SneakySneaky

open SneakySneaky.Foundation

variable {Material Time : Type*}

/-! ## The class -/

/-- A sequence of glyphs that has not been matched to its end: it has a front. -/
structure GlyphSequence (Material : Type*) where
  front : Material
  rest : List Material
  deriving DecidableEq

def GlyphSequence.glyphs (sequence : GlyphSequence Material) : List Material :=
  sequence.front :: sequence.rest

/-- `sequences_.Front()` after `currentSequence.Erase(0)`, and the sequences after it; an empty
    sequence is erased. -/
def GlyphSequence.eraseFront (current : GlyphSequence Material) (later : List (GlyphSequence Material)) :
    List (GlyphSequence Material) :=
  match current.rest with
  | [] => later
  | next :: rest => ⟨next, rest⟩ :: later

/-- A displayed glyph: a clone of the material, with `MatDiffColor` where the code has set it. -/
structure DisplayGlyph (Material : Type*) where
  material : Material
  diffColor : Option Color
  deriving DecidableEq

/-- `swapTimer` is not initialised; `Time` may be any type with the operations of a float. -/
structure MrWright (Material Time : Type*) where
  swapTimer : Time
  sequences : List (GlyphSequence Material)
  displayGlyphs : List (DisplayGlyph Material)
  deriving DecidableEq

/-- How a collision with the zone of a poster was handled. -/
inductive TouchResult (Material : Type*) where
  | ignored
  | noMatch
  | matched (glyph : Material) (played : Option (List AudioQueueEntry))

namespace MrWright

def remaining (wright : MrWright Material Time) : List Material :=
  wright.sequences.flatMap GlyphSequence.glyphs

def updateDisplayGlyphs (wright : MrWright Material Time) : MrWright Material Time :=
  match wright.sequences with
  | [] => { wright with displayGlyphs := [] }
  | current :: _ =>
    if wright.displayGlyphs.length ≠ current.glyphs.length then
      { wright with
        displayGlyphs := current.glyphs.mapIdx fun i glyph => ⟨glyph, if 0 < i then some .gray else none⟩ }
    else wright

/-- The sequences that the loop of `DelayedStart` draws, each from the whole pool and two glyphs
    longer than the one before; `none` when the pool is too small. -/
def drawSequences (random : Random) (glyphs : List Material) :
    ℕ → ℕ → ℕ → Option (List (GlyphSequence Material))
  | 0, _, _ => some []
  | sequenceCount + 1, glyphCount, drawn =>
    -- Each sequence is drawn from a fresh copy of the pool.
    match draw random drawn glyphCount glyphs with
    | some (front :: rest) =>
      (drawSequences random glyphs sequenceCount (glyphCount + 2) (drawn + glyphCount)).map
        (⟨front, rest⟩ :: ·)
    | _ => none

def delayedStart (random : Random) (swapTimer : Time) (glyphs : List Material) :
    Option (MrWright Material Time) :=
  (drawSequences random glyphs 3 2 0).map fun sequences =>
    updateDisplayGlyphs ⟨swapTimer, sequences, []⟩

section Update

variable [Add Time] [LT Time] [DecidableLT Time] [OfNat Time 0] [OfNat Time 10]

/-- `Update` on MrWright and the materials of the posters in his room. -/
def update (wright : MrWright Material Time) (posters : List Material) (timeStep : Time) (random : Random) :
    MrWright Material Time × List Material :=
  let swapTimer := wright.swapTimer + timeStep
  if swapTimer < 10 then ({ wright with swapTimer := swapTimer }, posters)
  else ({ wright with swapTimer := 0 }, shuffle random posters)

end Update

/-- The queue whose entry with the NULL sound ends the level. -/
def finalQueue (cache : SoundCache) : List AudioQueueEntry :=
  [.levelEnd,
    .bossClip (cache "Audio/VO/Black/16_Sigh.wav"),
    .bossClip (cache "Audio/VO/Voice/16_KeepItSecure.wav"),
    .bossClip (cache "Audio/VO/Black/15_Why.wav"),
    .bossClip (cache "Audio/VO/Voice/15_CatFlap.wav"),
    .bossClip (cache "Audio/VO/Black/14_Keys.wav"),
    .bossClip (cache "Audio/VO/Voice/14_No.wav"),
    .bossClip (cache "Audio/VO/Black/13_Petty.wav"),
    .bossClip (cache "Audio/VO/Voice/13_CheckPockets.wav")]

def matchFront (wright : MrWright Material Time) (current : GlyphSequence Material)
    (later : List (GlyphSequence Material)) : MrWright Material Time :=
  let index := wright.displayGlyphs.length - current.glyphs.length
  -- The second assignment is guarded by a bounds check; `modify` beyond the end changes nothing.
  let displayGlyphs := (wright.displayGlyphs.modify index ({ · with diffColor := some .green })).modify
    (index + 1) ({ · with diffColor := some .white })
  let matched := { wright with sequences := current.eraseFront later, displayGlyphs := displayGlyphs }
  -- Only a new sequence rebuilds the row of glyphs.
  if current.rest.isEmpty then matched.updateDisplayGlyphs else matched

/-- The player, or something else, touches the zone of a poster that shows a material. -/
def handleNodeCollision [DecidableEq Material] (wright : MrWright Material Time) (cache : SoundCache)
    (otherIsPerson : Bool) (posterMaterial : Material) : MrWright Material Time × TouchResult Material :=
  match wright.sequences with
  | [] => (wright, .ignored)
  | current :: later =>
    if !otherIsPerson then (wright, .ignored)
    else if posterMaterial ≠ current.front then (wright, .noMatch)
    else
      let next := wright.matchFront current later
      (next, .matched current.front (if next.sequences.isEmpty then some (finalQueue cache) else none))

/-! ## Facts about one call -/

@[simp] theorem updateDisplayGlyphs_sequences (wright : MrWright Material Time) :
    wright.updateDisplayGlyphs.sequences = wright.sequences := by
  obtain ⟨swapTimer, sequences, displayGlyphs⟩ := wright
  cases sequences with
  | nil => rfl
  | cons current later =>
    simp only [updateDisplayGlyphs]
    split <;> rfl

theorem updateDisplayGlyphs_length {wright : MrWright Material Time} {current : GlyphSequence Material}
    {later : List (GlyphSequence Material)} (shape : wright.sequences = current :: later) :
    wright.updateDisplayGlyphs.displayGlyphs.length = current.glyphs.length := by
  simp only [updateDisplayGlyphs, shape]
  split
  · simp
  · rename_i same
    simpa using same

theorem flatMap_eraseFront (current : GlyphSequence Material) (later : List (GlyphSequence Material)) :
    (current.eraseFront later).flatMap GlyphSequence.glyphs =
      current.rest ++ later.flatMap GlyphSequence.glyphs := by
  obtain ⟨front, _ | ⟨next, rest⟩⟩ := current <;> rfl

theorem sequences_eq_nil_iff (wright : MrWright Material Time) :
    wright.sequences = [] ↔ wright.remaining = [] := by
  simp only [remaining]
  cases wright.sequences <;> simp [GlyphSequence.glyphs]

theorem drawSequences_returns (random : Random) (glyphs : List Material) (sequenceCount glyphCount drawn : ℕ)
    (some_glyph : 0 < glyphCount) (enough : glyphCount + 2 * sequenceCount ≤ glyphs.length + 2) :
    ∃ sequences, drawSequences random glyphs sequenceCount glyphCount drawn = some sequences ∧
      sequences.map (fun sequence => sequence.glyphs.length) =
        (List.range sequenceCount).map (fun i => glyphCount + 2 * i) ∧
      sequences.flatMap GlyphSequence.glyphs ⊆ glyphs := by
  induction sequenceCount generalizing glyphCount drawn with
  | zero => exact ⟨[], rfl, rfl, List.nil_subset glyphs⟩
  | succ sequenceCount inductionHypothesis =>
    obtain ⟨later, laterDrawn, laterSizes, laterShown⟩ :=
      inductionHypothesis (glyphCount + 2) (drawn + glyphCount) (by omega) (by omega)
    obtain ⟨items, itemsDrawn, size, shown⟩ := draw_returns random drawn glyphCount glyphs (by omega)
    cases items with
    | nil => simp only [List.length_nil] at size; omega
    | cons front rest =>
      refine ⟨⟨front, rest⟩ :: later, ?_, ?_, ?_⟩
      · simp only [drawSequences, itemsDrawn, laterDrawn, Option.map_some]
      · rw [List.map_cons, laterSizes, List.range_succ_eq_map, List.map_cons, List.map_map]
        simp only [GlyphSequence.glyphs, size, Nat.mul_zero, Nat.add_zero, List.cons.injEq, true_and]
        refine List.map_congr_left fun i _ => ?_
        simp only [Function.comp]
        omega
      · rw [List.flatMap_cons]
        exact List.append_subset.mpr ⟨shown, laterShown⟩

@[simp] theorem matchFront_sequences (wright : MrWright Material Time) (current : GlyphSequence Material)
    (later : List (GlyphSequence Material)) :
    (wright.matchFront current later).sequences = current.eraseFront later := by
  simp only [matchFront]
  split <;> simp

/-- A match takes one glyph off those that remain. -/
theorem remaining_matchFront {wright : MrWright Material Time} {current : GlyphSequence Material}
    {later : List (GlyphSequence Material)} (shape : wright.sequences = current :: later) :
    wright.remaining = current.front :: (wright.matchFront current later).remaining := by
  rw [remaining, remaining, matchFront_sequences, flatMap_eraseFront, shape]
  rfl

/-- The display has a glyph for each one that remains of the front sequence. -/
def Displayed (wright : MrWright Material Time) : Prop :=
  ∀ current later, wright.sequences = current :: later →
    current.glyphs.length ≤ wright.displayGlyphs.length

theorem Displayed.updateDisplayGlyphs (wright : MrWright Material Time) :
    wright.updateDisplayGlyphs.Displayed := by
  intro current later shape
  rw [updateDisplayGlyphs_sequences] at shape
  exact (updateDisplayGlyphs_length shape).ge

theorem Displayed.matchFront {wright : MrWright Material Time} (displayed : wright.Displayed)
    {current : GlyphSequence Material} {later : List (GlyphSequence Material)}
    (shape : wright.sequences = current :: later) : (wright.matchFront current later).Displayed := by
  have fits := displayed current later shape
  obtain ⟨front, rest⟩ := current
  cases rest with
  | nil => exact Displayed.updateDisplayGlyphs _
  | cons next rest =>
    intro current' later' shape'
    rw [matchFront_sequences] at shape'
    obtain ⟨rfl, -⟩ := List.cons_eq_cons.mp shape'
    simp only [GlyphSequence.glyphs, List.length_cons] at fits ⊢
    simp only [MrWright.matchFront, List.isEmpty_cons, Bool.false_eq_true, if_false, List.length_modify]
    omega

end MrWright

def TouchResult.glyph? : TouchResult Material → Option Material
  | .matched glyph _ => some glyph
  | _ => none

def TouchResult.played? : TouchResult Material → Option (List AudioQueueEntry)
  | .matched _ played => played
  | _ => none

/-- The final queue is handed over by the touch that matches the only glyph that remains. -/
theorem MrWright.played_handleNodeCollision [DecidableEq Material] (wright : MrWright Material Time)
    (cache : SoundCache) (material : Material) :
    (wright.handleNodeCollision cache true material).2.played? =
      if wright.remaining = [material] then some (finalQueue cache) else none := by
  simp only [handleNodeCollision]
  cases shape : wright.sequences with
  | nil =>
    rw [(sequences_eq_nil_iff wright).mp shape]
    rfl
  | cons current later =>
    rw [remaining_matchFront shape]
    by_cases required : material = current.front
    · subst required
      simp [TouchResult.played?, ← sequences_eq_nil_iff]
    · have other : ¬ current.front = material := fun same => required same.symm
      simp [TouchResult.played?, required, other]

/-! ## The puzzle room -/

/-- The materials of the posters of MrWright's room, in node order, and MrWright. -/
structure PuzzleRoom (Material Time : Type*) where
  posters : List Material
  wright : MrWright Material Time
  deriving DecidableEq

inductive PuzzleEvent (Time : Type*) where
  | update (timeStep : Time) (random : Random)
  | touch (poster : ℕ) (otherIsPerson : Bool)

namespace PuzzleRoom

def start (random : Random) (swapTimer : Time) (posters : List Material) :
    Option (PuzzleRoom Material Time) :=
  (MrWright.delayedStart random swapTimer posters).map fun wright => ⟨posters, wright⟩

variable [DecidableEq Material] [Add Time] [LT Time] [DecidableLT Time] [OfNat Time 0] [OfNat Time 10]

def step (cache : SoundCache) (room : PuzzleRoom Material Time) :
    PuzzleEvent Time → PuzzleRoom Material Time × TouchResult Material
  | .update timeStep random =>
    let (wright, posters) := room.wright.update room.posters timeStep random
    (⟨posters, wright⟩, .ignored)
  | .touch poster otherIsPerson =>
    match room.posters[poster]? with
    | none => (room, .ignored)
    | some material =>
      let (wright, result) := room.wright.handleNodeCollision cache otherIsPerson material
      ({ room with wright := wright }, result)

/-- The player touches posters one after the other, without an update in between. -/
def touchAll (cache : SoundCache) (room : PuzzleRoom Material Time) (touches : List ℕ) :
    PuzzleRoom Material Time :=
  run (fun room poster => (room.step cache (.touch poster true)).1) room touches

end PuzzleRoom

abbrev PuzzlePast (Material Time : Type*) := List (PuzzleEvent Time × TouchResult Material)

/-- The glyphs matched, oldest first. -/
def PuzzlePast.matched (past : PuzzlePast Material Time) : List Material :=
  past.reverse.filterMap fun entry => entry.2.glyph?

/-- The queues handed to `AudioManager::Play`, oldest first. -/
def PuzzlePast.played (past : PuzzlePast Material Time) : List (List AudioQueueEntry) :=
  past.reverse.filterMap fun entry => entry.2.played?

/-! ## What every step keeps -/

namespace PuzzleRoom

def Shown (room : PuzzleRoom Material Time) : Prop := room.wright.remaining ⊆ room.posters

/-- Where the puzzle stands when `drawn` were the glyphs at the start. -/
structure Progress (cache : SoundCache) (drawn : List Material) (room : PuzzleRoom Material Time)
    (past : PuzzlePast Material Time) : Prop where
  shown : room.Shown
  displayed : room.wright.Displayed
  /-- The glyphs were matched in the order in which they were drawn. -/
  matched : past.matched ++ room.wright.remaining = drawn
  /-- The final queue was played once if no glyph remains, and not at all otherwise. -/
  played : past.played = if room.wright.remaining.isEmpty then [MrWright.finalQueue cache] else []

theorem Progress.quiet {cache : SoundCache} {drawn : List Material} {room next : PuzzleRoom Material Time}
    {past : PuzzlePast Material Time} (progress : Progress cache drawn room past) {event : PuzzleEvent Time}
    {result : TouchResult Material} (glyphless : result.glyph? = none) (silent : result.played? = none)
    (shown : next.Shown) (sequences : next.wright.sequences = room.wright.sequences)
    (displayGlyphs : next.wright.displayGlyphs = room.wright.displayGlyphs) :
    Progress cache drawn next ((event, result) :: past) := by
  have remains : next.wright.remaining = room.wright.remaining := by
    rw [MrWright.remaining, sequences, MrWright.remaining]
  constructor
  · exact shown
  · intro current later shape
    rw [displayGlyphs]
    exact progress.displayed current later (sequences ▸ shape)
  · rw [remains, ← progress.matched]
    simp [PuzzlePast.matched, glyphless]
  · rw [remains, ← progress.played]
    simp [PuzzlePast.played, silent]

section Steps

variable [DecidableEq Material] [Add Time] [LT Time] [DecidableLT Time] [OfNat Time 0] [OfNat Time 10]

/-- An update leaves the glyphs alone and permutes what the posters show. -/
theorem step_update (cache : SoundCache) (room : PuzzleRoom Material Time) (timeStep : Time) (random : Random) :
    ∃ swapTimer posters, posters.Perm room.posters ∧
      room.step cache (.update timeStep random) =
        (⟨posters, { room.wright with swapTimer := swapTimer }⟩, .ignored) := by
  simp only [step, MrWright.update]
  split
  · exact ⟨_, _, List.Perm.refl _, rfl⟩
  · exact ⟨_, _, shuffle_perm random room.posters, rfl⟩

/-- A touch is a match of the required glyph, or it changes and plays nothing. -/
theorem step_touch (cache : SoundCache) (room : PuzzleRoom Material Time) (poster : ℕ) (otherIsPerson : Bool) :
    (∃ current later, room.wright.sequences = current :: later ∧ otherIsPerson = true ∧
      room.posters[poster]? = some current.front ∧
      room.step cache (.touch poster otherIsPerson) =
        ({ room with wright := room.wright.matchFront current later },
          .matched current.front (if (current.eraseFront later).isEmpty
            then some (MrWright.finalQueue cache) else none))) ∨
    (∃ result : TouchResult Material, result.glyph? = none ∧ result.played? = none ∧
      room.step cache (.touch poster otherIsPerson) = (room, result)) := by
  simp only [step]
  split
  · exact .inr ⟨.ignored, rfl, rfl, rfl⟩
  · rename_i material shows
    simp only [MrWright.handleNodeCollision]
    split
    · exact .inr ⟨.ignored, rfl, rfl, rfl⟩
    · rename_i current later shape
      cases otherIsPerson with
      | false => exact .inr ⟨.ignored, rfl, rfl, rfl⟩
      | true =>
        by_cases required : material = current.front
        · subst required
          refine .inl ⟨current, later, shape, rfl, shows, ?_⟩
          simp
        · refine .inr ⟨.noMatch, rfl, rfl, ?_⟩
          simp [required]

theorem Progress.step {cache : SoundCache} {drawn : List Material} {room : PuzzleRoom Material Time}
    {past : PuzzlePast Material Time} (progress : Progress cache drawn room past) (event : PuzzleEvent Time) :
    Progress cache drawn (room.step cache event).1 ((event, (room.step cache event).2) :: past) := by
  cases event with
  | update timeStep random =>
    obtain ⟨swapTimer, posters, permuted, stepped⟩ := step_update cache room timeStep random
    rw [stepped]
    -- The posters change places, and every glyph stays on one of them.
    refine progress.quiet rfl rfl ?_ rfl rfl
    exact fun glyph remains => permuted.mem_iff.mpr (progress.shown remains)
  | touch poster otherIsPerson =>
    rcases step_touch cache room poster otherIsPerson with
      ⟨current, later, shape, -, -, stepped⟩ | ⟨result, glyphless, silent, stepped⟩
    · rw [stepped]
      have remains := MrWright.remaining_matchFront shape
      constructor
      · intro glyph member
        exact progress.shown (remains ▸ List.mem_cons_of_mem _ member)
      · exact progress.displayed.matchFront shape
      · rw [← progress.matched, remains]
        simp [PuzzlePast.matched, TouchResult.glyph?]
      -- Nothing was played while a glyph remained; the last match plays.
      · have before : past.played = [] := by
          rw [progress.played, remains]; rfl
        have last : (current.eraseFront later).isEmpty =
            (room.wright.matchFront current later).remaining.isEmpty := by
          rw [Bool.eq_iff_iff, List.isEmpty_iff, List.isEmpty_iff, ← MrWright.sequences_eq_nil_iff,
            MrWright.matchFront_sequences]
        have played : PuzzlePast.played ((PuzzleEvent.touch poster otherIsPerson,
            TouchResult.matched current.front (if (current.eraseFront later).isEmpty
              then some (MrWright.finalQueue cache) else none)) :: past) =
            past.played ++ if (current.eraseFront later).isEmpty then [MrWright.finalQueue cache] else [] := by
          cases (current.eraseFront later).isEmpty <;> simp [PuzzlePast.played, TouchResult.played?]
        rw [played, before, last, List.nil_append]
    · rw [stepped]
      exact progress.quiet glyphless silent progress.shown rfl rfl

theorem step_touch_required {cache : SoundCache} {room : PuzzleRoom Material Time}
    {current : GlyphSequence Material}
    {later : List (GlyphSequence Material)} (shape : room.wright.sequences = current :: later) {poster : ℕ}
    (shows : room.posters[poster]? = some current.front) :
    (room.step cache (.touch poster true)).1 = { room with wright := room.wright.matchFront current later } := by
  simp [step, shows, MrWright.handleNodeCollision, shape]

/-- As long as every glyph that remains is shown, touches finish the puzzle, one for each glyph. -/
theorem touchAll_finishes {cache : SoundCache} {room : PuzzleRoom Material Time} (shown : room.Shown) :
    ∃ touches : List ℕ, touches.length = room.wright.remaining.length ∧
      (room.touchAll cache touches).wright.sequences = [] := by
  -- Induction on the glyphs that remain: some poster shows the first of them.
  generalize remains : room.wright.remaining = glyphs
  induction glyphs generalizing room with
  | nil => exact ⟨[], rfl, (MrWright.sequences_eq_nil_iff _).mpr remains⟩
  | cons glyph glyphs inductionHypothesis =>
    cases shape : room.wright.sequences with
    | nil =>
      rw [(MrWright.sequences_eq_nil_iff _).mp shape] at remains
      cases remains
    | cons current later =>
      have split := MrWright.remaining_matchFront shape
      obtain ⟨poster, shows⟩ := List.mem_iff_getElem?.mp (shown (split ▸ List.mem_cons_self))
      rw [split] at remains
      obtain ⟨-, remainsLater⟩ := List.cons_eq_cons.mp remains
      have shownLater : Shown { room with wright := room.wright.matchFront current later } :=
        fun _ member => shown (split ▸ List.mem_cons_of_mem _ member)
      obtain ⟨touches, count, finishes⟩ := inductionHypothesis shownLater remainsLater
      refine ⟨poster :: touches, by rw [List.length_cons, List.length_cons, count], ?_⟩
      rw [touchAll, run_cons, step_touch_required shape shows]
      exact finishes

theorem touchAll_remaining (cache : SoundCache) (room : PuzzleRoom Material Time) (touches : List ℕ) :
    room.wright.remaining.length ≤ touches.length + (room.touchAll cache touches).wright.remaining.length := by
  induction touches generalizing room with
  | nil => simp [touchAll]
  | cons poster touches inductionHypothesis =>
    have later := inductionHypothesis (room.step cache (.touch poster true)).1
    have taken : room.wright.remaining.length ≤
        (room.step cache (.touch poster true)).1.wright.remaining.length + 1 := by
      rcases step_touch cache room poster true with
        ⟨current, rest, shape, -, -, stepped⟩ | ⟨result, -, -, stepped⟩
      · rw [stepped, MrWright.remaining_matchFront shape, List.length_cons]
      · rw [stepped]
        exact Nat.le_succ _
    rw [List.length_cons, touchAll, run_cons]
    change _ ≤ _ + (touchAll cache (room.step cache (.touch poster true)).1 touches).wright.remaining.length
    omega

end Steps

end PuzzleRoom

/-! ## The puzzle is solvable, and only by the right touches -/

section Puzzle

variable [DecidableEq Material] [Add Time] [LT Time] [DecidableLT Time] [OfNat Time 0] [OfNat Time 10]

structure Solvable (cache : SoundCache) (drawn : List Material) (room : PuzzleRoom Material Time)
    (past : PuzzlePast Material Time) : Prop where
  shows : ∀ (current : GlyphSequence Material) (later : List (GlyphSequence Material)),
    room.wright.sequences = current :: later → ∃ poster : ℕ, room.posters[poster]? = some current.front
  finishes : ∃ touches : List ℕ, touches.length = room.wright.remaining.length ∧
    (room.touchAll cache touches).wright.sequences = []
  noFewer : ∀ touches : List ℕ, (room.touchAll cache touches).wright.sequences = [] →
    room.wright.remaining.length ≤ touches.length
  harmless : ∀ (poster : ℕ) (material : Material), room.posters[poster]? = some material →
    (∀ (current : GlyphSequence Material) (later : List (GlyphSequence Material)),
      room.wright.sequences = current :: later → material ≠ current.front) →
    (room.step cache (.touch poster true)).1 = room ∧
      (room.step cache (.touch poster true)).2.played? = none
  matched : past.matched ++ room.wright.remaining = drawn
  played : past.played = if room.wright.sequences.isEmpty then [MrWright.finalQueue cache] else []

theorem PuzzleRoom.Progress.solvable {cache : SoundCache} {drawn : List Material}
    {room : PuzzleRoom Material Time} {past : PuzzlePast Material Time}
    (progress : PuzzleRoom.Progress cache drawn room past) : Solvable cache drawn room past := by
  constructor
  · intro current later shape
    exact List.mem_iff_getElem?.mp
      (progress.shown (MrWright.remaining_matchFront shape ▸ List.mem_cons_self))
  · exact PuzzleRoom.touchAll_finishes progress.shown
  · intro touches finishes
    have bound := PuzzleRoom.touchAll_remaining cache room touches
    rwa [(MrWright.sequences_eq_nil_iff _).mp finishes] at bound
  · intro poster material shows wrong
    rcases PuzzleRoom.step_touch cache room poster true with
      ⟨current, later, shape, -, required, -⟩ | ⟨result, -, silent, stepped⟩
    · rw [shows, Option.some.injEq] at required
      exact absurd required (wrong current later shape)
    · rw [stepped]
      exact ⟨rfl, silent⟩
  · exact progress.matched
  · rw [progress.played]
    congr 1
    rw [List.isEmpty_iff, List.isEmpty_iff, MrWright.sequences_eq_nil_iff]

/-- In a room with six posters the puzzle starts with sequences of two, four and six glyphs; it
    stays solvable, and is solved by the right touches in order and nothing else. -/
theorem puzzle_solvable (cache : SoundCache) (random : Random) (swapTimer : Time) (posters : List Material)
    (enough : 6 ≤ posters.length) :
    ∃ room, PuzzleRoom.start random swapTimer posters = some room ∧
      room.wright.sequences.map (fun sequence => sequence.glyphs.length) = [2, 4, 6] ∧
      ∀ events, Solvable cache room.wright.remaining (record (PuzzleRoom.step cache) room events).1
        (record (PuzzleRoom.step cache) room events).2 := by
  obtain ⟨sequences, drawn, sizes, shown⟩ :=
    MrWright.drawSequences_returns random posters 3 2 0 (by omega) (by omega)
  refine ⟨⟨posters, MrWright.updateDisplayGlyphs ⟨swapTimer, sequences, []⟩⟩, ?_, ?_, fun events => ?_⟩
  · rw [PuzzleRoom.start, MrWright.delayedStart, drawn]
    rfl
  · rw [MrWright.updateDisplayGlyphs_sequences]
    exact sizes
  · refine PuzzleRoom.Progress.solvable (record_invariant (PuzzleRoom.step cache) (fun _ => True)
      (PuzzleRoom.Progress cache _) (fun _ _ event progress _ => progress.step event) _ ?_ fun _ _ => trivial)
    constructor
    · rw [PuzzleRoom.Shown, MrWright.remaining, MrWright.updateDisplayGlyphs_sequences]
      exact shown
    · exact MrWright.Displayed.updateDisplayGlyphs _
    · rfl
    · rw [MrWright.remaining, MrWright.updateDisplayGlyphs_sequences]
      cases sequences with
      | nil => cases sizes
      | cons current later => rfl

/-- Six posters, the first of the pool drawn each time, and a timer of whole seconds. -/
theorem puzzle_solvable_sixPosters :
    ∃ room, PuzzleRoom.start Random.first (3 : ℤ) [1, 2, 3, 4, 5, 6] = some room ∧
      room.wright.sequences.map (fun sequence => sequence.glyphs.length) = [2, 4, 6] ∧
      ∀ events, Solvable (fun name => some ⟨name⟩) room.wright.remaining
        (record (PuzzleRoom.step fun name => some ⟨name⟩) room events).1
        (record (PuzzleRoom.step fun name => some ⟨name⟩) room events).2 :=
  puzzle_solvable (fun name => some ⟨name⟩) Random.first (3 : ℤ) [1, 2, 3, 4, 5, 6] (by decide)

end Puzzle

end SneakySneaky
