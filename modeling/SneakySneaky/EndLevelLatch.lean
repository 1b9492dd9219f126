import SneakySneaky.LevelSteps
import SneakySneaky.Progression

/-! # `EndLevel` as a latch

`EndLevel` has no guard of its own.  It disables the components that could call it again,
all but the `AudioManager`; so it is called once in a level if no entry with a NULL sound
waits in the queue when the level ends, and if what is left of the physics step neither
kills the player nor queues such an entry. -/

namespace SneakySneaky

open SneakySneaky.Foundation

/-! ## The condition -/

namespace Level

/-- The event makes its handler call `EndLevel` without suppressing the score. -/
def endsBy (level : Level) : LevelEvent → Bool
  | .contact contact => level.physics = .stepping true && level.isFatal contact
  | .update (.stairs personOffset) =>
    level.sends (.stairs personOffset) && decide (0 < level.stairs) && (Stairs.update personOffset).isSome
  | .update (.audioManager isPlaying timeStep) =>
    level.sends (.audioManager isPlaying timeStep) && level.audio.endsNext isPlaying
  | _ => false

/-- An entry with a NULL sound waits, other than the one that the event pops. -/
def endPendingBeside (level : Level) : LevelEvent → Bool
  | .update (.audioManager _ _) => AudioManager.endPending ⟨level.audio.queue.dropLast⟩
  | _ => level.audio.endPending

/-- The event is no contact that kills the player, defeats a boss or enters a zone with a clip
    that did not load. -/
def sparesEnd (level : Level) : LevelEvent → Bool
  | .contact contact =>
    level.physics ≠ .stepping true ||
      (!level.isFatal contact && !level.defeatsBoss contact &&
        (level.entersZone contact).all fun zone => zone.queue.all fun entry => entry.sound.isSome)
  | _ => true

end Level

/-- What the latch needs of a step: if it ends the level then no entry with a NULL sound is left
    waiting, and after the end it is not one of the contacts above. -/
def Game.endsOnce (game : Game) : Event → Bool
  | .frame input =>
    !(game.gameState = .playing && game.developerMode && input.keyPress .n && !input.keyPress .r) ||
      game.scene.level.all fun level => !level.audio.endPending
  | .level event =>
    game.scene.level.all fun level =>
      (!level.endsBy event || !level.endPendingBeside event) && (level.enabled || level.sparesEnd event)
  | .postRenderUpdate => true

/-! ## An ended level -/

namespace Level

/-- The components are disabled and no entry with a NULL sound waits. -/
structure Closed (level : Level) : Prop where
  disabled : level.enabled = false
  quiet : level.audio.endPending = false

variable {cache : SoundCache} {level level' : Level} {event : LevelEvent} {action : LevelAction}

theorem endPending_play (manager : AudioManager) (sounds : List AudioQueueEntry) :
    (manager.play sounds false).endPending = sounds.any fun entry => entry.sound.isNone := by
  simp [AudioManager.endPending, AudioManager.play]

theorem Closed.move (closed : level.Closed) (spares : level.sparesEnd event = true)
    (move : Move cache level event level' action) :
    level'.Closed ∧ ∀ caller call, action ≠ .endLevel caller call := by
  obtain ⟨disabled, quiet⟩ := closed
  have other : ∀ {action : LevelAction}, action = .nothing ∨ action = .played .audioZone →
      ∀ caller call, action ≠ .endLevel caller call := by
    rintro action (rfl | rfl) caller call ended <;> cases ended
  cases move with
  | quiet keeps => exact ⟨⟨keeps.enabled ▸ disabled, keeps.audio ▸ quiet⟩, other (.inl rfl)⟩
  | fatal stepping fatal => simp [sparesEnd, stepping, fatal] at spares
  | defeat stepping defeats => simp [sparesEnd, stepping, defeats] at spares
  | stairs sends => simp [Level.sends, disabled] at sends
  | wife _ enabled => rw [disabled] at enabled; cases enabled
  | @enter contact zone level' stepping enters enabled audio =>
    refine ⟨⟨enabled ▸ disabled, ?_⟩, other (.inr rfl)⟩
    simp only [sparesEnd, stepping, enters, ne_eq, not_true_eq_false, decide_false, Bool.false_or, Bool.and_eq_true,
      Option.all_some, List.all_eq_true] at spares
    rw [audio, endPending_play, List.any_eq_false]
    intro entry member
    rw [Option.isNone_iff_eq_none, ← ne_eq, ← Option.isSome_iff_ne_none]
    exact spares.2 entry member
  | @dialogue isPlaying timeStep sends =>
    simp only [handleAudioUpdate]
    rcases level.audio.handleSceneUpdate_cases binary32 isPlaying timeStep with
      ⟨nothing, labels⟩ | ⟨front, next, sound, queue, -, popped⟩ | ⟨front, next, queue, null, -, -⟩
    · rw [nothing]
      refine ⟨⟨disabled, ?_⟩, other (.inl rfl)⟩
      rw [AudioManager.endPending_eq_labels] at quiet ⊢
      rw [labels]
      exact quiet
    · rw [popped]
      refine ⟨⟨disabled, ?_⟩, other (.inl rfl)⟩
      rw [AudioManager.endPending, queue, List.any_append, Bool.or_eq_false_iff] at quiet
      exact quiet.1
    -- A NULL sound would have to be popped, and none waits.
    · rw [AudioManager.endPending, queue] at quiet
      simp [null] at quiet

/-- An event that ends the level leaves no entry with a NULL sound if none waited beside its own. -/
theorem Move.closes (move : Move cache level event level' action) {caller : EndCaller} {died : Bool}
    (ends : action = .endLevel caller ⟨died, false⟩)
    (lone : (!level.endsBy event || !level.endPendingBeside event) = true) :
    level'.audio.endPending = false := by
  cases move with
  | quiet | enter | defeat => cases ends
  | wife => cases ends
  | fatal stepping fatal other keeps =>
    rw [keeps.audio]
    simpa [endsBy, stepping, fatal, endPendingBeside] using lone
  | stairs sends present near => simpa [endsBy, sends, present, near, endPendingBeside] using lone
  | @dialogue isPlaying timeStep sends =>
    simp only [handleAudioUpdate] at ends ⊢
    rcases level.audio.handleSceneUpdate_cases binary32 isPlaying timeStep with
      ⟨nothing, -⟩ | ⟨front, next, sound, queue, -, popped⟩ | ⟨front, next, queue, -, endsNext, popped⟩
    · rw [nothing] at ends
      cases ends
    · rw [popped] at ends
      cases ends
    · rw [popped]
      simpa [endsBy, sends, endsNext, endPendingBeside, queue] using lone

end Level

/-! ## The game -/

def GameState.isEnded : GameState → Bool
  | .dead | .stairs => true
  | _ => false

namespace Game

variable {world : World}

def Latched (game : Game) : Prop :=
  game.gameState.isEnded = true → ∀ level, game.scene.level = some level → level.Closed

/-- The developer's key finds no entry with a NULL sound waiting. -/
def NextSafe (input : Input) (game : Game) : Prop :=
  game.gameState = .playing → game.developerMode = true → input.keyPress .n = true → input.keyPress .r = false →
    ∀ level, game.scene.level = some level → level.audio.endPending = false

theorem loadLevel_latched (world : World) (game : Game) : (game.loadLevel world).Latched := by
  intro ended
  rcases loadLevel_gameState world game with playing | credits
  · rw [playing] at ended
    cases ended
  · rw [credits] at ended
    cases ended

theorem loadLevel_nextSafe (world : World) (input : Input) (game : Game) :
    NextSafe input (game.loadLevel world) := by
  intro _ _ _ _ level found
  obtain ⟨rooms, rfl⟩ := loadLevel_level found
  rfl

theorem Latched.adjusts {game game' : Game} (latched : game.Latched) (adjusts : Adjusts game game') :
    game'.Latched := by
  intro ended level found
  obtain ⟨items, same⟩ := adjusts.level
  rw [same, Option.map_eq_some_iff] at found
  obtain ⟨before, foundBefore, rfl⟩ := found
  obtain ⟨disabled, quiet⟩ := latched (adjusts.gameState ▸ ended) before foundBefore
  exact ⟨disabled, quiet⟩

theorem endLevel_latched {game : Game}
    (lone : ∀ level, game.scene.level = some level → level.audio.endPending = false) (caller : EndCaller)
    (died suppressScore : Bool) : (game.endLevel world caller ⟨died, suppressScore⟩).Latched := by
  simp only [endLevel]
  cases found : game.scene.level with
  | none =>
    intro _ level missing
    rw [found] at missing
    cases missing
  | some level =>
    dsimp only
    split
    · exact loadLevel_latched world _
    · intro _ closed same
      cases same
      exact ⟨rfl, lone level found⟩

theorem Latched.move {game game' : Game} {input : Input} (latched : game.Latched) (safe : NextSafe input game)
    (move : Move world input game game') : game'.Latched ∧ NextSafe input game' := by
  cases move with
  | adjust adjusts developerMode =>
    refine ⟨latched.adjusts adjusts, ?_⟩
    intro playing developer pressed reload level found
    obtain ⟨items, same⟩ := adjusts.level
    rw [same, Option.map_eq_some_iff] at found
    obtain ⟨before, foundBefore, rfl⟩ := found
    exact safe (adjusts.gameState ▸ playing) (developerMode ▸ developer) pressed reload before foundBefore
  | load => exact ⟨loadLevel_latched world _, loadLevel_nextSafe world input _⟩
  | leave _ outside' =>
    refine ⟨?_, ?_⟩
    · intro ended
      revert outside' ended
      cases game'.gameState <;> simp [GameState.inLevel, GameState.isEnded]
    · intro playing
      rw [playing] at outside'
      cases outside'
  | next playing developer pressed reloaded =>
    have lone : ∀ level, game.scene.level = some level → level.audio.endPending = false := by
      intro level found
      -- With R in the same frame the level is new; without it the condition speaks.
      cases reload : input.keyPress .r with
      | true => rw [reloaded reload level found]; rfl
      | false => exact safe playing developer pressed reload level found
    refine ⟨endLevel_latched lone .developer false false, ?_⟩
    intro stillPlaying _ _ _ level found
    simp only [endLevel] at stillPlaying found
    cases before : game.scene.level with
    | none => rw [before] at found; simp [before] at found
    | some level => rw [before] at stillPlaying; cases stillPlaying

theorem Latched.moves {game game' : Game} {input : Input} (latched : game.Latched) (safe : NextSafe input game)
    (moves : Moves world input game game') : game'.Latched := by
  suffices both : game'.Latched ∧ NextSafe input game' from both.1
  induction moves with
  | refl => exact ⟨latched, safe⟩
  | tail _ move inductionHypothesis => exact inductionHypothesis.1.move inductionHypothesis.2 move

theorem nextSafe_of_endsOnce {game : Game} {input : Input} (once : game.endsOnce (.frame input) = true) :
    NextSafe input game := by
  intro playing developer pressed reload level found
  simpa [endsOnce, playing, developer, pressed, reload, found] using once

theorem Latched.step {game : Game} (latched : game.Latched) {event : Event} (once : game.endsOnce event = true) :
    (game.step world event).Latched := by
  refine step_preserves Latched (fun _ _ => Latched.adjusts) latched ?_ ?_
  · rintro input middle rfl moves
    exact latched.moves (nextSafe_of_endsOnce once) moves
  · rintro levelEvent level rfl found
    simp only [endsOnce, found, Option.all_some, Bool.and_eq_true] at once
    have move := level.step_move world.cache levelEvent
    generalize level.step world.cache levelEvent = result at move
    obtain ⟨level', action⟩ := result
    -- The level was closed before the event, or the event closes it.
    cases action with
    | nothing | played =>
      intro ended next same
      cases same
      have closed := latched ended level found
      rw [closed.disabled, Bool.false_or] at once
      exact (closed.move once.2 move).1
    | endLevel caller call =>
      obtain ⟨died, suppressScore⟩ := call
      cases suppressScore with
      | false => exact endLevel_latched (fun _ same => by cases same; exact move.closes rfl once.1) _ _ _
      | true => exact loadLevel_latched world _

/-! ## The life of a level -/

/-- State, time and score are as they were when the level had ended. -/
structure SameEnd (ended game : Game) : Prop where
  gameState : game.gameState = ended.gameState
  totalTime : game.totalTime = ended.totalTime
  totalScore : game.totalScore = ended.totalScore

theorem SameEnd.adjusts {ended game game' : Game} (same : SameEnd ended game) (adjusts : Adjusts game game') :
    SameEnd ended game' :=
  ⟨adjusts.gameState.trans same.gameState, adjusts.totalTime.trans same.totalTime,
    adjusts.totalScore.trans same.totalScore⟩

theorem SameEnd.move {ended game game' : Game} {input : Input} (isEnded : ended.gameState.isEnded = true)
    (same : SameEnd ended game) (move : Move world input game game') (unloaded : game'.loads = game.loads) :
    SameEnd ended game' := by
  rw [← same.gameState] at isEnded
  cases move with
  | adjust adjusts => exact same.adjusts adjusts
  | load _ _ _ calls => exact absurd unloaded (loads_loadLevel_ne world calls)
  | leave outside =>
    revert outside isEnded
    cases game.gameState <;> simp [GameState.inLevel, GameState.isEnded]
  | next playing =>
    rw [playing] at isEnded
    cases isEnded

theorem SameEnd.step {ended game : Game} (isEnded : ended.gameState.isEnded = true) (same : SameEnd ended game)
    (latched : game.Latched) {event : LevelEvent} {level : Level} (found : game.scene.level = some level)
    (once : game.endsOnce (.level event) = true) :
    SameEnd ended (act world (game.withLevel (level.step world.cache event).1) (level.step world.cache event).2) := by
  have closed := latched (same.gameState ▸ isEnded) level found
  simp only [endsOnce, found, Option.all_some, Bool.and_eq_true, closed.disabled, Bool.false_or] at once
  have move := level.step_move world.cache event
  generalize level.step world.cache event = result at move
  obtain ⟨level', action⟩ := result
  cases action with
  | nothing | played => exact ⟨same.gameState, same.totalTime, same.totalScore⟩
  | endLevel caller call => exact absurd rfl ((closed.move once.2 move).2 caller call)

abbrev Holds (ended : Game) : Game → Prop := Until loads (SameEnd ended) ended.loads

theorem Holds.moves {ended game game' : Game} {input : Input} (isEnded : ended.gameState.isEnded = true)
    (holds : Holds ended game) (moves : Moves world input game game') : Holds ended game' := by
  induction moves with
  | refl => exact holds
  | tail _ move inductionHypothesis =>
    exact inductionHypothesis.next (loads_le_of_suffix move.calls) fun unloaded same => same.move isEnded move unloaded

theorem Holds.adjusts {ended game game' : Game} (holds : Holds ended game) (adjusts : Adjusts game game') :
    Holds ended game' :=
  holds.next (loads_le_of_suffix ⟨[], adjusts.calls.symm⟩) fun _ same => same.adjusts adjusts

theorem Holds.step {ended game : Game} (isEnded : ended.gameState.isEnded = true) (holds : Holds ended game)
    (latched : game.Latched) {event : Event} (once : game.endsOnce event = true) :
    Holds ended (game.step world event) := by
  refine step_preserves (Holds ended) (fun _ _ => Holds.adjusts) holds
    (fun input middle _ moves => holds.moves isEnded moves) ?_
  rintro levelEvent level rfl found
  exact holds.next (loads_le_of_suffix (act_calls game _ _)) fun _ same => same.step isEnded latched found once

theorem create_latched : create.Latched := nofun

end Game

/-- In a run whose steps meet the condition the first call of `EndLevel` is the only one that
    counts: until the next `LoadLevel` state, time and score stay as it left them. -/
theorem endLevel_latches (world : World) (before after : List Event)
    (once : Meets (Game.step world) (fun game event => game.endsOnce event = true) Game.create
      (before ++ after)) :
    let ended := run (Game.step world) Game.create before
    let game := run (Game.step world) ended after
    (ended.gameState = .dead ∨ ended.gameState = .stairs) →
      game.calls.count .loadLevel = ended.calls.count .loadLevel →
        game.gameState = ended.gameState ∧ game.totalTime = ended.totalTime ∧
          game.totalScore = ended.totalScore := by
  intro ended game isEnded unloaded
  obtain ⟨onceBefore, onceAfter⟩ := meets_append.mp once
  have latched : ended.Latched := onceBefore.invariant Game.Latched
    (fun _ _ latched once => latched.step once) Game.create_latched
  -- From the end of the level on, closed levels carry the invariant: nothing calls `EndLevel`.
  have isEnded' : ended.gameState.isEnded = true := by
    rcases isEnded with dead | stairs
    · rw [dead]; rfl
    · rw [stairs]; rfl
  have holds : game.Latched ∧ Game.Holds ended game := onceAfter.invariant
    (fun game => game.Latched ∧ Game.Holds ended game)
    (fun _ _ both once => ⟨both.1.step once, both.2.step isEnded' both.1 once⟩)
    ⟨latched, .start ⟨rfl, rfl, rfl⟩⟩
  have same := holds.2.holds unloaded
  exact ⟨same.gameState, same.totalTime, same.totalScore⟩

/-! ## A win that comes after a death -/

namespace WrightLevel

def poster (material : String) : XMLElement :=
  .mk "object" [("interaction", "InteractablePoster"), ("material", material)] "" []

/-- A room with MrWright, six posters, a guard and an audio zone. -/
def room : XMLElement :=
  .mk "room" [] ""
    [.mk "object" [("interaction", "MrWright")] "" [], poster "A", poster "B", poster "C", poster "D",
      poster "E", poster "F", .mk "guard" [] "" [.mk "waypoint" [("position", "1 0 1")] "" []],
      .mk "audiozone" [] "" [.mk "audioclip" [] "Hello.wav" []]]

def world (cache : SoundCache) : World where
  cache := cache
  conversions := ⟨fun _ => false, fun _ => 0, fun _ => ⟨0, 0⟩, fun _ => ⟨1, 0, 1⟩⟩
  levelImage number := if number = 1 then some ⟨3, 3, fun _ _ => .white⟩ else none
  roomXml _ _ _ := some room
  titleFrame _ := true
  introFrame _ := true
  creditsFrame _ := true
  dirty := false
  fuel := 20

def allSounds : SoundCache := fun name => some ⟨name⟩

def frame (pressed : Option Key) : Event := .frame ⟨1, fun key => pressed = some key, fun _ => false, false⟩

/-- The player leaves the menu and skips the intro, and a second of the first level passes. -/
def enterLevel : List Event := [frame (some .space), frame (some .space), frame none]

def touches (posters : List ℕ) : List Event := posters.map fun poster => .level (.contact (.poster 0 0 poster))

/-- The touches that solve the puzzle when the first glyph of the pool is drawn each time; the
    physics step goes on. -/
def solvePuzzle : List Event :=
  [.level (.update (.wrightStart 0 0 .first 0)), .level .beginPhysicsStep] ++
    touches [0, 1, 0, 1, 2, 3, 0, 1, 2, 3, 4, 5]

def touchGuard : List Event := [.level (.contact (.guard 0)), .level .endPhysicsStep]

def idleUpdates (count : ℕ) : List Event := List.replicate count (.level (.update (.audioManager false 0)))

end WrightLevel

/-- A run that meets the condition: the player walks into a guard and the dialogue goes on. -/
theorem endLevel_latches_guard :
    let world := WrightLevel.world WrightLevel.allSounds
    let ended := run (Game.step world) Game.create
      (WrightLevel.enterLevel ++ [.level .beginPhysicsStep] ++ WrightLevel.touchGuard)
    let game := run (Game.step world) ended (WrightLevel.idleUpdates 3 ++ [WrightLevel.frame none])
    game.gameState = ended.gameState ∧ game.totalTime = ended.totalTime ∧ game.totalScore = ended.totalScore := by
  intro world ended game
  have latches := endLevel_latches world
    (WrightLevel.enterLevel ++ [.level .beginPhysicsStep] ++ WrightLevel.touchGuard)
    (WrightLevel.idleUpdates 3 ++ [WrightLevel.frame none]) (by decide +kernel)
  exact latches (by decide +kernel) (by decide +kernel)

/-- The puzzle is solved and the player walks into the guard before the final dialogue has ended:
    when it ends the level counts as completed, and is added a second time. -/
theorem solved_then_caught :
    let world := WrightLevel.world WrightLevel.allSounds
    let dead := run (Game.step world) Game.create
      (WrightLevel.enterLevel ++ WrightLevel.solvePuzzle ++ WrightLevel.touchGuard)
    let game := run (Game.step world) dead (WrightLevel.idleUpdates 9)
    dead.gameState = .dead ∧ game.calls.count .loadLevel = dead.calls.count .loadLevel ∧
      game.gameState = .stairs ∧ game.totalTime ≠ dead.totalTime ∧ game.totalScore ≠ dead.totalScore := by
  decide +kernel

end SneakySneaky
