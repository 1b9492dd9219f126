import SneakySneaky.GameSteps

/-! # Level progression

Most transitions of the game leave `currentLevel_` alone.  The invariant behind them: it
is 0 in the states outside of a level, and in the others it is the number of a level that
exists. -/

namespace SneakySneaky

open SneakySneaky.Foundation

namespace Game

/-- Where `currentLevel_` may stand. -/
structure Placed (world : World) (game : Game) : Prop where
  atStart : game.gameState.inLevel = false → game.currentLevel = 0
  exists_image : game.gameState.inLevel = true → ∃ image, world.levelImage (game.currentLevel + 1) = some image
  inLevel : ∀ level, game.scene.level = some level → game.gameState.inLevel = true

variable {world : World}

/-- Outside of a level nothing but the state's name changes. -/
theorem Placed.outside {game : Game} (currentLevel : game.currentLevel = 0)
    (gameState : game.gameState.inLevel = false) (level : game.scene.level = none) : Placed world game := by
  constructor
  · exact fun _ => currentLevel
  · intro inside
    rw [gameState] at inside
    cases inside
  · intro loaded found
    rw [level] at found
    cases found

/-- In a level it is enough that the level exists. -/
theorem Placed.inside {game : Game} (gameState : game.gameState.inLevel = true)
    (found : ∃ image, world.levelImage (game.currentLevel + 1) = some image) : Placed world game := by
  constructor
  · intro outside
    rw [gameState] at outside
    cases outside
  · exact fun _ => found
  · exact fun _ _ => gameState

theorem Placed.adjusts {game game' : Game} (placed : Placed world game) (adjusts : Adjusts game game') :
    Placed world game' := by
  constructor
  · rw [adjusts.gameState, adjusts.currentLevel]
    exact placed.atStart
  · rw [adjusts.gameState, adjusts.currentLevel]
    exact placed.exists_image
  · intro level found
    obtain ⟨items, same⟩ := adjusts.level
    rw [same, Option.map_eq_some_iff] at found
    obtain ⟨before, foundBefore, -⟩ := found
    rw [adjusts.gameState]
    exact placed.inLevel before foundBefore

theorem Placed.no_level {game : Game} (placed : Placed world game) (outside : game.gameState.inLevel = false) :
    game.scene.level = none := by
  cases found : game.scene.level with
  | none => rfl
  | some level =>
    rw [placed.inLevel level found] at outside
    cases outside

/-! ## `LoadLevel` and `EndLevel` -/

/-- Whatever the state was, `LoadLevel` ends in a level that exists or in the credits. -/
theorem loadLevel_placed (world : World) (game : Game) : Placed world (game.loadLevel world) := by
  have result := loadLevel_result world game
  generalize game.loadLevel world = after at result ⊢
  cases result with
  | credits missing => exact .outside rfl rfl rfl
  | hang found => exact .inside rfl ⟨_, found⟩
  | enter found read => exact .inside rfl ⟨_, found⟩

theorem loadLevel_playing {game : Game} (playing : (game.loadLevel world).gameState = .playing) :
    (game.loadLevel world).currentLevel =
        (if game.gameState = .stairs then game.currentLevel + 1 else game.currentLevel) ∧
      ∃ image, world.levelImage ((game.loadLevel world).currentLevel + 1) = some image ∧
        ((game.loadLevel world).status = .hung ∨
          ∃ rooms, loadRooms world ((game.loadLevel world).currentLevel + 1) image = some rooms ∧
            (game.loadLevel world).scene.level = some (.load world.conversions world.dirty rooms)) := by
  have result := loadLevel_result world game
  generalize game.loadLevel world = after at result playing ⊢
  cases result with
  | credits missing => cases playing
  | hang found => exact ⟨rfl, _, found, .inl rfl⟩
  | enter found read => exact ⟨rfl, _, found, .inr ⟨_, read, rfl⟩⟩

theorem endLevel_placed {game : Game} (placed : Placed world game) (caller : EndCaller) (call : EndCall) :
    Placed world (game.endLevel world caller call) := by
  have result := endLevel_result world game caller call
  generalize game.endLevel world caller call = after at result ⊢
  cases result with
  | noPlayer missing => exact placed.adjusts (.same rfl rfl rfl rfl rfl rfl)
  | load found => exact loadLevel_placed world _
  | disable found =>
    -- The level's number has not changed, and neither has its image.
    have inside := placed.exists_image (placed.inLevel _ found)
    obtain ⟨died, suppressScore⟩ := call
    cases died <;> exact .inside rfl inside

/-! ## Runs -/

theorem Placed.move {game game' : Game} {input : Input} (placed : Placed world game)
    (move : Move world input game game') : Placed world game' := by
  cases move with
  | adjust adjusts => exact placed.adjusts adjusts
  | load => exact loadLevel_placed world _
  | leave outside outside' currentLevel _ _ _ _ level =>
    exact .outside (currentLevel.trans (placed.atStart outside)) outside' (level (placed.no_level outside))
  | next => exact endLevel_placed placed _ _

theorem Placed.moves {game game' : Game} {input : Input} (placed : Placed world game)
    (moves : Moves world input game game') : Placed world game' := by
  induction moves with
  | refl => exact placed
  | tail _ move inductionHypothesis => exact inductionHypothesis.move move

theorem Placed.withLevel {game : Game} (placed : Placed world game) {level : Level}
    (found : game.scene.level = some level) (next : Level) : Placed world (game.withLevel next) :=
  ⟨placed.atStart, placed.exists_image, fun _ _ => placed.inLevel level found⟩

theorem Placed.step {game : Game} (placed : Placed world game) (event : Event) :
    Placed world (game.step world event) := by
  refine step_preserves (Placed world) (fun _ _ => Placed.adjusts) placed
    (fun input middle _ moves => placed.moves moves) fun levelEvent level _ found => ?_
  have acted := placed.withLevel found (level.step world.cache levelEvent).1
  cases (level.step world.cache levelEvent).2 with
  | nothing => exact acted
  | played source => exact ⟨acted.atStart, acted.exists_image, acted.inLevel⟩
  | endLevel caller call => exact endLevel_placed acted caller call

theorem create_placed (world : World) : Placed world create := .outside rfl rfl rfl

theorem run_placed (world : World) (events : List Event) : Placed world (run (step world) create events) :=
  run_invariant (Placed world) (fun _ event placed => placed.step event) (create_placed world) events

end Game

/-- In every reachable state outside of a level the first level is the next one, and in a level the
    image of the current one exists; `LoadLevel` moves on to the next level from the stairs only. -/
theorem level_progression (world : World) (events : List Event) :
    let game := run (Game.step world) Game.create events
    (game.gameState ∈ [.menu, .intro, .credits, .finished] → game.currentLevel = 0) ∧
      (game.gameState ∈ [.playing, .dead, .stairs] →
        ∃ image, world.levelImage (game.currentLevel + 1) = some image) ∧
      ∀ entered : Game, (entered.loadLevel world).gameState = .playing →
        (entered.loadLevel world).currentLevel =
            (if entered.gameState = .stairs then entered.currentLevel + 1 else entered.currentLevel) ∧
          ∃ image, world.levelImage ((entered.loadLevel world).currentLevel + 1) = some image ∧
            ((entered.loadLevel world).status = .hung ∨
              ∃ rooms, Game.loadRooms world ((entered.loadLevel world).currentLevel + 1) image = some rooms ∧
                (entered.loadLevel world).scene.level =
                  some (.load world.conversions world.dirty rooms)) := by
  intro game
  have placed := Game.run_placed world events
  refine ⟨fun outside => placed.atStart ?_, fun inside => placed.exists_image ?_,
    fun entered playing => Game.loadLevel_playing playing⟩
  · change game.gameState.inLevel = false
    revert outside
    cases game.gameState <;> simp [GameState.inLevel]
  · change game.gameState.inLevel = true
    revert inside
    cases game.gameState <;> simp [GameState.inLevel]

end SneakySneaky
