import Mathlib.Logic.Relation
import SneakySneaky.Game

/-! # What a frame can do

What `LoadLevel`, `EndLevel` and the parts of `HandleUpdate` return is listed once for each,
by the branches of the source.  `HandleUpdate` is a chain of `Move`s: it adjusts what no
invariant of the game depends on, loads a level, changes one state outside of a level for
another, or ends the level by the developer's key.  Invariants of the game are proved for
one result, or one move and one event in a level, and follow for a frame and for a run. -/

namespace SneakySneaky

open SneakySneaky.Foundation

def GameState.inLevel : GameState → Bool
  | .playing | .dead | .stairs => true
  | .menu | .intro | .credits | .finished => false

namespace Game

/-- `game'` differs from `game` in the status, the timers, the movies, the flags, the UI and the
    items of the level at most. -/
structure Adjusts (game game' : Game) : Prop where
  currentLevel : game'.currentLevel = game.currentLevel
  gameState : game'.gameState = game.gameState
  totalTime : game'.totalTime = game.totalTime
  totalScore : game'.totalScore = game.totalScore
  calls : game'.calls = game.calls
  level : ∃ items : Items → Items,
    game'.scene.level = game.scene.level.map fun level => { level with items := items level.items }

theorem Adjusts.same {game game' : Game} (currentLevel : game'.currentLevel = game.currentLevel)
    (gameState : game'.gameState = game.gameState) (totalTime : game'.totalTime = game.totalTime)
    (totalScore : game'.totalScore = game.totalScore) (calls : game'.calls = game.calls)
    (level : game'.scene.level = game.scene.level) : Adjusts game game' :=
  ⟨currentLevel, gameState, totalTime, totalScore, calls, id, by rw [level]; exact Option.map_id.symm ▸ rfl⟩

theorem Adjusts.refl (game : Game) : Adjusts game game := .same rfl rfl rfl rfl rfl rfl

theorem Adjusts.trans {first second third : Game} (left : Adjusts first second) (right : Adjusts second third) :
    Adjusts first third := by
  obtain ⟨currentLevel, gameState, totalTime, totalScore, calls, items, level⟩ := left
  obtain ⟨currentLevel', gameState', totalTime', totalScore', calls', items', level'⟩ := right
  refine ⟨currentLevel'.trans currentLevel, gameState'.trans gameState, totalTime'.trans totalTime,
    totalScore'.trans totalScore, calls'.trans calls, items' ∘ items, ?_⟩
  rw [level', level, Option.map_map]
  rfl

/-- A part of the work of a frame.  Only the developer's key ends a level. -/
inductive Move (world : World) (input : Input) (game : Game) : Game → Prop where
  | adjust {game' : Game} (adjusts : Adjusts game game') (developerMode : game'.developerMode = game.developerMode) :
      Move world input game game'
  | load {entered : Game} (gameState : entered.gameState = game.gameState)
      (totalTime : entered.totalTime = game.totalTime) (totalScore : entered.totalScore = game.totalScore)
      (calls : entered.calls = game.calls) (developerMode : entered.developerMode = game.developerMode) :
      Move world input game (entered.loadLevel world)
  | leave {game' : Game} (outside : game.gameState.inLevel = false) (outside' : game'.gameState.inLevel = false)
      (currentLevel : game'.currentLevel = game.currentLevel) (totalTime : game'.totalTime = game.totalTime)
      (totalScore : game'.totalScore = game.totalScore) (calls : game'.calls = game.calls)
      (developerMode : game'.developerMode = game.developerMode)
      (level : game.scene.level = none → game'.scene.level = none) : Move world input game game'
  /-- If the level was reloaded before, nothing waits in its queue. -/
  | next (playing : game.gameState = .playing) (developerMode : game.developerMode = true)
      (pressed : input.keyPress .n = true)
      (reloaded : input.keyPress .r = true → ∀ level, game.scene.level = some level → level.audio = .empty) :
      Move world input game (game.endLevel world .developer ⟨false, false⟩)

abbrev Moves (world : World) (input : Input) := Relation.ReflTransGen (Move world input)

/-! ## `LoadLevel` -/

/-- `LoadLevel` rolls the credits, never returns, or enters a level. -/
inductive LoadResult (world : World) (game : Game) : Game → Prop where
  | credits (missing : world.levelImage (game.beginLoad.currentLevel + 1) = none) :
      LoadResult world game game.beginLoad.rollCredits
  | hang {image : LevelImage} (found : world.levelImage (game.beginLoad.currentLevel + 1) = some image) :
      LoadResult world game { game.beginLoad with status := .hung }
  | enter {image : LevelImage} {rooms : List RoomContents}
      (found : world.levelImage (game.beginLoad.currentLevel + 1) = some image)
      (read : loadRooms world (game.beginLoad.currentLevel + 1) image = some rooms) :
      LoadResult world game (game.beginLoad.enter world rooms)

theorem loadLevel_result (world : World) (game : Game) : LoadResult world game (game.loadLevel world) := by
  simp only [loadLevel]
  cases found : world.levelImage (game.beginLoad.currentLevel + 1) with
  | none => exact .credits found
  | some image =>
    simp only
    cases read : loadRooms world (game.beginLoad.currentLevel + 1) image with
    | none => exact .hang found
    | some rooms => exact .enter found read

@[simp] theorem loadLevel_calls (world : World) (game : Game) :
    (game.loadLevel world).calls = .loadLevel :: game.calls := by
  have result := loadLevel_result world game
  generalize game.loadLevel world = after at result ⊢
  cases result with
  | credits missing | hang found | enter found read => rfl

@[simp] theorem loadLevel_developerMode (world : World) (game : Game) :
    (game.loadLevel world).developerMode = game.developerMode := by
  have result := loadLevel_result world game
  generalize game.loadLevel world = after at result ⊢
  cases result with
  | credits missing | hang found | enter found read => rfl

theorem loadLevel_gameState (world : World) (game : Game) :
    (game.loadLevel world).gameState = .playing ∨ (game.loadLevel world).gameState = .credits := by
  have result := loadLevel_result world game
  generalize game.loadLevel world = after at result ⊢
  cases result with
  | credits missing => exact .inr rfl
  | hang found => exact .inl rfl
  | enter found read => exact .inl rfl

theorem loadLevel_level {world : World} {game : Game} {level : Level}
    (found : (game.loadLevel world).scene.level = some level) :
    ∃ rooms, level = .load world.conversions world.dirty rooms := by
  have result := loadLevel_result world game
  generalize game.loadLevel world = after at result found
  cases result with
  | credits missing => cases found
  | hang image => cases found
  | enter image read =>
    cases found
    exact ⟨_, rfl⟩

/-! ## `EndLevel` -/

theorem endLevel_ends {world : World} {game : Game} {level : Level} (found : game.scene.level = some level)
    (caller : EndCaller) (died : Bool) :
    game.endLevel world caller ⟨died, false⟩ =
      ({ game.addTotals level with calls := .endLevel caller ⟨died, false⟩ :: game.calls }).disable level died := by
  simp [endLevel, found]

theorem endLevel_loads {world : World} {game : Game} {level : Level} (found : game.scene.level = some level)
    (caller : EndCaller) (died : Bool) :
    game.endLevel world caller ⟨died, true⟩ =
      loadLevel world { game.addTotals level with
        calls := .endLevel caller ⟨died, true⟩ :: game.calls, gameState := .stairs } := by
  simp [endLevel, found]

/-- Without a player `EndLevel` follows a NULL pointer; with one it loads the next level or disables
    this one. -/
inductive EndLevelResult (world : World) (game : Game) (caller : EndCaller) (call : EndCall) : Game → Prop where
  | noPlayer (missing : game.scene.level = none) :
      EndLevelResult world game caller call { game with status := .crashed }
  | load {level : Level} (found : game.scene.level = some level) :
      EndLevelResult world game caller call
        (loadLevel world
          { game.addTotals level with calls := .endLevel caller call :: game.calls, gameState := .stairs })
  | disable {level : Level} (found : game.scene.level = some level) :
      EndLevelResult world game caller call
        (({ game.addTotals level with calls := .endLevel caller call :: game.calls }).disable level call.died)

theorem endLevel_result (world : World) (game : Game) (caller : EndCaller) (call : EndCall) :
    EndLevelResult world game caller call (game.endLevel world caller call) := by
  simp only [endLevel]
  cases found : game.scene.level with
  | none => exact .noPlayer found
  | some level =>
    simp only
    split
    · exact .load found
    · exact .disable found

/-! ## What the parts of `HandleUpdate` return -/

inductive SpaceResult (world : World) (input : Input) (game : Game) : Game → Prop where
  | unused : SpaceResult world input game game
  | leaveCredits (pressed : (input.joystickButton || input.keyPress .space) = true)
      (credits : game.gameState = .credits) : SpaceResult world input game { game with gameState := .menu }
  | load (pressed : (input.joystickButton || input.keyPress .space) = true)
      (elsewhere : game.gameState ≠ .credits) : SpaceResult world input game (game.loadLevel world)

inductive LeaveMenuResult (world : World) (input : Input) (game : Game) : Game → Prop where
  | stay : LeaveMenuResult world input game game
  | movie {gameState : GameState} (shows : gameState = .intro ∨ gameState = .credits) :
      LeaveMenuResult world input game
        { game with root := ⟨false, true⟩, scene := .clear, gameState := gameState }
  | load : LeaveMenuResult world input game
      (loadLevel world { game with root := .clear, scene := .clear, currentLevel := targetLevel input })

inductive MoviesResult (world : World) (game : Game) : Game → Prop where
  /-- A movie or the time of a level goes on; the movies of other states stand still. -/
  | goOn {levelTime : ℚ} {introMovie creditsMovie : Movie}
      (intro : game.gameState ≠ .intro → introMovie = game.introMovie)
      (credits : game.gameState ≠ .credits → creditsMovie = game.creditsMovie) :
      MoviesResult world game
        { game with levelTime := levelTime, introMovie := introMovie, creditsMovie := creditsMovie }
  /-- The sprite of the movie is missing. -/
  | crash {introMovie creditsMovie : Movie} (plays : game.gameState = .intro ∨ game.gameState = .credits)
      (missing : game.root.movie = false) (intro : game.gameState ≠ .intro → introMovie = game.introMovie)
      (credits : game.gameState ≠ .credits → creditsMovie = game.creditsMovie) :
      MoviesResult world game
        { game with introMovie := introMovie, creditsMovie := creditsMovie, status := .crashed }
  | introOver (intro : game.gameState = .intro) :
      MoviesResult world game (loadLevel world { game with introMovie := ⟨0, 0⟩ })
  | creditsOver (credits : game.gameState = .credits) :
      MoviesResult world game { game with gameState := .finished, creditsMovie := ⟨0, 0⟩, root := .clear }

section Results

variable (world : World) (input : Input) (game : Game)

theorem handleExitKey_eq : ∃ status exitTimer,
    game.handleExitKey input = { game with status := status, exitTimer := exitTimer } ∧
      (status = game.status ∨ status = .exited) := by
  simp only [handleExitKey]
  split
  · split
    · exact ⟨.exited, 0, rfl, .inr rfl⟩
    · exact ⟨game.status, game.exitTimer + 1, rfl, .inl rfl⟩
  · exact ⟨game.status, 0, rfl, .inl rfl⟩

theorem handleSpace_result : SpaceResult world input game (game.handleSpace world input).1 := by
  simp only [handleSpace]
  split
  · rename_i used
    simp only
    split
    · rename_i elsewhere
      exact .load used.2.2 elsewhere
    · rename_i credits
      exact .leaveCredits used.2.2 (not_not.mp credits)
  · exact .unused

theorem advanceTitle_eq : ∃ titleMovie, game.advanceTitle world input = { game with titleMovie := titleMovie } := by
  simp only [advanceTitle]
  split
  · split
    · exact ⟨_, rfl⟩
    · exact ⟨_, rfl⟩
  · exact ⟨game.titleMovie, rfl⟩

theorem leaveMenu_result (spacePressed : Bool) :
    LeaveMenuResult world input game (game.leaveMenu world input spacePressed) := by
  simp only [leaveMenu]
  split
  · split
    · refine .movie ?_
      cases spacePressed <;> simp
    · exact .load
  · exact .stay

theorem handleMovies_result : MoviesResult world game (game.handleMovies world input) := by
  simp only [handleMovies]
  split
  · rename_i intro
    simp only [handleIntro]
    split
    · split
      · split
        · exact .goOn (absurd intro) fun _ => rfl
        · rename_i missing
          exact .crash (.inl intro) (by simpa using missing) (absurd intro) fun _ => rfl
      · exact .introOver intro
    · exact .goOn (absurd intro) fun _ => rfl
  · split
    · exact .goOn (fun _ => rfl) fun _ => rfl
    · split
      · rename_i credits
        simp only [handleCredits]
        split
        · split
          · split
            · exact .goOn (fun _ => rfl) (absurd credits)
            · rename_i missing
              exact .crash (.inr credits) (by simpa using missing) (fun _ => rfl) (absurd credits)
          · exact .creditsOver credits
        · exact .goOn (fun _ => rfl) (absurd credits)
      · exact .goOn (fun _ => rfl) fun _ => rfl

theorem handleCrash_cases :
    game.handleCrash input = game ∨
      input.keyPress .c = true ∧ game.handleCrash input = { game with status := .crashed } := by
  simp only [handleCrash]
  split
  · rename_i pressed
    exact .inr ⟨pressed, rfl⟩
  · exact .inl rfl

theorem handleUnlock_eq : ∃ items : Items → Items, game.handleUnlock input =
    { game with scene := { game.scene with
      level := game.scene.level.map fun level => { level with items := items level.items } } } := by
  simp only [handleUnlock]
  split
  · exact ⟨fun items => { items with padlocks := items.padlocks.map ({ · with nodeRemoved := true }) }, rfl⟩
  · refine ⟨id, ?_⟩
    cases found : game.scene.level <;> simp [← found]

/-- The key sequence goes on, is missing, or is not looked at. -/
theorem handleCheat_cases :
    (∃ cheatCode unlocked, game.handleCheat input =
        { game with cheatCode := cheatCode, unceUnceUnceWubWubWub := unlocked } ∧
      ((unlocked = false → cheatCode ≠ []) ∨
        (cheatCode = game.cheatCode ∧ unlocked = game.unceUnceUnceWubWubWub))) ∨
    (game.unceUnceUnceWubWubWub = false ∧ game.cheatCode = [] ∧
      game.handleCheat input = { game with status := .crashed }) := by
  simp only [handleCheat]
  split
  · exact .inl ⟨game.cheatCode, game.unceUnceUnceWubWubWub, rfl, .inr ⟨rfl, rfl⟩⟩
  · rename_i locked
    split
    · rename_i none
      exact .inr ⟨by simpa using locked, List.getLast?_eq_none_iff.mp none, rfl⟩
    · split
      · exact .inl ⟨_, _, rfl, .inl (by simp)⟩
      · exact .inl ⟨game.cheatCode, game.unceUnceUnceWubWubWub, rfl, .inr ⟨rfl, rfl⟩⟩

theorem handlePostRenderUpdate_cases :
    game.handlePostRenderUpdate = game ∨ game.handlePostRenderUpdate = { game with status := .crashed } := by
  simp only [handlePostRenderUpdate]
  split
  · exact .inr rfl
  · exact .inl rfl

end Results

/-! ## The parts of `HandleUpdate` -/

section Parts

variable {world : World} (input : Input) (game : Game)

theorem andThen_moves {start game : Game} {next : Game → Game} (before : Moves world input start game)
    (after : Moves world input game (next game)) : Moves world input start (game.andThen next) := by
  simp only [andThen]
  split
  · exact before.trans after
  · exact before

theorem andThen_adjusts {next : Game → Game} (adjusts : ∀ game, Adjusts game (next game)) (game : Game) :
    Adjusts game (game.andThen next) := by
  simp only [andThen]
  split
  · exact adjusts game
  · exact .refl game

theorem handleExitKey_adjusts : Adjusts game (game.handleExitKey input) := by
  obtain ⟨status, exitTimer, result, -⟩ := handleExitKey_eq input game
  rw [result]
  exact .same rfl rfl rfl rfl rfl rfl

@[simp] theorem handleExitKey_developerMode : (game.handleExitKey input).developerMode = game.developerMode := by
  obtain ⟨status, exitTimer, result, -⟩ := handleExitKey_eq input game
  rw [result]

theorem handleSpace_moves : Moves world input game (game.handleSpace world input).1 := by
  have result := handleSpace_result world input game
  generalize (game.handleSpace world input).1 = after at result ⊢
  cases result with
  | unused => exact .refl
  | leaveCredits pressed credits =>
    exact .single (.leave (by rw [credits]; rfl) rfl rfl rfl rfl rfl rfl id)
  | load pressed elsewhere => exact .single (.load rfl rfl rfl rfl rfl)

theorem buildMenu_move (menu : game.gameState = .menu) : Move world input game game.buildMenu := by
  have outside : game.gameState.inLevel = false := by rw [menu]; rfl
  refine .leave outside outside rfl rfl rfl rfl rfl fun empty => ?_
  simp only [buildMenu]
  split
  · exact empty
  · rfl

theorem advanceTitle_move : Move world input game (game.advanceTitle world input) := by
  obtain ⟨titleMovie, result⟩ := advanceTitle_eq world input game
  rw [result]
  exact .adjust (.same rfl rfl rfl rfl rfl rfl) rfl

@[simp] theorem advanceTitle_gameState : (game.advanceTitle world input).gameState = game.gameState := by
  obtain ⟨titleMovie, result⟩ := advanceTitle_eq world input game
  rw [result]

theorem leaveMenu_moves (menu : game.gameState = .menu) (spacePressed : Bool) :
    Moves world input game (game.leaveMenu world input spacePressed) := by
  have result := leaveMenu_result world input game spacePressed
  generalize game.leaveMenu world input spacePressed = after at result ⊢
  cases result with
  | stay => exact .refl
  | movie shows =>
    refine .single (.leave (by rw [menu]; rfl) ?_ rfl rfl rfl rfl rfl fun _ => rfl)
    rcases shows with rfl | rfl <;> rfl
  | load => exact .single (.load rfl rfl rfl rfl rfl)

theorem handleMenu_moves (spacePressed : Bool) :
    Moves world input game (game.handleMenu world input spacePressed) := by
  simp only [handleMenu]
  split
  · rename_i menu
    exact (Relation.ReflTransGen.single (buildMenu_move input game menu)).trans
      ((Relation.ReflTransGen.single (advanceTitle_move input _)).trans
        (leaveMenu_moves input _ ((advanceTitle_gameState input game.buildMenu).trans menu) spacePressed))
  · exact .refl

theorem handleMovies_moves : Moves world input game (game.handleMovies world input) := by
  have result := handleMovies_result world input game
  generalize game.handleMovies world input = after at result ⊢
  cases result with
  | goOn intro credits => exact .single (.adjust (.same rfl rfl rfl rfl rfl rfl) rfl)
  | crash plays missing intro credits => exact .single (.adjust (.same rfl rfl rfl rfl rfl rfl) rfl)
  | introOver intro => exact .single (.load rfl rfl rfl rfl rfl)
  | creditsOver credits => exact .single (.leave (by rw [credits]; rfl) rfl rfl rfl rfl rfl rfl id)

theorem handleCrash_adjusts : Adjusts game (game.handleCrash input) := by
  rcases handleCrash_cases input game with same | ⟨-, crashed⟩
  · rw [same]
    exact .refl game
  · rw [crashed]
    exact .same rfl rfl rfl rfl rfl rfl

theorem handleUnlock_adjusts : Adjusts game (game.handleUnlock input) := by
  obtain ⟨items, result⟩ := handleUnlock_eq input game
  rw [result]
  exact ⟨rfl, rfl, rfl, rfl, rfl, items, rfl⟩

theorem handleCrash_move : Move world input game (game.handleCrash input) := by
  refine .adjust (handleCrash_adjusts input game) ?_
  rcases handleCrash_cases input game with same | ⟨-, crashed⟩
  · rw [same]
  · rw [crashed]

theorem handleUnlock_move : Move world input game (game.handleUnlock input) := by
  obtain ⟨items, result⟩ := handleUnlock_eq input game
  exact .adjust (handleUnlock_adjusts input game) (by rw [result])

theorem handleReload_moves : Moves world input game (game.handleReload world input) := by
  simp only [handleReload]
  split
  · exact .single (.load rfl rfl rfl rfl rfl)
  · exact .refl

theorem handleReload_reloaded (reload : input.keyPress .r = true) {level : Level}
    (playing : (game.handleReload world input).gameState = .playing)
    (found : (game.handleReload world input).scene.level = some level) : level.audio = .empty := by
  simp only [handleReload] at playing found
  split at found
  · obtain ⟨rooms, rfl⟩ := loadLevel_level found
    rfl
  · rename_i stays
    rw [if_neg stays] at playing
    exact absurd ⟨playing, reload⟩ stays

@[simp] theorem handleReload_developerMode :
    (game.handleReload world input).developerMode = game.developerMode := by
  simp only [handleReload]
  split
  · exact loadLevel_developerMode world game
  · rfl

theorem handleNext_moves (developerMode : game.developerMode = true)
    (reloaded : input.keyPress .r = true → game.gameState = .playing → ∀ level, game.scene.level = some level →
      level.audio = .empty) : Moves world input game (game.handleNext world input) := by
  simp only [handleNext]
  split
  · rename_i playing
    exact .single (.next playing.1 developerMode playing.2 fun reload => reloaded reload playing.1)
  · exact .refl

theorem handleDeveloper_moves :
    ∃ middle, Moves world input game middle ∧ Adjusts middle (game.handleDeveloper world input) := by
  simp only [handleDeveloper]
  split
  · rename_i developerMode
    refine ⟨_, ?_, .refl _⟩
    have toggled : Move world input game (game.toggleDebug input) :=
      .adjust (.same rfl rfl rfl rfl rfl rfl) rfl
    refine andThen_moves input (andThen_moves input (andThen_moves input ?_ ?_)
      (.single (handleCrash_move input _))) (.single (handleUnlock_move input _))
    -- R comes before N: a level that N ends in the same frame has just been loaded.
    · exact (Relation.ReflTransGen.single toggled).trans (handleReload_moves input _)
    · exact handleNext_moves input _ ((handleReload_developerMode input _).trans developerMode)
        fun reload playing _ found => handleReload_reloaded input _ reload playing found
  · split
    · exact ⟨game, .refl, .same rfl rfl rfl rfl rfl rfl⟩
    · exact ⟨game, .refl, .refl game⟩

theorem handleCheat_adjusts : Adjusts game (game.handleCheat input) := by
  rcases handleCheat_cases input game with ⟨_, _, result, -⟩ | ⟨-, -, result⟩
  · rw [result]
    exact .same rfl rfl rfl rfl rfl rfl
  · rw [result]
    exact .same rfl rfl rfl rfl rfl rfl

/-- A frame is a chain of moves and a last adjustment, which may switch developer mode on. -/
theorem handleUpdate_moves (world : World) (input : Input) (game : Game) :
    ∃ middle, Moves world input game middle ∧ Adjusts middle (game.handleUpdate world input) := by
  -- Exit key, space, menu and movies.
  have movies : Moves world input game
      ((((game.handleExitKey input).handleSpace world input).1.andThen
        (handleMenu world input ((game.handleExitKey input).handleSpace world input).2)).andThen
          (handleMovies world input)) := by
    refine andThen_moves input (andThen_moves input ?_ (handleMenu_moves input _ _)) (handleMovies_moves input _)
    exact (Relation.ReflTransGen.single (.adjust (handleExitKey_adjusts input game)
      (handleExitKey_developerMode input game))).trans (handleSpace_moves input _)
  -- The developer's keys; the last adjustment may be the key that switches them on.
  have developer : ∀ before, Moves world input game before →
      ∃ middle, Moves world input game middle ∧ Adjusts middle (before.andThen (handleDeveloper world input)) := by
    intro before reached
    simp only [andThen]
    split
    · obtain ⟨middle, moves, adjusts⟩ := handleDeveloper_moves input before
      exact ⟨middle, reached.trans moves, adjusts⟩
    · exact ⟨before, reached, .refl before⟩
  obtain ⟨middle, moves, adjusts⟩ := developer _ movies
  exact ⟨middle, moves, adjusts.trans (andThen_adjusts (handleCheat_adjusts input) _)⟩

end Parts

/-! ## Events -/

def withLevel (game : Game) (level : Level) : Game :=
  { game with scene := { game.scene with level := some level } }

/-- A running game handles a frame or an event in the level, or crashes in debug drawing; every other
    event changes nothing. -/
inductive StepResult (world : World) (game : Game) : Event → Game → Prop where
  | frame (running : game.status = .running) (input : Input) :
      StepResult world game (.frame input) (game.handleUpdate world input)
  | inLevel (running : game.status = .running) {event : LevelEvent} {level : Level}
      (found : game.scene.level = some level) :
      StepResult world game (.level event)
        (act world (game.withLevel (level.step world.cache event).1) (level.step world.cache event).2)
  | crash (running : game.status = .running) :
      StepResult world game .postRenderUpdate { game with status := .crashed }
  | same (event : Event) : StepResult world game event game

theorem step_result (world : World) (game : Game) (event : Event) :
    StepResult world game event (game.step world event) := by
  simp only [step]
  split
  · rename_i running
    cases event with
    | frame input =>
      dsimp only
      split
      · exact .frame running input
      · exact .same _
    | level event =>
      dsimp only [levelStep]
      cases found : game.scene.level with
      | none => exact .same _
      | some level => exact .inLevel running found
    | postRenderUpdate =>
      dsimp only
      split
      · rcases handlePostRenderUpdate_cases game with same | crashed
        · rw [same]
          exact .same _
        · rw [crashed]
          exact .crash running
      · exact .same _
  · exact .same event

theorem step_cases (world : World) (game : Game) (event : Event) :
    (∃ input, event = .frame input ∧ game.step world event = game.handleUpdate world input) ∨
      (∃ levelEvent level, event = .level levelEvent ∧ game.scene.level = some level ∧
        game.step world event =
          act world (game.withLevel (level.step world.cache levelEvent).1)
            (level.step world.cache levelEvent).2) ∨
      Adjusts game (game.step world event) := by
  have result := step_result world game event
  generalize game.step world event = after at result ⊢
  cases result with
  | frame running input => exact .inl ⟨input, rfl, rfl⟩
  | inLevel running found => exact .inr (.inl ⟨_, _, rfl, found, rfl⟩)
  | crash running => exact .inr (.inr (.same rfl rfl rfl rfl rfl rfl))
  | same => exact .inr (.inr (.refl game))

/-- The rule for properties that adjustments keep: it is enough that the moves of a frame and an
    event in the level keep them. -/
theorem step_preserves {world : World} {game : Game} {event : Event} (holds : Game → Prop)
    (adjusts : ∀ before after : Game, holds before → Adjusts before after → holds after) (now : holds game)
    (frame : ∀ input middle, event = .frame input → Moves world input game middle → holds middle)
    (acted : ∀ levelEvent level, event = .level levelEvent → game.scene.level = some level →
      holds (act world (game.withLevel (level.step world.cache levelEvent).1)
        (level.step world.cache levelEvent).2)) : holds (game.step world event) := by
  rcases step_cases world game event with
    ⟨input, isFrame, stepped⟩ | ⟨levelEvent, level, isLevel, found, stepped⟩ | adjusted
  · obtain ⟨middle, moves, adjusted⟩ := handleUpdate_moves world input game
    rw [stepped]
    exact adjusts _ _ (frame input middle isFrame moves) adjusted
  · rw [stepped]
    exact acted levelEvent level isLevel found
  · exact adjusts _ _ now adjusted

end Game

/-! ## Calls -/

def Call.ofFrame : Call → Bool
  | .loadLevel | .endLevel .developer _ => true
  | _ => false

def LevelAction.calls : LevelAction → List Call
  | .nothing => []
  | .played source => [.play source]
  | .endLevel caller call => [.endLevel caller call]

namespace Game

section Calls

variable {world : World}

def loads (game : Game) : ℕ := game.calls.count .loadLevel

theorem loads_loadLevel (world : World) (game : Game) : (game.loadLevel world).loads = game.loads + 1 := by
  simp [loads]

theorem loads_loadLevel_ne (world : World) {game entered : Game} (calls : entered.calls = game.calls) :
    (entered.loadLevel world).loads ≠ game.loads := by
  rw [loads_loadLevel, loads, loads, calls]
  exact Nat.succ_ne_self _

theorem loads_le_of_suffix {game game' : Game} (calls : game.calls <:+ game'.calls) : game.loads ≤ game'.loads :=
  calls.sublist.count_le _

theorem Move.calls_made {game game' : Game} {input : Input} (move : Move world input game game') :
    ∃ made, game'.calls = made ++ game.calls ∧ ∀ call ∈ made, call.ofFrame = true := by
  cases move with
  | adjust adjusts => exact ⟨[], adjusts.calls, nofun⟩
  | load _ _ _ calls => exact ⟨[.loadLevel], by rw [loadLevel_calls, calls]; rfl, by simp [Call.ofFrame]⟩
  | leave _ _ _ _ _ calls => exact ⟨[], calls, nofun⟩
  | next =>
    cases found : game.scene.level with
    | none => exact ⟨[], by simp [endLevel, found], nofun⟩
    | some level =>
      exact ⟨[.endLevel .developer ⟨false, false⟩], by rw [endLevel_ends found]; rfl, by simp [Call.ofFrame]⟩

theorem Move.calls {game game' : Game} {input : Input} (move : Move world input game game') :
    game.calls <:+ game'.calls := by
  obtain ⟨made, calls, -⟩ := move.calls_made
  exact ⟨made, calls.symm⟩

theorem Moves.calls_made {game game' : Game} {input : Input} (moves : Moves world input game game') :
    ∃ made, game'.calls = made ++ game.calls ∧ ∀ call ∈ made, call.ofFrame = true := by
  induction moves with
  | refl => exact ⟨[], rfl, nofun⟩
  | tail _ move inductionHypothesis =>
    obtain ⟨earlier, calls, madeEarlier⟩ := inductionHypothesis
    obtain ⟨later, calls', madeLater⟩ := move.calls_made
    refine ⟨later ++ earlier, by rw [calls', calls, List.append_assoc], fun call member => ?_⟩
    exact (List.mem_append.mp member).elim (madeLater call) (madeEarlier call)

/-- The game records the action and keeps the queue that the event left, and may then load another
    level. -/
theorem act_cases (game : Game) (level : Level) (action : LevelAction) :
    ((act world (game.withLevel level) action).calls = action.calls ++ game.calls ∧
        ∃ level', (act world (game.withLevel level) action).scene.level = some level' ∧
          level'.audio = level.audio) ∨
      ∃ entered : Game, entered.calls = action.calls ++ game.calls ∧
        act world (game.withLevel level) action = entered.loadLevel world := by
  cases action with
  | nothing | played => exact .inl ⟨rfl, level, rfl, rfl⟩
  | endLevel caller call =>
    obtain ⟨died, suppressScore⟩ := call
    have found : (game.withLevel level).scene.level = some level := rfl
    cases suppressScore with
    | false =>
      refine .inl ⟨?_, { level with enabled := false }, ?_, rfl⟩
      · rw [act, endLevel_ends found]
        rfl
      · rw [act, endLevel_ends found]
        rfl
    -- The call of `Wife` goes on to `LoadLevel`.
    | true => exact .inr ⟨_, rfl, endLevel_loads found caller died⟩

theorem act_calls (game : Game) (level : Level) (action : LevelAction) :
    game.calls <:+ (act world (game.withLevel level) action).calls := by
  rcases act_cases game level action with ⟨calls, -⟩ | ⟨entered, calls, loaded⟩
  · rw [calls]
    exact List.suffix_append _ _
  · rw [loaded, loadLevel_calls, calls]
    exact (List.suffix_append _ _).trans (List.suffix_cons _ _)

/-- Unless it loads another level, the game records just the action. -/
theorem act_unloaded {game : Game} {level : Level} {action : LevelAction}
    (unloaded : (act world (game.withLevel level) action).loads = game.loads) :
    (act world (game.withLevel level) action).calls = action.calls ++ game.calls ∧
      ∃ level', (act world (game.withLevel level) action).scene.level = some level' ∧
        level'.audio = level.audio := by
  rcases act_cases game level action with kept | ⟨entered, calls, loaded⟩
  · exact kept
  · rw [loaded, loads_loadLevel, loads, calls, List.count_append, loads] at unloaded
    omega

end Calls

end Game

end SneakySneaky
