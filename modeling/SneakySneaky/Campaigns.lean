import Mathlib.Tactic.Linarith
import SneakySneaky.Playthroughs
import SneakySneaky.Progression

/-! # Campaigns

A campaign begins with the level that a playthrough enters first, and goes on by one level each
time `LoadLevel` is called on the stairs.  Deaths, reloads, the developer's keys and a
second call of `EndLevel` come in between, and a frame can do several of these; still no level
is skipped, and the game leaves the levels only behind the last one that exists. -/

namespace SneakySneaky

open SneakySneaky.Foundation

/-- The action ends the level and loads the next at once. -/
def LevelAction.suppresses : LevelAction → Bool
  | .endLevel _ call => call.suppressScore
  | .nothing | .played _ => false

namespace Game

/-- The level is left behind: `LoadLevel` is called on the stairs. -/
def passes (world : World) (game : Game) : Event → Bool
  | .frame input =>
    decide (game.status = .running) && game.betweenSteps && decide (game.gameState = .stairs) &&
      (input.joystickButton || input.keyPress .space)
  | .level event =>
    decide (game.status = .running) && game.scene.level.any fun level =>
      (level.step world.cache event).2.suppresses
  | .postRenderUpdate => false

/-! ## In a level -/

/-- The game is in the level with this number. -/
structure At (world : World) (number : ℤ) (game : Game) : Prop where
  placed : Placed world game
  inLevel : game.gameState.inLevel = true
  number : game.currentLevel = number

/-- The game has gone through all levels. -/
structure Over (world : World) (game : Game) : Prop where
  placed : Placed world game
  gameState : game.gameState = .credits ∨ game.gameState = .finished

variable {world : World} {input : Input} {game game' : Game} {number : ℤ}

/-- A property that a part of the frame keeps, whether or not the part is reached. -/
theorem andThen_keeps {holds : Game → Prop} {next : Game → Game} (now : holds game)
    (keeps : ∀ game, holds game → holds (next game)) : holds (game.andThen next) := by
  simp only [andThen]
  split
  · exact keeps game now
  · exact now

theorem At.adjusts (located : At world number game) (adjusts : Adjusts game game') : At world number game' :=
  ⟨located.placed.adjusts adjusts, by rw [adjusts.gameState, located.inLevel],
    by rw [adjusts.currentLevel, located.number]⟩

theorem Over.adjusts (gone : Over world game) (adjusts : Adjusts game game') : Over world game' :=
  ⟨gone.placed.adjusts adjusts, by rw [adjusts.gameState]; exact gone.gameState⟩

theorem Over.outside (gone : Over world game) : game.gameState.inLevel = false := by
  rcases gone.gameState with credits | finished
  · rw [credits]
    rfl
  · rw [finished]
    rfl

/-- `LoadLevel` enters the level it is for, or rolls the credits when there is none. -/
theorem loadLevel_at (world : World) (game : Game) :
    At world game.beginLoad.currentLevel (game.loadLevel world) ∧ (game.loadLevel world).gameState = .playing ∨
      Over world (game.loadLevel world) ∧ world.levelImage (game.beginLoad.currentLevel + 1) = none := by
  have placed := loadLevel_placed world game
  have result := loadLevel_result world game
  generalize game.loadLevel world = after at result placed ⊢
  cases result with
  | credits missing => exact .inr ⟨⟨placed, .inl rfl⟩, missing⟩
  | hang found => exact .inl ⟨⟨placed, rfl, rfl⟩, rfl⟩
  | enter found read => exact .inl ⟨⟨placed, rfl, rfl⟩, rfl⟩

/-- A level that exists is entered again, unless it has been completed. -/
theorem At.reload (located : At world number game) (incomplete : game.gameState ≠ .stairs) :
    At world number (game.loadLevel world) := by
  have same : game.beginLoad.currentLevel = number := by
    rw [beginLoad, if_neg incomplete, located.number]
  obtain ⟨image, found⟩ := located.placed.exists_image located.inLevel
  rcases loadLevel_at world game with ⟨entered, -⟩ | ⟨-, missing⟩
  · rwa [same] at entered
  · rw [same, ← located.number, found] at missing
    cases missing

/-- Where the game goes from a level: it stays, or leaves it behind for the next or for the credits. -/
inductive Goes (world : World) (number : ℤ) (game : Game) : Bool → Prop where
  | stays (located : At world number game) : Goes world number game false
  | next (located : At world (number + 1) game) : Goes world number game true
  | leaves (gone : Over world game) (missing : world.levelImage (number + 1 + 1) = none) :
      Goes world number game true

/-- A level that has been completed is left behind. -/
theorem At.pass (located : At world number game) (completed : game.gameState = .stairs) :
    Goes world number (game.loadLevel world) true := by
  have next : game.beginLoad.currentLevel = number + 1 := by
    rw [beginLoad, if_pos completed, located.number]
  rcases loadLevel_at world game with ⟨entered, -⟩ | ⟨gone, missing⟩
  · exact .next (next ▸ entered)
  · exact .leaves gone (next ▸ missing)

theorem At.endLevel (located : At world number game) (caller : EndCaller) (died : Bool) :
    At world number (game.endLevel world caller ⟨died, false⟩) := by
  have placed := endLevel_placed located.placed caller ⟨died, false⟩
  cases found : game.scene.level with
  | none =>
    rw [Game.endLevel, found] at placed ⊢
    exact ⟨placed, located.inLevel, located.number⟩
  | some level =>
    rw [endLevel_ends found] at placed ⊢
    refine ⟨placed, ?_, located.number⟩
    cases died with
    | true => rfl
    | false => rfl

/-! ## The parts of a frame -/

theorem At.menu (located : At world number game) (spacePressed : Bool) :
    At world number (game.handleMenu world input spacePressed) := by
  have inLevel := located.inLevel
  rw [handleMenu, if_neg fun menu => by rw [menu] at inLevel; cases inLevel]
  exact located

theorem At.movies (located : At world number game) : At world number (game.handleMovies world input) := by
  have inLevel := located.inLevel
  have result := handleMovies_result world input game
  generalize game.handleMovies world input = after at result ⊢
  cases result with
  | goOn intro credits => exact located.adjusts (.same rfl rfl rfl rfl rfl rfl)
  | crash plays missing intro credits => exact located.adjusts (.same rfl rfl rfl rfl rfl rfl)
  | introOver intro =>
    rw [intro] at inLevel
    cases inLevel
  | creditsOver credits =>
    rw [credits] at inLevel
    cases inLevel

theorem At.developer (located : At world number game) : At world number (game.handleDeveloper world input) := by
  by_cases developerMode : game.developerMode = true
  · rw [handleDeveloper_developerMode world input developerMode]
    have toggled : At world number (game.toggleDebug input) := located.adjusts (.same rfl rfl rfl rfl rfl rfl)
    have reloaded : At world number ((game.toggleDebug input).handleReload world input) := by
      rw [handleReload]
      split
      · rename_i pressed
        exact toggled.reload (by rw [pressed.1]; decide)
      · exact toggled
    have ended : At world number
        (((game.toggleDebug input).handleReload world input).andThen (handleNext world input)) := by
      refine andThen_keeps reloaded fun game located => ?_
      rw [handleNext]
      split
      · exact located.endLevel .developer false
      · exact located
    exact ended.adjusts (handleLastKeys_adjusts input _)
  · rw [handleDeveloper, if_neg developerMode]
    split
    · exact located.adjusts (.same rfl rfl rfl rfl rfl rfl)
    · exact located

theorem Over.menu (gone : Over world game) (spacePressed : Bool) :
    Over world (game.handleMenu world input spacePressed) := by
  have elsewhere : game.gameState ≠ .menu := by
    rcases gone.gameState with credits | finished
    · rw [credits]
      decide
    · rw [finished]
      decide
  rw [handleMenu, if_neg elsewhere]
  exact gone

theorem Over.movies (gone : Over world game) : Over world (game.handleMovies world input) := by
  have result := handleMovies_result world input game
  generalize game.handleMovies world input = after at result ⊢
  cases result with
  | goOn intro credits => exact gone.adjusts (.same rfl rfl rfl rfl rfl rfl)
  | crash plays missing intro credits => exact gone.adjusts (.same rfl rfl rfl rfl rfl rfl)
  | introOver intro =>
    rcases gone.gameState with credits | finished
    · cases intro.symm.trans credits
    · cases intro.symm.trans finished
  | creditsOver credits =>
    exact ⟨.outside (gone.placed.atStart gone.outside) rfl (gone.placed.no_level gone.outside), .inr rfl⟩

/-- Outside of a level the developer's keys change no state. -/
theorem handleDeveloper_outside (world : World) (input : Input) (outside : game.gameState.inLevel = false) :
    Adjusts game (game.handleDeveloper world input) := by
  have elsewhere : game.gameState ≠ .playing := fun playing => by
    rw [playing] at outside
    cases outside
  by_cases developerMode : game.developerMode = true
  · have stays : (game.toggleDebug input).handleReload world input = game.toggleDebug input := by
      rw [handleReload, if_neg fun pressed => elsewhere pressed.1]
    have toggled : Adjusts game (game.toggleDebug input) := .same rfl rfl rfl rfl rfl rfl
    have next : Adjusts game ((game.toggleDebug input).andThen (handleNext world input)) := by
      refine andThen_keeps toggled fun after adjusts => ?_
      rw [handleNext, if_neg fun pressed => elsewhere (adjusts.gameState.symm.trans pressed.1)]
      exact adjusts
    rw [handleDeveloper_developerMode world input developerMode, stays]
    exact next.trans (handleLastKeys_adjusts input _)
  · rw [handleDeveloper, if_neg developerMode]
    split
    · exact .same rfl rfl rfl rfl rfl rfl
    · exact .refl game

/-- The parts of a frame after the space key. -/
theorem At.frame (located : At world number (game.afterSpace world input)) :
    At world number (game.handleUpdate world input) := by
  rw [handleUpdate_eq, afterMovies, afterMenu]
  refine andThen_keeps (andThen_keeps (andThen_keeps (andThen_keeps located ?_) ?_) ?_) ?_
  · exact fun game located => located.menu _
  · exact fun game located => located.movies
  · exact fun game located => located.developer
  · exact fun game located => located.adjusts (handleCheat_adjusts input game)

theorem Over.frame (gone : Over world (game.afterSpace world input)) : Over world (game.handleUpdate world input) := by
  rw [handleUpdate_eq, afterMovies, afterMenu]
  refine andThen_keeps (andThen_keeps (andThen_keeps (andThen_keeps gone ?_) ?_) ?_) ?_
  · exact fun game gone => gone.menu _
  · exact fun game gone => gone.movies
  · exact fun game gone => gone.adjusts (handleDeveloper_outside world input gone.outside)
  · exact fun game gone => gone.adjusts (handleCheat_adjusts input game)

/-! ## An event in a level -/

theorem handleSpace_inLevel (world : World) (input : Input) (inLevel : game.gameState.inLevel = true) :
    (game.handleSpace world input).1 =
      if game.gameState ≠ .playing ∧ (input.joystickButton || input.keyPress .space) = true then game.loadLevel world
      else game := by
  have notMenu : game.gameState ≠ .menu := fun menu => by
    rw [menu] at inLevel
    cases inLevel
  have notCredits : game.gameState ≠ .credits := fun credits => by
    rw [credits] at inLevel
    cases inLevel
  simp only [handleSpace, notMenu, notCredits, ne_eq, not_false_eq_true, true_and, if_true]
  split <;> rfl

theorem At.handleUpdate (located : At world number game) (input : Input) :
    Goes world number (game.handleUpdate world input)
      (decide (game.gameState = .stairs) && (input.joystickButton || input.keyPress .space)) := by
  have waiting := located.adjusts (handleExitKey_adjusts input game)
  have space := handleSpace_inLevel world input waiting.inLevel
  have same := (handleExitKey_adjusts input game).gameState
  by_cases completed : game.gameState = .stairs
  · cases pressed : input.joystickButton || input.keyPress .space with
    | true =>
      rw [if_pos ⟨by rw [same, completed]; decide, pressed⟩] at space
      have passed := waiting.pass (same.trans completed)
      rw [← space] at passed
      simp only [completed, decide_true, Bool.and_true]
      cases passed with
      | next located => exact .next located.frame
      | leaves gone missing => exact .leaves gone.frame missing
    | false =>
      rw [if_neg fun both => by rw [pressed] at both; cases both.2] at space
      rw [← space] at waiting
      rw [Bool.and_false]
      exact .stays waiting.frame
  · have stays : At world number ((game.handleExitKey input).handleSpace world input).1 := by
      rw [space]
      split
      · exact waiting.reload (by rwa [same])
      · exact waiting
    simp only [completed, decide_false, Bool.false_and]
    exact .stays stays.frame

theorem At.act (located : At world number game) {level : Level} (found : game.scene.level = some level)
    (action : LevelAction) : Goes world number (act world game action) action.suppresses := by
  cases action with
  | nothing => exact .stays located
  | played source =>
    obtain ⟨placed, inLevel, number⟩ := located
    exact .stays ⟨⟨placed.atStart, placed.exists_image, placed.inLevel⟩, inLevel, number⟩
  | endLevel caller call =>
    obtain ⟨died, suppressScore⟩ := call
    cases suppressScore with
    | false => exact .stays (located.endLevel caller died)
    | true =>
      have completed : At world number { game.addTotals level with
          calls := .endLevel caller ⟨died, true⟩ :: game.calls, gameState := .stairs } :=
        ⟨.inside rfl (located.placed.exists_image located.inLevel), rfl, located.number⟩
      rw [Game.act, endLevel_loads found]
      exact completed.pass rfl

theorem At.step (located : At world number game) (event : Event) :
    Goes world number (game.step world event) (game.passes world event) := by
  by_cases running : game.status = .running
  · cases event with
    | frame input =>
      cases between : game.betweenSteps with
      | true =>
        simp only [Game.step, passes, running, between, if_true, decide_true, Bool.true_and]
        exact located.handleUpdate input
      | false =>
        simp only [Game.step, passes, running, between, if_true, Bool.and_false, Bool.false_and,
          Bool.false_eq_true, if_false]
        exact .stays located
    | level event =>
      cases found : game.scene.level with
      | none =>
        simp only [Game.step, passes, running, if_true, levelStep, found, Option.any_none, Bool.and_false]
        exact .stays located
      | some level =>
        have acts : game.step world (.level event) =
            Game.act world (game.withLevel (level.step world.cache event).1) (level.step world.cache event).2 := by
          simp only [Game.step, if_pos running, levelStep, found]
          rfl
        have suppresses : game.passes world (.level event) = (level.step world.cache event).2.suppresses := by
          simp [passes, running, found]
        have stepped : At world number (game.withLevel (level.step world.cache event).1) :=
          ⟨located.placed.withLevel found _, located.inLevel, located.number⟩
        rw [acts, suppresses]
        exact stepped.act rfl _
    | postRenderUpdate =>
      have result := step_result world game .postRenderUpdate
      generalize game.step world .postRenderUpdate = after at result ⊢
      cases result with
      | crash running => exact .stays (located.adjusts (.same rfl rfl rfl rfl rfl rfl))
      | same => exact .stays located
  · have stopped : game.step world event = game := by simp only [Game.step, if_neg running]
    have stays : game.passes world event = false := by
      cases event with
      | frame | level => simp [passes, running]
      | postRenderUpdate => rfl
    rw [stopped, stays]
    exact .stays located

/-! ## Outside of a level -/

/-- The game is outside of a level, or has just entered one of those that the menu offers. -/
structure Begun (world : World) (game : Game) : Prop where
  placed : Placed world game
  first : game.gameState.inLevel = true →
    game.gameState = .playing ∧ 0 ≤ game.currentLevel ∧ game.currentLevel ≤ 8

theorem begun_of_outside (placed : Placed world game) (outside : game.gameState.inLevel = false) :
    Begun world game := by
  refine ⟨placed, fun inLevel => ?_⟩
  rw [outside] at inLevel
  cases inLevel

theorem loadLevel_begun (world : World) (first : 0 ≤ game.currentLevel) (last : game.currentLevel ≤ 8)
    (outside : game.gameState.inLevel = false) : Begun world (game.loadLevel world) := by
  have same : game.beginLoad.currentLevel = game.currentLevel := by
    rw [beginLoad, if_neg fun stairs => by rw [stairs] at outside; cases outside]
  rcases loadLevel_at world game with ⟨entered, playing⟩ | ⟨gone, -⟩
  · refine ⟨entered.placed, fun _ => ⟨playing, ?_, ?_⟩⟩
    · rw [entered.number, same]
      exact first
    · rw [entered.number, same]
      exact last
  · exact begun_of_outside gone.placed gone.outside

theorem afterSpace_begun (placed : Placed world game) (outside : game.gameState.inLevel = false) (input : Input) :
    Begun world (game.afterSpace world input) := by
  have waiting := placed.adjusts (handleExitKey_adjusts input game)
  have stillOutside : (game.handleExitKey input).gameState.inLevel = false := by
    rw [(handleExitKey_adjusts input game).gameState, outside]
  rw [afterSpace]
  generalize game.handleExitKey input = game at waiting stillOutside ⊢
  have result := handleSpace_result world input game
  generalize (game.handleSpace world input).1 = after at result ⊢
  have start := waiting.atStart stillOutside
  cases result with
  | unused => exact begun_of_outside waiting stillOutside
  | leaveCredits pressed credits =>
    exact begun_of_outside (.outside start rfl (waiting.no_level stillOutside)) rfl
  | load pressed elsewhere => exact loadLevel_begun world (by omega) (by omega) stillOutside

theorem targetLevel_range (input : Input) : -1 ≤ targetLevel input ∧ targetLevel input ≤ 9 := by
  rw [targetLevel]
  split_ifs <;> decide

/-- The menu offers the levels of its keys 1 to 9. -/
theorem leaveMenu_begun (menu : game.gameState = .menu) {spacePressed : Bool}
    (placed : Placed world (game.leaveMenu world input spacePressed)) :
    Begun world (game.leaveMenu world input spacePressed) := by
  have outside : game.gameState.inLevel = false := by rw [menu]; rfl
  rw [leaveMenu] at placed ⊢
  by_cases leaves : spacePressed = true ∨ targetLevel input ≠ -1
  · rw [if_pos leaves] at placed ⊢
    by_cases movie : spacePressed = true ∨ targetLevel input = 9
    · rw [if_pos movie] at placed ⊢
      refine begun_of_outside placed ?_
      cases spacePressed with
      | true => rfl
      | false => rfl
    · rw [if_neg movie]
      obtain ⟨first, last⟩ := targetLevel_range input
      rw [not_or] at movie
      have chosen := leaves.resolve_left movie.1
      exact loadLevel_begun world (show 0 ≤ targetLevel input by omega) (show targetLevel input ≤ 8 by omega) outside
  · rw [if_neg leaves] at placed ⊢
    exact begun_of_outside placed outside

theorem Begun.menu (begun : Begun world game) (spacePressed : Bool) :
    Begun world (game.handleMenu world input spacePressed) := by
  have placed := begun.placed.moves (handleMenu_moves input game spacePressed)
  by_cases menu : game.gameState = .menu
  · rw [handleMenu, if_pos menu] at placed ⊢
    exact leaveMenu_begun ((advanceTitle_gameState input game.buildMenu).trans menu) placed
  · rw [handleMenu, if_neg menu]
    exact begun

theorem Begun.movies (begun : Begun world game) : Begun world (game.handleMovies world input) := by
  have placed := begun.placed.moves (handleMovies_moves input game)
  have result := handleMovies_result world input game
  generalize game.handleMovies world input = after at result placed ⊢
  cases result with
  | goOn intro credits => exact ⟨placed, begun.first⟩
  | crash plays missing intro credits => exact ⟨placed, begun.first⟩
  | introOver intro =>
    have outside : game.gameState.inLevel = false := by rw [intro]; rfl
    have start := begun.placed.atStart outside
    exact loadLevel_begun world start.ge (start.le.trans (by decide)) outside
  | creditsOver credits => exact begun_of_outside placed rfl

theorem afterMovies_begun (placed : Placed world game) (outside : game.gameState.inLevel = false) (input : Input) :
    Begun world (game.afterMovies world input) := by
  rw [afterMovies, afterMenu]
  refine andThen_keeps (andThen_keeps (afterSpace_begun placed outside input) ?_) ?_
  · exact fun game begun => begun.menu _
  · exact fun game begun => begun.movies

/-- A frame outside of the levels enters one that the menu offers just when it begins play. -/
theorem handleUpdate_outside (placed : Placed world game) (outside : game.gameState.inLevel = false) (input : Input) :
    if (game.afterMovies world input).gameState = .playing then
      ∃ number, 0 ≤ number ∧ number ≤ 8 ∧ At world number (game.handleUpdate world input)
    else Placed world (game.handleUpdate world input) ∧ (game.handleUpdate world input).gameState.inLevel = false := by
  have begun := afterMovies_begun placed outside input
  rw [handleUpdate_eq]
  generalize game.afterMovies world input = game at begun ⊢
  split
  · rename_i playing
    have inLevel : game.gameState.inLevel = true := by rw [playing]; rfl
    obtain ⟨-, first, last⟩ := begun.first inLevel
    have located : At world game.currentLevel game := ⟨begun.placed, inLevel, rfl⟩
    refine ⟨game.currentLevel, first, last, andThen_keeps (andThen_keeps located ?_) ?_⟩
    · exact fun game located => located.developer
    · exact fun game located => located.adjusts (handleCheat_adjusts input game)
  · rename_i elsewhere
    have outside : game.gameState.inLevel = false := by
      cases inLevel : game.gameState.inLevel with
      | true => exact absurd (begun.first inLevel).1 elsewhere
      | false => rfl
    have adjusts : Adjusts game ((game.andThen (handleDeveloper world input)).andThen (handleCheat input)) := by
      refine Adjusts.trans ?_ (andThen_adjusts (handleCheat_adjusts input) _)
      rw [andThen]
      split
      · exact handleDeveloper_outside world input outside
      · exact .refl game
    exact ⟨begun.placed.adjusts adjusts, by rw [adjusts.gameState, outside]⟩

/-- Only a frame that begins play leads from outside of the levels into one. -/
theorem step_outside (placed : Placed world game) (outside : game.gameState.inLevel = false) (event : Event) :
    game.passes world event = false ∧
      if game.begins world event = true then
        ∃ number, 0 ≤ number ∧ number ≤ 8 ∧ At world number (game.step world event)
      else Placed world (game.step world event) ∧ (game.step world event).gameState.inLevel = false := by
  have notStairs : game.gameState ≠ .stairs := fun stairs => by
    rw [stairs] at outside
    cases outside
  by_cases handled : ∃ input, event = .frame input ∧ game.status = .running ∧ game.betweenSteps = true
  · obtain ⟨input, rfl, running, between⟩ := handled
    have frame : game.step world (.frame input) = game.handleUpdate world input := by
      simp only [Game.step, if_pos running, if_pos between]
    have begins : game.begins world (.frame input) = decide ((game.afterMovies world input).gameState = .playing) := by
      simp [begins, running, between, outside]
    refine ⟨by simp [passes, notStairs], ?_⟩
    rw [frame, begins]
    simpa using handleUpdate_outside placed outside input
  · have idle : game.begins world event = false := by
      cases event with
      | frame input =>
        by_cases running : game.status = .running
        · have between : game.betweenSteps ≠ true := fun between => handled ⟨input, rfl, running, between⟩
          simp [begins, between]
        · simp [begins, running]
      | level | postRenderUpdate => rfl
    have noLevel := placed.no_level outside
    have adjusts : Adjusts game (game.step world event) := by
      rcases step_cases world game event with
        ⟨input, rfl, -⟩ | ⟨levelEvent, level, -, found, -⟩ | adjusts
      · have same : game.step world (.frame input) = game := by
          simp only [Game.step]
          split
          · rename_i running
            rw [if_neg fun between => handled ⟨input, rfl, running, between⟩]
          · rfl
        rw [same]
        exact .refl game
      · rw [noLevel] at found
        cases found
      · exact adjusts
    have stays : game.passes world event = false := by
      cases event with
      | frame input => simp [passes, notStairs]
      | level event => simp [passes, noLevel]
      | postRenderUpdate => rfl
    refine ⟨stays, ?_⟩
    rw [if_neg (by simp [idle])]
    exact ⟨placed.adjusts adjusts, by rw [adjusts.gameState, outside]⟩

end Game

/-! ## Campaigns -/

/-- The game, the level that the last playthrough began with, and the levels left behind since. -/
structure Campaign where
  game : Game
  first : ℤ
  passed : List ℤ

namespace Campaign

def create : Campaign := ⟨.create, 0, []⟩

def step (world : World) (campaign : Campaign) (event : Event) : Campaign :=
  let game := campaign.game.step world event
  if campaign.game.begins world event then ⟨game, game.currentLevel, []⟩
  else if campaign.game.passes world event then ⟨game, campaign.first, campaign.passed ++ [campaign.game.currentLevel]⟩
  else ⟨game, campaign.first, campaign.passed⟩

theorem run_game (world : World) (campaign : Campaign) (events : List Event) :
    (run (step world) campaign events).game = run (Game.step world) campaign.game events := by
  refine run_view Campaign.game (fun campaign event => ?_) campaign events
  simp only [step]
  split
  · rfl
  · split <;> rfl

/-- So many levels from the first on. -/
def inOrder (first : ℤ) (count : ℕ) : List ℤ := (List.range count).map fun index : ℕ => first + (index : ℤ)

theorem inOrder_succ (first : ℤ) (count : ℕ) : inOrder first (count + 1) = inOrder first count ++ [first + count] := by
  rw [inOrder, List.range_succ, List.map_append]
  rfl

/-- The levels left behind are those before the game's; and the game is out of the levels only as long as play has
    not begun, or behind the last level. -/
structure Ordered (world : World) (waiting : Prop) (campaign : Campaign) : Prop where
  placed : campaign.game.Placed world
  chosen : 0 ≤ campaign.first ∧ campaign.first ≤ 8
  passed : campaign.passed = inOrder campaign.first campaign.passed.length
  exist : ∀ number ∈ campaign.passed, ∃ image, world.levelImage (number + 1) = some image
  level : campaign.game.gameState.inLevel = true →
    campaign.game.currentLevel = campaign.first + campaign.passed.length
  gone : campaign.game.gameState.inLevel = false →
    waiting ∧ campaign.passed = [] ∨ world.levelImage (campaign.first + campaign.passed.length + 1) = none

theorem create_ordered (world : World) : Ordered world True create := by
  refine ⟨Game.create_placed world, ⟨le_refl 0, by decide⟩, rfl, fun number member => ?_, fun inLevel => ?_,
    fun _ => .inl ⟨trivial, rfl⟩⟩
  · cases member
  · cases inLevel

variable {world : World} {waiting : Prop} {campaign : Campaign} {event : Event}

theorem step_begins (begins : campaign.game.begins world event = true) :
    campaign.step world event =
      ⟨campaign.game.step world event, (campaign.game.step world event).currentLevel, []⟩ := if_pos begins

theorem step_passes (begins : ¬ campaign.game.begins world event = true)
    (passes : campaign.game.passes world event = true) :
    campaign.step world event =
      ⟨campaign.game.step world event, campaign.first, campaign.passed ++ [campaign.game.currentLevel]⟩ := by
  rw [step, if_neg begins, if_pos passes]

theorem step_stays (begins : ¬ campaign.game.begins world event = true)
    (stays : campaign.game.passes world event = false) :
    campaign.step world event = ⟨campaign.game.step world event, campaign.first, campaign.passed⟩ := by
  rw [step, if_neg begins, stays]
  rfl

theorem Ordered.step_outside (ordered : Ordered world waiting campaign)
    (outside : campaign.game.gameState.inLevel = false) (event : Event) :
    Ordered world (waiting ∧ campaign.game.begins world event = false) (campaign.step world event) := by
  obtain ⟨placed, chosen, passed, exist, level, gone⟩ := ordered
  obtain ⟨stays, goes⟩ := Game.step_outside placed outside event
  by_cases begins : campaign.game.begins world event = true
  · rw [if_pos begins] at goes
    obtain ⟨number, first, last, located⟩ := goes
    rw [step_begins begins]
    refine ⟨located.placed, ?_, rfl, fun number member => ?_, fun _ => (add_zero _).symm, fun left => ?_⟩
    · rw [located.number]
      exact ⟨first, last⟩
    · cases member
    · rw [located.inLevel] at left
      cases left
  · rw [if_neg begins] at goes
    rw [step_stays begins stays]
    refine ⟨goes.1, chosen, passed, exist, fun inside => ?_, fun _ => ?_⟩
    · rw [goes.2] at inside
      cases inside
    · exact (gone outside).imp_left fun unbegun => ⟨⟨unbegun.1, Bool.eq_false_iff.mpr begins⟩, unbegun.2⟩

theorem Ordered.step_inLevel (ordered : Ordered world waiting campaign)
    (inLevel : campaign.game.gameState.inLevel = true) (event : Event) :
    Ordered world (waiting ∧ campaign.game.begins world event = false) (campaign.step world event) := by
  obtain ⟨placed, chosen, passed, exist, level, -⟩ := ordered
  have number := level inLevel
  have begins : ¬ campaign.game.begins world event = true := by
    cases event with
    | frame input => simp [Game.begins, inLevel]
    | level | postRenderUpdate => simp [Game.begins]
  have goes := Game.At.step ⟨placed, inLevel, rfl⟩ event
  cases passes : campaign.game.passes world event with
  | false =>
    rw [passes] at goes
    rw [step_stays begins passes]
    cases goes with
    | stays located =>
      refine ⟨located.placed, chosen, passed, exist, fun _ => located.number.trans number, fun outside => ?_⟩
      rw [located.inLevel] at outside
      cases outside
  | true =>
    rw [passes] at goes
    rw [step_passes begins passes]
    have size : (campaign.passed ++ [campaign.game.currentLevel]).length = campaign.passed.length + 1 :=
      List.length_append
    have longer : campaign.passed ++ [campaign.game.currentLevel] =
        inOrder campaign.first (campaign.passed ++ [campaign.game.currentLevel]).length := by
      rw [size, inOrder_succ, ← passed, number]
    have allExist : ∀ number ∈ campaign.passed ++ [campaign.game.currentLevel],
        ∃ image, world.levelImage (number + 1) = some image := by
      intro number member
      rcases List.mem_append.mp member with earlier | last
      · exact exist number earlier
      · rw [List.mem_singleton.mp last]
        exact placed.exists_image inLevel
    have next : campaign.first + ((campaign.passed ++ [campaign.game.currentLevel]).length : ℤ) =
        campaign.game.currentLevel + 1 := by
      rw [size, number]
      push_cast
      ring
    cases goes with
    | next located =>
      refine ⟨located.placed, chosen, longer, allExist, fun _ => located.number.trans next.symm, fun outside => ?_⟩
      rw [located.inLevel] at outside
      cases outside
    | leaves gone missing =>
      refine ⟨gone.placed, chosen, longer, allExist, fun inside => ?_, fun _ => .inr ?_⟩
      · rw [gone.outside] at inside
        cases inside
      · show world.levelImage (campaign.first + _ + 1) = none
        rw [next, missing]

theorem Ordered.step (ordered : Ordered world waiting campaign) (event : Event) :
    Ordered world (waiting ∧ campaign.game.begins world event = false) (campaign.step world event) := by
  cases inLevel : campaign.game.gameState.inLevel with
  | false => exact ordered.step_outside inLevel event
  | true => exact ordered.step_inLevel inLevel event

/-- None of the events begins play. -/
def Unbegun (world : World) (events : List Event) : Prop :=
  Meets (Game.step world) (fun game event => game.begins world event = false) .create events

theorem run_ordered (world : World) (events : List Event) :
    Ordered world (Unbegun world events) (run (step world) .create events) := by
  induction events using List.reverseRecOn with
  | nil => exact create_ordered world
  | append_singleton events event inductionHypothesis =>
    have unbegun : Unbegun world (events ++ [event]) ↔
        Unbegun world events ∧ (run (step world) .create events).game.begins world event = false := by
      rw [run_game]
      simp [Unbegun, meets_append, Meets, create]
    rw [run_append, unbegun]
    exact inductionHypothesis.step event

end Campaign

/-- In every run, the levels left behind since play began come one after the other from one that the menu offers, and
    all exist.  In a level they are those before it; and when the game is out of the levels, though play has begun,
    the one after them does not exist. -/
theorem levels_in_order (world : World) (events : List Event) :
    let campaign := run (Campaign.step world) .create events
    campaign.game = run (Game.step world) .create events ∧
      campaign.passed = Campaign.inOrder campaign.first campaign.passed.length ∧
      (0 ≤ campaign.first ∧ campaign.first ≤ 8) ∧
      (∀ number ∈ campaign.passed, ∃ image, world.levelImage (number + 1) = some image) ∧
      (campaign.game.gameState.inLevel = true →
        campaign.game.currentLevel = campaign.first + campaign.passed.length) ∧
      (campaign.game.gameState.inLevel = false →
        Campaign.Unbegun world events ∧ campaign.passed = [] ∨
          world.levelImage (campaign.first + campaign.passed.length + 1) = none) := by
  intro campaign
  obtain ⟨-, chosen, passed, exist, level, gone⟩ := Campaign.run_ordered world events
  exact ⟨Campaign.run_game world .create events, passed, chosen, exist, level, gone⟩

end SneakySneaky
