import SneakySneaky.GameSteps

/-! # The stages of a frame, and the calls of `EndLevel`

`HandleUpdate` handles the space key, the menu, the movies and the developer's keys in this
order.  The states between the stages have names here, because what a frame shows and
whether it begins or ends a level is decided there; and so have the calls of `EndLevel` that
an event makes, with the states they are made in. -/

namespace SneakySneaky

open SneakySneaky.Foundation

namespace Game

/-! ## Stages -/

section Stages

variable (world : World) (input : Input) (game : Game)

def afterSpace : Game := ((game.handleExitKey input).handleSpace world input).1

def spacePressed : Bool := ((game.handleExitKey input).handleSpace world input).2

def afterMenu : Game :=
  (game.afterSpace world input).andThen (handleMenu world input (game.spacePressed world input))

def afterMovies : Game := (game.afterMenu world input).andThen (handleMovies world input)

/-- The state in which the developer's N is looked at. -/
def beforeNext : Game := ((game.afterMovies world input).toggleDebug input).handleReload world input

theorem handleUpdate_eq :
    game.handleUpdate world input =
      ((game.afterMovies world input).andThen (handleDeveloper world input)).andThen (handleCheat input) := rfl

/-- The keys after N, which call neither `LoadLevel` nor `EndLevel`. -/
def handleLastKeys : Game := (game.andThen (handleCrash input)).andThen (handleUnlock input)

theorem handleDeveloper_developerMode {game : Game} (developerMode : game.developerMode = true) :
    game.handleDeveloper world input =
      (((game.toggleDebug input).handleReload world input).andThen (handleNext world input)).handleLastKeys
        input := by
  rw [handleDeveloper, if_pos developerMode]
  rfl

end Stages

end Game

/-! ## Calls of `EndLevel` -/

/-- A call of `EndLevel` and the state it is made in. -/
structure EndLevelCall where
  state : Game
  caller : EndCaller
  call : EndCall

def Call.isEnd : Call → Bool
  | .endLevel _ _ => true
  | .loadLevel | .play _ => false

/-- Time and score, and the calls of `EndLevel` they come from. -/
structure Totals where
  time : ℚ
  score : ℤ
  ends : List Call
  deriving DecidableEq

def Totals.zero : Totals := ⟨0, 0, []⟩

namespace EndLevelCall

/-- What `EndLevel` adds to the score; without a level it follows a NULL pointer instead. -/
def score (call : EndLevelCall) : ℤ :=
  match call.state.scene.level with
  | none => 0
  | some level => Game.score call.state.levelTime level

def addTo (totals : Totals) (call : EndLevelCall) : Totals :=
  match call.state.scene.level with
  | none => totals
  | some level =>
    ⟨totals.time + call.state.levelTime, totals.score + Game.score call.state.levelTime level,
      .endLevel call.caller call.call :: totals.ends⟩

theorem addTo_score (totals : Totals) (call : EndLevelCall) :
    (addTo totals call).score = totals.score + call.score := by
  simp only [addTo, EndLevelCall.score]
  split <;> simp

end EndLevelCall

namespace Game

variable {world : World}

def endsByKey (world : World) (input : Input) (game : Game) : Bool :=
  (game.afterMovies world input).status.returned && (game.afterMovies world input).developerMode &&
    (game.beforeNext world input).status.returned &&
      decide ((game.beforeNext world input).gameState = .playing ∧ input.keyPress .n = true)

/-- The calls of `EndLevel` that the engine's next event makes, of which there is at most one. -/
def endLevelCalls (world : World) (game : Game) (event : Event) : List EndLevelCall :=
  if game.status = .running then
    match event with
    | .frame input =>
      if game.betweenSteps && game.endsByKey world input then
        [⟨game.beforeNext world input, .developer, ⟨false, false⟩⟩]
      else []
    | .level event =>
      match game.scene.level with
      | none => []
      | some level =>
        match (level.step world.cache event).2 with
        | .endLevel caller call => [⟨game.withLevel (level.step world.cache event).1, caller, call⟩]
        | .nothing | .played _ => []
    | .postRenderUpdate => []
  else []

/-! ## What the stages leave alone -/

def totals (game : Game) : Totals := ⟨game.totalTime, game.totalScore, game.calls.filter Call.isEnd⟩

theorem Adjusts.totals {game game' : Game} (adjusts : Adjusts game game') : game'.totals = game.totals := by
  rw [Game.totals, adjusts.totalTime, adjusts.totalScore, adjusts.calls]
  rfl

@[simp] theorem loadLevel_totals (world : World) (game : Game) : (game.loadLevel world).totals = game.totals := by
  have result := loadLevel_result world game
  generalize game.loadLevel world = after at result ⊢
  cases result with
  | credits missing | hang found | enter found read => rfl

theorem andThen_totals {game : Game} {next : Game → Game} (same : (next game).totals = game.totals) :
    (game.andThen next).totals = game.totals := by
  simp only [andThen]
  split
  · exact same
  · rfl

section Totals

variable (input : Input) (game : Game)

theorem afterSpace_totals : (game.afterSpace world input).totals = game.totals := by
  have exited := (handleExitKey_adjusts input game).totals
  rw [afterSpace, ← exited]
  have result := handleSpace_result world input (game.handleExitKey input)
  generalize ((game.handleExitKey input).handleSpace world input).1 = after at result ⊢
  cases result with
  | unused => rfl
  | leaveCredits pressed credits => rfl
  | load pressed elsewhere => exact loadLevel_totals world _

theorem leaveMenu_totals (spacePressed : Bool) :
    (game.leaveMenu world input spacePressed).totals = game.totals := by
  have result := leaveMenu_result world input game spacePressed
  generalize game.leaveMenu world input spacePressed = after at result ⊢
  cases result with
  | stay => rfl
  | movie shows => rfl
  | load => exact loadLevel_totals world _

theorem advanceTitle_totals : (game.advanceTitle world input).totals = game.totals := by
  obtain ⟨titleMovie, result⟩ := advanceTitle_eq world input game
  rw [result]
  rfl

theorem handleMenu_totals (spacePressed : Bool) :
    (game.handleMenu world input spacePressed).totals = game.totals := by
  simp only [handleMenu]
  split
  · rw [leaveMenu_totals, advanceTitle_totals]
    rfl
  · rfl

theorem handleMovies_totals : (game.handleMovies world input).totals = game.totals := by
  have result := handleMovies_result world input game
  generalize game.handleMovies world input = after at result ⊢
  cases result with
  | goOn intro credits => rfl
  | crash plays missing intro credits => rfl
  | introOver intro => exact loadLevel_totals world _
  | creditsOver credits => rfl

theorem afterMovies_totals : (game.afterMovies world input).totals = game.totals := by
  rw [afterMovies, andThen_totals (handleMovies_totals input _), afterMenu,
    andThen_totals (handleMenu_totals input _ _), afterSpace_totals]

theorem beforeNext_totals : (game.beforeNext world input).totals = game.totals := by
  rw [← @afterMovies_totals world input game, beforeNext]
  simp only [handleReload]
  split
  · rw [loadLevel_totals]
    rfl
  · rfl

theorem handleLastKeys_adjusts : Adjusts game (game.handleLastKeys input) :=
  (andThen_adjusts (handleCrash_adjusts input) game).trans (andThen_adjusts (handleUnlock_adjusts input) _)

/-! ## What `EndLevel` adds -/

theorem endLevel_totals (caller : EndCaller) (call : EndCall) :
    (game.endLevel world caller call).totals = EndLevelCall.addTo game.totals ⟨game, caller, call⟩ := by
  cases found : game.scene.level with
  | none => simp [endLevel, EndLevelCall.addTo, found, totals]
  | some level =>
    obtain ⟨died, suppressScore⟩ := call
    simp only [EndLevelCall.addTo, found]
    cases suppressScore with
    | false =>
      rw [endLevel_ends found]
      rfl
    | true =>
      rw [endLevel_loads found, loadLevel_totals]
      rfl

theorem handleUpdate_totals :
    (game.handleUpdate world input).totals =
      if game.endsByKey world input then
        EndLevelCall.addTo game.totals ⟨game.beforeNext world input, .developer, ⟨false, false⟩⟩
      else game.totals := by
  rw [handleUpdate_eq, (andThen_adjusts (handleCheat_adjusts input) _).totals]
  by_cases returned : (game.afterMovies world input).status.returned = true
  · rw [andThen, if_pos returned]
    by_cases developer : (game.afterMovies world input).developerMode = true
    · rw [handleDeveloper_developerMode world input developer, (handleLastKeys_adjusts input _).totals]
      change ((game.beforeNext world input).andThen (handleNext world input)).totals = _
      by_cases reloaded : (game.beforeNext world input).status.returned = true
      · rw [andThen, if_pos reloaded, handleNext]
        by_cases pressed : (game.beforeNext world input).gameState = .playing ∧ input.keyPress .n = true
        · rw [if_pos pressed, if_pos (by simp [endsByKey, returned, developer, reloaded, pressed]),
            endLevel_totals, beforeNext_totals]
        · rw [if_neg pressed, if_neg (by simp [endsByKey, pressed]), beforeNext_totals]
      · rw [andThen, if_neg reloaded, if_neg (by simp [endsByKey, reloaded]), beforeNext_totals]
    · rw [if_neg (by simp [endsByKey, developer]), ← @afterMovies_totals world input game,
        handleDeveloper, if_neg developer]
      split <;> rfl
  · rw [andThen, if_neg returned, if_neg (by simp [endsByKey, returned]), afterMovies_totals]

end Totals

/-- Time and score change by calls of `EndLevel` only, and every call is recorded. -/
theorem step_totals (world : World) (game : Game) (event : Event) :
    (game.step world event).totals = (game.endLevelCalls world event).foldl EndLevelCall.addTo game.totals := by
  simp only [step, endLevelCalls]
  split
  · cases event with
    | frame input =>
      simp only
      by_cases between : game.betweenSteps = true
      · rw [if_pos between, handleUpdate_totals]
        cases ends : game.endsByKey world input <;> simp [between]
      · simp [between]
    | level event =>
      simp only [levelStep]
      cases found : game.scene.level with
      | none => rfl
      | some level =>
        simp only
        cases acted : (level.step world.cache event).2 with
        | nothing => rfl
        | played source => rfl
        | endLevel caller call => exact endLevel_totals _ caller call
    | postRenderUpdate =>
      simp only [handlePostRenderUpdate]
      split
      · split <;> rfl
      · rfl
  · rfl

end Game

end SneakySneaky
