import Mathlib.Tactic.Linarith
import SneakySneaky.EndLevelLatch
import SneakySneaky.Frame

/-! # The time of a game

A frame adds its time step to `levelTime_` when it comes by in a level that is being played,
`EndLevel` adds `levelTime_` to `totalTime_`, and `LoadLevel` sets it back.  Together they
count every second played once, unless a level is left without `EndLevel` or ended twice.
The clocks are those of exact arithmetic: what the game's floats round off is left out. -/

namespace SneakySneaky

open SneakySneaky.Foundation

namespace Game

/-- The time on the clock: that of the levels ended, and of the level being played. -/
def clock (game : Game) : ℚ := game.totalTime + if game.gameState = .playing then game.levelTime else 0

/-- The frame gets to `levelTime_` in a level that is being played. -/
def playsOn (world : World) (input : Input) (game : Game) : Bool :=
  (game.afterMenu world input).status.returned && decide ((game.afterMenu world input).gameState = .playing)

/-- The developer's R reloads the level in this frame. -/
def reloads (world : World) (input : Input) (game : Game) : Bool :=
  (game.afterMovies world input).status.returned && (game.afterMovies world input).developerMode &&
    decide ((game.afterMovies world input).gameState = .playing ∧ input.keyPress .r = true)

/-- The time that an event plays. -/
def played (world : World) (game : Game) : Event → ℚ
  | .frame input =>
    if game.status = .running ∧ game.betweenSteps = true ∧ game.playsOn world input = true then input.timeStep else 0
  | .level _ | .postRenderUpdate => 0

/-- No time on the clock is lost, and none counted again. -/
def KeepsTime (world : World) (game : Game) (event : Event) : Prop :=
  (∀ input, event = .frame input → game.status = .running → game.betweenSteps = true →
      game.reloads world input = true → (game.afterMovies world input).levelTime = 0) ∧
    ∀ call ∈ game.endLevelCalls world event, call.state.gameState = .playing ∨ call.state.levelTime = 0

variable {world : World} {input : Input} {game : Game}

/-! ## Loading and ending a level -/

theorem clock_of_not_playing (elsewhere : game.gameState ≠ .playing) : game.clock = game.totalTime := by
  rw [clock, if_neg elsewhere, add_zero]

/-- A level begins with its clock at zero. -/
theorem loadLevel_clock (world : World) (game : Game) : (game.loadLevel world).clock = game.totalTime := by
  have result := loadLevel_result world game
  generalize game.loadLevel world = after at result ⊢
  cases result with
  | credits missing => exact add_zero _
  | hang found => exact add_zero _
  | enter found read => exact add_zero _

theorem endLevel_clock {level : Level} (found : game.scene.level = some level) (caller : EndCaller) (call : EndCall) :
    (game.endLevel world caller call).clock = game.totalTime + game.levelTime := by
  obtain ⟨died, suppressScore⟩ := call
  cases suppressScore with
  | true =>
    rw [endLevel_loads found, loadLevel_clock]
    rfl
  | false =>
    rw [endLevel_ends found]
    refine clock_of_not_playing ?_
    cases died with
    | true => exact fun impossible => by cases impossible
    | false => exact fun impossible => by cases impossible

/-! ## A frame -/

theorem andThen_clock {next : Game → Game} (same : (next game).clock = game.clock) :
    (game.andThen next).clock = game.clock := by
  simp only [andThen]
  split
  · exact same
  · rfl

theorem afterSpace_clock (world : World) (input : Input) (game : Game) :
    (game.afterSpace world input).clock = game.clock := by
  obtain ⟨status, exitTimer, result, -⟩ := handleExitKey_eq input game
  rw [afterSpace, result]
  simp only [handleSpace]
  split
  · rename_i used
    have before : game.clock = game.totalTime := clock_of_not_playing used.2.1
    simp only
    split
    · rw [loadLevel_clock, before]
    · rw [before]
      exact add_zero _
  · rfl

theorem handleMenu_clock (world : World) (input : Input) (spacePressed : Bool) (game : Game) :
    (game.handleMenu world input spacePressed).clock = game.clock := by
  simp only [handleMenu]
  split
  · rename_i menu
    have before : game.clock = game.totalTime := clock_of_not_playing (by rw [menu]; decide)
    obtain ⟨titleMovie, advanced⟩ := advanceTitle_eq world input game.buildMenu
    have result := leaveMenu_result world input (game.buildMenu.advanceTitle world input) spacePressed
    generalize (game.buildMenu.advanceTitle world input).leaveMenu world input spacePressed = after at result ⊢
    rw [advanced] at result
    cases result with
    | stay => rfl
    | movie shows =>
      rw [before]
      rcases shows with rfl | rfl
      · exact add_zero _
      · exact add_zero _
    | load =>
      rw [loadLevel_clock, before]
      rfl
  · rfl

theorem afterMenu_clock (world : World) (input : Input) (game : Game) :
    (game.afterMenu world input).clock = game.clock := by
  rw [afterMenu, andThen_clock (handleMenu_clock world input _ _), afterSpace_clock]

theorem handleMovies_clock (world : World) (input : Input) (game : Game) :
    (game.handleMovies world input).clock = game.clock + if game.gameState = .playing then input.timeStep else 0 := by
  by_cases playing : game.gameState = .playing
  · have advanced : game.handleMovies world input = { game with levelTime := game.levelTime + input.timeStep } := by
      rw [handleMovies, if_neg (by rw [playing]; decide), if_pos playing]
    rw [advanced, if_pos playing]
    simp only [clock, if_pos playing, add_assoc]
  · rw [if_neg playing, add_zero, clock_of_not_playing playing]
    have result := handleMovies_result world input game
    generalize game.handleMovies world input = after at result ⊢
    cases result with
    | goOn intro credits => exact clock_of_not_playing playing
    | crash plays missing intro credits => exact clock_of_not_playing playing
    | introOver intro => exact loadLevel_clock world _
    | creditsOver credits => exact add_zero _

theorem afterMovies_clock (world : World) (input : Input) (game : Game) :
    (game.afterMovies world input).clock =
      game.clock + if game.playsOn world input = true then input.timeStep else 0 := by
  rw [afterMovies, andThen, ← afterMenu_clock world input game]
  by_cases returned : (game.afterMenu world input).status.returned = true
  · rw [if_pos returned, handleMovies_clock]
    simp [playsOn, returned]
  · rw [if_neg returned, if_neg (by simp [playsOn, returned]), add_zero]

theorem handleLastKeys_clock (input : Input) (game : Game) : (game.handleLastKeys input).clock = game.clock := by
  have crash : ∀ game : Game, (game.handleCrash input).clock = game.clock := by
    intro game
    rcases handleCrash_cases input game with same | ⟨-, crashed⟩
    · rw [same]
    · rw [crashed]
      rfl
  have unlock : ∀ game : Game, (game.handleUnlock input).clock = game.clock := by
    intro game
    obtain ⟨items, result⟩ := handleUnlock_eq input game
    rw [result]
    rfl
  rw [handleLastKeys, andThen_clock (unlock _), andThen_clock (crash _)]

/-- The developer's N counts the time that is on the clock. -/
theorem handleNext_clock (world : World) (input : Input) (game : Game) :
    (game.handleNext world input).clock = game.clock := by
  simp only [handleNext]
  split
  · rename_i pressed
    cases found : game.scene.level with
    | none => simp [endLevel, found, clock]
    | some level => rw [endLevel_clock found, clock, if_pos pressed.1]
  · rfl

/-- The developer's R loses it. -/
theorem handleReload_clock (world : World) (input : Input) (game : Game) :
    (game.handleReload world input).clock =
      if game.gameState = .playing ∧ input.keyPress .r = true then game.totalTime else game.clock := by
  simp only [handleReload]
  split
  · exact loadLevel_clock world game
  · rfl

theorem handleDeveloper_clock (world : World) (input : Input) (game : Game) :
    (game.handleDeveloper world input).clock =
      if game.developerMode = true ∧ game.gameState = .playing ∧ input.keyPress .r = true then game.totalTime
      else game.clock := by
  by_cases developerMode : game.developerMode = true
  · rw [handleDeveloper_developerMode world input developerMode, handleLastKeys_clock,
      andThen_clock (handleNext_clock world input _), handleReload_clock]
    simp only [developerMode, true_and]
    rfl
  · rw [if_neg fun both => developerMode both.1, handleDeveloper, if_neg developerMode]
    split <;> rfl

theorem handleCheat_clock (input : Input) (game : Game) : (game.handleCheat input).clock = game.clock := by
  rcases handleCheat_cases input game with ⟨cheatCode, unlocked, result, -⟩ | ⟨-, -, crashed⟩
  · rw [result]
    rfl
  · rw [crashed]
    rfl

theorem handleUpdate_clock (world : World) (input : Input) (game : Game) :
    (game.handleUpdate world input).clock =
      game.clock + (if game.playsOn world input = true then input.timeStep else 0) -
        if game.reloads world input = true then (game.afterMovies world input).levelTime else 0 := by
  rw [handleUpdate_eq, andThen_clock (handleCheat_clock input _), ← afterMovies_clock, andThen]
  by_cases returned : (game.afterMovies world input).status.returned = true
  · rw [if_pos returned, handleDeveloper_clock]
    by_cases pressed : (game.afterMovies world input).developerMode = true ∧
        (game.afterMovies world input).gameState = .playing ∧ input.keyPress .r = true
    · rw [if_pos pressed, if_pos (by simp [reloads, returned, pressed]), clock, if_pos pressed.2.1,
        add_sub_cancel_right]
    · rw [if_neg pressed, if_neg (by simpa [reloads, returned] using pressed), sub_zero]
  · rw [if_neg returned, if_neg (by simp [reloads, returned]), sub_zero]

/-! ## An event -/

theorem endLevelCalls_frame {input : Input} {call : EndLevelCall}
    (called : call ∈ game.endLevelCalls world (.frame input)) :
    call.state.gameState = .playing := by
  simp only [endLevelCalls] at called
  split at called
  · split at called
    · rename_i ends
      simp only [endsByKey, Bool.and_eq_true, decide_eq_true_eq] at ends
      rw [List.mem_singleton] at called
      rw [called]
      exact ends.2.2.1
    · cases called
  · cases called

theorem frame_keepsTime_iff (running : game.status = .running) :
    (game.step world (.frame input)).clock = game.clock + game.played world (.frame input) ↔
      KeepsTime world game (.frame input) := by
  have ends : ∀ call ∈ game.endLevelCalls world (.frame input),
      call.state.gameState = .playing ∨ call.state.levelTime = 0 :=
    fun call called => .inl (endLevelCalls_frame called)
  simp only [KeepsTime, Event.frame.injEq, forall_eq', running, true_implies, and_iff_left ends, step, if_true, played,
    true_and]
  by_cases between : game.betweenSteps = true
  · rw [if_pos between, handleUpdate_clock]
    cases reloads : game.reloads world input with
    | true => simp [between]
    | false => simp [between]
  · simp [between]

theorem act_clock_iff {level : Level} (action : LevelAction) :
    (act world (game.withLevel level) action).clock = game.clock ↔
      ∀ caller call, action = .endLevel caller call → game.gameState = .playing ∨ game.levelTime = 0 := by
  cases action with
  | nothing | played =>
    refine iff_of_true rfl fun caller call impossible => ?_
    cases impossible
  | endLevel caller call =>
    have found : (game.withLevel level).scene.level = some level := rfl
    rw [act, endLevel_clock found, clock]
    change game.totalTime + game.levelTime = _ ↔ _
    by_cases playing : game.gameState = .playing
    · simp [playing]
    · simp [playing]

theorem level_keepsTime_iff {event : LevelEvent} (running : game.status = .running) :
    (game.step world (.level event)).clock = game.clock + game.played world (.level event) ↔
      KeepsTime world game (.level event) := by
  have noFrame : ∀ input, Event.level event ≠ .frame input := fun input impossible => by cases impossible
  rw [KeepsTime, and_iff_right fun input same => absurd same (noFrame input), played, add_zero]
  cases found : game.scene.level with
  | none =>
    have stays : game.step world (.level event) = game := by simp only [step, if_pos running, levelStep, found]
    have noCalls : game.endLevelCalls world (.level event) = [] := by simp only [endLevelCalls, if_pos running, found]
    rw [stays, noCalls]
    exact iff_of_true rfl (List.forall_mem_nil _)
  | some level =>
    have acts : game.step world (.level event) =
        act world (game.withLevel (level.step world.cache event).1) (level.step world.cache event).2 := by
      simp only [step, if_pos running, levelStep, found]
      rfl
    rw [acts, act_clock_iff]
    simp only [endLevelCalls, if_pos running, found]
    cases (level.step world.cache event).2 with
    | nothing | played =>
      refine iff_of_true (fun caller call impossible => ?_) (List.forall_mem_nil _)
      cases impossible
    | endLevel caller call =>
      simp only [LevelAction.endLevel.injEq, List.mem_singleton, forall_eq]
      exact ⟨fun same => same caller call ⟨rfl, rfl⟩, fun same _ _ _ => same⟩

theorem step_keepsTime_iff (world : World) (game : Game) (event : Event) :
    (game.step world event).clock = game.clock + game.played world event ↔ KeepsTime world game event := by
  by_cases running : game.status = .running
  · cases event with
    | frame input => exact frame_keepsTime_iff running
    | level event => exact level_keepsTime_iff running
    | postRenderUpdate =>
      have noCalls : game.endLevelCalls world .postRenderUpdate = [] := by simp only [endLevelCalls, ite_self]
      have same : (game.step world .postRenderUpdate).clock = game.clock := by
        have result := step_result world game .postRenderUpdate
        generalize game.step world .postRenderUpdate = after at result ⊢
        cases result with
        | crash running => rfl
        | same => rfl
      rw [KeepsTime, noCalls]
      refine iff_of_true (by rw [same, played, add_zero]) ⟨fun input impossible => ?_, List.forall_mem_nil _⟩
      cases impossible
  · have stopped : game.step world event = game := by simp only [step, if_neg running]
    have noCalls : game.endLevelCalls world event = [] := by simp only [endLevelCalls, if_neg running]
    have nothing : game.played world event = 0 := by
      cases event with
      | frame input => simp [played, running]
      | level | postRenderUpdate => rfl
    rw [KeepsTime, noCalls]
    exact iff_of_true (by rw [stopped, nothing, add_zero])
      ⟨fun input _ runs => absurd runs running, List.forall_mem_nil _⟩

end Game

/-- Outside of a level the clock is `totalTime_`, in one the level's own time is added.  In exact arithmetic it shows
    the time of the frames played at every point of a run, just when no level is reloaded with time on its clock
    and none is ended again before the next is loaded. -/
theorem clock_shows_time_played_iff (world : World) (start : Game) (events : List Event) :
    (∀ before, before <+: events →
        (run (Game.step world) start before).clock =
          start.clock + tally (Game.step world) (Game.played world) start before) ↔
      Meets (Game.step world) (Game.KeepsTime world) start events := by
  have grows := @tally_iff_meets _ _ (Game.step world) _ _ Game.clock (Game.played world) start events
  simp only [Game.step_keepsTime_iff] at grows
  exact grows

open WrightLevel in
-- The frame that loads the level already counts.
example : (run (Game.step (world allSounds)) Game.create enterLevel).clock = 2 := by decide +kernel

end SneakySneaky
