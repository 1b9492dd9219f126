import SneakySneaky.Campaigns
import SneakySneaky.Movies
import SneakySneaky.Scenes

/-! # No dead ends

Wherever a game that is still running has got to, three keys lead back to the menu: the space
bar goes on from every state but the menu and a level, and the developer's N, which the back
quote switches on, ends a level.  Pressed together in every frame they complete a level a
frame, whatever happens in the levels in between.  Behind the last level come the credits,
and the space bar leaves them before their next frame is due. -/

namespace SneakySneaky

open SneakySneaky.Foundation

namespace Game

/-- No loop over the files of a level runs forever. -/
def Loads (world : World) : Prop :=
  ∀ number image, world.levelImage number = some image → (loadRooms world number image).isSome = true

/-- The game runs, or has followed a NULL pointer. -/
def Lives (game : Game) : Prop := game.status = .running ∨ game.status = .crashed

variable {world : World} {input : Input} {game : Game}

/-! ## A frame without the escape key -/

theorem loadLevel_status (loads : Loads world) (game : Game) : (game.loadLevel world).status = game.status := by
  rw [loadLevel]
  cases found : world.levelImage (game.beginLoad.currentLevel + 1) with
  | none => rfl
  | some image =>
    obtain ⟨rooms, read⟩ := Option.isSome_iff_exists.mp (loads _ image found)
    simp only [read]
    rfl

theorem endLevel_lives (loads : Loads world) (lives : Lives game) (caller : EndCaller) (call : EndCall) :
    Lives (game.endLevel world caller call) := by
  have result := endLevel_result world game caller call
  generalize game.endLevel world caller call = after at result ⊢
  cases result with
  | noPlayer missing => exact .inr rfl
  | load found =>
    rw [Lives, loadLevel_status loads]
    exact lives
  | disable found => exact lives

theorem handleExitKey_status (up : input.keyDown .esc = false) : (game.handleExitKey input).status = game.status := by
  simp [handleExitKey, up]

theorem handleSpace_lives (loads : Loads world) (lives : Lives game) : Lives (game.handleSpace world input).1 := by
  have result := handleSpace_result world input game
  generalize (game.handleSpace world input).1 = after at result ⊢
  cases result with
  | unused => exact lives
  | leaveCredits pressed credits => exact lives
  | load pressed elsewhere =>
    rw [Lives, loadLevel_status loads]
    exact lives

theorem handleMenu_lives (loads : Loads world) (lives : Lives game) (spacePressed : Bool) :
    Lives (game.handleMenu world input spacePressed) := by
  rw [handleMenu]
  split
  · obtain ⟨titleMovie, advanced⟩ := advanceTitle_eq world input game.buildMenu
    have result := leaveMenu_result world input (game.buildMenu.advanceTitle world input) spacePressed
    generalize (game.buildMenu.advanceTitle world input).leaveMenu world input spacePressed = after at result ⊢
    rw [advanced] at result
    cases result with
    | stay => exact lives
    | movie shows => exact lives
    | load =>
      rw [Lives, loadLevel_status loads]
      exact lives
  · exact lives

theorem handleMovies_lives (loads : Loads world) (lives : Lives game) : Lives (game.handleMovies world input) := by
  have result := handleMovies_result world input game
  generalize game.handleMovies world input = after at result ⊢
  cases result with
  | goOn intro credits => exact lives
  | crash plays missing intro credits => exact .inr rfl
  | introOver intro =>
    rw [Lives, loadLevel_status loads]
    exact lives
  | creditsOver credits => exact lives

theorem handleLastKeys_lives (lives : Lives game) : Lives (game.handleLastKeys input) := by
  refine andThen_keeps (andThen_keeps lives fun game lives => ?_) fun game lives => ?_
  · rcases handleCrash_cases input game with same | ⟨-, crashed⟩
    · rwa [same]
    · rw [crashed]
      exact .inr rfl
  · obtain ⟨items, result⟩ := handleUnlock_eq input game
    rw [result]
    exact lives

theorem handleDeveloper_lives (loads : Loads world) (lives : Lives game) :
    Lives (game.handleDeveloper world input) := by
  by_cases developerMode : game.developerMode = true
  · rw [handleDeveloper_developerMode world input developerMode]
    refine handleLastKeys_lives (andThen_keeps ?_ fun game lives => ?_)
    · rw [handleReload]
      split
      · rw [Lives, loadLevel_status loads]
        exact lives
      · exact lives
    · rw [handleNext]
      split
      · exact endLevel_lives loads lives _ _
      · exact lives
  · rw [handleDeveloper, if_neg developerMode]
    split
    · exact lives
    · exact lives

theorem handleCheat_lives (lives : Lives game) : Lives (game.handleCheat input) := by
  rcases handleCheat_cases input game with ⟨_, _, result, -⟩ | ⟨-, -, result⟩
  · rw [result]
    exact lives
  · rw [result]
    exact .inr rfl

theorem afterMovies_running (loads : Loads world) (intact : Intact game) (running : game.status = .running)
    (up : input.keyDown .esc = false) : (game.afterMovies world input).status = .running := by
  have waiting : Lives (game.handleExitKey input) := .inl ((handleExitKey_status up).trans running)
  have lives : Lives (game.afterMovies world input) := by
    rw [afterMovies, afterMenu]
    refine andThen_keeps (andThen_keeps (handleSpace_lives loads waiting) ?_) ?_
    · exact fun game lives => handleMenu_lives loads lives _
    · exact fun game lives => handleMovies_lives loads lives
  exact lives.resolve_right (intact.afterMovies running world input).alive

/-- Nothing but the developer's C and the escape key stops a game whose levels all load. -/
theorem handleUpdate_running (loads : Loads world) (intact : Intact game) (running : game.status = .running)
    (up : input.keyDown .esc = false) (uncrashed : input.keyPress .c = false) :
    (game.handleUpdate world input).status = .running := by
  have before : Lives (game.afterMovies world input) := .inl (afterMovies_running loads intact running up)
  have lives : Lives (game.handleUpdate world input) := by
    rw [handleUpdate_eq]
    refine andThen_keeps (andThen_keeps before ?_) ?_
    · exact fun game lives => handleDeveloper_lives loads lives
    · exact fun game lives => handleCheat_lives lives
  refine lives.resolve_right fun crashed => ?_
  have pressed := ((intact.handleUpdate running world input).2 crashed).2
  rw [uncrashed] at pressed
  cases pressed

end Game

/-- In a level whose bodies rest only the dialogue goes on, and its end is no death. -/
theorem Level.step_disabled (cache : SoundCache) {level : Level} (disabled : level.enabled = false)
    (rests : level.physics ≠ .stepping true) (event : LevelEvent) :
    (level.step cache event).1.enabled = false ∧ (level.step cache event).1.physics ≠ .stepping true ∧
      ∀ caller call, (level.step cache event).2 = .endLevel caller call → call = ⟨false, false⟩ := by
  have goesOn : ∀ caller call, LevelAction.nothing = .endLevel caller call → call = ⟨false, false⟩ := by
    intro caller call ends
    cases ends
  cases event with
  | beginPhysicsStep =>
    simp only [Level.step]
    split
    · exact ⟨disabled, by simp [disabled], goesOn⟩
    · exact ⟨disabled, rests, goesOn⟩
  | contact contact =>
    rw [Level.step, if_neg rests]
    exact ⟨disabled, rests, goesOn⟩
  | endPhysicsStep => exact ⟨disabled, by simp [Level.step], goesOn⟩
  | update update =>
    simp only [Level.step]
    split
    · rename_i sends
      cases update with
      | audioManager isPlaying timeStep =>
        refine ⟨disabled, rests, fun caller call ends => ?_⟩
        simp only [Level.handleUpdate, Level.handleAudioUpdate] at ends
        split at ends
        · cases ends
          rfl
        · cases ends
      | guard | item | laser | stairs | wrightStart | wright | wifeStart | wife =>
        simp [Level.sends, disabled] at sends
    · exact ⟨disabled, rests, goesOn⟩

namespace Game

variable {world : World} {input : Input} {game : Game}

/-! ## What happens between the frames -/

theorem step_level (world : World) (running : game.status = .running) {level : Level}
    (found : game.scene.level = some level) (event : LevelEvent) : game.step world (.level event) =
      act world (game.withLevel (level.step world.cache event).1) (level.step world.cache event).2 := by
  simp only [step, if_pos running, levelStep, found]
  rfl

/-- The switches of the developer. -/
def switches (game : Game) : Bool × Bool × Bool := (game.developerMode, game.debugPhysics, game.debugNavigation)

@[simp] theorem loadLevel_switches (world : World) (game : Game) : (game.loadLevel world).switches = game.switches := by
  have result := loadLevel_result world game
  generalize game.loadLevel world = after at result ⊢
  cases result with
  | credits missing | hang found | enter found read => rfl

theorem endLevel_switches (game : Game) (caller : EndCaller) (call : EndCall) :
    (game.endLevel world caller call).switches = game.switches := by
  have result := endLevel_result world game caller call
  generalize game.endLevel world caller call = after at result ⊢
  cases result with
  | noPlayer missing => rfl
  | load found => exact loadLevel_switches world _
  | disable found => rfl

theorem handleCheat_switches (input : Input) (game : Game) : (game.handleCheat input).switches = game.switches := by
  rcases handleCheat_cases input game with ⟨_, _, result, -⟩ | ⟨-, -, result⟩
  · rw [result]
    rfl
  · rw [result]
    rfl

theorem act_switches (game : Game) (action : LevelAction) : (act world game action).switches = game.switches := by
  cases action with
  | nothing | played source => rfl
  | endLevel caller call => exact endLevel_switches game caller call

theorem act_lives (loads : Loads world) (lives : Lives game) (action : LevelAction) :
    Lives (act world game action) := by
  cases action with
  | nothing | played source => exact lives
  | endLevel caller call => exact endLevel_lives loads lives caller call

/-- The player has left the level by the stairs, and no contact is to come. -/
def parked (game : Game) : Bool :=
  decide (game.gameState = .stairs) && game.developerMode &&
    game.scene.level.any fun level => !level.enabled && decide (level.physics ≠ .stepping true)

theorem parked_iff : game.parked = true ↔ game.gameState = .stairs ∧ game.developerMode = true ∧
    ∃ level, game.scene.level = some level ∧ level.enabled = false ∧ level.physics ≠ .stepping true := by
  simp [parked, Option.any_eq_true, and_assoc]

/-- The frames that the keys need at most. -/
def framesLeft (last : ℤ) (game : Game) : ℕ :=
  if game.gameState = .menu then 0
  else if game.gameState = .credits then 1
  else (last - game.currentLevel).toNat +
    if game.parked then 1 else if game.gameState.inLevel && game.developerMode then 2 else 3

theorem developerMode_of_switches {game game' : Game} (same : game'.switches = game.switches) :
    game'.developerMode = game.developerMode := congrArg Prod.fst same

theorem Parked.act (parked : game.parked = true) {level : Level} (found : game.scene.level = some level)
    (event : LevelEvent) :
    (act world (game.withLevel (level.step world.cache event).1) (level.step world.cache event).2).parked = true ∧
      (act world (game.withLevel (level.step world.cache event).1) (level.step world.cache event).2).currentLevel =
        game.currentLevel := by
  obtain ⟨stairs, developerMode, loaded, isLoaded, disabled, rests⟩ := parked_iff.mp parked
  cases found.symm.trans isLoaded
  obtain ⟨disabled', rests', survives⟩ := Level.step_disabled world.cache disabled rests event
  generalize level.step world.cache event = result at disabled' rests' survives ⊢
  obtain ⟨level', action⟩ := result
  cases action with
  | nothing | played source => exact ⟨parked_iff.mpr ⟨stairs, developerMode, level', rfl, disabled', rests'⟩, rfl⟩
  | endLevel caller call =>
    cases survives caller call rfl
    have present : (game.withLevel level').scene.level = some level' := rfl
    have ends := @endLevel_ends world _ _ present caller false
    simp only [Game.act, ends]
    exact ⟨parked_iff.mpr ⟨rfl, developerMode, _, rfl, rfl, rests'⟩, rfl⟩

theorem framesLeft_credits {last : ℤ} (credits : game.gameState = .credits) : framesLeft last game = 1 := by
  rw [framesLeft, credits]
  rfl

theorem framesLeft_parked {last : ℤ} (parked : game.parked = true) :
    framesLeft last game = (last - game.currentLevel).toNat + 1 := by
  have stairs := (parked_iff.mp parked).1
  rw [framesLeft, if_neg (by simp [stairs]), if_neg (by simp [stairs]), if_pos parked]

theorem framesLeft_eq {last : ℤ} (notMenu : game.gameState ≠ .menu) (notCredits : game.gameState ≠ .credits)
    (notParked : game.parked = false) : framesLeft last game =
      (last - game.currentLevel).toNat + if game.gameState.inLevel && game.developerMode then 2 else 3 := by
  rw [framesLeft, if_neg notMenu, if_neg notCredits, notParked]
  rfl

theorem framesLeft_inLevel {last : ℤ} (inLevel : game.gameState.inLevel = true) (notParked : game.parked = false) :
    framesLeft last game = (last - game.currentLevel).toNat + if game.developerMode then 2 else 3 := by
  have notMenu : game.gameState ≠ .menu := fun menu => by simp [menu, GameState.inLevel] at inLevel
  have notCredits : game.gameState ≠ .credits := fun credits => by simp [credits, GameState.inLevel] at inLevel
  rw [framesLeft_eq notMenu notCredits notParked, inLevel, Bool.true_and]

theorem framesLeft_le (last : ℤ) (game : Game) : framesLeft last game ≤ (last - game.currentLevel).toNat + 3 := by
  rw [framesLeft]
  split
  · omega
  · split
    · omega
    · split
      · omega
      · split <;> omega

theorem act_gameState (game : Game) (action : LevelAction) :
    (act world game action).gameState = game.gameState ∨ (act world game action).gameState.inLevel = true ∨
      (act world game action).gameState = .credits := by
  cases action with
  | nothing | played source => exact .inl rfl
  | endLevel caller call =>
    have result := endLevel_result world game caller call
    rw [Game.act]
    generalize game.endLevel world caller call = after at result ⊢
    cases result with
    | noPlayer missing => exact .inl rfl
    | load found =>
      rcases loadLevel_gameState world { game.addTotals _ with
        calls := .endLevel caller call :: game.calls, gameState := .stairs } with playing | credits
      · exact .inr (.inl (by rw [playing]; rfl))
      · exact .inr (.inr credits)
    | disable found =>
      refine .inr (.inl ?_)
      simp only [disable]
      split <;> rfl

/-- What the frames find away from the menu: a game that draws nothing for debugging, and no frame of the credits
    that is due by the next update. -/
structure Leaving (world : World) (timeStep : ℚ) (game : Game) : Prop where
  placed : Placed world game
  built : Built game
  running : game.status = .running
  hidden : game.debugPhysics = false ∧ game.debugNavigation = false
  elsewhere : game.gameState ≠ .menu
  credits : game.gameState = .credits ∨ game.creditsMovie.frameTimer + timeStep < Movie.frameRate

variable {timeStep : ℚ} {last : ℤ}

theorem hidden_of_switches {game game' : Game} (same : game'.switches = game.switches)
    (hidden : game.debugPhysics = false ∧ game.debugNavigation = false) :
    game'.debugPhysics = false ∧ game'.debugNavigation = false := by
  simp only [switches, Prod.mk.injEq] at same
  rw [same.2.1, same.2.2]
  exact hidden

theorem exists_image_le (finite : ∀ number, last < number → world.levelImage number = none)
    (placed : Placed world game) (inLevel : game.gameState.inLevel = true) : game.currentLevel + 1 ≤ last := by
  obtain ⟨image, found⟩ := placed.exists_image inLevel
  by_contra beyond
  rw [finite _ (not_le.mp beyond)] at found
  cases found

/-- A later level is no further away. -/
theorem framesLeft_later (inLevel : game.gameState.inLevel = true) (notParked : game.parked = false) {number : ℤ}
    {after : Game} (located : At world number after) (later : game.currentLevel ≤ number)
    (same : after.developerMode = game.developerMode) : framesLeft last after ≤ framesLeft last game := by
  have fewer : (last - number).toNat ≤ (last - game.currentLevel).toNat := Int.toNat_le_toNat (by omega)
  rw [framesLeft_inLevel inLevel notParked]
  cases parked : after.parked with
  | true =>
    rw [framesLeft_parked parked, located.number]
    split <;> omega
  | false =>
    rw [framesLeft_inLevel located.inLevel parked, same, located.number]
    omega

/-- An event in the level takes the game no further away. -/
theorem framesLeft_act (placed : Placed world game) (running : game.status = .running) {level : Level}
    (found : game.scene.level = some level) (event : LevelEvent) :
    framesLeft last (game.step world (.level event)) ≤ framesLeft last game := by
  have inLevel := placed.inLevel level found
  have acts := step_level world running found event
  cases parked : game.parked with
  | true =>
    obtain ⟨still, same⟩ := @Parked.act world _ parked _ found event
    rw [acts, framesLeft_parked parked, framesLeft_parked still, same]
  | false =>
    have sameMode : (game.step world (.level event)).developerMode = game.developerMode := by
      rw [acts]
      exact developerMode_of_switches (act_switches _ _)
    have gameState := @act_gameState world (game.withLevel (level.step world.cache event).1)
      (level.step world.cache event).2
    have goes := At.step ⟨placed, inLevel, rfl⟩ (.level event)
    rw [← acts] at gameState
    generalize game.step world (.level event) = after at goes gameState sameMode ⊢
    generalize game.passes world (.level event) = passes at goes
    cases goes with
    | stays located => exact framesLeft_later inLevel parked located le_rfl sameMode
    | next located => exact framesLeft_later inLevel parked located (by omega) sameMode
    | leaves gone missing =>
      have credits : after.gameState = .credits := by
        rcases gameState with same | inside | credits
        · have outside := gone.outside
          rw [same] at outside
          cases inLevel.symm.trans outside
        · cases inside.symm.trans gone.outside
        · exact credits
      rw [framesLeft_credits credits, framesLeft_inLevel inLevel parked]
      split <;> omega

theorem step_postRenderUpdate (world : World) (hidden : game.debugPhysics = false ∧ game.debugNavigation = false) :
    game.step world .postRenderUpdate = game := by
  simp [step, handlePostRenderUpdate, hidden.1, hidden.2]

/-- What happens between two frames takes the game no further away. -/
theorem Leaving.between (leaving : Leaving world timeStep game) (loads : Loads world)
    {event : Event} (notFrame : ∀ input, event ≠ .frame input) (last : ℤ) :
    Leaving world timeStep (game.step world event) ∧
      framesLeft last (game.step world event) ≤ framesLeft last game := by
  have stays : Leaving world timeStep game ∧ framesLeft last game ≤ framesLeft last game := ⟨leaving, le_rfl⟩
  obtain ⟨placed, built, running, hidden, elsewhere, credits⟩ := leaving
  cases event with
  | frame input => exact absurd rfl (notFrame input)
  | postRenderUpdate =>
    rw [step_postRenderUpdate world hidden]
    exact stays
  | level event =>
    cases found : game.scene.level with
    | none =>
      have same : game.step world (.level event) = game := by simp [step, running, levelStep, found]
      rw [same]
      exact stays
    | some level =>
      have inLevel := placed.inLevel level found
      have closer : framesLeft last (game.step world (.level event)) ≤ framesLeft last game :=
        framesLeft_act placed running found event
      have continues := step_continues placed notFrame
      have placed' := placed.step (.level event)
      have built' := built.step world (.level event)
      have acts := step_level world running found event
      have switches : (game.step world (.level event)).switches = game.switches := by
        rw [acts]
        exact act_switches _ _
      have running' : (game.step world (.level event)).status = .running := by
        have intact : Intact game := ⟨built, by simp [running]⟩
        have lives : Lives (game.withLevel (level.step world.cache event).1) := .inl running
        rw [acts]
        exact (act_lives loads lives _).resolve_right (intact.act found _ _).alive
      generalize game.step world (.level event) = after at closer continues placed' built' switches running' ⊢
      have elsewhere' : after.gameState ≠ .menu := by
        rcases continues.gameState with same | ⟨-, left⟩
        · rwa [same]
        · exact left
      refine ⟨⟨placed', built', running', hidden_of_switches switches hidden, elsewhere', ?_⟩, closer⟩
      -- The level leaves the timer of the credits alone.
      have movie : after.creditsMovie = game.creditsMovie := continues.movie .credits
      rw [movie]
      refine .inr (credits.resolve_left fun credits => ?_)
      rw [credits] at inLevel
      cases inLevel

/-! ## The frames -/

/-- The space bar, N and the back quote are pressed. -/
def leaveKeys (timeStep : ℚ) : Input where
  timeStep := timeStep
  keyPress key := decide (key = .space ∨ key = .n ∨ key = .backquote)
  keyDown _ := false
  joystickButton := false

theorem afterSpace_playing (playing : game.gameState = .playing) :
    game.afterSpace world (leaveKeys timeStep) = { game with exitTimer := 0 } := by
  simp [afterSpace, handleExitKey, handleSpace, leaveKeys, playing]

theorem afterSpace_loads (notMenu : game.gameState ≠ .menu) (notPlaying : game.gameState ≠ .playing)
    (notCredits : game.gameState ≠ .credits) :
    game.afterSpace world (leaveKeys timeStep) = loadLevel world { game with exitTimer := 0 } := by
  simp [afterSpace, handleExitKey, handleSpace, leaveKeys, notMenu, notPlaying, notCredits]

theorem loadLevel_betweenSteps (world : World) (game : Game) : (game.loadLevel world).betweenSteps = true := by
  rw [betweenSteps]
  cases found : (game.loadLevel world).scene.level with
  | none => rfl
  | some level =>
    obtain ⟨rooms, rfl⟩ := loadLevel_level found
    rfl

/-- The space bar goes on to a level, or to the credits behind the last. -/
theorem afterSpace_enters (placed : Placed world game) (idle : game.betweenSteps = true)
    (notMenu : game.gameState ≠ .menu) (notCredits : game.gameState ≠ .credits) :
    At world game.beginLoad.currentLevel (game.afterSpace world (leaveKeys timeStep)) ∧
        (game.afterSpace world (leaveKeys timeStep)).gameState = .playing ∧
        (game.afterSpace world (leaveKeys timeStep)).betweenSteps = true ∨
      (game.afterSpace world (leaveKeys timeStep)).gameState = .credits := by
  by_cases playing : game.gameState = .playing
  · rw [afterSpace_playing playing]
    have same : game.beginLoad.currentLevel = game.currentLevel := if_neg (by simp [playing])
    refine .inl ⟨?_, playing, idle⟩
    rw [same]
    exact ⟨⟨placed.atStart, placed.exists_image, placed.inLevel⟩, by simp [playing, GameState.inLevel], rfl⟩
  · rw [afterSpace_loads notMenu playing notCredits]
    rcases loadLevel_at world { game with exitTimer := 0 } with ⟨located, loaded⟩ | ⟨gone, -⟩
    · exact .inl ⟨located, loaded, loadLevel_betweenSteps world _⟩
    · rcases loadLevel_gameState world { game with exitTimer := 0 } with loaded | credits
      · have outside := gone.outside
        rw [loaded] at outside
        cases outside
      · exact .inr credits

theorem afterSpace_running (loads : Loads world) (built : Built game) (running : game.status = .running) :
    (game.afterSpace world (leaveKeys timeStep)).status = .running := by
  have intact : Intact game := ⟨built, by simp [running]⟩
  have waiting : Lives (game.handleExitKey (leaveKeys timeStep)) := .inl ((handleExitKey_status rfl).trans running)
  exact (handleSpace_lives loads waiting).resolve_right
    ((intact.handleExitKey running (leaveKeys timeStep)).handleSpace world (leaveKeys timeStep)).alive

theorem afterMovies_playing (returned : (game.afterSpace world input).status.returned = true)
    (playing : (game.afterSpace world input).gameState = .playing) :
    game.afterMovies world input = { game.afterSpace world input with
      levelTime := (game.afterSpace world input).levelTime + input.timeStep } := by
  rw [afterMovies, afterMenu_eq (.inr (by simp [playing])), andThen, if_pos returned]
  simp [handleMovies, playing]

theorem afterMovies_credits (returned : (game.afterSpace world input).status.returned = true)
    (credits : (game.afterSpace world input).gameState = .credits)
    (early : (game.afterSpace world input).creditsMovie.frameTimer + input.timeStep < Movie.frameRate) :
    game.afterMovies world input = { game.afterSpace world input with
      creditsMovie := (game.afterSpace world input).creditsMovie.addTime input.timeStep } := by
  have wait : ¬ Movie.frameRate ≤ ((game.afterSpace world input).creditsMovie.addTime input.timeStep).frameTimer :=
    not_le.mpr early
  rw [afterMovies, afterMenu_eq (.inr (by simp [credits])), andThen, if_pos returned]
  simp [handleMovies, credits, handleCredits, wait]

theorem handleDeveloper_leave (running : game.status = .running) :
    game.handleDeveloper world (leaveKeys timeStep) =
      if game.developerMode then
        if game.gameState = .playing then game.endLevel world .developer ⟨false, false⟩ else game
      else { game with developerMode := true } := by
  have returned : game.status.returned = true := by rw [running]; rfl
  have toggled : game.toggleDebug (leaveKeys timeStep) = game := by simp [toggleDebug, leaveKeys]
  have kept : game.handleReload world (leaveKeys timeStep) = game := by simp [handleReload, leaveKeys]
  have lastKeys : ∀ before : Game, before.handleLastKeys (leaveKeys timeStep) = before := by
    intro before
    simp [handleLastKeys, andThen, handleCrash, handleUnlock, leaveKeys]
  by_cases developerMode : game.developerMode = true
  · rw [handleDeveloper_developerMode world _ developerMode, lastKeys, toggled, kept, andThen, if_pos returned,
      if_pos developerMode]
    simp [handleNext, leaveKeys]
  · rw [handleDeveloper, if_neg developerMode, if_neg developerMode]
    rfl

theorem afterSpace_switches (notMenu : game.gameState ≠ .menu) (notCredits : game.gameState ≠ .credits) :
    (game.afterSpace world (leaveKeys timeStep)).switches = game.switches := by
  by_cases playing : game.gameState = .playing
  · rw [afterSpace_playing playing]
    rfl
  · rw [afterSpace_loads notMenu playing notCredits, loadLevel_switches]
    rfl

/-- The last part of a frame changes neither what the developer switched nor where the game is. -/
theorem handleUpdate_of_developer {entered : Game} (running : (game.afterMovies world input).status = .running)
    (developer : (game.afterMovies world input).handleDeveloper world input = entered) :
    Adjusts entered (game.handleUpdate world input) ∧ (game.handleUpdate world input).switches = entered.switches := by
  have returned : (game.afterMovies world input).status.returned = true := by rw [running]; rfl
  have reached : (game.afterMovies world input).andThen (handleDeveloper world input) = entered := by
    rw [andThen, if_pos returned, developer]
  rw [handleUpdate_eq, reached]
  refine ⟨andThen_adjusts (handleCheat_adjusts input) entered, ?_⟩
  rw [andThen]
  split
  · exact handleCheat_switches input entered
  · rfl

theorem Adjusts.parked {game' : Game} (adjusts : Adjusts game game') (same : game'.switches = game.switches)
    (parked : game.parked = true) : game'.parked = true := by
  obtain ⟨stairs, developerMode, level, found, disabled, rests⟩ := parked_iff.mp parked
  obtain ⟨items, level'⟩ := adjusts.level
  rw [found] at level'
  exact parked_iff.mpr ⟨adjusts.gameState.trans stairs, (developerMode_of_switches same).trans developerMode,
    _, level', disabled, rests⟩

/-- The space bar leaves the credits, and none of the keys leaves the menu again in this frame. -/
theorem leave_credits (credits : game.gameState = .credits) :
    (game.handleUpdate world (leaveKeys timeStep)).gameState = .menu := by
  have stays : ∀ {before : Game} {next : Game → Game}, before.gameState = .menu →
      (∀ before : Game, before.gameState = .menu → (next before).gameState = .menu) →
      (before.andThen next).gameState = .menu :=
    fun {before} => @andThen_keeps before fun before => before.gameState = .menu
  have menu : (game.afterSpace world (leaveKeys timeStep)).gameState = .menu := by
    simp [afterSpace, handleExitKey, handleSpace, leaveKeys, credits]
  have used : game.spacePressed world (leaveKeys timeStep) = false := by
    simp [spacePressed, handleExitKey, handleSpace, leaveKeys, credits]
  have level : targetLevel (leaveKeys timeStep) = -1 := by simp [targetLevel, leaveKeys]
  have afterMenu : (game.afterMenu world (leaveKeys timeStep)).gameState = .menu := by
    rw [Game.afterMenu]
    refine stays menu fun before menu => ?_
    rw [handleMenu, if_pos menu, leaveMenu, if_neg (by simp [used, level]), advanceTitle_gameState]
    exact menu
  have afterMovies : (game.afterMovies world (leaveKeys timeStep)).gameState = .menu := by
    rw [Game.afterMovies]
    refine stays afterMenu fun before menu => ?_
    rcases handleMovies_gameState world (leaveKeys timeStep) before with same | ⟨plays, -⟩
    · exact same.trans menu
    · rw [menu] at plays
      rcases plays with intro | credits
      · cases intro
      · cases credits
  rw [handleUpdate_eq]
  refine stays (stays afterMovies fun before menu => ?_) fun before menu => ?_
  · exact (handleDeveloper_outside world _ (by rw [menu]; rfl)).gameState.trans menu
  · exact (handleCheat_adjusts _ before).gameState.trans menu

/-- How far the game was, and how far it is with the level of this frame behind it or switched to the developer's
    keys. -/
theorem framesLeft_lt (finite : ∀ number, last < number → world.levelImage number = none) {after : Game}
    (elsewhere : game.gameState ≠ .menu) (notCredits : game.gameState ≠ .credits)
    (located : At world game.beginLoad.currentLevel after)
    (ahead : after.parked = true ∨ after.developerMode = true ∧ game.developerMode = false) :
    framesLeft last after < framesLeft last game := by
  have below := exists_image_le finite located.placed located.inLevel
  rw [located.number] at below
  have later : game.currentLevel ≤ game.beginLoad.currentLevel := by
    rw [beginLoad]
    split
    · exact Int.le_add_one le_rfl
    · exact le_rfl
  have fewer : (last - game.beginLoad.currentLevel).toNat ≤ (last - game.currentLevel).toNat :=
    Int.toNat_le_toNat (Int.sub_le_sub_left later last)
  rcases ahead with parked | ⟨switchedOn, off⟩
  · rw [framesLeft_parked parked, located.number]
    cases before : game.parked with
    | true =>
      -- The game was on the stairs, so the level is the next one.
      have next : game.beginLoad.currentLevel = game.currentLevel + 1 := if_pos (parked_iff.mp before).1
      rw [framesLeft_parked before]
      omega
    | false =>
      rw [framesLeft_eq elsewhere notCredits before]
      split <;> omega
  · have before : game.parked = false := by simp [Game.parked, off]
    rw [framesLeft_eq elsewhere notCredits before, off, Bool.and_false, if_neg Bool.false_ne_true]
    cases parked : after.parked with
    | true =>
      rw [framesLeft_parked parked, located.number]
      omega
    | false =>
      rw [framesLeft_inLevel located.inLevel parked, switchedOn, located.number, if_pos rfl]
      omega

theorem two_le_framesLeft (finite : ∀ number, last < number → world.levelImage number = none)
    (placed : Placed world game) (elsewhere : game.gameState ≠ .menu) (notCredits : game.gameState ≠ .credits) :
    2 ≤ framesLeft last game := by
  cases parked : game.parked with
  | true =>
    have inLevel : game.gameState.inLevel = true := by rw [(parked_iff.mp parked).1]; rfl
    have below := exists_image_le finite placed inLevel
    rw [framesLeft_parked parked]
    omega
  | false =>
    rw [framesLeft_eq elsewhere notCredits parked]
    split <;> omega

/-- A frame in a level: the developer's N ends it, or the back quote switches N on. -/
theorem leave_level (running : (game.afterMovies world (leaveKeys timeStep)).status = .running)
    (playing : (game.afterMovies world (leaveKeys timeStep)).gameState = .playing) {level : Level}
    (found : (game.afterMovies world (leaveKeys timeStep)).scene.level = some level)
    (idle : level.physics = .idle) :
    ((game.handleUpdate world (leaveKeys timeStep)).parked = true ∨
        (game.handleUpdate world (leaveKeys timeStep)).developerMode = true ∧
          (game.afterMovies world (leaveKeys timeStep)).developerMode = false) ∧
      (game.handleUpdate world (leaveKeys timeStep)).debugPhysics =
        (game.afterMovies world (leaveKeys timeStep)).debugPhysics ∧
      (game.handleUpdate world (leaveKeys timeStep)).debugNavigation =
        (game.afterMovies world (leaveKeys timeStep)).debugNavigation := by
  have developer := @handleDeveloper_leave world _ timeStep running
  cases developerMode : (game.afterMovies world (leaveKeys timeStep)).developerMode with
  | true =>
    rw [developerMode, if_pos rfl, if_pos playing] at developer
    obtain ⟨adjusts, switches⟩ := handleUpdate_of_developer running developer
    have ended : ((game.afterMovies world (leaveKeys timeStep)).endLevel world .developer ⟨false, false⟩).parked =
        true := by
      rw [endLevel_ends found]
      exact parked_iff.mpr ⟨rfl, developerMode, _, rfl, rfl, by simp [idle]⟩
    have same := switches.trans (endLevel_switches _ _ _)
    simp only [Game.switches, Prod.mk.injEq] at same
    exact ⟨.inl (adjusts.parked switches ended), same.2⟩
  | false =>
    rw [developerMode, if_neg Bool.false_ne_true] at developer
    obtain ⟨adjusts, switches⟩ := handleUpdate_of_developer running developer
    simp only [Game.switches, Prod.mk.injEq] at switches
    exact ⟨.inr ⟨switches.1, rfl⟩, switches.2⟩

/-- A frame in the credits that have just begun. -/
theorem leave_beyond (running : (game.afterMovies world (leaveKeys timeStep)).status = .running)
    (credits : (game.afterMovies world (leaveKeys timeStep)).gameState = .credits) :
    (game.handleUpdate world (leaveKeys timeStep)).gameState = .credits ∧
      (game.handleUpdate world (leaveKeys timeStep)).debugPhysics =
        (game.afterMovies world (leaveKeys timeStep)).debugPhysics ∧
      (game.handleUpdate world (leaveKeys timeStep)).debugNavigation =
        (game.afterMovies world (leaveKeys timeStep)).debugNavigation := by
  have developer := @handleDeveloper_leave world _ timeStep running
  have notPlaying : (game.afterMovies world (leaveKeys timeStep)).gameState ≠ .playing := by simp [credits]
  rw [if_neg notPlaying] at developer
  obtain ⟨adjusts, switches⟩ := handleUpdate_of_developer running developer
  simp only [Game.switches, Prod.mk.injEq] at switches
  rw [adjusts.gameState, switches.2.1, switches.2.2]
  split
  · exact ⟨credits, rfl, rfl⟩
  · exact ⟨credits, rfl, rfl⟩

/-- What every frame with the three keys keeps. -/
theorem Leaving.kept (leaving : Leaving world timeStep game) (loads : Loads world) (idle : game.betweenSteps = true) :
    Placed world (game.handleUpdate world (leaveKeys timeStep)) ∧
      Built (game.handleUpdate world (leaveKeys timeStep)) ∧
      (game.handleUpdate world (leaveKeys timeStep)).status = .running := by
  have placed := leaving.placed.step (.frame (leaveKeys timeStep))
  simp only [step, if_pos leaving.running, if_pos idle] at placed
  have intact : Intact game := ⟨leaving.built, by simp [leaving.running]⟩
  exact ⟨placed, (intact.handleUpdate leaving.running world _).1,
    handleUpdate_running loads intact leaving.running rfl (rfl : (leaveKeys timeStep).keyPress .c = false)⟩

theorem Leaving.afterSpace_returned (leaving : Leaving world timeStep game) (loads : Loads world) :
    (game.afterSpace world (leaveKeys timeStep)).status.returned = true := by
  rw [afterSpace_running loads leaving.built leaving.running]
  rfl

theorem Leaving.afterMovies_running (leaving : Leaving world timeStep game) (loads : Loads world) :
    (game.afterMovies world (leaveKeys timeStep)).status = .running :=
  Game.afterMovies_running loads ⟨leaving.built, by simp [leaving.running]⟩ leaving.running rfl

/-- A frame that plays a level leaves it behind, or switches the developer's keys on. -/
theorem Leaving.frame_level (leaving : Leaving world timeStep game) (loads : Loads world)
    (finite : ∀ number, last < number → world.levelImage number = none) (idle : game.betweenSteps = true)
    (notCredits : game.gameState ≠ .credits)
    (located : At world game.beginLoad.currentLevel (game.afterSpace world (leaveKeys timeStep)))
    (playing : (game.afterSpace world (leaveKeys timeStep)).gameState = .playing)
    (idle' : (game.afterSpace world (leaveKeys timeStep)).betweenSteps = true) :
    Leaving world timeStep (game.handleUpdate world (leaveKeys timeStep)) ∧
      framesLeft last (game.handleUpdate world (leaveKeys timeStep)) < framesLeft last game := by
  obtain ⟨placed', built', running'⟩ := leaving.kept loads idle
  have returned := leaving.afterSpace_returned loads
  have moviesRunning := leaving.afterMovies_running loads
  obtain ⟨placed, built, running, hidden, elsewhere, credits⟩ := leaving
  have switches := @afterSpace_switches world game timeStep elsewhere notCredits
  simp only [Game.switches, Prod.mk.injEq] at switches
  have movies := afterMovies_playing returned playing
  have playing' : (game.afterMovies world (leaveKeys timeStep)).gameState = .playing := by
    rw [movies]
    exact playing
  -- The level was there before the frame, or has been loaded in it.
  have intact : Intact game := ⟨built, by simp [running]⟩
  have present := (intact.afterMovies running world (leaveKeys timeStep)).built.level_isSome
    (by rw [playing']; rfl) (by rw [moviesRunning]; rfl)
  obtain ⟨level, found⟩ := Option.isSome_iff_exists.mp present
  have rests : level.physics = .idle := by
    have entered : (game.afterSpace world (leaveKeys timeStep)).scene.level = some level := by
      rw [movies] at found
      exact found
    simpa [betweenSteps, entered] using idle'
  obtain ⟨ahead, physics, navigation⟩ := leave_level moviesRunning playing' found rests
  rw [movies] at ahead physics navigation
  have timer : (game.handleUpdate world (leaveKeys timeStep)).creditsMovie = game.creditsMovie := by
    have continues := (handleUpdate_continues world (leaveKeys timeStep) game).movie .credits
    rw [movies] at continues
    exact continues.trans (afterSpace_movie world _ game .credits)
  have inLevel := located.frame.inLevel
  refine ⟨⟨placed', built', running', ⟨?_, ?_⟩, ?_, ?_⟩, framesLeft_lt finite elsewhere notCredits located.frame ?_⟩
  · exact physics.trans (switches.2.1.trans hidden.1)
  · exact navigation.trans (switches.2.2.trans hidden.2)
  · exact fun menu => by simp [menu, GameState.inLevel] at inLevel
  · rw [timer]
    exact .inr (credits.resolve_left notCredits)
  · exact ahead.imp_right fun switched => ⟨switched.1, switches.1.symm.trans switched.2⟩

/-- A frame that goes beyond the last level stays in the credits. -/
theorem Leaving.frame_beyond (leaving : Leaving world timeStep game) (loads : Loads world)
    (finite : ∀ number, last < number → world.levelImage number = none) (idle : game.betweenSteps = true)
    (notCredits : game.gameState ≠ .credits)
    (beyond : (game.afterSpace world (leaveKeys timeStep)).gameState = .credits) :
    Leaving world timeStep (game.handleUpdate world (leaveKeys timeStep)) ∧
      framesLeft last (game.handleUpdate world (leaveKeys timeStep)) < framesLeft last game := by
  obtain ⟨placed', built', running'⟩ := leaving.kept loads idle
  have returned := leaving.afterSpace_returned loads
  have moviesRunning := leaving.afterMovies_running loads
  obtain ⟨placed, built, running, hidden, elsewhere, credits⟩ := leaving
  have switches := @afterSpace_switches world game timeStep elsewhere notCredits
  simp only [Game.switches, Prod.mk.injEq] at switches
  have movie : (game.afterSpace world (leaveKeys timeStep)).creditsMovie = game.creditsMovie :=
    afterSpace_movie world _ game .credits
  have early : (game.afterSpace world (leaveKeys timeStep)).creditsMovie.frameTimer +
      (leaveKeys timeStep).timeStep < Movie.frameRate := by
    rw [movie]
    exact credits.resolve_left notCredits
  have movies := afterMovies_credits returned beyond early
  have beyond' : (game.afterMovies world (leaveKeys timeStep)).gameState = .credits := by
    rw [movies]
    exact beyond
  obtain ⟨still, physics, navigation⟩ := leave_beyond moviesRunning beyond'
  rw [movies] at physics navigation
  refine ⟨⟨placed', built', running', ⟨?_, ?_⟩, by simp [still], .inl still⟩, ?_⟩
  · exact physics.trans (switches.2.1.trans hidden.1)
  · exact navigation.trans (switches.2.2.trans hidden.2)
  · rw [framesLeft_credits still]
    exact two_le_framesLeft finite placed elsewhere notCredits

/-- A frame with the three keys reaches the menu or comes nearer to it. -/
theorem Leaving.frame (leaving : Leaving world timeStep game) (loads : Loads world)
    (finite : ∀ number, last < number → world.levelImage number = none) (idle : game.betweenSteps = true) :
    (game.step world (.frame (leaveKeys timeStep))).status = .running ∧
      ((game.step world (.frame (leaveKeys timeStep))).gameState = .menu ∨
        Leaving world timeStep (game.step world (.frame (leaveKeys timeStep))) ∧
          framesLeft last (game.step world (.frame (leaveKeys timeStep))) < framesLeft last game) := by
  have frame : game.step world (.frame (leaveKeys timeStep)) = game.handleUpdate world (leaveKeys timeStep) := by
    simp only [step, if_pos leaving.running, if_pos idle]
  rw [frame]
  refine ⟨(leaving.kept loads idle).2.2, ?_⟩
  by_cases credits : game.gameState = .credits
  · exact .inl (leave_credits credits)
  · rcases afterSpace_enters leaving.placed idle leaving.elsewhere credits with ⟨located, playing, idle'⟩ | beyond
    · exact .inr (leaving.frame_level loads finite idle credits located playing idle')
    · exact .inr (leaving.frame_beyond loads finite idle credits beyond)

theorem framesLeft_pos (finite : ∀ number, last < number → world.levelImage number = none)
    (leaving : Leaving world timeStep game) : 1 ≤ framesLeft last game := by
  by_cases credits : game.gameState = .credits
  · rw [framesLeft_credits credits]
  · exact Nat.le_of_succ_le (two_le_framesLeft finite leaving.placed leaving.elsewhere credits)

theorem endPhysicsStep_betweenSteps (running : game.status = .running) :
    (game.step world (.level .endPhysicsStep)).betweenSteps = true := by
  cases found : game.scene.level with
  | none => simp [step, running, levelStep, found, betweenSteps]
  | some level => simp [step, running, levelStep, found, betweenSteps, Level.step, Game.act]

/-- What happens between two frames, the end of the physics steps, and a frame with the three keys. -/
def leaveRound (timeStep : ℚ) (between : ℕ → List Event) (index : ℕ) : List Event :=
  between index ++ [.level .endPhysicsStep, .frame (leaveKeys timeStep)]

theorem Leaving.round (leaving : Leaving world timeStep game) (loads : Loads world)
    (finite : ∀ number, last < number → world.levelImage number = none) {between : ℕ → List Event} {index : ℕ}
    (noFrame : ∀ event ∈ between index, ∀ input, event ≠ .frame input) :
    (run (step world) game (leaveRound timeStep between index)).status = .running ∧
      ((run (step world) game (leaveRound timeStep between index)).gameState = .menu ∨
        Leaving world timeStep (run (step world) game (leaveRound timeStep between index)) ∧
          framesLeft last (run (step world) game (leaveRound timeStep between index)) < framesLeft last game) := by
  have waited : Leaving world timeStep (run (step world) game (between index)) ∧
      framesLeft last (run (step world) game (between index)) ≤ framesLeft last game :=
    (meets_of_forall game noFrame).invariant
      (fun state => Leaving world timeStep state ∧ framesLeft last state ≤ framesLeft last game)
      (fun _ event near notFrame => ⟨(near.1.between loads notFrame last).1,
        (near.1.between loads notFrame last).2.trans near.2⟩) ⟨leaving, le_rfl⟩
  rw [leaveRound, run_append]
  generalize run (step world) game (between index) = settling at waited ⊢
  have notFrame : ∀ input, Event.level .endPhysicsStep ≠ .frame input := by
    intro input isFrame
    cases isFrame
  obtain ⟨settled, near⟩ := waited.1.between loads notFrame last
  obtain ⟨running, menu | ⟨leaving', closer⟩⟩ :=
    settled.frame loads finite (endPhysicsStep_betweenSteps waited.1.running)
  · exact ⟨running, .inl menu⟩
  · exact ⟨running, .inr ⟨leaving', closer.trans_le (near.trans waited.2)⟩⟩

/-- So many frames are enough. -/
def Near (world : World) (timeStep : ℚ) (last : ℤ) (left : ℕ) (game : Game) : Prop :=
  game.status = .running ∧ (game.gameState = .menu ∨ Leaving world timeStep game ∧ framesLeft last game ≤ left)

/-! ## The timer of the credits -/

theorem handleCredits_caughtUp (world : World) (input : Input) (game : Game) :
    (game.handleCredits world input).creditsMovie.frameTimer < Movie.frameRate := by
  have positive : 0 < Movie.frameRate := Reel.frameRate_pos .credits
  simp only [handleCredits]
  split
  · split
    · split
      · exact Movie.catchUpAll_lt positive _
      · exact Movie.catchUpAll_lt positive _
    · exact positive
  · exact not_le.mp (by assumption)

/-- No frame of the credits is ever overdue after an update. -/
theorem step_caughtUp (placed : Placed world game) (caughtUp : game.creditsMovie.frameTimer < Movie.frameRate)
    (event : Event) : (game.step world event).creditsMovie.frameTimer < Movie.frameRate := by
  by_cases isFrame : ∃ input, event = .frame input
  · obtain ⟨input, rfl⟩ := isFrame
    have afterMenu : (game.afterMenu world input).creditsMovie = game.creditsMovie :=
      (@afterMenu_movie_of_ne world input game .credits (by decide)).trans
        (afterSpace_movie world input game .credits)
    have afterMovies : (game.afterMovies world input).creditsMovie.frameTimer < Movie.frameRate := by
      rw [Game.afterMovies, andThen]
      split
      · by_cases credits : (game.afterMenu world input).gameState = .credits
        · have played : (game.afterMenu world input).handleMovies world input =
              (game.afterMenu world input).handleCredits world input := by simp [handleMovies, credits]
          rw [played]
          exact handleCredits_caughtUp world input _
        · have movie : ((game.afterMenu world input).handleMovies world input).creditsMovie =
              (game.afterMenu world input).creditsMovie :=
            @handleMovies_movie_of_ne world input _ .credits (.inl credits)
          rwa [movie, afterMenu]
      · rwa [afterMenu]
    have frame : (game.handleUpdate world input).creditsMovie = (game.afterMovies world input).creditsMovie :=
      (handleUpdate_continues world input game).movie .credits
    simp only [step]
    split
    · split
      · rwa [frame]
      · exact caughtUp
    · exact caughtUp
  · have movie : (game.step world event).creditsMovie = game.creditsMovie :=
      (step_continues placed fun input isInput => isFrame ⟨input, isInput⟩).movie .credits
    rwa [movie]

end Game

namespace WrightLevel

/-- Between any two frames the player touches the guard. -/
def caught (_ : ℕ) : List Event := .level .beginPhysicsStep :: touchGuard

theorem world_loads : Game.Loads (world allSounds) := by
  intro number image found
  simp only [world, Option.ite_none_right_eq_some, Option.some.injEq] at found
  obtain ⟨rfl, rfl⟩ := found
  decide +kernel

theorem world_finite (number : ℤ) (beyond : 1 < number) : (world allSounds).levelImage number = none :=
  if_neg beyond.ne'

end WrightLevel

end SneakySneaky
