import SneakySneaky.Frame
import SneakySneaky.Progression

/-! # What is there in each state

UI and scene are cleared and built again at several places, some of them in a frame that
goes on with the code of another state.  The invariant says what each state finds there:
the sprite of a movie, the player and the inventory of a level, the components that debug
drawing asks for. -/

namespace SneakySneaky

open SneakySneaky.Foundation

def GameState.showsMovie : GameState → Bool
  | .intro | .credits => true
  | .menu | .playing | .dead | .stairs | .finished => false

/-- The states whose scene has been cleared and not built again. -/
def GameState.isBare : GameState → Bool
  | .intro | .credits | .finished => true
  | .menu | .playing | .dead | .stairs => false

theorem GameState.showsMovie_iff (state : GameState) :
    state.showsMovie = true ↔ state = .intro ∨ state = .credits := by
  cases state <;> simp [GameState.showsMovie]

theorem GameState.inLevel_iff (state : GameState) :
    state.inLevel = true ↔ state = .playing ∨ state = .dead ∨ state = .stairs := by
  cases state <;> simp [GameState.inLevel]

theorem GameState.isBare_iff (state : GameState) :
    state.isBare = true ↔ state = .intro ∨ state = .credits ∨ state = .finished := by
  cases state <;> simp [GameState.isBare]

namespace Game

structure Built (game : Game) : Prop where
  movie : game.gameState.showsMovie = true → game.root.movie = true
  level : game.gameState.inLevel = true → game.status = .hung ∨ game.scene.level.isSome = true
  drawn : game.scene.titleContainer = true ∨ game.scene.level.isSome = true →
    game.scene.physicsWorld = true ∧ game.scene.navigationMesh = true
  bare : game.gameState.isBare = true → game.scene.physicsWorld = false ∧ game.scene.navigationMesh = false
  cheat : game.unceUnceUnceWubWubWub = false → game.cheatCode ≠ []

/-- A built game that has not followed a NULL pointer. -/
structure Intact (game : Game) : Prop where
  built : Built game
  alive : game.status ≠ .crashed

variable {world : World} {input : Input} {game : Game}

theorem Intact.andThen {next : Game → Game} (intact : Intact game)
    (keeps : game.status.returned = true → Intact (next game)) : Intact (game.andThen next) := by
  simp only [Game.andThen]
  split
  · rename_i returned
    exact keeps returned
  · exact intact

theorem not_hung (returned : game.status.returned = true) : game.status ≠ .hung := by
  intro hung
  rw [hung] at returned
  cases returned

/-! ## The three kinds of states -/

theorem Built.inside (inside : game.gameState.inLevel = true)
    (level : game.status = .hung ∨ game.scene.level.isSome = true)
    (drawn : game.scene.titleContainer = true ∨ game.scene.level.isSome = true →
      game.scene.physicsWorld = true ∧ game.scene.navigationMesh = true)
    (cheat : game.unceUnceUnceWubWubWub = false → game.cheatCode ≠ []) : Built game := by
  refine ⟨fun movie => ?_, fun _ => level, drawn, fun bare => ?_, cheat⟩
  · revert movie inside
    cases game.gameState <;> simp [GameState.showsMovie, GameState.inLevel]
  · revert bare inside
    cases game.gameState <;> simp [GameState.isBare, GameState.inLevel]

theorem Built.menu (menu : game.gameState = .menu)
    (drawn : game.scene.titleContainer = true ∨ game.scene.level.isSome = true →
      game.scene.physicsWorld = true ∧ game.scene.navigationMesh = true)
    (cheat : game.unceUnceUnceWubWubWub = false → game.cheatCode ≠ []) : Built game := by
  refine ⟨fun movie => ?_, fun inside => ?_, drawn, fun bare => ?_, cheat⟩
  · rw [menu] at movie
    cases movie
  · rw [menu] at inside
    cases inside
  · rw [menu] at bare
    cases bare

theorem Built.outside (bare : game.gameState.isBare = true)
    (movie : game.gameState.showsMovie = true → game.root.movie = true) (empty : game.scene = .clear)
    (cheat : game.unceUnceUnceWubWubWub = false → game.cheatCode ≠ []) : Built game := by
  refine ⟨movie, fun inside => ?_, fun built => ?_, fun _ => ?_, cheat⟩
  · revert bare inside
    cases game.gameState <;> simp [GameState.isBare, GameState.inLevel]
  · rw [empty] at built
    simp [Scene.clear] at built
  · rw [empty]
    exact ⟨rfl, rfl⟩

/-! ## `LoadLevel` and `EndLevel` -/

theorem loadLevel_intact (world : World) (cheat : game.unceUnceUnceWubWubWub = false → game.cheatCode ≠ [])
    (alive : game.status ≠ .crashed) : Intact (game.loadLevel world) := by
  have result := loadLevel_result world game
  generalize game.loadLevel world = after at result ⊢
  cases result with
  | credits missing => exact ⟨.outside rfl (fun _ => rfl) rfl cheat, alive⟩
  | hang found =>
    have empty : ¬ (Scene.clear.titleContainer = true ∨ Scene.clear.level.isSome = true) := by simp [Scene.clear]
    exact ⟨.inside rfl (.inl rfl) (fun built => absurd built empty) cheat, by simp⟩
  | enter found read => exact ⟨.inside rfl (.inr rfl) (fun _ => ⟨rfl, rfl⟩) cheat, alive⟩

/-- `EndLevel` finds the player wherever a level is. -/
theorem endLevel_intact (intact : Intact game) (present : game.scene.level.isSome = true) (caller : EndCaller)
    (call : EndCall) : Intact (game.endLevel world caller call) := by
  obtain ⟨level, found⟩ := Option.isSome_iff_exists.mp present
  obtain ⟨died, suppressScore⟩ := call
  cases suppressScore with
  | true =>
    rw [endLevel_loads found]
    exact loadLevel_intact world intact.built.cheat intact.alive
  | false =>
    rw [endLevel_ends found]
    have drawn := intact.built.drawn (.inr present)
    cases died with
    | true => exact ⟨.inside rfl (.inr rfl) (fun _ => drawn) intact.built.cheat, intact.alive⟩
    | false => exact ⟨.inside rfl (.inr rfl) (fun _ => drawn) intact.built.cheat, intact.alive⟩

/-! ## The stages of a frame -/

theorem Intact.handleExitKey (intact : Intact game) (running : game.status = .running) (input : Input) :
    Intact (game.handleExitKey input) := by
  obtain ⟨⟨movie, level, drawn, bare, cheat⟩, alive⟩ := intact
  have present : game.gameState.inLevel = true → game.scene.level.isSome = true := fun inside =>
    (level inside).resolve_left (by simp [running])
  obtain ⟨status, exitTimer, result, same | exited⟩ := handleExitKey_eq input game
  · rw [result]
    exact ⟨⟨movie, fun inside => .inr (present inside), drawn, bare, cheat⟩, by simpa [same] using alive⟩
  · rw [result]
    exact ⟨⟨movie, fun inside => .inr (present inside), drawn, bare, cheat⟩, by simp [exited]⟩

theorem Intact.handleSpace (intact : Intact game) (world : World) (input : Input) :
    Intact (game.handleSpace world input).1 := by
  have result := handleSpace_result world input game
  generalize (game.handleSpace world input).1 = after at result ⊢
  cases result with
  | unused => exact intact
  | leaveCredits pressed credits => exact ⟨.menu rfl intact.built.drawn intact.built.cheat, intact.alive⟩
  | load pressed elsewhere => exact loadLevel_intact world intact.built.cheat intact.alive

theorem Intact.advanceTitle (intact : Intact game) (world : World) (input : Input) :
    Intact (game.advanceTitle world input) := by
  obtain ⟨⟨movie, level, drawn, bare, cheat⟩, alive⟩ := intact
  obtain ⟨titleMovie, result⟩ := advanceTitle_eq world input game
  rw [result]
  exact ⟨⟨movie, level, drawn, bare, cheat⟩, alive⟩

theorem Intact.leaveMenu (intact : Intact game) (world : World) (input : Input) (spacePressed : Bool) :
    Intact (game.leaveMenu world input spacePressed) := by
  have result := leaveMenu_result world input game spacePressed
  generalize game.leaveMenu world input spacePressed = after at result ⊢
  cases result with
  | stay => exact intact
  | movie shows =>
    refine ⟨.outside ?_ (fun _ => rfl) rfl intact.built.cheat, intact.alive⟩
    rcases shows with rfl | rfl <;> rfl
  | load => exact loadLevel_intact world intact.built.cheat intact.alive

theorem Intact.buildMenu (intact : Intact game) (menu : game.gameState = .menu) : Intact game.buildMenu := by
  refine ⟨.menu menu ?_ intact.built.cheat, intact.alive⟩
  simp only [Game.buildMenu]
  split
  · exact intact.built.drawn
  · exact fun _ => ⟨rfl, rfl⟩

theorem Intact.handleMenu (intact : Intact game) (world : World) (input : Input) (spacePressed : Bool) :
    Intact (game.handleMenu world input spacePressed) := by
  simp only [Game.handleMenu]
  split
  · rename_i menu
    exact ((intact.buildMenu menu).advanceTitle world input).leaveMenu world input spacePressed
  · exact intact

/-- The sprite of the movie is there when a frame of it is shown. -/
theorem Intact.handleMovies (intact : Intact game) (world : World) (input : Input) :
    Intact (game.handleMovies world input) := by
  obtain ⟨⟨movie, level, drawn, bare, cheat⟩, alive⟩ := intact
  have result := handleMovies_result world input game
  generalize game.handleMovies world input = after at result ⊢
  cases result with
  | goOn intro credits => exact ⟨⟨movie, level, drawn, bare, cheat⟩, alive⟩
  | crash plays missing intro credits =>
    have sprite : game.root.movie = true := movie ((GameState.showsMovie_iff _).mpr plays)
    rw [missing] at sprite
    cases sprite
  | introOver intro => exact loadLevel_intact world cheat alive
  | creditsOver credits =>
    have empty := bare (by rw [credits]; rfl)
    exact ⟨⟨fun movie => absurd movie (by simp [GameState.showsMovie]),
      fun inside => absurd inside (by simp [GameState.inLevel]), drawn, fun _ => empty, cheat⟩, alive⟩

theorem Intact.afterMenu (intact : Intact game) (running : game.status = .running) (world : World)
    (input : Input) : Intact (game.afterMenu world input) :=
  ((intact.handleExitKey running input).handleSpace world input).andThen fun _ =>
    ((intact.handleExitKey running input).handleSpace world input).handleMenu world input _

theorem Intact.afterMovies (intact : Intact game) (running : game.status = .running) (world : World)
    (input : Input) : Intact (game.afterMovies world input) :=
  (intact.afterMenu running world input).andThen fun _ =>
    (intact.afterMenu running world input).handleMovies world input

theorem Intact.beforeNext (intact : Intact game) (running : game.status = .running) (world : World)
    (input : Input) : Intact (game.beforeNext world input) := by
  obtain ⟨⟨movie, level, drawn, bare, cheat⟩, alive⟩ := intact.afterMovies running world input
  simp only [Game.beforeNext, handleReload]
  split
  · exact loadLevel_intact world cheat alive
  · exact ⟨⟨movie, level, drawn, bare, cheat⟩, alive⟩

/-- In a level that is being played, and was loaded, the player is there. -/
theorem Built.level_isSome (built : Built game) (inside : game.gameState.inLevel = true)
    (returned : game.status.returned = true) : game.scene.level.isSome = true :=
  (built.level inside).resolve_left (not_hung returned)

theorem Intact.handleNext (intact : Intact game) (returned : game.status.returned = true) (world : World)
    (input : Input) : Intact (game.handleNext world input) := by
  simp only [Game.handleNext]
  split
  · rename_i playing
    exact endLevel_intact intact (intact.built.level_isSome (by rw [playing.1]; rfl) returned) _ _
  · exact intact

theorem Built.handleUnlock (built : Built game) (input : Input) : Built (game.handleUnlock input) := by
  obtain ⟨movie, level, drawn, bare, cheat⟩ := built
  obtain ⟨items, result⟩ := handleUnlock_eq input game
  rw [result]
  exact ⟨movie, by simpa using level, by simpa using drawn, bare, cheat⟩

/-- The developer's C is the only key that crashes the game. -/
theorem Intact.handleLastKeys (intact : Intact game) (input : Input) :
    Built (game.handleLastKeys input) ∧
      ((game.handleLastKeys input).status = .crashed → input.keyPress .c = true) := by
  by_cases returned : game.status.returned = true
  · simp only [Game.handleLastKeys, Game.andThen, if_pos returned]
    rcases handleCrash_cases input game with same | ⟨pressed, crashed⟩
    · rw [same, if_pos returned]
      have status : (game.handleUnlock input).status = game.status := by
        obtain ⟨items, result⟩ := handleUnlock_eq input game
        rw [result]
      exact ⟨intact.built.handleUnlock input, fun crashed => absurd (status ▸ crashed) intact.alive⟩
    · obtain ⟨movie, level, drawn, bare, cheat⟩ := intact.built
      have present : game.gameState.inLevel = true → game.scene.level.isSome = true := fun inside =>
        intact.built.level_isSome inside returned
      rw [crashed, if_neg (by simp [Status.returned])]
      exact ⟨⟨movie, fun inside => .inr (present inside), drawn, bare, cheat⟩, fun _ => pressed⟩
  · simp only [Game.handleLastKeys, Game.andThen, if_neg returned]
    exact ⟨intact.built, fun crashed => absurd crashed intact.alive⟩

theorem Intact.handleUpdate (intact : Intact game) (running : game.status = .running) (world : World)
    (input : Input) :
    Built (game.handleUpdate world input) ∧
      ((game.handleUpdate world input).status = .crashed →
        (game.afterMovies world input).developerMode = true ∧ input.keyPress .c = true) := by
  -- The developer's keys crash the game by C only.
  have developer : Built ((game.afterMovies world input).andThen (handleDeveloper world input)) ∧
      (((game.afterMovies world input).andThen (handleDeveloper world input)).status = .crashed →
        (game.afterMovies world input).developerMode = true ∧ input.keyPress .c = true) := by
    have movies := intact.afterMovies running world input
    simp only [Game.andThen]
    split
    · by_cases developerMode : (game.afterMovies world input).developerMode = true
      · rw [handleDeveloper_developerMode world input developerMode]
        have next := (intact.beforeNext running world input).andThen fun returned =>
          (intact.beforeNext running world input).handleNext returned world input
        obtain ⟨built, crashed⟩ := next.handleLastKeys input
        exact ⟨built, fun crash => ⟨developerMode, crashed crash⟩⟩
      · obtain ⟨⟨movie, level, drawn, bare, cheat⟩, alive⟩ := movies
        simp only [handleDeveloper, if_neg developerMode]
        split
        · exact ⟨⟨movie, level, drawn, bare, cheat⟩, fun crashed => absurd crashed alive⟩
        · exact ⟨⟨movie, level, drawn, bare, cheat⟩, fun crashed => absurd crashed alive⟩
    · exact ⟨movies.built, fun crashed => absurd crashed movies.alive⟩
  rw [handleUpdate_eq]
  generalize (game.afterMovies world input).andThen (handleDeveloper world input) = before at developer
  obtain ⟨⟨movie, level, drawn, bare, cheat⟩, crashed⟩ := developer
  simp only [Game.andThen]
  split
  · -- As long as the cheat is locked a key is left.
    rcases handleCheat_cases input before with ⟨cheatCode, unlocked, result, left | ⟨rfl, rfl⟩⟩ | ⟨locked, none, -⟩
    · rw [result]
      exact ⟨⟨movie, level, drawn, bare, left⟩, crashed⟩
    · rw [result]
      exact ⟨⟨movie, level, drawn, bare, cheat⟩, crashed⟩
    · exact absurd none (cheat locked)
  · exact ⟨⟨movie, level, drawn, bare, cheat⟩, crashed⟩

/-! ## Runs -/

theorem Intact.act (intact : Intact game) {level : Level} (found : game.scene.level = some level) (next : Level)
    (action : LevelAction) : Intact (act world (game.withLevel next) action) := by
  obtain ⟨⟨movie, present, drawn, bare, cheat⟩, alive⟩ := intact
  have some : game.scene.level.isSome = true := Option.isSome_iff_exists.mpr ⟨level, found⟩
  have updated : Intact (game.withLevel next) :=
    ⟨⟨movie, fun _ => .inr rfl, fun _ => drawn (.inr some), bare, cheat⟩, alive⟩
  cases action with
  | nothing => exact updated
  | played source =>
    obtain ⟨⟨movie, present, drawn, bare, cheat⟩, alive⟩ := updated
    exact ⟨⟨movie, present, drawn, bare, cheat⟩, alive⟩
  | endLevel caller call => exact endLevel_intact updated rfl caller call

theorem Built.step (built : Built game) (world : World) (event : Event) : Built (game.step world event) := by
  have result := step_result world game event
  generalize game.step world event = after at result ⊢
  cases result with
  | frame running input =>
    have intact : Intact game := ⟨built, by simp [running]⟩
    exact (intact.handleUpdate running world input).1
  | inLevel running found =>
    have intact : Intact game := ⟨built, by simp [running]⟩
    exact (intact.act found _ _).built
  | crash running =>
    obtain ⟨movie, level, drawn, bare, cheat⟩ := built
    have present : game.gameState.inLevel = true → game.scene.level.isSome = true := fun inside =>
      (level inside).resolve_left (by simp [running])
    exact ⟨movie, fun inside => .inr (present inside), drawn, bare, cheat⟩
  | same => exact built

theorem create_built : Built create :=
  .menu rfl (fun built => by simp [create, Scene.clear] at built) (by simp [create])

theorem run_built (world : World) (events : List Event) : Built (run (step world) create events) :=
  run_invariant Built (fun _ event built => built.step world event) create_built events

/-- `EndLevel` is called in a level only, and finds the player there. -/
theorem endLevelCalls_inLevel (built : Built game) (placed : Placed world game) {event : Event}
    {call : EndLevelCall} (called : call ∈ game.endLevelCalls world event) :
    call.state.gameState.inLevel = true ∧ call.state.scene.level.isSome = true := by
  simp only [endLevelCalls] at called
  split at called
  · rename_i running
    have intact : Intact game := ⟨built, by simp [running]⟩
    cases event with
    | frame input =>
      simp only at called
      split at called
      · rename_i ends
        rw [List.mem_singleton] at called
        subst called
        simp only [endsByKey, Bool.and_eq_true, decide_eq_true_eq] at ends
        obtain ⟨-, ⟨-, returned⟩, playing, -⟩ := ends
        have inside : (game.beforeNext world input).gameState.inLevel = true := by rw [playing]; rfl
        exact ⟨inside, (intact.beforeNext running world input).built.level_isSome inside returned⟩
      · cases called
    | level event =>
      simp only at called
      cases found : game.scene.level with
      | none => simp [found] at called
      | some level =>
        simp only [found] at called
        split at called
        · rw [List.mem_singleton] at called
          subst called
          exact ⟨placed.inLevel level found, rfl⟩
        · cases called
        · cases called
    | postRenderUpdate => cases called
  · cases called

theorem step_crashed (built : Built game) (running : game.status = .running) {event : Event}
    (crashed : (game.step world event).status = .crashed) :
    (∃ input, event = .frame input ∧ (game.afterMovies world input).developerMode = true ∧
      input.keyPress .c = true) ∨ event = .postRenderUpdate := by
  have intact : Intact game := ⟨built, by simp [running]⟩
  have result := step_result world game event
  generalize game.step world event = after at result crashed
  cases result with
  | frame running input => exact .inl ⟨input, rfl, (intact.handleUpdate running world input).2 crashed⟩
  | inLevel running found => exact absurd crashed (intact.act found _ _).alive
  | crash running => exact .inr rfl
  | same => exact absurd crashed intact.alive

end Game

/-- In every reachable state the sprite of a movie and the player of a level are there, unless the
    level is one that never finishes loading; also in the middle of a frame, when the movie is shown;
    and `EndLevel` is called in a level only.  So no step follows a NULL pointer but by the
    developer's C or in debug drawing. -/
theorem lookups_succeed (world : World) (events : List Event) :
    let game := run (Game.step world) Game.create events
    (game.gameState = .intro ∨ game.gameState = .credits → game.root.movie = true) ∧
      (game.gameState = .playing ∨ game.gameState = .dead ∨ game.gameState = .stairs →
        game.status = .hung ∨ game.scene.level.isSome = true) ∧
      (∀ event, ∀ call ∈ game.endLevelCalls world event,
        (call.state.gameState = .playing ∨ call.state.gameState = .dead ∨ call.state.gameState = .stairs) ∧
          call.state.scene.level.isSome = true) ∧
      (game.status = .running →
        (∀ input, (game.afterMenu world input).gameState = .intro ∨
            (game.afterMenu world input).gameState = .credits →
          (game.afterMenu world input).root.movie = true) ∧
        ∀ event, (game.step world event).status = .crashed →
          (∃ input, event = .frame input ∧ (game.afterMovies world input).developerMode = true ∧
            input.keyPress .c = true) ∨ event = .postRenderUpdate) := by
  intro game
  have built : Game.Built game := Game.run_built world events
  have placed : Game.Placed world game := Game.run_placed world events
  refine ⟨fun movie => built.movie ((GameState.showsMovie_iff _).mpr movie),
    fun inside => built.level ((GameState.inLevel_iff _).mpr inside), fun event call called => ?_,
    fun running => ⟨fun input movie => ?_, fun event crashed => Game.step_crashed built running crashed⟩⟩
  · obtain ⟨inside, present⟩ := Game.endLevelCalls_inLevel built placed called
    exact ⟨(GameState.inLevel_iff _).mp inside, present⟩
  · have intact : Game.Intact game := ⟨built, by simp [running]⟩
    exact (intact.afterMenu running world input).built.movie ((GameState.showsMovie_iff _).mpr movie)

end SneakySneaky
