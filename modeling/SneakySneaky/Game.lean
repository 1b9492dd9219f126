import SneakySneaky.Level

/-! # `Game`

The state machine of the application: `LoadLevel`, `EndLevel` and `HandleUpdate`, with the
seven states of `gameState_`, the movies, the developer keys, and the scene and UI as far
as they decide what the code does.  The engine sends the events one at a time; `step`
takes the game through one of them.

Left out: the debug HUD, the screen joystick, texts and colours of the UI, the timers of
the animated materials, the analytics calls and the lights of the cheat. -/

namespace SneakySneaky

open SneakySneaky.Foundation

/-! ## What the game reads -/

/-- The resources on disk.  Level numbers are those of the file names, counted from 1. -/
structure World where
  cache : SoundCache
  conversions : Conversions
  levelImage : ℤ → Option LevelImage
  /-- `Levels/%d/%dx%d.xml`. -/
  roomXml : ℤ → ℤ → ℤ → Option XMLElement
  titleFrame : ℤ → Bool
  introFrame : ℤ → Bool
  creditsFrame : ℤ → Bool
  dirty : Bool
  /-- The iterations after which a loop of `LoadLevel` counts as one that never ends. -/
  fuel : ℕ

inductive Key where
  | esc | space | backquote | a | b | c | d | n | r | u | left | right | up | down
  | digit (n : Fin 10)
  deriving DecidableEq

/-- The input of one frame; `joystickButton` is `GetButtonPress(0)` of the active joystick. -/
structure Input where
  timeStep : ℚ
  keyPress : Key → Bool
  keyDown : Key → Bool
  joystickButton : Bool

/-! ## The state -/

inductive GameState where
  | menu | intro | playing | dead | stairs | credits | finished
  deriving DecidableEq

structure Movie where
  frame : ℤ
  frameTimer : ℚ
  deriving DecidableEq

/-- The scene: the components that code outside of `LoadLevel` asks it for. -/
structure Scene where
  titleContainer : Bool
  physicsWorld : Bool
  navigationMesh : Bool
  level : Option Level

def Scene.clear : Scene := ⟨false, false, false, none⟩

/-- The children of the UI root that are looked up by name. -/
structure Root where
  title : Bool
  movie : Bool
  deriving DecidableEq

def Root.clear : Root := ⟨false, false⟩

/-- `hung` is a `LoadLevel` that never returns, `crashed` a NULL pointer that was followed. -/
inductive Status where
  | running | exited | crashed | hung
  deriving DecidableEq

/-- The code after a call is reached: `Engine::Exit` returns, and takes effect after the frame. -/
def Status.returned : Status → Bool
  | .running | .exited => true
  | .crashed | .hung => false

/-- The calls a run has made, which nothing in the source reads. -/
inductive Call where
  | loadLevel
  | endLevel (caller : EndCaller) (call : EndCall)
  | play (source : PlaySource)
  deriving DecidableEq

structure Game where
  status : Status
  currentLevel : ℤ
  levelTime : ℚ
  gameState : GameState
  totalTime : ℚ
  totalScore : ℤ
  exitTimer : ℕ
  cheatCode : List Key
  unceUnceUnceWubWubWub : Bool
  developerMode : Bool
  debugGeometry : Bool
  debugPhysics : Bool
  debugNavigation : Bool
  debugDepthTest : Bool
  scene : Scene
  root : Root
  titleMovie : Movie
  introMovie : Movie
  creditsMovie : Movie
  calls : List Call

namespace Game

/-- The constructor, and an empty scene from `Start`. -/
def create : Game where
  status := .running
  currentLevel := 0
  levelTime := 0
  gameState := .menu
  totalTime := 0
  totalScore := 0
  exitTimer := 0
  cheatCode := [.a, .b, .right, .left, .right, .left, .down, .down, .up, .up]
  unceUnceUnceWubWubWub := false
  developerMode := false
  debugGeometry := false
  debugPhysics := false
  debugNavigation := false
  debugDepthTest := true
  scene := .clear
  root := .clear
  titleMovie := ⟨0, 0⟩
  introMovie := ⟨0, 0⟩
  creditsMovie := ⟨0, 0⟩
  calls := []

/-! ## `LoadLevel` and `EndLevel` -/

/-- The rooms of a level that have an XML file, in the order of the floor loop; `none` when a loop
    over a file does not end. -/
def loadRooms (world : World) (number : ℤ) (image : LevelImage) : Option (List RoomContents) :=
  (image.floorTiles.filterMap fun tile =>
    (world.roomXml number (tile.x + 1) (tile.y + 1)).map fun root => (tile.position, root)).mapM
    fun room => LoadLevel.loadRoom world.conversions world.cache room.1 room.2 world.fuel

/-- The state after the assignments and `Clear` calls at the top of `LoadLevel`. -/
def beginLoad (game : Game) : Game :=
  { game with
    -- Only a completed level is left behind; death, reload and the intro load the current one.
    currentLevel := if game.gameState = .stairs then game.currentLevel + 1 else game.currentLevel
    gameState := .playing
    levelTime := 0
    root := .clear
    scene := .clear
    calls := .loadLevel :: game.calls }

def rollCredits (game : Game) : Game :=
  { game with currentLevel := 0, gameState := .credits, root := { game.root with movie := true } }

def enter (world : World) (game : Game) (rooms : List RoomContents) : Game :=
  { game with scene := ⟨false, true, true, some (.load world.conversions world.dirty rooms)⟩ }

def loadLevel (world : World) (game : Game) : Game :=
  match world.levelImage (game.beginLoad.currentLevel + 1) with
  | none => game.beginLoad.rollCredits
  | some image =>
    match loadRooms world (game.beginLoad.currentLevel + 1) image with
    | none => { game.beginLoad with status := .hung }
    | some rooms => game.beginLoad.enter world rooms

def toInt (value : ℚ) : ℤ := value.num.tdiv value.den

theorem toInt_of_nonneg {value : ℚ} (nonneg : 0 ≤ value) : toInt value = ⌊value⌋ := by
  rw [toInt, Rat.floor_def', Int.tdiv_eq_ediv_of_nonneg (Rat.num_nonneg.mpr nonneg)]

/-- The score of a level: guards that have seen the player cost, pickups held gain. -/
def score (levelTime : ℚ) (level : Level) : ℤ :=
  let guardCount : ℚ := level.guards.count true
  let pickupCount : ℚ := level.items.inventory.itemCount
  toInt (((300 - levelTime) + (guardCount * -100) + (pickupCount * 50)) * 5)

/-- What every call of `EndLevel` does first: the level's time and score are added, in exact arithmetic (the
    times are floats). -/
def addTotals (game : Game) (level : Level) : Game :=
  { game with
    totalTime := game.totalTime + game.levelTime
    totalScore := game.totalScore + score game.levelTime level }

/-- The end of `EndLevel`: the components are disabled and the state is set. -/
def disable (game : Game) (level : Level) (died : Bool) : Game :=
  { game with
    gameState := if died then .dead else .stairs
    scene := { game.scene with level := some { level with enabled := false } } }

def endLevel (world : World) (game : Game) (caller : EndCaller) (call : EndCall) : Game :=
  match game.scene.level with
  | none => { game with status := .crashed } -- `person` is NULL
  | some level =>
    -- No test of `gameState_`: every call adds the level's time and score.
    let ended := { game.addTotals level with calls := .endLevel caller call :: game.calls }
    if call.suppressScore then loadLevel world { ended with gameState := .stairs }
    else ended.disable level call.died

/-! ## `HandleUpdate` -/

def andThen (game : Game) (next : Game → Game) : Game :=
  if game.status.returned then next game else game

def handleExitKey (input : Input) (game : Game) : Game :=
  if input.keyDown .esc then
    if 30 < game.exitTimer + 1 then { game with status := .exited, exitTimer := 0 }
    else { game with exitTimer := game.exitTimer + 1 }
  else { game with exitTimer := 0 }

/-- The second component is `spacePressed` for the code below. -/
def handleSpace (world : World) (input : Input) (game : Game) : Game × Bool :=
  let spacePressed := input.joystickButton || input.keyPress .space
  -- A press that is used here is not seen by the menu below.
  if game.gameState ≠ .menu ∧ game.gameState ≠ .playing ∧ spacePressed = true then
    (if game.gameState ≠ .credits then loadLevel world game else { game with gameState := .menu }, false)
  else (game, spacePressed)

end Game

namespace Movie

/-- `while (frameTimer >= frameRate)`, for at most some number of iterations. -/
def catchUp (frameRate : ℚ) : ℕ → Movie → Movie
  | 0, movie => movie
  | count + 1, movie =>
    if frameRate ≤ movie.frameTimer then
      catchUp frameRate count ⟨movie.frame + 1, movie.frameTimer - frameRate⟩
    else movie

/-- The movie after the loop, which takes as many iterations as the timer holds frames. -/
def catchUpAll (frameRate : ℚ) (movie : Movie) : Movie :=
  movie.catchUp frameRate ⌊movie.frameTimer / frameRate⌋.toNat

def addTime (movie : Movie) (timeStep : ℚ) : Movie :=
  { movie with frameTimer := movie.frameTimer + timeStep }

/-- The frame rate of the intro and the credits; the logo's frames take half as long again. -/
def frameRate : ℚ := 1 / (2398 / 100)

def titleFrameRate : ℚ := frameRate * (3 / 2)

end Movie

namespace Game

/-- The scene and the UI of the menu, created when they are not there. -/
def buildMenu (game : Game) : Game :=
  { game with
    scene := if game.scene.titleContainer then game.scene else ⟨true, true, true, none⟩
    root := if game.root.title then game.root else ⟨true, false⟩ }

def advanceTitle (world : World) (input : Input) (game : Game) : Game :=
  if 0 ≤ game.titleMovie.frame then
    let movie := game.titleMovie.addTime input.timeStep
    if Movie.titleFrameRate ≤ movie.frameTimer then
      let movie := movie.catchUpAll Movie.titleFrameRate
      -- After its last frame the logo stays, and the movie is over.
      { game with titleMovie := if world.titleFrame movie.frame then movie else ⟨-1, 0⟩ }
    else { game with titleMovie := movie }
  else game

/-- The level of the first digit key that is pressed, in the order of the code; -1 for none. -/
def targetLevel (input : Input) : ℤ :=
  if input.keyPress (.digit 1) then 0
  else if input.keyPress (.digit 2) then 1
  else if input.keyPress (.digit 3) then 2
  else if input.keyPress (.digit 4) then 3
  else if input.keyPress (.digit 5) then 4
  else if input.keyPress (.digit 6) then 5
  else if input.keyPress (.digit 7) then 6
  else if input.keyPress (.digit 8) then 7
  else if input.keyPress (.digit 9) then 8
  else if input.keyPress (.digit 0) then 9
  else -1

def leaveMenu (world : World) (input : Input) (spacePressed : Bool) (game : Game) : Game :=
  if spacePressed = true ∨ targetLevel input ≠ -1 then
    -- Key 0 rolls the credits.
    if spacePressed = true ∨ targetLevel input = 9 then
      { game with
        root := ⟨false, true⟩
        scene := .clear
        gameState := if spacePressed then .intro else .credits }
    else
      loadLevel world
        { game with root := .clear, scene := .clear, currentLevel := targetLevel input }
  else game

def handleMenu (world : World) (input : Input) (spacePressed : Bool) (game : Game) : Game :=
  if game.gameState = .menu then
    (game.buildMenu.advanceTitle world input).leaveMenu world input spacePressed
  else game

def handleIntro (world : World) (input : Input) (game : Game) : Game :=
  let movie := game.introMovie.addTime input.timeStep
  if Movie.frameRate ≤ movie.frameTimer then
    let movie := movie.catchUpAll Movie.frameRate
    if world.introFrame movie.frame then
      if game.root.movie then { game with introMovie := movie }
      else { game with introMovie := movie, status := .crashed } -- `sprite` is NULL
    else loadLevel world { game with introMovie := ⟨0, 0⟩ }
  else { game with introMovie := movie }

def handleCredits (world : World) (input : Input) (game : Game) : Game :=
  let movie := game.creditsMovie.addTime input.timeStep
  if Movie.frameRate ≤ movie.frameTimer then
    let movie := movie.catchUpAll Movie.frameRate
    if world.creditsFrame movie.frame then
      if game.root.movie then { game with creditsMovie := movie }
      else { game with creditsMovie := movie, status := .crashed } -- `sprite` is NULL
    else { game with gameState := .finished, creditsMovie := ⟨0, 0⟩, root := .clear }
  else { game with creditsMovie := movie }

def handleMovies (world : World) (input : Input) (game : Game) : Game :=
  if game.gameState = .intro then game.handleIntro world input
  else if game.gameState = .playing then { game with levelTime := game.levelTime + input.timeStep }
  else if game.gameState = .credits then game.handleCredits world input
  else game

def toggleDebug (input : Input) (game : Game) : Game :=
  { game with
    debugDepthTest := xor game.debugDepthTest (input.keyPress (.digit 0))
    debugGeometry := xor game.debugGeometry (input.keyPress (.digit 1))
    debugPhysics := xor game.debugPhysics (input.keyPress (.digit 2))
    debugNavigation := xor game.debugNavigation (input.keyPress (.digit 3)) }

def handleReload (world : World) (input : Input) (game : Game) : Game :=
  if game.gameState = .playing ∧ input.keyPress .r = true then loadLevel world game else game

def handleNext (world : World) (input : Input) (game : Game) : Game :=
  if game.gameState = .playing ∧ input.keyPress .n = true then
    endLevel world game .developer ⟨false, false⟩
  else game

def handleCrash (input : Input) (game : Game) : Game :=
  if input.keyPress .c then { game with status := .crashed } else game

def handleUnlock (input : Input) (game : Game) : Game :=
  if input.keyPress .u then
    { game with
      scene := { game.scene with
        level := game.scene.level.map fun level =>
          { level with items := { level.items with
            padlocks := level.items.padlocks.map ({ · with nodeRemoved := true }) } } } }
  else game

def handleDeveloper (world : World) (input : Input) (game : Game) : Game :=
  if game.developerMode then
    ((((game.toggleDebug input).handleReload world input).andThen (handleNext world input)).andThen
      (handleCrash input)).andThen (handleUnlock input)
  else if input.keyPress .backquote then { game with developerMode := true }
  else game

def handleCheat (input : Input) (game : Game) : Game :=
  -- The keys of the cheat are taken from the back, one a frame.
  if game.unceUnceUnceWubWubWub then game
  else
    match game.cheatCode.getLast? with
    | none => { game with status := .crashed } -- `Back()` of an empty vector
    | some key =>
      if input.keyDown key then
        { game with
          cheatCode := game.cheatCode.dropLast
          unceUnceUnceWubWubWub := game.cheatCode.dropLast.isEmpty }
      else game

def handleUpdate (world : World) (input : Input) (game : Game) : Game :=
  let (game, spacePressed) := (game.handleExitKey input).handleSpace world input
  (((game.andThen (handleMenu world input spacePressed)).andThen (handleMovies world input)).andThen
    (handleDeveloper world input)).andThen (handleCheat input)

/-- Debug drawing follows the pointers to the scene's components. -/
def handlePostRenderUpdate (game : Game) : Game :=
  if (game.debugPhysics && !game.scene.physicsWorld) || (game.debugNavigation && !game.scene.navigationMesh)
  then { game with status := .crashed }
  else game

end Game

/-! ## Events -/

inductive Event where
  | frame (input : Input)
  | level (event : LevelEvent)
  | postRenderUpdate

namespace Game

/-- The game acts on what the handlers of a level report. -/
def act (world : World) (game : Game) : LevelAction → Game
  | .nothing => game
  | .played source => { game with calls := .play source :: game.calls }
  | .endLevel caller call => endLevel world game caller call

def levelStep (world : World) (game : Game) (event : LevelEvent) : Game :=
  match game.scene.level with
  | none => game
  | some level =>
    let (level, action) := level.step world.cache event
    act world { game with scene := { game.scene with level := some level } } action

def betweenSteps (game : Game) : Bool := game.scene.level.all fun level => level.physics = .idle

def step (world : World) (game : Game) (event : Event) : Game :=
  if game.status = .running then
    match event with
    | .frame input => if game.betweenSteps then game.handleUpdate world input else game
    | .level event => game.levelStep world event
    | .postRenderUpdate => if game.betweenSteps then game.handlePostRenderUpdate else game
  else game

end Game

end SneakySneaky
