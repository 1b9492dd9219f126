import SneakySneaky.Doors
import SneakySneaky.Guard
import SneakySneaky.LevelComponents
import SneakySneaky.RoomVars

/-! # `Person`

The player's node: the path that it walks, written by a click, a touch, a joystick or a door,
and what `Update` shows of it.  The physics moves the node between updates.  A door's path
sends the player through the wall: whoever uses it up without a command has been in the
other room.

The rotations are the engine's; that of the search light is left out. -/

namespace SneakySneaky

open SneakySneaky.Foundation

/-! ## The class -/

inductive Facing where
  | front | left | right | back
  deriving DecidableEq

/-- `healthBar` is the text of the bar, if there is one, and `animated` the choice between the two materials
    of a direction; `markers` are the places clicked on, newest first. -/
structure PersonNode where
  person : Person
  position : Vector3
  velocity : Vector3
  direction : Vector3
  path : List Vector3
  healthBar : Option String
  searchLight : Bool
  facing : Facing
  animated : Bool
  markers : List Vector3
  deriving DecidableEq

structure Rotations where
  /-- `Quaternion(start, end).YawAngle()`, in degrees. -/
  yawAngle : Vector3 → Vector3 → ℚ
  /-- The way that an offset of the joystick points on a node with some direction, at most 1 long. -/
  steer : Vector3 → Vector3 → Vector3

/-- What `Update` reads.  `touching` leaves out touches on the UI, `axes` are those of the current joystick, if it
    is there, and `pointed` is what the ray under the pointer hits. -/
structure PersonFrame where
  timeStep : ℚ
  nodeDirection : Vector3
  isMouseVisible : Bool
  touching : Bool
  currentJoystick : ℤ
  axes : Option (ℚ × ℚ)
  mouseButtonDown : Bool
  mouseButtonPress : Bool
  pointed : Option Vector3
  navMesh : NavigationMesh
  later : List String

namespace PersonFrame

variable (rotations : Rotations) (frame : PersonFrame)

def controls : Bool := frame.isMouseVisible || frame.currentJoystick ≠ -1 || frame.touching

/-- The joystick has a dead zone of a quarter. -/
def joyMove : Option Vector3 :=
  frame.axes.bind fun (x, y) =>
    if 1 / 16 < x * x + y * y then some (rotations.steer ⟨-x, 0, -y⟩ frame.nodeDirection) else none

/-- The player is sent somewhere. -/
def commands : Bool :=
  frame.controls && ((frame.joyMove rotations).isSome || (frame.currentJoystick = -1 && !frame.isMouseVisible) ||
    frame.mouseButtonDown || frame.mouseButtonPress)

end PersonFrame

namespace PersonNode

def moveSpeed : ℚ := 2

/-- `LoadLevel` and the constructor. -/
def create (position : Vector3) : PersonNode where
  person := .create
  position := position
  velocity := .zero
  direction := .zero
  path := []
  healthBar := none
  searchLight := false
  facing := .front
  animated := false
  markers := []

def setPath (node : PersonNode) (path : List Vector3) : PersonNode := { node with path := path }

def takeDamage (node : PersonNode) (damage : ℚ) : PersonNode :=
  { node with person := (node.person.takeDamage damage).1 }

/-! ## `Update` -/

def showsHealth (node : PersonNode) : PersonNode :=
  let healthBar :=
    if node.person.showHealth && node.healthBar.isNone then some "Player Health: UNKNOWN"
    else if node.healthBar.isSome && !node.person.showHealth then none
    else node.healthBar
  { node with
    healthBar := healthBar.map fun _ =>
      "Player Health: " ++ (roundAway (node.person.health * 100)).repr ++ "%" }

/-- `none` is the NULL pointer to the node of a room without a floor. -/
def searches (node : PersonNode) (files : LevelFiles) (nodes : List SceneNode) : Option PersonNode :=
  (Person.roomNode nodes node.position).map fun room => { node with searchLight := files.dark room }

/-- Where the pointer or the joystick sends the player. -/
def target (node : PersonNode) (rotations : Rotations) (frame : PersonFrame) : Vector3 :=
  match frame.joyMove rotations with
  | some offset => node.position + offset * (1 / 4 : ℚ)
  | none =>
    match frame.pointed with
    | some hit => if frame.currentJoystick = -1 then hit.horizontal else node.position + node.direction
    | none => node.position + node.direction

def obey (node : PersonNode) (rotations : Rotations) (frame : PersonFrame) : PersonNode :=
  if frame.commands rotations then
    let meshTarget := frame.navMesh.findNearestPoint (node.target rotations frame) ⟨1, 1 / 100, 1⟩
    { node with
      markers := if frame.mouseButtonPress then meshTarget :: node.markers else node.markers
      path := (frame.navMesh.findPath node.position meshTarget).tail }
  else node

def look (node : PersonNode) (normalize : Normalization) (frame : PersonFrame) (target : Vector3) : PersonNode :=
  if frame.controls then
    { node with direction := normalize.apply (node.path.headD target - node.position).horizontal }
  else node

def facingAt (angle : ℚ) : Facing :=
  if angle < -120 ∨ 120 < angle then .front
  else if angle < -60 then .left
  else if 60 < angle then .right
  else .back

def face (node : PersonNode) (rotations : Rotations) (frame : PersonFrame) : PersonNode :=
  { node with
    facing := facingAt (rotations.yawAngle frame.nodeDirection node.direction)
    animated := !node.path.isEmpty }

/-- Near enough to a point to go on to the next. -/
def arrives (node : PersonNode) (next : Vector3) (timeStep : ℚ) : Bool :=
  let distance := (next - node.position).horizontal.lengthSquared
  distance < 1 / 4 * (1 / 4) || distance < moveSpeed * moveSpeed * timeStep * timeStep

def walk (node : PersonNode) (normalize : Normalization) (timeStep : ℚ) : PersonNode :=
  match node.path with
  | [] => { node with velocity := .zero }
  | next :: rest =>
    { node with
      path := if node.arrives next timeStep then rest else next :: rest
      velocity := normalize.apply (next - node.position).horizontal * moveSpeed }

/-- `Update` once the room is known. -/
def move (node : PersonNode) (normalize : Normalization) (rotations : Rotations) (frame : PersonFrame) : PersonNode :=
  let looking := (node.obey rotations frame).look normalize frame (node.target rotations frame)
  (looking.face rotations frame).walk normalize frame.timeStep

def update (normalize : Normalization) (rotations : Rotations) (files : LevelFiles) (image : LevelImage)
    (node : PersonNode) (frame : PersonFrame) : Option PersonNode :=
  (node.showsHealth.searches files (image.sceneNodes ++ frame.later.map .later)).map (·.move normalize rotations frame)

end PersonNode

/-! ## Runs -/

/-- `moved` is what the physics does between two updates. -/
inductive PersonEvent where
  | moved (position velocity : Vector3)
  | setPath (path : List Vector3)
  | showHealth
  | takeDamage (damage : ℚ)
  | update (frame : PersonFrame)

namespace PersonNode

section Steps

variable (normalize : Normalization) (rotations : Rotations) (files : LevelFiles) (image : LevelImage)

def step (node : PersonNode) : PersonEvent → Option PersonNode
  | .moved position velocity => some { node with position := position, velocity := velocity }
  | .setPath path => some (node.setPath path)
  | .showHealth => some { node with person := { node.person with showHealth := true } }
  | .takeDamage damage => some (node.takeDamage damage)
  | .update frame => node.update normalize rotations files image frame

def runFrom (start : Option PersonNode) (events : List PersonEvent) : Option PersonNode :=
  run (fun outcome event => outcome.bind (step normalize rotations files image · event)) start events

/-- Nobody sends the player anywhere else, and no frame is so long that the player covers 1.6 m in it. -/
def Uncommanded : PersonEvent → Prop
  | .setPath _ => False
  | .update frame =>
    frame.commands rotations = false ∧ Unlisted frame.later ∧ 0 ≤ frame.timeStep ∧ frame.timeStep ≤ 4 / 5
  | .moved _ _ | .showHealth | .takeDamage _ => True

instance : ∀ event, Decidable (Uncommanded rotations event)
  | .setPath _ => inferInstanceAs (Decidable False)
  | .update frame => inferInstanceAs (Decidable (frame.commands rotations = false ∧ Unlisted frame.later ∧
      0 ≤ frame.timeStep ∧ frame.timeStep ≤ 4 / 5))
  | .moved _ _ | .showHealth | .takeDamage _ => inferInstanceAs (Decidable True)

end Steps

/-! ## Using up a path -/

section Paths

variable {normalize : Normalization} {rotations : Rotations} {files : LevelFiles} {image : LevelImage}
  {node next reached : PersonNode}

@[simp] theorem runFrom_cons (node : PersonNode) (event : PersonEvent) (events : List PersonEvent) :
    runFrom normalize rotations files image (some node) (event :: events) =
      runFrom normalize rotations files image (node.step normalize rotations files image event) events := rfl

theorem runFrom_none (events : List PersonEvent) : runFrom normalize rotations files image none events = none := by
  induction events with
  | nil => rfl
  | cons event events inductionHypothesis => exact inductionHypothesis

/-- A run that gets somewhere takes its first step. -/
theorem runFrom_cons_eq_some {event : PersonEvent} {events : List PersonEvent}
    (ran : runFrom normalize rotations files image (some node) (event :: events) = some reached) :
    ∃ next, node.step normalize rotations files image event = some next ∧
      runFrom normalize rotations files image (some next) events = some reached := by
  rw [runFrom_cons] at ran
  cases stepped : node.step normalize rotations files image event with
  | none =>
    rw [stepped, runFrom_none] at ran
    cases ran
  | some next => exact ⟨next, rfl, by rw [← stepped, ran]⟩

theorem walk_spec (node : PersonNode) (normalize : Normalization) (timeStep : ℚ) :
    (node.walk normalize timeStep).searchLight = node.searchLight ∧
      ((node.walk normalize timeStep).path = node.path ∨
        ∃ point, node.path = point :: (node.walk normalize timeStep).path ∧ node.arrives point timeStep = true) := by
  rw [walk]
  split
  · exact ⟨rfl, .inl rfl⟩
  · rename_i point rest ahead
    refine ⟨rfl, ?_⟩
    by_cases arrived : node.arrives point timeStep = true
    · exact .inr ⟨point, by rw [ahead, if_pos arrived], arrived⟩
    · refine .inl ?_
      show (if node.arrives point timeStep = true then rest else point :: rest) = node.path
      rw [if_neg arrived, ahead]

/-- A frame without a command takes at most one point from the path. -/
theorem move_spec {frame : PersonFrame} (uncommanded : frame.commands rotations = false) (node : PersonNode)
    (normalize : Normalization) :
    (node.move normalize rotations frame).searchLight = node.searchLight ∧
      ((node.move normalize rotations frame).path = node.path ∨
        ∃ point, node.path = point :: (node.move normalize rotations frame).path ∧
          node.arrives point frame.timeStep = true) := by
  have obeyed : node.obey rotations frame = node := by
    rw [obey, uncommanded]
    rfl
  have turned : ∃ direction, node.look normalize frame (node.target rotations frame) =
      { node with direction := direction } := by
    rw [look]
    split
    · exact ⟨_, rfl⟩
    · exact ⟨node.direction, rfl⟩
  obtain ⟨direction, looked⟩ := turned
  rw [move, obeyed, looked]
  exact walk_spec (({ node with direction := direction } : PersonNode).face rotations frame) normalize frame.timeStep

/-- It also shows whether the room is dark. -/
theorem update_spec {frame : PersonFrame} (uncommanded : frame.commands rotations = false)
    (unlisted : Unlisted frame.later) (updated : node.update normalize rotations files image frame = some next) :
    (∃ tile, image.tileAt (roundToRoom node.position) = some tile ∧ next.searchLight = files.dark (.floor tile)) ∧
      (next.path = node.path ∨
        ∃ point, node.path = point :: next.path ∧ node.arrives point frame.timeStep = true) := by
  have looked := getChild_room image unlisted (roundToRoom node.position)
  have room : Person.room node.showsHealth.position = roundToRoom node.position := rfl
  rw [update, searches, Person.roomNode, room, looked, Option.map_map, Option.map_map] at updated
  obtain ⟨tile, found, rfl⟩ := Option.map_eq_some_iff.mp updated
  obtain ⟨light, path⟩ := move_spec uncommanded
    { node.showsHealth with searchLight := files.dark (.floor tile) } normalize
  exact ⟨⟨tile, found, light⟩, path⟩

theorem near_of_arrives {point : Vector3} {timeStep : ℚ} (arrived : node.arrives point timeStep = true)
    (forward : 0 ≤ timeStep) (short : timeStep ≤ 4 / 5) :
    (point - node.position).horizontal.lengthSquared < 64 / 25 := by
  have square : timeStep * timeStep ≤ 4 / 5 * (4 / 5) := mul_le_mul short short forward (by norm_num)
  rw [arrives, Bool.or_eq_true, decide_eq_true_iff, decide_eq_true_iff] at arrived
  obtain near | inOneFrame := arrived
  · linarith
  · have way : moveSpeed * moveSpeed * timeStep * timeStep = 4 * (timeStep * timeStep) := by
      rw [moveSpeed]
      ring
    linarith

/-- The last point of a path that is used up was reached at an update. -/
theorem reaches_last {points : List Vector3} {last : Vector3} (ahead : node.path = points ++ [last])
    {events : List PersonEvent} (uncommanded : ∀ event ∈ events, Uncommanded rotations event)
    (ran : runFrom normalize rotations files image (some node) events = some reached) (usedUp : reached.path = []) :
    ∃ before frame after between,
      events = before ++ .update frame :: after ∧
        runFrom normalize rotations files image (some node) before = some between ∧
        between.arrives last frame.timeStep = true := by
  induction events generalizing node points with
  | nil =>
    cases ran
    rw [ahead] at usedUp
    cases List.append_ne_nil_of_right_ne_nil points (List.cons_ne_nil last []) usedUp
  | cons event events inductionHypothesis =>
    obtain ⟨first, rest⟩ := List.forall_mem_cons.mp uncommanded
    obtain ⟨next, stepped, ranOn⟩ := runFrom_cons_eq_some ran
    -- What is found in the rest of the run is found in the run.
    have later : ∀ {points}, next.path = points ++ [last] → ∃ before frame after between,
        event :: events = before ++ .update frame :: after ∧
          runFrom normalize rotations files image (some node) before = some between ∧
          between.arrives last frame.timeStep = true := by
      intro points aheadNext
      obtain ⟨before, frame, after, between, split, reachedBetween, arrived⟩ :=
        inductionHypothesis aheadNext rest ranOn
      exact ⟨event :: before, frame, after, between, by rw [split]; rfl,
        by rw [runFrom_cons, stepped, reachedBetween], arrived⟩
    cases event with
    | setPath path => exact first.elim
    | moved position velocity | showHealth | takeDamage damage =>
      cases stepped
      exact later ahead
    | update frame =>
      obtain ⟨-, stays | ⟨point, taken, arrived⟩⟩ := update_spec first.1 first.2.1 stepped
      · exact later (stays.trans ahead)
      · rw [ahead] at taken
        cases points with
        | nil =>
          obtain ⟨rfl, -⟩ := List.cons_eq_cons.mp taken
          exact ⟨[], frame, events, node, rfl, rfl, arrived⟩
        | cons head points => exact later (List.cons_eq_cons.mp taken).2.symm

end Paths

end PersonNode

/-! ## Through a door -/

/-- The second point of a door's path is far enough from the sides of the room that it is in. -/
structure WellInside (tile : FloorTile) (position : Vector3) : Prop where
  x : |position.x - 11 * tile.x| ≤ 39 / 10
  z : |position.z - 11 * tile.y| ≤ 39 / 10

theorem WellInside.contains {tile : FloorTile} {point position : Vector3} (wellInside : WellInside tile point)
    (near : (point - position).horizontal.lengthSquared < 64 / 25) : tile.Contains position := by
  simp only [Vector3.lengthSquared, Vector3.horizontal, Vector3.sub_x, Vector3.sub_z] at near
  have squareX := mul_self_nonneg (point.x - position.x)
  have squareZ := mul_self_nonneg (point.z - position.z)
  have offX : |point.x - position.x| < 8 / 5 := abs_lt_of_sq_lt_sq (by linarith) (by norm_num)
  have offZ : |point.z - position.z| < 8 / 5 := abs_lt_of_sq_lt_sq (by linarith) (by norm_num)
  obtain ⟨leftX, rightX⟩ := abs_le.mp wellInside.x
  obtain ⟨leftZ, rightZ⟩ := abs_le.mp wellInside.z
  rw [abs_lt] at offX offZ
  constructor
  · exact abs_lt.mpr ⟨by linarith, by linarith⟩
  · exact abs_lt.mpr ⟨by linarith, by linarith⟩

/-- A point 1.6 m beyond the line between two rooms is 3.9 m from the middle of the one that it is in. -/
theorem across_le {line room : ℤ} {unit : ℚ} (direction : unit = 1 ∨ unit = -1)
    (inside : |-(11 / 2) + ((2 * line : ℤ) : ℚ) * (11 / 2) + unit * (8 / 5) - 11 * room| < 11 / 2) :
    |-(11 / 2) + ((2 * line : ℤ) : ℚ) * (11 / 2) + unit * (8 / 5) - 11 * room| ≤ 39 / 10 := by
  push_cast at inside ⊢
  obtain ⟨above, below⟩ := abs_lt.mp inside
  obtain rfl | rfl := direction
  · have above : (room : ℚ) < line + 1 := by linarith
    have below : (line : ℚ) < room + 1 := by linarith
    have above : room < line + 1 := by exact_mod_cast above
    have below : line < room + 1 := by exact_mod_cast below
    obtain rfl : line = room := by omega
    exact abs_le.mpr ⟨by linarith, by linarith⟩
  · have above : (room : ℚ) < line := by linarith
    have below : (line : ℚ) < room + 2 := by linarith
    have above : room < line := by exact_mod_cast above
    have below : line < room + 2 := by exact_mod_cast below
    obtain rfl : line = room + 1 := by omega
    push_cast
    exact abs_le.mpr ⟨by linarith, by linarith⟩

/-- Along the line, a point of the grid is in the middle of the room that it is in. -/
theorem along_le {line room : ℤ}
    (inside : |-(11 / 2) + ((2 * line + 1 : ℤ) : ℚ) * (11 / 2) + 0 * (8 / 5) - 11 * room| < 11 / 2) :
    |-(11 / 2) + ((2 * line + 1 : ℤ) : ℚ) * (11 / 2) + 0 * (8 / 5) - 11 * room| ≤ 39 / 10 := by
  push_cast at inside ⊢
  obtain ⟨above, below⟩ := abs_lt.mp inside
  have above : (room : ℚ) < line + 1 := by linarith
  have below : (line : ℚ) < room + 1 := by linarith
  have above : room < line + 1 := by exact_mod_cast above
  have below : line < room + 1 := by exact_mod_cast below
  obtain rfl : line = room := by omega
  exact abs_le.mpr ⟨by linarith, by linarith⟩

theorem LeadsThrough.wellInside {image : LevelImage} {w : Wall} (built : w ∈ image.walls) {here there : FloorTile}
    {position : Vector3} {path : List Vector3} (leads : LeadsThrough w here there position path) :
    ∃ first last, path = [first, last] ∧ WellInside there last := by
  obtain ⟨direction, axis, path, -, inside⟩ := leads.straight
  refine ⟨_, _, path, ?_⟩
  obtain ⟨⟨x, y⟩, visited, -, place, rotated⟩ := LevelImage.mem_walls built
  have parity : x % 2 ≠ y % 2 := of_decide_eq_true (List.mem_filter.mp visited).2
  rw [rotated] at axis
  rw [place] at inside ⊢
  obtain ⟨insideX, insideZ⟩ := inside
  by_cases odd : y % 2 ≠ 0
  · -- The wall stands between two rooms side by side.
    obtain ⟨column, rfl⟩ : ∃ column, x = 2 * column := ⟨x / 2, by omega⟩
    obtain ⟨row, rfl⟩ : ∃ row, y = 2 * row + 1 := ⟨y / 2, by omega⟩
    rw [if_pos (by simp)] at axis
    obtain rfl | rfl := axis
    · exact ⟨across_le (.inl rfl) insideX, along_le insideZ⟩
    · exact ⟨across_le (.inr rfl) insideX, along_le insideZ⟩
  · obtain ⟨column, rfl⟩ : ∃ column, x = 2 * column + 1 := ⟨x / 2, by omega⟩
    obtain ⟨row, rfl⟩ : ∃ row, y = 2 * row := ⟨y / 2, by omega⟩
    rw [if_neg (by simp)] at axis
    obtain rfl | rfl := axis
    · exact ⟨along_le insideX, across_le (.inl rfl) insideZ⟩
    · exact ⟨along_le insideX, across_le (.inr rfl) insideZ⟩

/-- A player sent through a wall who walks on without a command, through whatever the physics does, has been in the
    other room at an update by the time the path is used up, and was shown that room's light. -/
theorem walks_through_door (normalize : Normalization) (rotations : Rotations) (files : LevelFiles)
    (image : LevelImage) (w : Wall) (built : w ∈ image.doors) (here there : FloorTile)
    (created : there ∈ image.floorTiles) (node : PersonNode) (doorway : Doorway)
    (leads : LeadsThrough w here there node.position
      (Door.handleNodeCollisionStart doorway true w.position node.position).personPath)
    (events : List PersonEvent) (uncommanded : ∀ event ∈ events, PersonNode.Uncommanded rotations event)
    (reached : PersonNode)
    (ran : PersonNode.runFrom normalize rotations files image
      (some (node.setPath (Door.handleNodeCollisionStart doorway true w.position node.position).personPath)) events =
        some reached)
    (usedUp : reached.path = []) :
    ∃ before frame after between next,
      events = before ++ .update frame :: after ∧
        PersonNode.runFrom normalize rotations files image
          (some (node.setPath (Door.handleNodeCollisionStart doorway true w.position node.position).personPath))
          before = some between ∧
        there.Contains between.position ∧
        between.update normalize rotations files image frame = some next ∧
        next.searchLight = files.dark (.floor there) := by
  obtain ⟨first, last, path, wellInside⟩ := leads.wellInside (List.mem_of_mem_filter built)
  rw [path] at ran ⊢
  have ahead : (node.setPath [first, last]).path = [first] ++ [last] := rfl
  obtain ⟨before, frame, after, between, split, reachedBetween, arrived⟩ :=
    PersonNode.reaches_last ahead uncommanded ran usedUp
  have occurs : PersonEvent.update frame ∈ events := split ▸ List.mem_append_right before List.mem_cons_self
  obtain ⟨silent, unlisted, forward, short⟩ := uncommanded (.update frame) occurs
  have inside : there.Contains between.position :=
    wellInside.contains (PersonNode.near_of_arrives arrived forward short)
  rw [split, PersonNode.runFrom, run_append] at ran
  rw [PersonNode.runFrom] at reachedBetween
  rw [reachedBetween] at ran
  obtain ⟨next, stepped, -⟩ := PersonNode.runFrom_cons_eq_some ran
  obtain ⟨⟨tile, found, light⟩, -⟩ := PersonNode.update_spec silent unlisted stepped
  rw [LevelImage.tileAt_room created inside] at found
  obtain rfl := Option.some_inj.mp found
  exact ⟨before, frame, after, between, next, split, reachedBetween, inside, stepped, light⟩

namespace WalkExamples

def rotations : Rotations := ⟨fun _ _ => 0, fun offset _ => offset⟩

def files : LevelFiles := ⟨⟨fun _ => false, fun _ => 0, fun _ => ⟨0, 0⟩, fun _ => .zero⟩, none, fun _ _ => none⟩

/-- A frame in which nobody touches anything. -/
def frame : PersonFrame where
  timeStep := 1 / 10
  nodeDirection := ⟨0, 0, 1⟩
  isMouseVisible := false
  touching := false
  currentJoystick := -1
  axes := none
  mouseButtonDown := false
  mouseButtonPress := false
  pointed := none
  navMesh := PatrolExamples.openFloor
  later := []

def twoRooms : LevelImage := ⟨5, 3, fun _ _ => .red⟩

def door : Wall := ⟨(2, 1), ⟨11 / 2, 0, 0⟩, true, .door⟩

/-- The player in the corner of the door's trigger. -/
def player : PersonNode := .create ⟨13 / 2, 0, 1⟩

def walk : List PersonEvent :=
  [.update frame, .moved ⟨32 / 5, 0, 1 / 10⟩ .zero, .update frame, .moved ⟨4, 0, 1 / 10⟩ .zero, .update frame]

def walked : PersonNode where
  person := .create
  position := ⟨4, 0, 1 / 10⟩
  velocity := ⟨-1, 0, -1⟩
  direction := .zero
  path := []
  healthBar := none
  searchLight := false
  facing := .back
  animated := true
  markers := []

end WalkExamples

open WalkExamples in
theorem walks_through_door_corner :
    ∃ before frame after between next,
      walk = before ++ .update frame :: after ∧
        PersonNode.runFrom .alongAxes rotations files twoRooms
          (some (player.setPath
            (Door.handleNodeCollisionStart ⟨.zero, []⟩ true door.position player.position).personPath))
          before = some between ∧
        (⟨0, 0, .red⟩ : FloorTile).Contains between.position ∧
        between.update .alongAxes rotations files twoRooms frame = some next ∧
        next.searchLight = files.dark (.floor ⟨0, 0, .red⟩) :=
  walks_through_door .alongAxes rotations files twoRooms door (by decide +kernel) ⟨1, 0, .red⟩ ⟨0, 0, .red⟩
    (by decide +kernel) player ⟨.zero, []⟩
    ⟨⟨by norm_num [player, PersonNode.create, abs_lt], by norm_num [player, PersonNode.create, abs_lt]⟩, ⟨-1, 0, 0⟩,
      by simp [door], by decide +kernel,
      ⟨by norm_num [door, abs_lt], by norm_num [door, abs_lt]⟩,
      ⟨by norm_num [door, abs_lt], by norm_num [door, abs_lt]⟩⟩
    walk (by decide +kernel) walked (by decide +kernel) rfl

end SneakySneaky
