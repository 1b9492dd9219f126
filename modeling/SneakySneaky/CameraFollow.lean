import SneakySneaky.Foundation.Smoothing
import SneakySneaky.Game
import SneakySneaky.RoomVars

/-! # `CameraController`

The camera turns and moves towards the room of the player, and slides a panel with the name
of the room into view.  It reads the name only when the player has changed rooms, and only
then follows the pointer to the room's node.  Positions, angles and times are exact. -/

namespace SneakySneaky

open SneakySneaky.Foundation

/-! ## The class -/

/-- `panelY` is the position of the panel in pixels and `position` that of the camera's node. -/
structure CameraController where
  cameraRoom : IntVector2
  cameraYaw : ℚ
  targetCameraYaw : ℚ
  showPanel : Bool
  panelYPosition : ℚ
  panelY : ℤ
  label : String
  position : Vector3
  deriving DecidableEq

/-- What `Update` reads.  `buttonPress` is `GetButtonPress` of the current joystick, if it is there, `later` the
    names of the nodes that components have added to the scene, and `direction` that of the camera's node. -/
structure CameraFrame where
  timeStep : ℚ
  personPosition : Vector3
  currentJoystick : ℤ
  buttonPress : Option (ℕ → Bool)
  keyPressQ : Bool
  keyPressE : Bool
  isDeveloper : Bool
  keyDownW : Bool
  direction : Vector3
  pixelRatio : ℚ
  later : List String

namespace CameraFrame

variable (frame : CameraFrame)

def rotateLeft : Bool := frame.buttonPress.elim false (· 9) || frame.keyPressQ

def rotateRight : Bool := frame.buttonPress.elim false (· 10) || frame.keyPressE

def looksAhead : Bool := frame.isDeveloper && frame.keyDownW

def room : IntVector2 := CameraController.room frame.personPosition

/-- Where the camera goes: the centre of the room, or for developers a place ahead of it. -/
def target : Vector3 :=
  let position : Vector3 := ⟨frame.room.x * 11, 0, frame.room.y * 11⟩
  if frame.looksAhead then position + frame.direction * (11 / 2 : ℚ) + ⟨0, 2, 0⟩ else position

end CameraFrame

namespace CameraController

/-- `LoadLevel`, the constructor and `DelayedStart`. -/
def delayedStart (files : LevelFiles) (nodes : List SceneNode) (personPosition : Vector3) :
    Option CameraController :=
  (roomNode nodes personPosition).map fun node =>
    { cameraRoom := room personPosition
      cameraYaw := 0
      targetCameraYaw := 0
      showPanel := (files.label node).isSome
      panelYPosition := 50
      panelY := 50
      label := (files.label node).getD ""
      position := personPosition + ⟨0, 5, -5⟩ }

/-! ## `Update` -/

def rotate (camera : CameraController) (frame : CameraFrame) : ℚ :=
  let yaw := if frame.rotateLeft then camera.targetCameraYaw - 90 else camera.targetCameraYaw
  if frame.rotateRight then yaw + 90 else yaw

def turn (camera : CameraController) (frame : CameraFrame) : CameraController :=
  { camera with
    targetCameraYaw :=
      if frame.currentJoystick ≠ -1 then camera.rotate frame
      else if frame.room.x < camera.cameraRoom.x then -90
      else if camera.cameraRoom.x < frame.room.x then 90
      else if frame.room.y < camera.cameraRoom.y then 180
      else if camera.cameraRoom.y < frame.room.y then 0
      else camera.rotate frame }

def display (camera : CameraController) (roomName : Option String) : CameraController :=
  { camera with showPanel := roomName.isSome, label := roomName.getD camera.label }

/-- The pointer to the room's node is followed unchecked, but only after a change of rooms. -/
def enter (camera : CameraController) (files : LevelFiles) (nodes : List SceneNode) (frame : CameraFrame) :
    Option CameraController :=
  if frame.room ≠ camera.cameraRoom then
    (roomNode nodes frame.personPosition).map fun node => camera.display (files.label node)
  else some camera

def slide (camera : CameraController) (timeStep : ℚ) : ℚ :=
  if camera.showPanel && 0 < camera.panelYPosition then camera.panelYPosition - timeStep * 50
  else if !camera.showPanel && camera.panelYPosition < 50 then camera.panelYPosition + timeStep * 50
  else camera.panelYPosition

def approach (camera : CameraController) (frame : CameraFrame) : CameraController :=
  { camera with
    panelYPosition := camera.slide frame.timeStep
    panelY := Game.toInt (camera.slide frame.timeStep * frame.pixelRatio)
    cameraRoom := frame.room
    cameraYaw := camera.cameraYaw + (camera.targetCameraYaw - camera.cameraYaw) * 5 * frame.timeStep
    position := camera.position + (frame.target - camera.position) * (2 : ℚ) * frame.timeStep }

/-- `none` is the NULL pointer to the node of a room without a floor. -/
def update (files : LevelFiles) (image : LevelImage) (camera : CameraController) (frame : CameraFrame) :
    Option CameraController :=
  ((camera.turn frame).enter files (image.sceneNodes ++ frame.later.map .later) frame).map (·.approach frame)

def runFrom (files : LevelFiles) (image : LevelImage) (start : Option CameraController)
    (frames : List CameraFrame) : Option CameraController :=
  run (fun outcome frame => outcome.bind (update files image · frame)) start frames

def runAll (files : LevelFiles) (image : LevelImage) (frames : List CameraFrame) : Option CameraController :=
  runFrom files image (delayedStart files image.sceneNodes image.personPosition) frames

/-! ## One step -/

/-- The camera knows the player's room, and the panel shows its name. -/
structure Shows (files : LevelFiles) (tile : FloorTile) (camera : CameraController) : Prop where
  room : camera.cameraRoom = ⟨tile.x, tile.y⟩
  panel : camera.showPanel = (files.label (.floor tile)).isSome
  text : ∀ name, files.label (.floor tile) = some name → camera.label = name

variable {files : LevelFiles} {image : LevelImage} {camera : CameraController} {here tile : FloorTile}
  {frame : CameraFrame}

theorem Shows.display (shows : Shows files here camera) : camera.display (files.label (.floor here)) = camera := by
  rw [CameraController.display, ← shows.panel]
  have text : (files.label (.floor here)).getD camera.label = camera.label := by
    cases named : files.label (.floor here) with
    | none => rfl
    | some name => exact (shows.text name named).symm
  rw [text]

/-- The camera follows the pointer in every case but that of the room it knows, which is there. -/
theorem Shows.update_eq (shows : Shows files here camera) (created : here ∈ image.floorTiles)
    (unlisted : Unlisted frame.later) :
    camera.update files image frame = (image.tileAt frame.room).map fun tile =>
      ((camera.turn frame).display (files.label (.floor tile))).approach frame := by
  have entered : (camera.turn frame).enter files (image.sceneNodes ++ frame.later.map .later) frame =
      (image.tileAt frame.room).map fun tile => (camera.turn frame).display (files.label (.floor tile)) := by
    have turned : Shows files here (camera.turn frame) := ⟨shows.room, shows.panel, shows.text⟩
    by_cases same : frame.room = (camera.turn frame).cameraRoom
    · have known : image.tileAt frame.room = some here :=
        LevelImage.tileAt_eq_some.mpr ⟨created, same.trans turned.room⟩
      rw [known, Option.map_some, turned.display, enter, if_neg (not_not_intro same)]
    · have looked := getChild_room image unlisted frame.room
      rw [enter, if_pos same, roomNode, show CameraController.room frame.personPosition = frame.room from rfl,
        looked, Option.map_map]
      rfl
  rw [update, entered, Option.map_map]
  rfl

theorem shows_display (found : image.tileAt frame.room = some tile) :
    Shows files tile ((camera.display (files.label (.floor tile))).approach frame) := by
  refine ⟨(LevelImage.tileAt_eq_some.mp found).2, rfl, fun name named => ?_⟩
  show (files.label (.floor tile)).getD camera.label = name
  rw [named]
  rfl

/-- The angle that the camera turns to is that of a wall. -/
def Squared (camera : CameraController) : Prop := ∃ quarter : ℤ, camera.targetCameraYaw = 90 * quarter

theorem Squared.turn (squared : Squared camera) (frame : CameraFrame) : Squared (camera.turn frame) := by
  have rotated : ∃ quarter : ℤ, camera.rotate frame = 90 * quarter := by
    obtain ⟨quarter, yaw⟩ := squared
    rw [rotate, yaw]
    cases frame.rotateLeft with
    | true =>
      cases frame.rotateRight with
      | true => exact ⟨quarter, by simp⟩
      | false => exact ⟨quarter - 1, by push_cast; simp; ring⟩
    | false =>
      cases frame.rotateRight with
      | true => exact ⟨quarter + 1, by push_cast; simp; ring⟩
      | false => exact ⟨quarter, by simp⟩
  rw [Squared, CameraController.turn]
  simp only
  split
  · exact rotated
  split
  · exact ⟨-1, by norm_num⟩
  split
  · exact ⟨1, by norm_num⟩
  split
  · exact ⟨2, by norm_num⟩
  split
  · exact ⟨0, by norm_num⟩
  · exact rotated

/-- The panel is in its place or out of view, give or take the way of one frame. -/
def Hinged (slack : ℚ) (camera : CameraController) : Prop :=
  -slack ≤ camera.panelYPosition ∧ camera.panelYPosition ≤ 50 + slack

theorem slide_hinged {slack : ℚ} (hinged : Hinged slack camera) (forward : 0 ≤ frame.timeStep)
    (short : frame.timeStep * 50 ≤ slack) :
    -slack ≤ camera.slide frame.timeStep ∧ camera.slide frame.timeStep ≤ 50 + slack := by
  obtain ⟨low, high⟩ := hinged
  rw [slide]
  split
  · rename_i up
    have below : 0 < camera.panelYPosition := by
      have both := Bool.and_eq_true_iff.mp up
      exact of_decide_eq_true both.2
    constructor <;> linarith
  split
  · rename_i down
    have above : camera.panelYPosition < 50 := by
      have both := Bool.and_eq_true_iff.mp down
      exact of_decide_eq_true both.2
    constructor <;> linarith
  · exact ⟨low, high⟩

/-- The camera's node is over the rooms of the level, or where it started from. -/
structure Over (image : LevelImage) (position : Vector3) : Prop where
  x : 0 ≤ position.x ∧ position.x ≤ 11 * ((image.floorWidth : ℚ) - 1)
  y : 0 ≤ position.y ∧ position.y ≤ 5
  z : -5 ≤ position.z ∧ position.z ≤ 11 * ((image.floorHeight : ℚ) - 1)

theorem approach_position_x (camera : CameraController) (frame : CameraFrame) :
    (camera.approach frame).position.x = follow frame.target.x camera.position.x (2 * frame.timeStep) := by
  simp only [approach, follow, Vector3.add_x, Vector3.mul_x, Vector3.sub_x]
  ring

theorem approach_position_y (camera : CameraController) (frame : CameraFrame) :
    (camera.approach frame).position.y = follow frame.target.y camera.position.y (2 * frame.timeStep) := by
  simp only [approach, follow, Vector3.add_y, Vector3.mul_y, Vector3.sub_y]
  ring

theorem approach_position_z (camera : CameraController) (frame : CameraFrame) :
    (camera.approach frame).position.z = follow frame.target.z camera.position.z (2 * frame.timeStep) := by
  simp only [approach, follow, Vector3.add_z, Vector3.mul_z, Vector3.sub_z]
  ring

theorem approach_cameraYaw (camera : CameraController) (frame : CameraFrame) :
    (camera.approach frame).cameraYaw = follow camera.targetCameraYaw camera.cameraYaw (5 * frame.timeStep) := by
  simp only [approach, follow]
  ring

/-- The centre of a room of the level. -/
theorem target_eq (found : image.tileAt frame.room = some tile) (plain : frame.looksAhead = false) :
    frame.target = tile.position := by
  rw [CameraFrame.target, if_neg (by simp [plain]), (LevelImage.tileAt_eq_some.mp found).2]
  rfl

theorem Over.approach (within : Over image camera.position) (found : image.tileAt frame.room = some tile)
    (plain : frame.looksAhead = false) (forward : 0 ≤ frame.timeStep) (short : frame.timeStep ≤ 1 / 2) :
    Over image (camera.approach frame).position := by
  obtain ⟨⟨left, right⟩, ⟨near, far⟩, -⟩ :=
    LevelImage.mem_floorTiles (LevelImage.tileAt_eq_some.mp found).1
  have left : (0 : ℚ) ≤ tile.x := by exact_mod_cast left
  have near : (0 : ℚ) ≤ tile.y := by exact_mod_cast near
  have right : (tile.x : ℚ) ≤ image.floorWidth - 1 := by exact_mod_cast Int.le_sub_one_of_lt right
  have far : (tile.y : ℚ) ≤ image.floorHeight - 1 := by exact_mod_cast Int.le_sub_one_of_lt far
  have nonneg : 0 ≤ 2 * frame.timeStep := by linarith
  have le_one : 2 * frame.timeStep ≤ 1 := by linarith
  constructor
  · rw [approach_position_x, target_eq found plain, FloorTile.position]
    exact ⟨le_follow within.x.1 (by simp only; linarith) nonneg le_one,
      follow_le within.x.2 (by simp only; linarith) nonneg le_one⟩
  · rw [approach_position_y, target_eq found plain, FloorTile.position]
    exact ⟨le_follow within.y.1 (by norm_num) nonneg le_one, follow_le within.y.2 (by norm_num) nonneg le_one⟩
  · rw [approach_position_z, target_eq found plain, FloorTile.position]
    exact ⟨le_follow within.z.1 (by simp only; linarith) nonneg le_one,
      follow_le within.z.2 (by simp only; linarith) nonneg le_one⟩

/-! ## Runs -/

/-- A frame that is not too long for the camera to pass what it turns to. -/
structure Timely (frame : CameraFrame) : Prop where
  unlisted : Unlisted frame.later
  forward : 0 ≤ frame.timeStep
  short : frame.timeStep ≤ 1 / 5

instance (frame : CameraFrame) : Decidable (Timely frame) :=
  decidable_of_iff (Unlisted frame.later ∧ 0 ≤ frame.timeStep ∧ frame.timeStep ≤ 1 / 5)
    ⟨fun ⟨unlisted, forward, short⟩ => ⟨unlisted, forward, short⟩,
      fun timely => ⟨timely.unlisted, timely.forward, timely.short⟩⟩

/-- The longest of some frames. -/
def longest (frames : List CameraFrame) : ℚ := (frames.map (·.timeStep)).foldr max 0

theorem longest_nonneg (frames : List CameraFrame) : 0 ≤ longest frames := by
  induction frames with
  | nil => exact le_refl 0
  | cons frame frames inductionHypothesis => exact le_max_of_le_right inductionHypothesis

theorem le_longest {frames : List CameraFrame} (member : frame ∈ frames) : frame.timeStep ≤ longest frames := by
  induction frames with
  | nil => cases member
  | cons first frames inductionHypothesis =>
    cases List.mem_cons.mp member with
    | inl same =>
      subst same
      exact le_max_left _ _
    | inr later => exact le_max_of_le_right (inductionHypothesis later)

/-- What holds of a camera that has followed the player, who is over a tile; `slack` is a frame's way of the panel,
    and `plain` that no frame had the developer's look ahead. -/
structure Follows (files : LevelFiles) (image : LevelImage) (slack : ℚ) (plain : Prop) (tile : FloorTile)
    (camera : CameraController) : Prop where
  shows : Shows files tile camera
  squared : Squared camera
  hinged : Hinged slack camera
  within : plain → Over image camera.position

theorem Follows.step {slack : ℚ} {plain : Prop} (follows : Follows files image slack plain here camera)
    (created : here ∈ image.floorTiles) (timely : Timely frame) (short : frame.timeStep * 50 ≤ slack)
    (ahead : plain → frame.looksAhead = false) (found : image.tileAt frame.room = some tile) :
    ∃ next, camera.update files image frame = some next ∧ Follows files image slack plain tile next := by
  refine ⟨((camera.turn frame).display (files.label (.floor tile))).approach frame, ?_, shows_display found,
    follows.squared.turn frame, ?_, fun isPlain => ?_⟩
  · rw [follows.shows.update_eq created timely.unlisted, found, Option.map_some]
  · have hinged : Hinged slack ((camera.turn frame).display (files.label (.floor tile))) := follows.hinged
    exact slide_hinged hinged timely.forward short
  · have within : Over image ((camera.turn frame).display (files.label (.floor tile))).position :=
      follows.within isPlain
    exact within.approach found (ahead isPlain) timely.forward (by linarith [timely.short])

theorem runFrom_none (frames : List CameraFrame) : runFrom files image none frames = none := by
  induction frames with
  | nil => rfl
  | cons frame frames inductionHypothesis => exact inductionHypothesis

theorem Follows.run {slack : ℚ} {plain : Prop} (follows : Follows files image slack plain here camera)
    {position : Vector3} (known : image.tileAt (roundToRoom position) = some here) {frames : List CameraFrame}
    (timely : ∀ frame ∈ frames, Timely frame) (short : ∀ frame ∈ frames, frame.timeStep * 50 ≤ slack)
    (ahead : ∀ frame ∈ frames, plain → frame.looksAhead = false) :
    ((runFrom files image (some camera) frames).isSome = true ↔
        ∀ frame ∈ frames, (image.tileAt frame.room).isSome = true) ∧
      ∀ reached, runFrom files image (some camera) frames = some reached →
        ∃ tile, image.tileAt (roundToRoom ((frames.map (·.personPosition)).getLastD position)) = some tile ∧
          Follows files image slack plain tile reached := by
  induction frames generalizing camera here position with
  | nil =>
    refine ⟨by simp [runFrom], fun reached stays => ⟨here, known, ?_⟩⟩
    rw [← Option.some_inj.mp stays]
    exact follows
  | cons frame frames inductionHypothesis =>
    obtain ⟨first, rest⟩ := List.forall_mem_cons.mp timely
    obtain ⟨firstShort, restShort⟩ := List.forall_mem_cons.mp short
    obtain ⟨firstAhead, restAhead⟩ := List.forall_mem_cons.mp ahead
    have created := (LevelImage.tileAt_eq_some.mp known).1
    have stepped : runFrom files image (some camera) (frame :: frames) =
        runFrom files image (camera.update files image frame) frames := rfl
    rw [List.forall_mem_cons, List.map_cons, List.getLastD_cons, stepped]
    cases found : image.tileAt frame.room with
    | none =>
      rw [follows.shows.update_eq created first.unlisted, found, Option.map_none, runFrom_none]
      simp
    | some tile =>
      obtain ⟨next, updated, followsNext⟩ := follows.step created first firstShort firstAhead found
      obtain ⟨survives, reaches⟩ := inductionHypothesis followsNext found rest restShort restAhead
      rw [updated]
      exact ⟨survives.trans (by simp), reaches⟩

theorem tileAt_personPosition (found : image.tileAt (roundToRoom image.personPosition) = some tile) :
    image.personPosition = tile.position := by
  cases image.personPosition_cases with
  | inl placed =>
    obtain ⟨blue, created, -, placed⟩ := placed
    rw [placed, LevelImage.tileAt_room created blue.contains_position] at found
    rw [placed, Option.some_inj.mp found]
  | inr default =>
    have origin : roundToRoom .zero = ⟨0, 0⟩ := by decide +kernel
    rw [default.2, origin] at found
    obtain ⟨-, coordinates⟩ := LevelImage.tileAt_eq_some.mp found
    obtain ⟨sameX, sameY⟩ := IntVector2.mk.injEq _ _ _ _ ▸ coordinates
    rw [default.2, FloorTile.position, ← sameX, ← sameY]
    simp [Vector3.zero]

theorem delayedStart_eq (files : LevelFiles) (image : LevelImage) (personPosition : Vector3) :
    delayedStart files image.sceneNodes personPosition =
      (image.tileAt (roundToRoom personPosition)).map fun tile =>
        { cameraRoom := room personPosition
          cameraYaw := 0
          targetCameraYaw := 0
          showPanel := (files.label (.floor tile)).isSome
          panelYPosition := 50
          panelY := 50
          label := (files.label (.floor tile)).getD ""
          position := personPosition + ⟨0, 5, -5⟩ } := by
  have unlisted : Unlisted [] := fun name listed => absurd listed List.not_mem_nil
  have looked := getChild_room image unlisted (roundToRoom personPosition)
  rw [List.map_nil, List.append_nil] at looked
  rw [delayedStart, roomNode, room, looked, Option.map_map]
  rfl

theorem delayedStart_follows {slack : ℚ} (nonneg : 0 ≤ slack) (plain : Prop)
    (found : image.tileAt (roundToRoom image.personPosition) = some tile) :
    ∃ camera, delayedStart files image.sceneNodes image.personPosition = some camera ∧
      Follows files image slack plain tile camera := by
  refine ⟨_, by rw [delayedStart_eq, found, Option.map_some], ⟨?_, rfl, ?_⟩, ⟨0, by norm_num⟩, ?_, fun _ => ?_⟩
  · exact (LevelImage.tileAt_eq_some.mp found).2
  · intro name named
    rw [named]
    rfl
  · constructor <;> simp only <;> linarith
  · obtain ⟨⟨left, right⟩, ⟨near, far⟩, -⟩ :=
      LevelImage.mem_floorTiles (LevelImage.tileAt_eq_some.mp found).1
    have left : (0 : ℚ) ≤ tile.x := by exact_mod_cast left
    have near : (0 : ℚ) ≤ tile.y := by exact_mod_cast near
    have right : (tile.x : ℚ) ≤ image.floorWidth - 1 := by exact_mod_cast Int.le_sub_one_of_lt right
    have far : (tile.y : ℚ) ≤ image.floorHeight - 1 := by exact_mod_cast Int.le_sub_one_of_lt far
    rw [tileAt_personPosition found, FloorTile.position]
    constructor
    · constructor <;> simp only [Vector3.add_x] <;> linarith
    · constructor <;> norm_num
    · constructor <;> simp only [Vector3.add_z] <;> linarith

/-! ## Coming to rest -/

/-- The player stays in the room, nobody turns the camera and the developer does not look ahead. -/
structure Still (tile : FloorTile) (frame : CameraFrame) : Prop where
  room : frame.room = ⟨tile.x, tile.y⟩
  left : frame.rotateLeft = false
  right : frame.rotateRight = false
  plain : frame.looksAhead = false

theorem Still.target (still : Still tile frame) : frame.target = tile.position := by
  rw [CameraFrame.target, if_neg (by simp [still.plain]), still.room]
  rfl

theorem Still.turn (still : Still tile frame) (shows : Shows files tile camera) : camera.turn frame = camera := by
  have stays : camera.rotate frame = camera.targetCameraYaw := by
    rw [rotate, still.left, still.right]
    rfl
  have sameX : ¬ frame.room.x < camera.cameraRoom.x ∧ ¬ camera.cameraRoom.x < frame.room.x := by
    rw [still.room, shows.room]
    simp
  have sameY : ¬ frame.room.y < camera.cameraRoom.y ∧ ¬ camera.cameraRoom.y < frame.room.y := by
    rw [still.room, shows.room]
    simp
  rw [CameraController.turn, if_neg sameX.1, if_neg sameX.2, if_neg sameY.1, if_neg sameY.2, stays, ite_self]

theorem Shows.afterApproach (shows : Shows files tile camera) (still : Still tile frame) :
    Shows files tile (camera.approach frame) := ⟨still.room, shows.panel, shows.text⟩

theorem Shows.run_approach (shows : Shows files tile camera) (created : tile ∈ image.floorTiles)
    {frames : List CameraFrame} (timely : ∀ frame ∈ frames, Timely frame) (still : ∀ frame ∈ frames, Still tile frame) :
    runFrom files image (some camera) frames = some (run approach camera frames) ∧
      Shows files tile (run approach camera frames) := by
  induction frames generalizing camera with
  | nil => exact ⟨rfl, shows⟩
  | cons frame frames inductionHypothesis =>
    obtain ⟨first, rest⟩ := List.forall_mem_cons.mp still
    obtain ⟨firstTimely, restTimely⟩ := List.forall_mem_cons.mp timely
    have updated : camera.update files image frame = some (camera.approach frame) := by
      rw [shows.update_eq created firstTimely.unlisted, LevelImage.tileAt_eq_some.mpr ⟨created, first.room⟩,
        Option.map_some, first.turn shows, shows.display]
    obtain ⟨ran, showsLater⟩ := inductionHypothesis (shows.afterApproach first) restTimely rest
    rw [← updated] at ran
    exact ⟨ran, showsLater⟩

theorem run_approach_targetCameraYaw (camera : CameraController) (frames : List CameraFrame) :
    (run approach camera frames).targetCameraYaw = camera.targetCameraYaw := by
  have same : ∀ target, (∀ camera frame, CameraController.targetCameraYaw camera = target →
      (camera.approach frame).targetCameraYaw = target) := fun target camera frame same => same
  exact run_invariant _ (same camera.targetCameraYaw) rfl frames

theorem run_approach_cameraYaw (camera : CameraController) (frames : List CameraFrame) :
    (run approach camera frames).cameraYaw =
      run (follow camera.targetCameraYaw) camera.cameraYaw (frames.map (5 * ·.timeStep)) := by
  induction frames generalizing camera with
  | nil => rfl
  | cons frame frames inductionHypothesis =>
    rw [run_cons, inductionHypothesis, approach_cameraYaw, List.map_cons, run_cons]
    rfl

/-- Each coordinate of the camera follows that of the centre of the room. -/
theorem run_approach_coordinate (coordinate : Vector3 → ℚ) (follows : ∀ camera frame,
      coordinate (CameraController.approach camera frame).position =
        follow (coordinate frame.target) (coordinate camera.position) (2 * frame.timeStep))
    (camera : CameraController) {frames : List CameraFrame} (still : ∀ frame ∈ frames, Still tile frame) :
    coordinate (run CameraController.approach camera frames).position =
      run (follow (coordinate tile.position)) (coordinate camera.position) (frames.map (2 * ·.timeStep)) := by
  induction frames generalizing camera with
  | nil => rfl
  | cons frame frames inductionHypothesis =>
    obtain ⟨first, rest⟩ := List.forall_mem_cons.mp still
    rw [run_cons, inductionHypothesis _ rest, follows, first.target, List.map_cons, run_cons]

def totalTime (frames : List CameraFrame) : ℚ := (frames.map (·.timeStep)).sum

theorem sum_rates (factor : ℚ) (frames : List CameraFrame) :
    (frames.map (factor * ·.timeStep)).sum = factor * totalTime frames := by
  rw [totalTime, ← List.sum_map_mul_left]

theorem rates_fractions {factor : ℚ} (nonneg : 0 ≤ factor) (le_five : factor ≤ 5) {frames : List CameraFrame}
    (timely : ∀ frame ∈ frames, Timely frame) :
    ∀ rate ∈ frames.map (factor * ·.timeStep), 0 ≤ rate ∧ rate ≤ 1 := by
  intro rate member
  obtain ⟨frame, visited, rfl⟩ := List.mem_map.mp member
  obtain ⟨-, forward, short⟩ := timely frame visited
  refine ⟨mul_nonneg nonneg forward, ?_⟩
  calc factor * frame.timeStep ≤ 5 * (1 / 5) := mul_le_mul le_five short forward (by norm_num)
    _ = 1 := by norm_num

theorem slide_up (up : camera.showPanel = true) (timeStep : ℚ) :
    camera.slide timeStep ≤ max 0 (camera.panelYPosition - 50 * timeStep) := by
  rw [slide, up]
  by_cases below : 0 < camera.panelYPosition
  · simp only [below, decide_true, Bool.and_true, if_true]
    exact le_max_of_le_right (by linarith)
  · simp only [below, decide_false, Bool.and_false, Bool.not_true, Bool.false_and, Bool.false_eq_true, if_false]
    exact le_max_of_le_left (by linarith)

theorem slide_down (down : camera.showPanel = false) (timeStep : ℚ) :
    min 50 (camera.panelYPosition + 50 * timeStep) ≤ camera.slide timeStep := by
  rw [slide, down]
  by_cases above : camera.panelYPosition < 50
  · simp only [above, decide_true, Bool.and_true, Bool.not_false, Bool.false_and, Bool.false_eq_true, if_false, if_true]
    exact min_le_of_right_le (by linarith)
  · simp only [above, decide_false, Bool.and_false, Bool.false_and, Bool.false_eq_true, if_false]
    exact min_le_of_left_le (by linarith)

theorem pace_nonneg {frames : List CameraFrame} (timely : ∀ frame ∈ frames, Timely frame) :
    ∀ frame ∈ frames, 0 ≤ 50 * frame.timeStep :=
  fun frame member => mul_nonneg (by norm_num) (timely frame member).forward

theorem run_slide_up (up : camera.showPanel = true) {frames : List CameraFrame}
    (timely : ∀ frame ∈ frames, Timely frame) :
    (run approach camera frames).panelYPosition ≤ max 0 (camera.panelYPosition - 50 * totalTime frames) := by
  rw [← sum_rates]
  exact run_le_max approach panelYPosition _ 0 (fun camera => camera.showPanel = true) (fun _ _ up => up)
    (fun camera frame up => slide_up up frame.timeStep) up (pace_nonneg timely)

theorem run_slide_down (down : camera.showPanel = false) {frames : List CameraFrame}
    (timely : ∀ frame ∈ frames, Timely frame) :
    min 50 (camera.panelYPosition + 50 * totalTime frames) ≤ (run approach camera frames).panelYPosition := by
  -- Upside down, the panel comes up.
  have rises := run_le_max approach (-panelYPosition ·) _ (-50) (fun camera => camera.showPanel = false)
    (fun _ _ down => down) (fun camera frame down => ?_) down (pace_nonneg timely)
  · rw [sum_rates] at rises
    cases le_max_iff.mp rises with
    | inl out => exact min_le_of_left_le (by linarith)
    | inr underWay => exact min_le_of_right_le (by linarith)
  · show -camera.slide frame.timeStep ≤ max (-50) (-camera.panelYPosition - 50 * frame.timeStep)
    cases min_le_iff.mp (slide_down down frame.timeStep) with
    | inl out => exact le_max_of_le_left (by linarith)
    | inr underWay => exact le_max_of_le_right (by linarith)

/-- What is left of the camera's way, and of the panel's, when some time has passed. -/
structure Settled (files : LevelFiles) (tile : FloorTile) (time : ℚ) (camera settled : CameraController) : Prop where
  shows : Shows files tile settled
  turns : settled.targetCameraYaw = camera.targetCameraYaw
  yaw : |camera.targetCameraYaw - settled.cameraYaw| * (1 + 5 * time) ≤ |camera.targetCameraYaw - camera.cameraYaw|
  x : |tile.position.x - settled.position.x| * (1 + 2 * time) ≤ |tile.position.x - camera.position.x|
  y : |tile.position.y - settled.position.y| * (1 + 2 * time) ≤ |tile.position.y - camera.position.y|
  z : |tile.position.z - settled.position.z| * (1 + 2 * time) ≤ |tile.position.z - camera.position.z|
  named : files.label (.floor tile) ≠ none → settled.panelYPosition ≤ max 0 (camera.panelYPosition - 50 * time)
  unnamed : files.label (.floor tile) = none → min 50 (camera.panelYPosition + 50 * time) ≤ settled.panelYPosition

end CameraController

/-- In exact arithmetic, the camera's updates follow a NULL pointer just when the player is somewhere that rounds to
    no tile.  Until then the panel shows the name of the room that the player is in and overshoots its two places by the
    longest frame's way at most, and the angle that the camera turns to is that of a wall.  Unless the
    developer looks ahead the camera stays over the rooms. -/
theorem camera_follows_player (files : LevelFiles) (image : LevelImage) (frames : List CameraFrame)
    (timely : ∀ frame ∈ frames, CameraController.Timely frame) :
    ((CameraController.runAll files image frames).isSome = true ↔
        ∀ position ∈ image.personPosition :: frames.map (·.personPosition),
          (image.tileAt (roundToRoom position)).isSome = true) ∧
      ∀ camera, CameraController.runAll files image frames = some camera →
        ∃ tile, image.tileAt (roundToRoom ((frames.map (·.personPosition)).getLastD image.personPosition)) = some tile ∧
          CameraController.Follows files image (50 * CameraController.longest frames)
            (∀ frame ∈ frames, frame.looksAhead = false) tile camera := by
  rw [List.forall_mem_cons]
  cases found : image.tileAt (roundToRoom image.personPosition) with
  | none =>
    rw [CameraController.runAll, CameraController.delayedStart_eq, found, Option.map_none,
      CameraController.runFrom_none]
    simp
  | some tile =>
    obtain ⟨start, started, follows⟩ : ∃ start,
        CameraController.delayedStart files image.sceneNodes image.personPosition = some start ∧
          CameraController.Follows files image (50 * CameraController.longest frames)
            (∀ frame ∈ frames, frame.looksAhead = false) tile start :=
      CameraController.delayedStart_follows
        (mul_nonneg (by norm_num) (CameraController.longest_nonneg frames)) _ found
    obtain ⟨survives, reaches⟩ := follows.run found timely
      (fun frame member => by linarith [CameraController.le_longest member])
      fun frame member plain => plain frame member
    rw [CameraController.runAll, started]
    refine ⟨survives.trans ?_, reaches⟩
    simp [CameraFrame.room, CameraController.room]

namespace FollowExamples

/-- A room with a name, to the left of the player's. -/
def vault : LevelFiles where
  conversions := ⟨fun text => text == "true", fun _ => 0, fun _ => ⟨0, 0⟩, fun _ => .zero⟩
  levelXml := none
  roomXml x _ := if x = 1 then some (.mk "room" [("name", "Vault")] "" []) else none

def image : LevelImage := ⟨5, 3, fun _ _ => .blue⟩

def frame (personPosition : Vector3) : CameraFrame where
  timeStep := 1 / 10
  personPosition := personPosition
  currentJoystick := -1
  buttonPress := none
  keyPressQ := false
  keyPressE := false
  isDeveloper := false
  keyDownW := false
  direction := .zero
  pixelRatio := 2
  later := ["", "SoundEffect"]

def walk : List CameraFrame := [frame ⟨11, 0, 0⟩, frame ⟨28 / 5, 0, 0⟩, frame ⟨27 / 5, 0, 0⟩]

/-- The camera as the player comes into the vault. -/
def camera : CameraController := ⟨⟨0, 0⟩, 0, -90, true, 50, 100, "Vault", ⟨11, 5, -5⟩⟩

end FollowExamples

open FollowExamples in
theorem camera_follows_player_vault :
    ((CameraController.runAll vault image walk).isSome = true ↔
        ∀ position ∈ image.personPosition :: walk.map (·.personPosition),
          (image.tileAt (roundToRoom position)).isSome = true) ∧
      ∀ camera, CameraController.runAll vault image walk = some camera →
        ∃ tile, image.tileAt (roundToRoom ((walk.map (·.personPosition)).getLastD image.personPosition)) = some tile ∧
          CameraController.Follows vault image (50 * CameraController.longest walk)
            (∀ frame ∈ walk, frame.looksAhead = false) tile camera :=
  camera_follows_player vault image walk (by decide +kernel)

open FollowExamples in
-- The panel has begun to come up when the player is in the vault.
example : (CameraController.runAll vault image walk).map (fun camera => (camera.label, camera.panelYPosition)) =
    some ("Vault", 45) := by
  decide +kernel

/-- While the player stays in a room, nobody turns the camera and the developer does not look ahead, what is left
    of its way to the centre of the room and to its angle shrinks in exact arithmetic with the time passed, however
    it is cut into frames, and the panel goes all the way at 50 a second. -/
theorem camera_settles (files : LevelFiles) (image : LevelImage) (tile : FloorTile) (created : tile ∈ image.floorTiles)
    (camera : CameraController) (shows : CameraController.Shows files tile camera) (frames : List CameraFrame)
    (timely : ∀ frame ∈ frames, CameraController.Timely frame)
    (still : ∀ frame ∈ frames, CameraController.Still tile frame) :
    ∃ settled, CameraController.runFrom files image (some camera) frames = some settled ∧
      CameraController.Settled files tile (CameraController.totalTime frames) camera settled := by
  obtain ⟨ran, showsLater⟩ := shows.run_approach created timely still
  have yawRates := CameraController.rates_fractions (show (0 : ℚ) ≤ 5 by norm_num) (by norm_num) timely
  have rates := CameraController.rates_fractions (show (0 : ℚ) ≤ 2 by norm_num) (by norm_num) timely
  refine ⟨_, ran, showsLater, CameraController.run_approach_targetCameraYaw camera frames, ?_, ?_, ?_, ?_, ?_, ?_⟩
  · rw [CameraController.run_approach_cameraYaw, ← CameraController.sum_rates]
    exact abs_sub_run_follow_le _ _ yawRates
  · rw [CameraController.run_approach_coordinate Vector3.x CameraController.approach_position_x camera still,
      ← CameraController.sum_rates]
    exact abs_sub_run_follow_le _ _ rates
  · rw [CameraController.run_approach_coordinate Vector3.y CameraController.approach_position_y camera still,
      ← CameraController.sum_rates]
    exact abs_sub_run_follow_le _ _ rates
  · rw [CameraController.run_approach_coordinate Vector3.z CameraController.approach_position_z camera still,
      ← CameraController.sum_rates]
    exact abs_sub_run_follow_le _ _ rates
  · intro named
    exact CameraController.run_slide_up (shows.panel.trans (Option.isSome_iff_ne_none.mpr named)) timely
  · intro unnamed
    exact CameraController.run_slide_down (shows.panel.trans (by rw [unnamed, Option.isSome_none])) timely

open FollowExamples in
theorem camera_settles_vault :
    ∃ settled, CameraController.runFrom vault image (some camera) [frame .zero, frame .zero] = some settled ∧
      CameraController.Settled vault ⟨0, 0, .blue⟩ (CameraController.totalTime [frame .zero, frame .zero]) camera
        settled :=
  camera_settles vault image ⟨0, 0, .blue⟩ (by decide +kernel) camera
    ⟨rfl, rfl, fun name named => Option.some_inj.mp named⟩ [frame .zero, frame .zero] (by decide +kernel)
    fun frame member => by
      rw [List.mem_pair] at member
      obtain rfl | rfl := member
      · exact ⟨by decide +kernel, rfl, rfl, rfl⟩
      · exact ⟨by decide +kernel, rfl, rfl, rfl⟩

end SneakySneaky
