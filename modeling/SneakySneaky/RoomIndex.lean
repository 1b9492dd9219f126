import SneakySneaky.Foundation.Cells
import SneakySneaky.LoadLevel.Grid

/-! # Finding the room of a world position

`Person`, `CameraController`, `Wife` and `BossBertha` each recompute the room of a
position by rounding, and two of them look the room's node up by its printed name
without checking the result.  A position strictly inside a tile's 11 m square finds
that tile and no other. -/

namespace SneakySneaky

open SneakySneaky.Foundation

/-! ## The scene's children -/

/-- A child node of the scene.  `later` stands for the nodes that components add after loading. -/
inductive SceneNode where
  | floor (tile : FloorTile)
  | wall (w : Wall)
  | person
  | cameraTarget
  | later (name : String)
  deriving DecidableEq

def SceneNode.name : SceneNode → String
  | .floor tile => tile.name
  | .wall _ => ""
  | .person => "Person"
  | .cameraTarget => ""
  | .later name => name

/-- The children that `LoadLevel` gives the scene, in the order it creates them. -/
def LevelImage.sceneNodes (image : LevelImage) : List SceneNode :=
  image.floorTiles.map .floor ++ image.walls.map .wall ++ [.person, .cameraTarget]

def getChild (nodes : List SceneNode) (name : String) : Option SceneNode :=
  nodes.find? fun node => node.name = name

/-! ## The room computations -/

/-- `IntVector2((int)round(position.x_ / 11.0f), (int)round(position.z_ / 11.0f))`. -/
def roundToRoom (position : Vector3) : IntVector2 :=
  ⟨cellOf 11 position.x, cellOf 11 position.z⟩

/-- `ToString("%dx%d", room.x_ + 1, room.y_ + 1)`. -/
def roomNodeName (room : IntVector2) : String := joinDecimal 'x' (room.x + 1) (room.y + 1)

namespace Person

def room (position : Vector3) : IntVector2 := roundToRoom position

/-- The node whose `dark` variable `Update` reads. -/
def roomNode (nodes : List SceneNode) (position : Vector3) : Option SceneNode :=
  getChild nodes (roomNodeName (room position))

end Person

namespace CameraController

def room (position : Vector3) : IntVector2 := roundToRoom position

/-- The node whose `label` variable `Update` reads when the player has changed rooms. -/
def roomNode (nodes : List SceneNode) (position : Vector3) : Option SceneNode :=
  getChild nodes (roomNodeName (room position))

end CameraController

namespace Wife

def room (position : Vector3) : IntVector2 := roundToRoom position

/-- The negation of the early return of `Update`. -/
def inRoom (position personPosition : Vector3) : Bool := room position = room personPosition

end Wife

namespace BossBertha

def room (position : Vector3) : IntVector2 := roundToRoom position

def inRoom (position personPosition : Vector3) : Bool := room position = room personPosition

end BossBertha

/-! ## Positions inside a tile -/

structure FloorTile.Contains (tile : FloorTile) (position : Vector3) : Prop where
  x : |position.x - 11 * tile.x| < 11 / 2
  z : |position.z - 11 * tile.y| < 11 / 2

theorem FloorTile.Contains.room {tile : FloorTile} {position : Vector3}
    (inside : tile.Contains position) : roundToRoom position = ⟨tile.x, tile.y⟩ := by
  simp only [roundToRoom]
  rw [cellOf_eq_of_inside (by norm_num) inside.x, cellOf_eq_of_inside (by norm_num) inside.z]

theorem FloorTile.name_injective {tile tile' : FloorTile} (same : tile.name = tile'.name) :
    tile.x = tile'.x ∧ tile.y = tile'.y := by
  obtain ⟨sameX, sameY⟩ := joinDecimal_injective (by decide) (by decide) same
  omega

/-- The name of a tile finds the tile's own node, whatever else the scene holds. -/
theorem getChild_floor {image : LevelImage} {tile : FloorTile} (created : tile ∈ image.floorTiles)
    (others : List SceneNode) : getChild (image.sceneNodes ++ others) tile.name = some (.floor tile) := by
  simp only [getChild, LevelImage.sceneNodes]
  rw [List.find?_append, List.find?_append, List.find?_append]
  -- The floor loop runs first, so the tiles are searched before walls and later nodes.
  suffices first : (image.floorTiles.map SceneNode.floor).find? (fun node => node.name = tile.name) =
      some (.floor tile) by
    rw [first]; rfl
  rw [List.find?_map]
  cases found : image.floorTiles.find? _ with
  | none =>
    have missed := List.find?_eq_none.mp found tile created
    simp [SceneNode.name] at missed
  | some tile' =>
    have named := List.find?_some found
    simp only [Function.comp, SceneNode.name] at named
    obtain ⟨sameX, sameY⟩ := FloorTile.name_injective (of_decide_eq_true named)
    rw [LevelImage.floorTile_ext (List.mem_of_find?_eq_some found) created sameX sameY]
    rfl

structure RoomFound (image : LevelImage) (tile : FloorTile) (position : Vector3) : Prop where
  personRoom : Person.room position = ⟨tile.x, tile.y⟩
  cameraRoom : CameraController.room position = ⟨tile.x, tile.y⟩
  wifeRoom : Wife.room position = ⟨tile.x, tile.y⟩
  berthaRoom : BossBertha.room position = ⟨tile.x, tile.y⟩
  named : roomNodeName (roundToRoom position) = tile.name
  namedOnly : ∀ other ∈ image.floorTiles, other.name = tile.name → other = tile
  personLookup : ∀ others, Person.roomNode (image.sceneNodes ++ others) position = some (.floor tile)
  cameraLookup : ∀ others,
    CameraController.roomNode (image.sceneNodes ++ others) position = some (.floor tile)

theorem room_found {image : LevelImage} {tile : FloorTile} (created : tile ∈ image.floorTiles)
    {position : Vector3} (inside : tile.Contains position) : RoomFound image tile position := by
  have named : roomNodeName (roundToRoom position) = tile.name := by
    rw [inside.room]; rfl
  constructor
  · exact inside.room
  · exact inside.room
  · exact inside.room
  · exact inside.room
  · exact named
  · intro other otherCreated same
    obtain ⟨sameX, sameY⟩ := FloorTile.name_injective same
    exact LevelImage.floorTile_ext otherCreated created sameX sameY
  · intro others
    rw [Person.roomNode, Person.room, named]
    exact getChild_floor created others
  · intro others
    rw [CameraController.roomNode, CameraController.room, named]
    exact getChild_floor created others

theorem sameRoom_iff {image : LevelImage} {tile tile' : FloorTile} (created : tile ∈ image.floorTiles)
    (created' : tile' ∈ image.floorTiles) {position position' : Vector3}
    (inside : tile.Contains position) (inside' : tile'.Contains position') :
    roundToRoom position = roundToRoom position' ↔ tile = tile' := by
  rw [inside.room, inside'.room]
  constructor
  · intro same
    injection same with sameX sameY
    exact LevelImage.floorTile_ext created created' sameX sameY
  · rintro rfl
    rfl

/-- Every module finds the room the loader built, and two positions are in one room exactly
    when one tile holds them both. -/
theorem rooms_found (image : LevelImage) (tile tile' : FloorTile) (created : tile ∈ image.floorTiles)
    (created' : tile' ∈ image.floorTiles) (position position' : Vector3)
    (inside : tile.Contains position) (inside' : tile'.Contains position') :
    RoomFound image tile position ∧
      (Wife.inRoom position position' = true ↔ tile = tile') ∧
      (BossBertha.inRoom position position' = true ↔ tile = tile') := by
  have sameRoom := sameRoom_iff created created' inside inside'
  refine ⟨room_found created inside, ?_, ?_⟩
  · rw [Wife.inRoom, decide_eq_true_iff]
    exact sameRoom
  · rw [BossBertha.inRoom, decide_eq_true_iff]
    exact sameRoom

/-- Two tiles side by side, with a position in each close to the shared wall. -/
theorem rooms_found_doubleRoom :
    RoomFound ⟨5, 3, fun _ _ => Color.white⟩ ⟨0, 0, Color.white⟩ ⟨27 / 5, 0, 1⟩ ∧
      (Wife.inRoom ⟨27 / 5, 0, 1⟩ ⟨28 / 5, 0, 1⟩ = true ↔
        (⟨0, 0, Color.white⟩ : FloorTile) = ⟨1, 0, Color.white⟩) ∧
      (BossBertha.inRoom ⟨27 / 5, 0, 1⟩ ⟨28 / 5, 0, 1⟩ = true ↔
        (⟨0, 0, Color.white⟩ : FloorTile) = ⟨1, 0, Color.white⟩) :=
  rooms_found ⟨5, 3, fun _ _ => Color.white⟩ ⟨0, 0, Color.white⟩ ⟨1, 0, Color.white⟩
    (by decide +kernel) (by decide +kernel) ⟨27 / 5, 0, 1⟩ ⟨28 / 5, 0, 1⟩
    ⟨by norm_num [abs_lt], by norm_num [abs_lt]⟩ ⟨by norm_num [abs_lt], by norm_num [abs_lt]⟩

end SneakySneaky
