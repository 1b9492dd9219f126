import Mathlib.Data.List.Induction
import SneakySneaky.LaserAlarm
import SneakySneaky.RoomIndex

/-! # The variables of the floor nodes

`LoadLevel` reads from the files of the level and of its rooms what a room is called and
whether it has lights, and leaves both in variables of the floor's node.  `Person` and
`CameraController` look that node up by the name they print for the room of the player.
The name finds the tile with the coordinates of the room, or nothing. -/

namespace SneakySneaky

open SneakySneaky.Foundation

/-! ## The files of a level -/

/-- The roots of `Levels/%d.xml` and of `Levels/%d/%dx%d.xml`, where the files exist. -/
structure LevelFiles where
  conversions : Conversions
  levelXml : Option XMLElement
  roomXml : ℤ → ℤ → Option XMLElement

namespace LevelFiles

variable (files : LevelFiles)

def levelLights : Bool :=
  match files.levelXml with
  | none => true
  | some levelRoot =>
    if levelRoot.hasAttribute "lights" then files.conversions.toBool (levelRoot.getAttribute "lights") else true

def roomLights (tile : FloorTile) : Bool :=
  LoadLevel.roomLights files.conversions files.levelLights (files.roomXml (tile.x + 1) (tile.y + 1))

def roomName (tile : FloorTile) : String :=
  match files.roomXml (tile.x + 1) (tile.y + 1) with
  | none => ""
  | some roomRoot => roomRoot.getAttribute "name"

/-- `GetVar("label")`, which is empty on every node but the floor of a room with a name. -/
def label : SceneNode → Option String
  | .floor tile => if files.roomName tile = "" then none else some (files.roomName tile)
  | .wall _ | .person | .cameraTarget | .later _ => none

/-- `GetVar("dark").GetBool()`, which is false on a node without the variable. -/
def dark : SceneNode → Bool
  | .floor tile => !files.roomLights tile
  | .wall _ | .person | .cameraTarget | .later _ => false

/-- The floor of a room is dark exactly when the room was given no lights. -/
theorem dark_iff (tile : FloorTile) :
    files.dark (.floor tile) = true ↔ LoadLevel.floorLights (files.roomLights tile) = [] := by
  rw [dark, LoadLevel.floorLights]
  cases files.roomLights tile with
  | true => simp
  | false => simp

end LevelFiles

/-! ## The room at some coordinates -/

namespace LevelImage

def tileAt (image : LevelImage) (room : IntVector2) : Option FloorTile :=
  image.floorTiles.find? fun tile => tile.x = room.x ∧ tile.y = room.y

theorem tileAt_eq_some {image : LevelImage} {room : IntVector2} {tile : FloorTile} :
    image.tileAt room = some tile ↔ tile ∈ image.floorTiles ∧ room = ⟨tile.x, tile.y⟩ := by
  constructor
  · intro found
    have coordinates := List.find?_some found
    obtain ⟨sameX, sameY⟩ := of_decide_eq_true coordinates
    exact ⟨List.mem_of_find?_eq_some found, by rw [sameX, sameY]⟩
  · rintro ⟨created, rfl⟩
    rw [tileAt]
    cases found : image.floorTiles.find? _ with
    | none =>
      have missed := List.find?_eq_none.mp found tile created
      simp at missed
    | some other =>
      have coordinates := List.find?_some found
      obtain ⟨sameX, sameY⟩ := of_decide_eq_true coordinates
      rw [floorTile_ext (List.mem_of_find?_eq_some found) created sameX sameY]

theorem tileAt_room {image : LevelImage} {tile : FloorTile} (created : tile ∈ image.floorTiles)
    {position : Vector3} (inside : tile.Contains position) :
    image.tileAt (roundToRoom position) = some tile :=
  tileAt_eq_some.mpr ⟨created, inside.room⟩

/-- The position that `LoadLevel` gives the player: the last blue tile, or the origin. -/
def personPosition (image : LevelImage) : Vector3 :=
  image.floorTiles.foldl (fun position tile => if tile.color = .blue then tile.position else position) .zero

theorem personPosition_cases (image : LevelImage) :
    (∃ tile ∈ image.floorTiles, tile.color = .blue ∧ image.personPosition = tile.position) ∨
      ((∀ tile ∈ image.floorTiles, tile.color ≠ .blue) ∧ image.personPosition = .zero) := by
  rw [personPosition]
  -- Over the tiles from the last to the first: the fold keeps what the last blue one gave.
  induction image.floorTiles using List.reverseRecOn with
  | nil => exact .inr ⟨fun tile member => absurd member List.not_mem_nil, rfl⟩
  | append_singleton tiles last inductionHypothesis =>
    rw [List.foldl_append, List.foldl_cons, List.foldl_nil]
    by_cases blue : last.color = .blue
    · rw [if_pos blue]
      exact .inl ⟨last, List.mem_append_right tiles List.mem_cons_self, blue, rfl⟩
    · rw [if_neg blue]
      refine inductionHypothesis.imp ?_ ?_
      · rintro ⟨tile, member, isBlue, placed⟩
        exact ⟨tile, List.mem_append_left [last] member, isBlue, placed⟩
      · rintro ⟨others, placed⟩
        refine ⟨fun tile member => ?_, placed⟩
        cases List.mem_append.mp member with
        | inl earlier => exact others tile earlier
        | inr only =>
          rw [List.mem_singleton.mp only]
          exact blue

end LevelImage

theorem FloorTile.contains_position (tile : FloorTile) : tile.Contains tile.position := by
  constructor
  · show |tile.x * 11 - 11 * (tile.x : ℚ)| < 11 / 2
    rw [mul_comm, sub_self, abs_zero]
    norm_num
  · show |tile.y * 11 - 11 * (tile.y : ℚ)| < 11 / 2
    rw [mul_comm, sub_self, abs_zero]
    norm_num

/-! ## Looking a room up -/

/-- No component names a node of the scene after a room. -/
def Unlisted (later : List String) : Prop := ∀ name ∈ later, 'x' ∉ name.toList

instance (later : List String) : Decidable (Unlisted later) :=
  inferInstanceAs (Decidable (∀ name ∈ later, 'x' ∉ name.toList))

theorem separator_mem_roomNodeName (room : IntVector2) : 'x' ∈ (roomNodeName room).toList := by
  simp [roomNodeName, joinDecimal, Char.toString]

theorem find?_ne_roomNodeName {nodes : List SceneNode} (unlisted : ∀ node ∈ nodes, 'x' ∉ node.name.toList)
    (room : IntVector2) : nodes.find? (fun node => node.name = roomNodeName room) = none := by
  refine List.find?_eq_none.mpr fun node member named => unlisted node member ?_
  rw [of_decide_eq_true named]
  exact separator_mem_roomNodeName room

/-- A room's printed name finds the tile with its coordinates, and nothing where there is no tile. -/
theorem getChild_room (image : LevelImage) {later : List String} (unlisted : Unlisted later) (room : IntVector2) :
    getChild (image.sceneNodes ++ later.map .later) (roomNodeName room) = (image.tileAt room).map .floor := by
  have nodesAfter : ∀ node ∈ image.walls.map SceneNode.wall ++ [.person, .cameraTarget] ++ later.map .later,
      'x' ∉ node.name.toList := by
    intro node member
    simp only [List.mem_append, List.mem_map, List.mem_cons, List.not_mem_nil, or_false] at member
    rcases member with (⟨w, -, rfl⟩ | rfl | rfl) | ⟨name, listed, rfl⟩
    · exact List.not_mem_nil
    · show 'x' ∉ "Person".toList
      decide
    · exact List.not_mem_nil
    · exact unlisted name listed
  rw [getChild, LevelImage.sceneNodes, List.append_assoc, List.append_assoc, List.find?_append,
    ← List.append_assoc (image.walls.map _), find?_ne_roomNodeName nodesAfter, Option.or_none, List.find?_map,
    LevelImage.tileAt]
  congr 2
  funext tile
  simp only [Function.comp, SceneNode.name, FloorTile.name, roomNodeName]
  refine decide_eq_decide.mpr ?_
  constructor
  · intro same
    obtain ⟨sameX, sameY⟩ := joinDecimal_injective (by decide) (by decide) same
    omega
  · rintro ⟨sameX, sameY⟩
    rw [sameX, sameY]

end SneakySneaky
