import SneakySneaky.RoomIndex

/-! # Doors

A door opens when the player touches its trigger, and sends the player through on a path of
two points.  It takes the axis and the direction of the path from the player's offset to the
centre of the room, which it finds by rounding; the wall itself is not asked.  The path is
right for every wall between two tiles: a player that near a wall is further from the centre
of its tile along the axis of the wall than across it.

The sounds of the door and its closing are left out. -/

namespace SneakySneaky

open SneakySneaky.Foundation

/-! ## The class -/

/-- The node of a door, relative to its wall, and the path of the player. -/
structure Doorway where
  doorNode : Vector3
  personPath : List Vector3
  deriving DecidableEq

namespace Door

/-- The position of the node of an open door, `DOOR_OFFSET` along the wall. -/
def openPosition : Vector3 := ⟨-(51 / 40), 0, 0⟩

def path (doorPosition position : Vector3) : List Vector3 :=
  let roomPosition : Vector3 :=
    ⟨(roundAway (position.x / 11) : ℚ) * 11, position.y, (roundAway (position.z / 11) : ℚ) * 11⟩
  let roomOffset := position - roomPosition
  let doorHorizontal : Bool := |roomOffset.z| < |roomOffset.x|
  let travelingUpRight : Bool := 0 < (if doorHorizontal then roomOffset.x else roomOffset.z)
  if doorHorizontal then
    if travelingUpRight then [doorPosition + ⟨-1, 0, 0⟩, doorPosition + ⟨8 / 5, 0, 0⟩]
    else [doorPosition + ⟨1, 0, 0⟩, doorPosition + ⟨-(8 / 5), 0, 0⟩]
  else
    if travelingUpRight then [doorPosition + ⟨0, 0, -1⟩, doorPosition + ⟨0, 0, 8 / 5⟩]
    else [doorPosition + ⟨0, 0, 1⟩, doorPosition + ⟨0, 0, -(8 / 5)⟩]

/-- `doorPosition` is the position of the wall, the parent of the door's node. -/
def handleNodeCollisionStart (doorway : Doorway) (otherIsPerson : Bool) (doorPosition position : Vector3) :
    Doorway :=
  if !otherIsPerson then doorway else ⟨openPosition, path doorPosition position⟩

end Door

/-- The walls that `LoadLevel` gives a door. -/
def LevelImage.doors (image : LevelImage) : List Wall := image.walls.filter fun w => w.wallType = .door

/-! ## Through a side of a tile -/

namespace Side

/-- The direction that leaves a tile through one of its sides. -/
def direction : Side → Vector3
  | left => ⟨-1, 0, 0⟩
  | right => ⟨1, 0, 0⟩
  | near => ⟨0, 0, -1⟩
  | far => ⟨0, 0, 1⟩

def opposite : Side → Side
  | left => right
  | right => left
  | near => far
  | far => near

end Side

theorem FloorTile.Contains.roomCentre {tile : FloorTile} {position : Vector3} (inside : tile.Contains position) :
    roundAway (position.x / 11) = tile.x ∧ roundAway (position.z / 11) = tile.y :=
  ⟨cellOf_eq_of_inside (by norm_num) inside.x, cellOf_eq_of_inside (by norm_num) inside.z⟩

/-- The path of a player at some offset from the centre of the room. -/
theorem Door.path_eq {tile : FloorTile} {position : Vector3} (inside : tile.Contains position)
    (doorPosition : Vector3) :
    Door.path doorPosition position =
      if |position.z - tile.y * 11| < |position.x - tile.x * 11| then
        if 0 < position.x - tile.x * 11 then [doorPosition + ⟨-1, 0, 0⟩, doorPosition + ⟨8 / 5, 0, 0⟩]
        else [doorPosition + ⟨1, 0, 0⟩, doorPosition + ⟨-(8 / 5), 0, 0⟩]
      else
        if 0 < position.z - tile.y * 11 then [doorPosition + ⟨0, 0, -1⟩, doorPosition + ⟨0, 0, 8 / 5⟩]
        else [doorPosition + ⟨0, 0, 1⟩, doorPosition + ⟨0, 0, -(8 / 5)⟩] := by
  obtain ⟨centreX, centreZ⟩ := inside.roomCentre
  simp only [Door.path, centreX, centreZ, Vector3.sub_x, Vector3.sub_z]
  by_cases horizontal : |position.z - tile.y * 11| < |position.x - tile.x * 11|
  · simp [horizontal]
  · simp [horizontal]

/-- A player in a tile and near the middle of one of its sides is sent out through that side. -/
theorem Door.path_through {tile : FloorTile} {position : Vector3} (inside : tile.Contains position) (side : Side)
    (nearX : |position.x - (side.midpoint tile).x| ≤ 3 / 2) (nearZ : |position.z - (side.midpoint tile).z| ≤ 3 / 2) :
    Door.path (side.midpoint tile) position =
      [side.midpoint tile - side.direction, side.midpoint tile + side.direction * (8 / 5 : ℚ)] := by
  rw [Door.path_eq inside]
  rw [abs_le] at nearX nearZ
  -- The player is at least 4 m from the centre along the axis of the path and at most 1.5 m across it.
  cases side with
  | left =>
    simp only [Side.midpoint, FloorTile.position, Vector3.add_x, Vector3.add_z] at nearX nearZ
    have across : |position.z - tile.y * 11| ≤ 3 / 2 := abs_le.mpr ⟨by linarith, by linarith⟩
    have along : 4 ≤ |position.x - tile.x * 11| := le_abs.mpr (.inr (by linarith))
    have backwards : ¬ 0 < position.x - tile.x * 11 := by linarith
    rw [if_pos (by linarith), if_neg backwards]
    simp [Vector3.ext_iff, Side.direction]
  | right =>
    simp only [Side.midpoint, FloorTile.position, Vector3.add_x, Vector3.add_z] at nearX nearZ
    have across : |position.z - tile.y * 11| ≤ 3 / 2 := abs_le.mpr ⟨by linarith, by linarith⟩
    have along : 4 ≤ |position.x - tile.x * 11| := le_abs.mpr (.inl (by linarith))
    rw [if_pos (by linarith), if_pos (by linarith)]
    simp [Vector3.ext_iff, Side.direction]
    ring
  | near =>
    simp only [Side.midpoint, FloorTile.position, Vector3.add_x, Vector3.add_z] at nearX nearZ
    have across : |position.x - tile.x * 11| ≤ 3 / 2 := abs_le.mpr ⟨by linarith, by linarith⟩
    have along : 4 ≤ |position.z - tile.y * 11| := le_abs.mpr (.inr (by linarith))
    have backwards : ¬ 0 < position.z - tile.y * 11 := by linarith
    rw [if_neg (by linarith), if_neg backwards]
    simp [Vector3.ext_iff, Side.direction]
  | far =>
    simp only [Side.midpoint, FloorTile.position, Vector3.add_x, Vector3.add_z] at nearX nearZ
    have across : |position.x - tile.x * 11| ≤ 3 / 2 := abs_le.mpr ⟨by linarith, by linarith⟩
    have along : 4 ≤ |position.z - tile.y * 11| := le_abs.mpr (.inl (by linarith))
    rw [if_neg (by linarith), if_pos (by linarith)]
    simp [Vector3.ext_iff, Side.direction]
    ring

/-! ## Walls between two tiles -/

/-- A position on the tile's side of the line through one of its sides. -/
def Side.Within (side : Side) (tile : FloorTile) (position : Vector3) : Prop :=
  match side with
  | left => (side.midpoint tile).x < position.x
  | right => position.x < (side.midpoint tile).x
  | near => (side.midpoint tile).z < position.z
  | far => position.z < (side.midpoint tile).z

theorem Side.Within.contains {side : Side} {tile : FloorTile} {position : Vector3}
    (within : side.Within tile position) (nearX : |position.x - (side.midpoint tile).x| < 11 / 2)
    (nearZ : |position.z - (side.midpoint tile).z| < 11 / 2) : tile.Contains position := by
  rw [abs_lt] at nearX nearZ
  cases side with
  | left | right | near | far =>
    simp only [Side.Within, Side.midpoint, FloorTile.position, Vector3.add_x, Vector3.add_z] at within nearX nearZ
    constructor
    · rw [abs_lt]
      constructor <;> linarith
    · rw [abs_lt]
      constructor <;> linarith

/-- Two tiles with a wall in common are one tile, or the wall is on opposite sides of them. -/
theorem Side.opposite_of_cell {side facing : Side} {tile other : FloorTile} (same : side.cell tile = facing.cell other) :
    (tile.x = other.x ∧ tile.y = other.y) ∨ facing = side.opposite := by
  cases side <;> cases facing <;> simp only [Side.cell, Prod.mk.injEq, Side.opposite, reduceCtorEq, or_false, or_true]
    at same ⊢ <;> omega

/-- The path goes straight through a wall, from the tile that the player is in to another. -/
structure LeadsThrough (w : Wall) (here there : FloorTile) (position : Vector3) (path : List Vector3) : Prop where
  inside : here.Contains position
  straight : ∃ direction : Vector3,
    (if w.rotated then direction = ⟨1, 0, 0⟩ ∨ direction = ⟨-1, 0, 0⟩
      else direction = ⟨0, 0, 1⟩ ∨ direction = ⟨0, 0, -1⟩) ∧
    path = [w.position - direction, w.position + direction * (8 / 5 : ℚ)] ∧
    here.Contains (w.position - direction) ∧ there.Contains (w.position + direction * (8 / 5 : ℚ))

theorem Side.leadsThrough {side : Side} {w : Wall} {here there : FloorTile} {position : Vector3}
    (rotated : w.rotated = side.isVertical) (leaves : w.position = side.midpoint here)
    (enters : w.position = side.opposite.midpoint there) (within : side.Within here position)
    (nearX : |position.x - w.position.x| ≤ 3 / 2) (nearZ : |position.z - w.position.z| ≤ 3 / 2) :
    LeadsThrough w here there position (Door.path w.position position) := by
  have inside : here.Contains position := by
    rw [leaves] at nearX nearZ
    exact within.contains (by linarith) (by linarith)
  have first : here.Contains (w.position - side.direction) := by
    have inwards : side.Within here (side.midpoint here - side.direction) := by
      cases side <;> simp [Side.Within, Side.direction]
    rw [leaves]
    apply inwards.contains
    · cases side <;> norm_num [Side.direction]
    · cases side <;> norm_num [Side.direction]
  have second : there.Contains (w.position + side.direction * (8 / 5 : ℚ)) := by
    have outwards : side.opposite.Within there (side.opposite.midpoint there + side.direction * (8 / 5 : ℚ)) := by
      cases side <;> simp [Side.Within, Side.direction, Side.opposite]
    rw [enters]
    apply outwards.contains
    · cases side <;> norm_num [Side.direction]
    · cases side <;> norm_num [Side.direction]
  refine ⟨inside, side.direction, ?_, ?_, first, second⟩
  · rw [rotated]
    cases side <;> simp [Side.isVertical, Side.direction]
  · rw [leaves] at nearX nearZ ⊢
    exact Door.path_through inside side nearX nearZ

/-- Off the line of the wall, a player is on the one side of it or on the other. -/
theorem Side.within_or {side : Side} {tile other : FloorTile} {position : Vector3}
    (shared : side.midpoint tile = side.opposite.midpoint other)
    (off : if side.isVertical then position.x ≠ (side.midpoint tile).x else position.z ≠ (side.midpoint tile).z) :
    side.Within tile position ∨ side.opposite.Within other position := by
  cases side with
  | left =>
    show (Side.midpoint .left tile).x < position.x ∨ position.x < (Side.midpoint (Side.opposite .left) other).x
    rw [← shared]
    exact (lt_or_gt_of_ne off).symm
  | right =>
    show position.x < (Side.midpoint .right tile).x ∨ (Side.midpoint (Side.opposite .right) other).x < position.x
    rw [← shared]
    exact lt_or_gt_of_ne off
  | near =>
    show (Side.midpoint .near tile).z < position.z ∨ position.z < (Side.midpoint (Side.opposite .near) other).z
    rw [← shared]
    exact (lt_or_gt_of_ne off).symm
  | far =>
    show position.z < (Side.midpoint .far tile).z ∨ (Side.midpoint (Side.opposite .far) other).z < position.z
    rw [← shared]
    exact lt_or_gt_of_ne off

@[simp] theorem Side.opposite_opposite (side : Side) : side.opposite.opposite = side := by
  cases side <;> rfl

@[simp] theorem Side.opposite_isVertical (side : Side) : side.opposite.isVertical = side.isVertical := by
  cases side <;> rfl

/-- A door between two tiles sends a player near it, on either side, straight through to the other. -/
theorem door_leads_through (image : LevelImage) (w : Wall) (built : w ∈ image.doors) (tile other : FloorTile)
    (created : tile ∈ image.floorTiles) (created' : other ∈ image.floorTiles) (apart : tile ≠ other)
    (side facing : Side) (beside : w.pixel = side.pixel image tile) (beside' : w.pixel = facing.pixel image other)
    (position : Vector3) (nearX : |position.x - w.position.x| ≤ 3 / 2) (nearZ : |position.z - w.position.z| ≤ 3 / 2)
    (off : if w.rotated then position.x ≠ w.position.x else position.z ≠ w.position.z) (doorway : Doorway) :
    ∃ here there, ((here = tile ∧ there = other) ∨ (here = other ∧ there = tile)) ∧
      LeadsThrough w here there position
        (Door.handleNodeCollisionStart doorway true w.position position).personPath := by
  have isWall : w ∈ image.walls := List.mem_of_mem_filter built
  obtain ⟨leaves, rotated⟩ := side.wall_on_side isWall beside
  obtain ⟨enters, -⟩ := facing.wall_on_side isWall beside'
  have sameCell : side.cell tile = facing.cell other := by
    apply image.wallPixel_injective
    rw [side.wallPixel_cell, facing.wallPixel_cell, ← beside, ← beside']
  cases Side.opposite_of_cell sameCell with
  | inl same => exact absurd (LevelImage.floorTile_ext created created' same.1 same.2) apart
  | inr opposite =>
    subst opposite
    rw [rotated, leaves] at off
    cases Side.within_or (leaves.symm.trans enters) off with
    | inl within =>
      exact ⟨tile, other, .inl ⟨rfl, rfl⟩, Side.leadsThrough rotated leaves enters within nearX nearZ⟩
    | inr within =>
      refine ⟨other, tile, .inr ⟨rfl, rfl⟩, Side.leadsThrough ?_ enters ?_ within nearX nearZ⟩
      · rw [rotated, side.opposite_isVertical]
      · rw [side.opposite_opposite]
        exact leaves

/-- Two rooms with a door between them, and the player in the corner of its trigger. -/
theorem door_leads_through_corner :
    ∃ here there, ((here = (⟨0, 0, .red⟩ : FloorTile) ∧ there = ⟨1, 0, .red⟩) ∨
        (here = ⟨1, 0, .red⟩ ∧ there = ⟨0, 0, .red⟩)) ∧
      LeadsThrough ⟨(2, 1), ⟨11 / 2, 0, 0⟩, true, .door⟩ here there ⟨13 / 2, 0, 1⟩
        (Door.handleNodeCollisionStart ⟨.zero, []⟩ true ⟨11 / 2, 0, 0⟩ ⟨13 / 2, 0, 1⟩).personPath :=
  door_leads_through ⟨5, 3, fun _ _ => .red⟩ ⟨(2, 1), ⟨11 / 2, 0, 0⟩, true, .door⟩ (by decide +kernel)
    ⟨0, 0, .red⟩ ⟨1, 0, .red⟩ (by decide +kernel) (by decide +kernel) (by decide) .right .left
    (by decide +kernel) (by decide +kernel) ⟨13 / 2, 0, 1⟩ (by norm_num [abs_le]) (by norm_num [abs_le])
    (by norm_num) ⟨.zero, []⟩

end SneakySneaky
