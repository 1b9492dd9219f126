import SneakySneaky.Engine
import Mathlib.Tactic.Ring
import Mathlib.Tactic.Linarith
import Mathlib.Tactic.NormNum

/-! # The two passes of `LoadLevel` over the level image

The floor loop reads the pixels with two odd coordinates and makes an 11 m square tile
of each; the wall loop reads the pixels with one odd and one even coordinate and makes
a wall of each.  The loops count in different units and flip `y` with different
expressions; this module shows that they describe one geometry. -/

namespace SneakySneaky

open SneakySneaky.Foundation

structure LevelImage where
  width : ℕ
  height : ℕ
  getPixel : ℤ → ℤ → Color

/-! ## The floor loop -/

structure FloorTile where
  x : ℤ
  y : ℤ
  color : Color
  deriving DecidableEq

namespace FloorTile

def position (tile : FloorTile) : Vector3 := ⟨tile.x * 11, 0, tile.y * 11⟩

/-- The name of the tile's node, formatted as `"%dx%d"`. -/
def name (tile : FloorTile) : String := joinDecimal 'x' (tile.x + 1) (tile.y + 1)

end FloorTile

namespace LevelImage

/-- Bounds of the floor loop; C division truncates. -/
def floorWidth (image : LevelImage) : ℤ := ((image.width : ℤ) - 1).tdiv 2
def floorHeight (image : LevelImage) : ℤ := ((image.height : ℤ) - 1).tdiv 2

def floorPixel (image : LevelImage) (x y : ℤ) : ℤ × ℤ :=
  (1 + x * 2, ((image.height : ℤ) - 1) - (1 + y * 2))

def floorColor (image : LevelImage) (x y : ℤ) : Color :=
  image.getPixel (image.floorPixel x y).1 (image.floorPixel x y).2

/-- The body of the floor loop: transparent and black pixels are passed over. -/
def floorTile (image : LevelImage) (cell : ℤ × ℤ) : Option FloorTile :=
  let color := image.floorColor cell.1 cell.2
  if color.a < 1 / 2 ∨ color = Color.black then none
  else some ⟨cell.1, cell.2, color⟩

def floorTiles (image : LevelImage) : List FloorTile :=
  (grid image.floorWidth image.floorHeight).filterMap image.floorTile

theorem mem_floorTiles {image : LevelImage} {tile : FloorTile} (created : tile ∈ image.floorTiles) :
    (0 ≤ tile.x ∧ tile.x < image.floorWidth) ∧ (0 ≤ tile.y ∧ tile.y < image.floorHeight) ∧
      tile.color = image.floorColor tile.x tile.y := by
  obtain ⟨cell, visited, created⟩ := List.mem_filterMap.mp created
  simp only [floorTile] at created
  split at created
  · cases created
  · cases created
    obtain ⟨inWidth, inHeight⟩ := mem_grid.mp visited
    exact ⟨inWidth, inHeight, rfl⟩

theorem floorTile_ext {image : LevelImage} {tile tile' : FloorTile} (created : tile ∈ image.floorTiles)
    (created' : tile' ∈ image.floorTiles) (sameX : tile.x = tile'.x) (sameY : tile.y = tile'.y) :
    tile = tile' := by
  obtain ⟨_, _, color⟩ := mem_floorTiles created
  obtain ⟨_, _, color'⟩ := mem_floorTiles created'
  cases tile; cases tile'
  simp_all

/-! ## The wall loop -/

inductive WallType where
  | plain | filler | door
  deriving DecidableEq

end LevelImage

/-- A wall node.  `pixel` is the image pixel the wall was read from. -/
structure Wall where
  pixel : ℤ × ℤ
  position : Vector3
  rotated : Bool
  wallType : LevelImage.WallType
  deriving DecidableEq

namespace LevelImage

def wallType (color : Color) : WallType :=
  if color = Color.white then .filler
  else if color = Color.red ∨ color = Color.green then .door
  else .plain

/-- The pixel the wall loop reads at counters `(x, y)`: the y coordinate is flipped. -/
def wallPixel (image : LevelImage) (cell : ℤ × ℤ) : ℤ × ℤ :=
  (cell.1, ((image.height : ℤ) - 1) - cell.2)

/-- The counters that the parity test of the wall loop lets through. -/
def wallCells (image : LevelImage) : List (ℤ × ℤ) :=
  (grid image.width image.height).filter fun cell => cell.1 % 2 ≠ cell.2 % 2

def wall (image : LevelImage) (cell : ℤ × ℤ) : Option Wall :=
  let pixel := image.wallPixel cell
  let color := image.getPixel pixel.1 pixel.2
  if color.a < 1 / 2 then none
  else some {
    pixel := pixel
    position := ⟨-(11 / 2) + cell.1 * (11 / 2), 0, -(11 / 2) + cell.2 * (11 / 2)⟩
    rotated := cell.2 % 2 ≠ 0
    wallType := wallType color }

def walls (image : LevelImage) : List Wall := image.wallCells.filterMap image.wall

theorem wallPixel_injective (image : LevelImage) : Function.Injective image.wallPixel := by
  rintro ⟨x, y⟩ ⟨x', y'⟩ same
  simp only [wallPixel, Prod.mk.injEq] at same
  exact Prod.ext same.1 (by simp only; omega)

theorem wallPixels_nodup (image : LevelImage) : (image.wallCells.map image.wallPixel).Nodup :=
  ((grid_nodup _ _).filter _).map image.wallPixel_injective

theorem mem_walls {image : LevelImage} {w : Wall} (built : w ∈ image.walls) :
    ∃ cell ∈ image.wallCells, w.pixel = image.wallPixel cell ∧
      w.position = ⟨-(11 / 2) + cell.1 * (11 / 2), 0, -(11 / 2) + cell.2 * (11 / 2)⟩ ∧
      w.rotated = decide (cell.2 % 2 ≠ 0) := by
  obtain ⟨cell, visited, built⟩ := List.mem_filterMap.mp built
  simp only [wall] at built
  split at built
  · cases built
  · cases built
    exact ⟨cell, visited, rfl, rfl, rfl⟩

/-- The wall loop builds exactly one wall from a visited pixel that is not transparent. -/
theorem count_walls_of_visible {image : LevelImage} {cell : ℤ × ℤ} (visited : cell ∈ image.wallCells)
    (visible : ¬ (image.getPixel (image.wallPixel cell).1 (image.wallPixel cell).2).a < 1 / 2) :
    (image.walls.map Wall.pixel).count (image.wallPixel cell) = 1 := by
  -- The walls' pixels are some of the pixels visited, in the same order.
  have pixels : ∀ cells : List (ℤ × ℤ), ((cells.filterMap image.wall).map Wall.pixel).Sublist
      (cells.map image.wallPixel) := by
    intro cells
    induction cells with
    | nil => exact List.Sublist.slnil
    | cons head tail inductionHypothesis =>
      simp only [List.filterMap_cons, List.map_cons, wall]
      split
      · rename_i transparent
        split at transparent
        · exact inductionHypothesis.cons _
        · cases transparent
      · rename_i built
        split at built
        · cases built
        · cases built
          exact inductionHypothesis.cons_cons _
  have unique : (image.walls.map Wall.pixel).Nodup :=
    image.wallPixels_nodup.sublist (pixels image.wallCells)
  apply List.count_eq_one_of_mem unique
  refine List.mem_map.mpr ⟨_, List.mem_filterMap.mpr ⟨cell, visited, if_neg visible⟩, rfl⟩

end LevelImage

/-! ## The sides of a tile -/

inductive Side where
  | left | right | near | far
  deriving DecidableEq

namespace Side

/-- The image pixel next to the tile's pixel; rows are numbered from the top. -/
def pixel (side : Side) (image : LevelImage) (tile : FloorTile) : ℤ × ℤ :=
  let (column, row) := image.floorPixel tile.x tile.y
  match side with
  | left => (column - 1, row)
  | right => (column + 1, row)
  | near => (column, row + 1)
  | far => (column, row - 1)

def midpoint (side : Side) (tile : FloorTile) : Vector3 :=
  match side with
  | left => tile.position + ⟨-(11 / 2), 0, 0⟩
  | right => tile.position + ⟨11 / 2, 0, 0⟩
  | near => tile.position + ⟨0, 0, -(11 / 2)⟩
  | far => tile.position + ⟨0, 0, 11 / 2⟩

def isVertical : Side → Bool
  | left | right => true
  | near | far => false

/-- The counters at which the wall loop meets a side of a tile. -/
def cell (side : Side) (tile : FloorTile) : ℤ × ℤ :=
  match side with
  | left => (2 * tile.x, 2 * tile.y + 1)
  | right => (2 * tile.x + 2, 2 * tile.y + 1)
  | near => (2 * tile.x + 1, 2 * tile.y)
  | far => (2 * tile.x + 1, 2 * tile.y + 2)

theorem wallPixel_cell (side : Side) (image : LevelImage) (tile : FloorTile) :
    image.wallPixel (side.cell tile) = side.pixel image tile := by
  cases side <;> simp only [cell, pixel, LevelImage.floorPixel, LevelImage.wallPixel, Prod.mk.injEq] <;>
    omega

theorem cell_visited (side : Side) {image : LevelImage} {tile : FloorTile}
    (created : tile ∈ image.floorTiles) : side.cell tile ∈ image.wallCells := by
  obtain ⟨⟨xNonneg, xBelow⟩, ⟨yNonneg, yBelow⟩, _⟩ := LevelImage.mem_floorTiles created
  -- The tile's counters count every second pixel: twice the counter plus two is still in the image.
  have columns := two_mul_add_two_le_of_lt_tdiv xNonneg xBelow
  have rows := two_mul_add_two_le_of_lt_tdiv yNonneg yBelow
  simp only [LevelImage.wallCells, List.mem_filter, mem_grid, decide_eq_true_eq]
  cases side <;> simp only [cell] <;> omega

theorem position_of_cell (side : Side) (tile : FloorTile) :
    (⟨-(11 / 2) + (side.cell tile).1 * (11 / 2), 0, -(11 / 2) + (side.cell tile).2 * (11 / 2)⟩ : Vector3)
      = side.midpoint tile := by
  cases side <;> ext <;> simp [cell, midpoint, FloorTile.position] <;> ring

theorem rotated_of_cell (side : Side) (tile : FloorTile) :
    decide ((side.cell tile).2 % 2 ≠ 0) = side.isVertical := by
  cases side with
  | left | right =>
    rw [isVertical, decide_eq_true_iff]
    simp only [cell]; omega
  | near | far =>
    rw [isVertical, decide_eq_false_iff_not]
    simp only [cell]; omega

theorem midpoint_distance (side : Side) (tile : FloorTile) :
    (side.midpoint tile - tile.position).lengthSquared = (11 / 2) ^ 2 := by
  cases side <;> simp [midpoint, Vector3.lengthSquared] <;> norm_num

/-- A wall read from the pixel beside a tile stands on the midpoint of that side. -/
theorem wall_on_side (side : Side) {image : LevelImage} {tile : FloorTile} {w : Wall}
    (built : w ∈ image.walls) (beside : w.pixel = side.pixel image tile) :
    w.position = side.midpoint tile ∧ w.rotated = side.isVertical := by
  obtain ⟨cell, _, pixel, position, rotated⟩ := LevelImage.mem_walls built
  -- A pixel is read at one pair of counters only.
  have same : cell = side.cell tile := by
    apply image.wallPixel_injective
    rw [← pixel, beside, wallPixel_cell]
  subst same
  exact ⟨position.trans (position_of_cell side tile), rotated.trans (rotated_of_cell side tile)⟩

end Side

/-! ## Agreement of the passes -/

structure SideAgrees (image : LevelImage) (tile : FloorTile) (side : Side) : Prop where
  insideImage : (0 ≤ (side.pixel image tile).1 ∧ (side.pixel image tile).1 < image.width) ∧
    (0 ≤ (side.pixel image tile).2 ∧ (side.pixel image tile).2 < image.height)
  visitedOnce : (image.wallCells.map image.wallPixel).count (side.pixel image tile) = 1
  builtOnce : ¬ (image.getPixel (side.pixel image tile).1 (side.pixel image tile).2).a < 1 / 2 →
    (image.walls.map Wall.pixel).count (side.pixel image tile) = 1
  placed : ∀ w ∈ image.walls, w.pixel = side.pixel image tile →
    w.position = side.midpoint tile ∧ (w.rotated = true ↔ side = .left ∨ side = .right)
  /-- A wall between two tiles is 5.5 m from both centres. -/
  equidistant : ∀ other ∈ image.floorTiles, ∀ facing : Side,
    facing.pixel image other = side.pixel image tile →
      ∀ w ∈ image.walls, w.pixel = side.pixel image tile →
        (w.position - tile.position).lengthSquared = (11 / 2) ^ 2 ∧
          (w.position - other.position).lengthSquared = (11 / 2) ^ 2

/-- The wall pass and the floor pass agree on the grid, for every image size. -/
theorem passes_agree (image : LevelImage) (tile : FloorTile) (created : tile ∈ image.floorTiles)
    (side : Side) : SideAgrees image tile side := by
  have visited := side.cell_visited created
  have pixel := side.wallPixel_cell image tile
  constructor
  · obtain ⟨inImage, _⟩ := List.mem_filter.mp visited
    obtain ⟨columns, rows⟩ := mem_grid.mp inImage
    rw [← pixel]
    simp only [LevelImage.wallPixel]
    omega
  · rw [← pixel]
    exact List.count_eq_one_of_mem image.wallPixels_nodup (List.mem_map_of_mem visited)
  · intro visible
    rw [← pixel] at visible ⊢
    exact LevelImage.count_walls_of_visible visited visible
  · intro w built beside
    obtain ⟨position, rotated⟩ := side.wall_on_side built beside
    refine ⟨position, ?_⟩
    rw [rotated]
    cases side <;> simp [Side.isVertical]
  -- The shared pixel is a side of both tiles, and each side has its midpoint 5.5 m away.
  · intro other _ facing shared w built beside
    have onSide := (side.wall_on_side built beside).1
    have onFacing := (facing.wall_on_side built (beside.trans shared.symm)).1
    constructor
    · rw [onSide, side.midpoint_distance]
    · rw [onFacing, facing.midpoint_distance]

/-- A column of three tiles: the image is seven pixels high, and each pixel between two tiles is
    a wall of both. -/
def corridorImage : LevelImage := ⟨4, 7, fun _ _ => Color.white⟩

/-- The wall between the last two tiles of the column, as the middle one sees it. -/
theorem passes_agree_corridor :
    ⟨(1, 2), ⟨0, 0, 33 / 2⟩, false, .filler⟩ ∈ corridorImage.walls ∧
      Side.far.pixel corridorImage ⟨0, 1, Color.white⟩ = Side.near.pixel corridorImage ⟨0, 2, Color.white⟩ ∧
      SideAgrees corridorImage ⟨0, 1, Color.white⟩ .far := by
  refine ⟨by decide +kernel, by decide +kernel, ?_⟩
  exact passes_agree corridorImage ⟨0, 1, Color.white⟩ (by decide +kernel) .far

end SneakySneaky
