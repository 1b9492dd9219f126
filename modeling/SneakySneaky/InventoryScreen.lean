import SneakySneaky.Game

/-! # The inventory screen

While its button is held, `Inventory::Update` shows a panel with an element for each item.  The
elements are made anew in every frame once an item has been added: only `AddItem` sets the
dirty flag, removals do not, and nothing clears it.

The elements are laid out from left to right by a cursor in whole pixels that wraps when it
passes the padding at the right.  All truncations together move it by less than eleven
pixels, and the padding is at least twenty, so it wraps after every fifth element. -/

namespace SneakySneaky

open SneakySneaky.Foundation

/-! ## The layout -/

/-- The size of the panel and the ratio by which the paddings are scaled. -/
structure PanelSize where
  width : ℤ
  pixelRatio : ℚ
  deriving DecidableEq

/-- The element of an item: a square, with the item's name as its label. -/
structure ItemElement where
  x : ℤ
  y : ℤ
  w : ℤ
  label : String
  deriving DecidableEq

namespace Inventory

def padding : ℚ := 20

structure Cursor where
  x : ℤ
  y : ℤ
  deriving DecidableEq

variable (panel : PanelSize)

def elementSize : ℤ := Game.toInt ((panel.width - padding * 6 * panel.pixelRatio) / 5)

def Cursor.start : Cursor :=
  ⟨Game.toInt (padding * panel.pixelRatio), Game.toInt (padding * panel.pixelRatio)⟩

/-- The assignments to `x` and `y` at the end of the loop's body; each sum is truncated. -/
def Cursor.advance (cursor : Cursor) : Cursor :=
  let x := Game.toInt (cursor.x + (elementSize panel + padding * panel.pixelRatio))
  if panel.width - padding * panel.pixelRatio ≤ x then
    ⟨Game.toInt (padding * panel.pixelRatio),
      Game.toInt (cursor.y + (elementSize panel + padding * panel.pixelRatio))⟩
  else ⟨x, cursor.y⟩

def layout : Cursor → List String → List ItemElement
  | _, [] => []
  | cursor, label :: labels =>
    ⟨cursor.x, cursor.y, elementSize panel, label⟩ :: layout (cursor.advance panel) labels

@[simp] theorem layout_labels (cursor : Cursor) (labels : List String) :
    (layout panel cursor labels).map ItemElement.label = labels := by
  induction labels generalizing cursor with
  | nil => rfl
  | cons label labels inductionHypothesis => rw [layout, List.map_cons, inductionHypothesis]

end Inventory

/-! ## The screen -/

/-- The inventory, whether its panel is visible, and the children of the panel. -/
structure InventoryScreen where
  inventory : Inventory
  visible : Bool
  children : List ItemElement
  deriving DecidableEq

inductive InventoryEvent where
  | addItem (item : ℕ)
  | getItemOfType (type : String) (remove : Bool)
  | update (tabDown : Bool)
  deriving DecidableEq

namespace InventoryScreen

/-- No items and an empty panel; `dirty_` is not initialised. -/
def start (dirty : Bool) : InventoryScreen := ⟨⟨[], dirty⟩, false, []⟩

variable (panel : PanelSize) (typeOf nameOf : ℕ → String)

def update (screen : InventoryScreen) (tabDown : Bool) : InventoryScreen :=
  if !tabDown then { screen with visible := false }
  else
    { screen with
      visible := true
      children :=
        if screen.inventory.dirty then
          Inventory.layout panel (.start panel) (screen.inventory.items.map nameOf)
        else screen.children }

def step (screen : InventoryScreen) : InventoryEvent → InventoryScreen
  | .addItem item => { screen with inventory := screen.inventory.addItem item }
  | .getItemOfType type remove =>
    { screen with inventory := (screen.inventory.getItemOfType typeOf type remove).1 }
  | .update tabDown => screen.update panel nameOf tabDown

/-! ## The screen shows the items -/

/-- The panel will be made anew, or there is nothing to show on it. -/
def Fresh (screen : InventoryScreen) : Prop :=
  screen.inventory.dirty = true ∨ (screen.inventory.items = [] ∧ screen.children = [])

variable {panel typeOf nameOf}

theorem getItemOfType_dirty (inventory : Inventory) (type : String) (remove : Bool) :
    (inventory.getItemOfType typeOf type remove).1.dirty = inventory.dirty := by
  simp only [Inventory.getItemOfType]
  split
  · rfl
  · cases remove <;> rfl

theorem getItemOfType_empty {inventory : Inventory} (empty : inventory.items = []) (type : String) (remove : Bool) :
    (inventory.getItemOfType typeOf type remove).1 = inventory := by
  simp [Inventory.getItemOfType, empty]

theorem Fresh.step {screen : InventoryScreen} (fresh : screen.Fresh) (event : InventoryEvent) :
    (screen.step panel typeOf nameOf event).Fresh := by
  cases event with
  | addItem item => exact .inl rfl
  | getItemOfType type remove =>
    cases fresh with
    | inl dirty =>
      apply Or.inl
      show (screen.inventory.getItemOfType typeOf type remove).1.dirty = true
      rw [getItemOfType_dirty, dirty]
    | inr empty =>
      apply Or.inr
      show (screen.inventory.getItemOfType typeOf type remove).1.items = [] ∧ screen.children = []
      rw [getItemOfType_empty empty.1]
      exact empty
  | update tabDown =>
    cases tabDown with
    | false => exact fresh
    | true =>
      cases fresh with
      | inl dirty => exact .inl dirty
      | inr empty =>
        obtain ⟨items, children⟩ := empty
        apply Or.inr
        refine ⟨items, ?_⟩
        simp only [InventoryScreen.step, update, items, children, List.map_nil, Inventory.layout, ite_self,
          Bool.not_true, Bool.false_eq_true, if_false]

/-- An update with the button down leaves the layout of the present items. -/
theorem Fresh.update_children {screen : InventoryScreen} (fresh : screen.Fresh) :
    (screen.update panel nameOf true).children =
      Inventory.layout panel (.start panel) (screen.inventory.items.map nameOf) := by
  simp only [update, Bool.not_true, Bool.false_eq_true, if_false]
  cases fresh with
  | inl dirty => rw [if_pos dirty]
  | inr empty =>
    obtain ⟨items, children⟩ := empty
    rw [items, children, List.map_nil, Inventory.layout, ite_self]

variable (panel typeOf nameOf)

theorem run_fresh (dirty : Bool) (events : List InventoryEvent) :
    (run (step panel typeOf nameOf) (start dirty) events).Fresh :=
  run_invariant Fresh (fun _ event fresh => fresh.step event) (.inr ⟨rfl, rfl⟩) events

/-- The screen after an update with the button down, whatever has happened before. -/
theorem run_update (dirty : Bool) (events : List InventoryEvent) :
    let screen := run (step panel typeOf nameOf) (start dirty) (events ++ [.update true])
    screen.visible = true ∧
      screen.children = Inventory.layout panel (.start panel) (screen.inventory.items.map nameOf) := by
  intro screen
  have fresh := run_fresh panel typeOf nameOf dirty events
  have updated : screen =
      (run (step panel typeOf nameOf) (start dirty) events).update panel nameOf true := by
    show run _ _ (events ++ [.update true]) = _
    rw [run_append]
    rfl
  rw [updated]
  exact ⟨rfl, fresh.update_children⟩

end InventoryScreen

/-- Whatever has happened before, an update with the button down shows the panel with the names of the
    items in order. -/
theorem inventory_screen_current (panel : PanelSize) (typeOf nameOf : ℕ → String) (dirty : Bool)
    (events : List InventoryEvent) :
    let screen := run (InventoryScreen.step panel typeOf nameOf) (.start dirty) (events ++ [.update true])
    screen.visible = true ∧ screen.children.map ItemElement.label = screen.inventory.items.map nameOf := by
  intro screen
  obtain ⟨visible, children⟩ := InventoryScreen.run_update panel typeOf nameOf dirty events
  refine ⟨visible, ?_⟩
  rw [show screen.children = _ from children, Inventory.layout_labels]

/-! ## The grid -/

namespace PanelSize

/-- The panel is scaled up, and has room for the paddings of five columns. -/
structure Roomy (panel : PanelSize) : Prop where
  scaled : 1 ≤ panel.pixelRatio
  wide : 120 * panel.pixelRatio < panel.width

/-- The padding and the size of an element in whole pixels. -/
def gap (panel : PanelSize) : ℤ := ⌊20 * panel.pixelRatio⌋
def cell (panel : PanelSize) : ℤ := ⌊(panel.width - 120 * panel.pixelRatio) / 5⌋

/-- Where the element with some number stands. -/
def place (panel : PanelSize) (i : ℕ) : Inventory.Cursor :=
  ⟨panel.gap + (i % 5 : ℕ) * (panel.cell + panel.gap), panel.gap + (i / 5 : ℕ) * (panel.cell + panel.gap)⟩

variable {panel : PanelSize}

theorem Roomy.gap_bounds (roomy : panel.Roomy) :
    20 ≤ panel.gap ∧ (panel.gap : ℚ) ≤ 20 * panel.pixelRatio ∧ 20 * panel.pixelRatio < panel.gap + 1 := by
  have scaled := roomy.scaled
  refine ⟨?_, Int.floor_le _, Int.lt_floor_add_one _⟩
  apply Int.le_floor.mpr
  push_cast
  linarith

theorem Roomy.cell_bounds (roomy : panel.Roomy) :
    0 ≤ panel.cell ∧ (5 * panel.cell : ℚ) ≤ panel.width - 120 * panel.pixelRatio ∧
      panel.width - 120 * panel.pixelRatio < 5 * panel.cell + 5 := by
  have wide := roomy.wide
  have low := Int.floor_le ((panel.width - 120 * panel.pixelRatio) / 5)
  have high := Int.lt_floor_add_one ((panel.width - 120 * panel.pixelRatio) / 5)
  rw [le_div_iff₀ (by norm_num)] at low
  rw [div_lt_iff₀ (by norm_num)] at high
  refine ⟨?_, ?_, ?_⟩
  · apply Int.floor_nonneg.mpr
    apply div_nonneg
    · linarith
    · norm_num
  · rw [cell]
    linarith
  · rw [cell]
    linarith

/-! ### The cursor -/

theorem Roomy.toInt_padding (roomy : panel.Roomy) :
    Game.toInt (Inventory.padding * panel.pixelRatio) = panel.gap := by
  have scaled := roomy.scaled
  rw [Inventory.padding, Game.toInt_of_nonneg (by linarith), gap]

theorem Roomy.elementSize (roomy : panel.Roomy) : Inventory.elementSize panel = panel.cell := by
  have wide := roomy.wide
  have same : ((panel.width : ℚ) - Inventory.padding * 6 * panel.pixelRatio) / 5 =
      (panel.width - 120 * panel.pixelRatio) / 5 := by
    rw [Inventory.padding]
    ring
  rw [Inventory.elementSize, same, Game.toInt_of_nonneg, cell]
  apply div_nonneg
  · linarith
  · norm_num

/-- A coordinate, the size of an element and a padding: only the padding is truncated. -/
theorem Roomy.toInt_add (roomy : panel.Roomy) {coordinate : ℤ} (nonneg : 0 ≤ coordinate) :
    Game.toInt (coordinate + (Inventory.elementSize panel + Inventory.padding * panel.pixelRatio)) =
      coordinate + (panel.cell + panel.gap) := by
  have scaled := roomy.scaled
  have size : (0 : ℚ) ≤ panel.cell := Int.cast_nonneg roomy.cell_bounds.1
  have start : (0 : ℚ) ≤ coordinate := Int.cast_nonneg nonneg
  have sum : (coordinate : ℚ) + (panel.cell + Inventory.padding * panel.pixelRatio) =
      20 * panel.pixelRatio + (coordinate + panel.cell : ℤ) := by
    rw [Inventory.padding]
    push_cast
    ring
  rw [roomy.elementSize, sum, Game.toInt_of_nonneg, Int.floor_add_intCast, gap]
  · ring
  · push_cast
    linarith

theorem Roomy.place_start (roomy : panel.Roomy) : Inventory.Cursor.start panel = panel.place 0 := by
  simp [Inventory.Cursor.start, place, roomy.toInt_padding]

/-- The cursor wraps after the fifth element of a row and not before. -/
theorem Roomy.wraps_iff (roomy : panel.Roomy) (i : ℕ) :
    panel.width - Inventory.padding * panel.pixelRatio ≤
        ((panel.place i).x + (panel.cell + panel.gap) : ℤ) ↔ i % 5 = 4 := by
  obtain ⟨gapLarge, gapBelow, gapAbove⟩ := roomy.gap_bounds
  obtain ⟨cellNonneg, cellBelow, cellAbove⟩ := roomy.cell_bounds
  have scaled := roomy.scaled
  have wide := roomy.wide
  simp only [place, Inventory.padding]
  have most : i % 5 ≤ 4 := by omega
  generalize i % 5 = column at *
  push_cast
  constructor
  · intro wraps
    by_contra early
    -- Before the fifth element there are at most five paddings and four elements to the left.
    have few : (column : ℚ) ≤ 3 := by
      have small : column ≤ 3 := by omega
      exact_mod_cast small
    have step : (0 : ℚ) ≤ panel.cell + panel.gap := by
      have sum : 0 ≤ panel.cell + panel.gap := by omega
      exact_mod_cast sum
    have left := mul_le_mul_of_nonneg_right few step
    linarith
  · intro last
    rw [last]
    push_cast
    linarith

theorem Roomy.place_advance (roomy : panel.Roomy) (i : ℕ) :
    (panel.place i).advance panel = panel.place (i + 1) := by
  have gapLarge := roomy.gap_bounds.1
  have cellNonneg := roomy.cell_bounds.1
  have step : 0 ≤ panel.cell + panel.gap := by omega
  have xNonneg : 0 ≤ (panel.place i).x := by
    have across : 0 ≤ ((i % 5 : ℕ) : ℤ) * (panel.cell + panel.gap) := mul_nonneg (Int.natCast_nonneg _) step
    simp only [place]
    omega
  have yNonneg : 0 ≤ (panel.place i).y := by
    have down : 0 ≤ ((i / 5 : ℕ) : ℤ) * (panel.cell + panel.gap) := mul_nonneg (Int.natCast_nonneg _) step
    simp only [place]
    omega
  simp only [Inventory.Cursor.advance, roomy.toInt_add xNonneg, roomy.toInt_add yNonneg, roomy.toInt_padding,
    roomy.wraps_iff]
  by_cases last : i % 5 = 4
  · have column : (i + 1) % 5 = 0 := by omega
    have row : (i + 1) / 5 = i / 5 + 1 := by omega
    rw [if_pos last]
    simp only [place, column, row, Inventory.Cursor.mk.injEq]
    refine ⟨by simp, ?_⟩
    push_cast
    ring
  · have column : (i + 1) % 5 = i % 5 + 1 := by omega
    have row : (i + 1) / 5 = i / 5 := by omega
    rw [if_neg last]
    simp only [place, column, row, Inventory.Cursor.mk.injEq, and_true]
    push_cast
    ring

/-- The elements stand where their numbers say. -/
theorem Roomy.layout_getElem? (roomy : panel.Roomy) (first : ℕ) (labels : List String) (i : ℕ) :
    (Inventory.layout panel (panel.place first) labels)[i]? = labels[i]?.map fun label =>
      ⟨(panel.place (first + i)).x, (panel.place (first + i)).y, panel.cell, label⟩ := by
  induction labels generalizing first i with
  | nil => rfl
  | cons label labels inductionHypothesis =>
    rw [Inventory.layout, roomy.place_advance, roomy.elementSize]
    cases i with
    | zero => rfl
    | succ i =>
      rw [List.getElem?_cons_succ, List.getElem?_cons_succ, inductionHypothesis, Nat.add_right_comm, Nat.add_assoc]

end PanelSize

/-- Elements in five columns: `i / 5` is the row of an element and `i % 5` its column. -/
structure FiveColumns (panel : PanelSize) (elements : List ItemElement) : Prop where
  placed : ∀ (i : ℕ) (element : ItemElement), elements[i]? = some element →
    element.x = (panel.place i).x ∧ element.y = (panel.place i).y ∧ element.w = panel.cell
  sameRow : ∀ (i j : ℕ) (left right : ItemElement), elements[i]? = some left → elements[j]? = some right →
    i / 5 = j / 5 → left.y = right.y
  sameColumn : ∀ (i j : ℕ) (above below : ItemElement), elements[i]? = some above → elements[j]? = some below →
    i % 5 = j % 5 → above.x = below.x
  /-- In a row the elements go to the right without overlapping. -/
  apart : ∀ (i j : ℕ) (left right : ItemElement), elements[i]? = some left → elements[j]? = some right →
    i / 5 = j / 5 → i < j → left.x < right.x ∧ left.x + left.w ≤ right.x
  inPanel : ∀ (i : ℕ) (element : ItemElement), elements[i]? = some element →
    0 ≤ element.w ∧ (element.x + element.w : ℚ) ≤ panel.width - 20 * panel.pixelRatio
  /-- A later row starts below the bottom of an earlier one. -/
  below : ∀ (i j : ℕ) (upper lower : ItemElement), elements[i]? = some upper → elements[j]? = some lower →
    i / 5 < j / 5 → upper.y + upper.w < lower.y

theorem PanelSize.Roomy.fiveColumns {panel : PanelSize} (roomy : panel.Roomy) {elements : List ItemElement}
    (placed : ∀ (i : ℕ) (element : ItemElement), elements[i]? = some element →
      element.x = (panel.place i).x ∧ element.y = (panel.place i).y ∧ element.w = panel.cell) :
    FiveColumns panel elements := by
  obtain ⟨gapLarge, gapBelow, -⟩ := roomy.gap_bounds
  obtain ⟨cellNonneg, cellBelow, -⟩ := roomy.cell_bounds
  have positive : 0 < panel.cell + panel.gap := by omega
  -- A step of the grid holds an element and a padding.
  have later : ∀ m n : ℕ, m < n →
      (m : ℤ) * (panel.cell + panel.gap) + (panel.cell + panel.gap) ≤ n * (panel.cell + panel.gap) := by
    intro m n less
    have next : (m : ℤ) + 1 ≤ n := by omega
    calc (m : ℤ) * (panel.cell + panel.gap) + (panel.cell + panel.gap)
        = (m + 1) * (panel.cell + panel.gap) := by ring
      _ ≤ n * (panel.cell + panel.gap) := mul_le_mul_of_nonneg_right next positive.le
  constructor
  · exact placed
  · intro i j left right atLeft atRight same
    rw [(placed i left atLeft).2.1, (placed j right atRight).2.1, PanelSize.place, PanelSize.place, same]
  · intro i j above below atAbove atBelow same
    rw [(placed i above atAbove).1, (placed j below atBelow).1, PanelSize.place, PanelSize.place, same]
  · intro i j left right atLeft atRight same less
    obtain ⟨leftX, -, leftW⟩ := placed i left atLeft
    obtain ⟨rightX, -, -⟩ := placed j right atRight
    have columns := later (i % 5) (j % 5) (by omega)
    simp only [PanelSize.place] at leftX rightX
    omega
  · intro i element atElement
    obtain ⟨elementX, -, elementW⟩ := placed i element atElement
    have column : ((i % 5 : ℕ) : ℤ) * (panel.cell + panel.gap) ≤ 4 * (panel.cell + panel.gap) :=
      mul_le_mul_of_nonneg_right (by omega) positive.le
    simp only [PanelSize.place] at elementX
    have rightEnd : element.x + element.w ≤ 5 * panel.gap + 5 * panel.cell := by omega
    have cast : (element.x + element.w : ℚ) ≤ 5 * panel.gap + 5 * panel.cell := by exact_mod_cast rightEnd
    constructor
    · omega
    · linarith
  · intro i j upper lower atUpper atLower less
    obtain ⟨-, upperY, upperW⟩ := placed i upper atUpper
    obtain ⟨-, lowerY, -⟩ := placed j lower atLower
    have rows := later (i / 5) (j / 5) less
    simp only [PanelSize.place] at upperY lowerY
    omega

/-- Whatever has happened before, an update with the button down lays the items out in five columns. -/
theorem inventory_grid (panel : PanelSize) (scaled : 1 ≤ panel.pixelRatio)
    (wide : 120 * panel.pixelRatio < panel.width) (typeOf nameOf : ℕ → String) (dirty : Bool)
    (events : List InventoryEvent) :
    let screen := run (InventoryScreen.step panel typeOf nameOf) (.start dirty) (events ++ [.update true])
    screen.children.length = screen.inventory.items.length ∧ FiveColumns panel screen.children := by
  intro screen
  have roomy : panel.Roomy := ⟨scaled, wide⟩
  have laidOut : screen.children =
      Inventory.layout panel (panel.place 0) (screen.inventory.items.map nameOf) := by
    rw [← roomy.place_start]
    exact (InventoryScreen.run_update panel typeOf nameOf dirty events).2
  constructor
  · have labels := congrArg List.length (Inventory.layout_labels panel (panel.place 0)
      (screen.inventory.items.map nameOf))
    rw [← laidOut, List.length_map, List.length_map] at labels
    exact labels
  · apply roomy.fiveColumns
    intro i element atElement
    rw [laidOut, roomy.layout_getElem?, Option.map_eq_some_iff] at atElement
    obtain ⟨label, -, rfl⟩ := atElement
    rw [Nat.zero_add]
    exact ⟨rfl, rfl, rfl⟩

/-- A ratio of one and a half, a panel of 1001 pixels, and six items. -/
theorem inventory_grid_sixItems :
    let screen := run (InventoryScreen.step ⟨1001, 3 / 2⟩ (fun _ => "Throwable") (fun _ => "Rock")) (.start false)
      ([.addItem 0, .addItem 1, .addItem 2, .addItem 3, .addItem 4, .addItem 5] ++ [.update true])
    screen.children.length = screen.inventory.items.length ∧ FiveColumns ⟨1001, 3 / 2⟩ screen.children :=
  inventory_grid ⟨1001, 3 / 2⟩ (by norm_num) (by norm_num) (fun _ => "Throwable") (fun _ => "Rock") false
    [.addItem 0, .addItem 1, .addItem 2, .addItem 3, .addItem 4, .addItem 5]

end SneakySneaky
