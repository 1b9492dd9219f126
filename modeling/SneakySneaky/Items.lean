import SneakySneaky.Engine
import SneakySneaky.Foundation.Runs

/-! # Pickups, the inventory, thrown items and padlocks

A pickup lies in the level, is held in the inventory, or has been thrown.  The three
states are spread over the enabled flags of its node and of its component and over the
inventory's list, which `Pickup`, `Thrower`, `SelfDestroy` and `Inventory` write one at a
time.  `Pickup.Move` lists what one step can do to one pickup; the life cycle follows
from it.

Sounds, particles, the physics of a thrown item and the UI panels are left out. -/

namespace SneakySneaky

open SneakySneaky.Foundation

/-! ## The classes -/

structure SelfDestroy where
  lifeTime : ℚ
  decayTime : ℚ
  deriving DecidableEq

structure Pickup where
  type : String
  displayName : String
  nodeEnabled : Bool
  componentEnabled : Bool
  nodeRemoved : Bool
  modelEnabled : Bool
  selfDestroy : Option SelfDestroy
  deriving DecidableEq

namespace Pickup

def loadFromXML (element : XMLElement) : Pickup where
  type := if element.hasAttribute "type" then element.getAttribute "type" else element.getAttribute "model"
  displayName :=
    if element.hasAttribute "name" then element.getAttribute "name"
    else if element.hasAttribute "type" then element.getAttribute "type"
    else element.getAttribute "model"
  nodeEnabled := true
  componentEnabled := true
  nodeRemoved := false
  modelEnabled := true
  selfDestroy := none

/-- The engine calls `Pickup::Update` only while node and component are enabled. -/
def updates (pickup : Pickup) : Bool :=
  pickup.nodeEnabled && pickup.componentEnabled && !pickup.nodeRemoved

/-- What `Thrower::Update` does to the item's node. -/
def throw (pickup : Pickup) : Pickup :=
  { pickup with nodeEnabled := true, componentEnabled := false, selfDestroy := some ⟨7, 3⟩ }

/-- `SelfDestroy::Update`, which the engine calls only while the node is enabled.  Both times are floats; what their
    subtractions round is left out. -/
def selfDestroyUpdate (pickup : Pickup) (timeStep : ℚ) : Pickup :=
  match pickup.selfDestroy with
  | none => pickup
  | some timer =>
    if !pickup.nodeEnabled || pickup.nodeRemoved || timer.lifeTime = 0 then pickup
    else
      -- The model blinks, faster as its life runs out.
      let lifeTime := timer.lifeTime - timeStep
      if timer.decayTime ≤ 0 then
        { pickup with
          modelEnabled := !pickup.modelEnabled
          selfDestroy := some ⟨lifeTime, timer.lifeTime * (1 / 10)⟩
          nodeRemoved := lifeTime ≤ 0 }
      else
        { pickup with
          selfDestroy := some ⟨lifeTime, timer.decayTime - timeStep⟩
          nodeRemoved := lifeTime ≤ 0 }

end Pickup

/-- `String::Compare(type, false) == 0`. -/
def sameType (left right : String) : Bool := left.toLower = right.toLower

/-- `items_` holds pointers to pickups: here their indices. -/
structure Inventory where
  items : List ℕ
  dirty : Bool
  deriving DecidableEq

namespace Inventory

def addItem (inventory : Inventory) (item : ℕ) : Inventory := ⟨inventory.items ++ [item], true⟩

def itemCount (inventory : Inventory) : ℕ := inventory.items.length

def getItemOfType (inventory : Inventory) (typeOf : ℕ → String) (type : String) (remove : Bool) :
    Inventory × Option ℕ :=
  match inventory.items.find? fun item => sameType (typeOf item) type with
  | none => (inventory, none)
  | some item =>
    (if remove then { inventory with items := inventory.items.erase item } else inventory, some item)

end Inventory

structure Padlock where
  type : String
  content : String
  nodeRemoved : Bool
  deriving DecidableEq

namespace Padlock

def loadFromXML (element : XMLElement) : Padlock :=
  let content := if element.value ≠ "" then element.value else "Lemons."
  { type := if element.hasAttribute "type" then element.getAttribute "type" else content
    content := content
    nodeRemoved := false }

/-- `CanPlayerInteract`, given the player's position minus the padlock's. -/
def canPlayerInteract (difference : Vector3) : Bool := !decide (1 < difference.lengthSquared)

end Padlock

/-! ## The items of a level -/

structure Items where
  pickups : List Pickup
  inventory : Inventory
  padlocks : List Padlock
  deriving DecidableEq

inductive Body where
  | person | other
  deriving DecidableEq

inductive ItemEvent where
  | pickupUpdate (pickup : ℕ) (colliders : List Body)
  | selfDestroyUpdate (pickup : ℕ) (timeStep : ℚ)
  | throwerUpdate (throwPressed : Bool)
  | padlockUpdate (padlock : ℕ) (difference : Vector3)
  | inventoryUpdate
  deriving DecidableEq

inductive ItemAction where
  | nothing
  | collected (pickup : ℕ)
  | thrown (pickup : ℕ)
  | unlocked (padlock : ℕ)
  deriving DecidableEq

namespace Items

/-- The items of a level as loaded; `dirty` is not initialised. -/
def load (pickups padlocks : List XMLElement) (dirty : Bool) : Items :=
  ⟨pickups.map Pickup.loadFromXML, ⟨[], dirty⟩, padlocks.map Padlock.loadFromXML⟩

def typeOf (items : Items) (pickup : ℕ) : String := (items.pickups[pickup]?.map Pickup.type).getD ""

def step (items : Items) : ItemEvent → Items × ItemAction
  -- Of the colliding bodies only the first is looked at.
  | .pickupUpdate pickup colliders =>
    if (items.pickups[pickup]?.map Pickup.updates) = some true ∧ colliders.head? = some .person then
      ({ items with
          inventory := items.inventory.addItem pickup
          pickups := items.pickups.modify pickup ({ · with nodeEnabled := false }) },
        .collected pickup)
    else (items, .nothing)
  | .selfDestroyUpdate pickup timeStep =>
    ({ items with pickups := items.pickups.modify pickup (·.selfDestroyUpdate timeStep) }, .nothing)
  | .throwerUpdate throwPressed =>
    if !throwPressed then (items, .nothing)
    else
      match items.inventory.getItemOfType items.typeOf "Throwable" true with
      | (inventory, none) => ({ items with inventory := inventory }, .nothing)
      -- The node comes back to life, its `Pickup` does not.
      | (inventory, some pickup) =>
        ({ items with inventory := inventory, pickups := items.pickups.modify pickup Pickup.throw },
          .thrown pickup)
  | .padlockUpdate padlock difference =>
    match items.padlocks[padlock]? with
    | none => (items, .nothing)
    | some lock =>
      if lock.nodeRemoved || !Padlock.canPlayerInteract difference then (items, .nothing)
      else
        match items.inventory.getItemOfType items.typeOf lock.type false with
        | (inventory, none) => ({ items with inventory := inventory }, .nothing)
        -- The key stays in the inventory.
        | (inventory, some _) =>
          ({ items with
              inventory := inventory
              padlocks := items.padlocks.modify padlock ({ · with nodeRemoved := true }) },
            .unlocked padlock)
  -- `Inventory::Update` only redraws its panel.
  | .inventoryUpdate => (items, .nothing)

end Items

/-! ## What a step does to one pickup -/

/-- What one step can do to one pickup and to the number of its entries in the inventory. -/
inductive Pickup.Move (pickup : Pickup) (entries : ℕ) : Pickup → ℕ → Prop where
  | stay : Move pickup entries pickup entries
  | collect (updates : pickup.updates = true) :
      Move pickup entries { pickup with nodeEnabled := false } (entries + 1)
  | throw (held : 0 < entries) (throwable : sameType pickup.type "Throwable" = true) :
      Move pickup entries pickup.throw (entries - 1)
  | decay (timeStep : ℚ) : Move pickup entries (pickup.selfDestroyUpdate timeStep) entries

namespace Items

def entries (items : Items) (pickup : ℕ) : ℕ := items.inventory.items.count pickup

theorem getItemOfType_keeps (inventory : Inventory) (typeOf : ℕ → String) (type : String) :
    (inventory.getItemOfType typeOf type false).1 = inventory := by
  simp only [Inventory.getItemOfType]
  split <;> rfl

theorem getItemOfType_removes {inventory : Inventory} {typeOf : ℕ → String} {type : String} {item : ℕ}
    (found : (inventory.getItemOfType typeOf type true).2 = some item) :
    item ∈ inventory.items ∧ sameType (typeOf item) type = true ∧
      (inventory.getItemOfType typeOf type true).1.items = inventory.items.erase item := by
  simp only [Inventory.getItemOfType] at found ⊢
  cases search : inventory.items.find? fun item => sameType (typeOf item) type with
  | none => rw [search] at found; cases found
  | some item' =>
    rw [search] at found
    cases found
    have matching := List.find?_some search
    exact ⟨List.mem_of_find?_eq_some search, matching, rfl⟩

theorem getItemOfType_misses {inventory : Inventory} {typeOf : ℕ → String} {type : String} {remove : Bool}
    (found : (inventory.getItemOfType typeOf type remove).2 = none) :
    (inventory.getItemOfType typeOf type remove).1 = inventory := by
  simp only [Inventory.getItemOfType] at found ⊢
  split at found
  · rfl
  · cases found

/-- What a step does to the list and to the pickups, by the action it reports. -/
theorem step_cases (items : Items) (event : ItemEvent) :
    ((items.step event).2 = .nothing ∨ ∃ padlock, (items.step event).2 = .unlocked padlock) ∧
        (items.step event).1.inventory = items.inventory ∧
        ((items.step event).1.pickups = items.pickups ∨ ∃ pickup timeStep,
          (items.step event).1.pickups = items.pickups.modify pickup (·.selfDestroyUpdate timeStep)) ∨
      (∃ pickup, (items.step event).2 = .collected pickup ∧
        items.pickups[pickup]?.map Pickup.updates = some true ∧
        (items.step event).1.inventory = items.inventory.addItem pickup ∧
        (items.step event).1.pickups = items.pickups.modify pickup ({ · with nodeEnabled := false })) ∨
      (∃ pickup, (items.step event).2 = .thrown pickup ∧ pickup ∈ items.inventory.items ∧
        sameType (items.typeOf pickup) "Throwable" = true ∧
        (items.step event).1.inventory.items = items.inventory.items.erase pickup ∧
        (items.step event).1.pickups = items.pickups.modify pickup Pickup.throw) := by
  cases event with
  | inventoryUpdate => exact .inl ⟨.inl rfl, rfl, .inl rfl⟩
  | selfDestroyUpdate pickup timeStep => exact .inl ⟨.inl rfl, rfl, .inr ⟨pickup, timeStep, rfl⟩⟩
  | pickupUpdate pickup colliders =>
    simp only [step]
    split
    · rename_i touched
      exact .inr (.inl ⟨pickup, rfl, touched.1, rfl, rfl⟩)
    · exact .inl ⟨.inl rfl, rfl, .inl rfl⟩
  | throwerUpdate throwPressed =>
    simp only [step]
    split
    · exact .inl ⟨.inl rfl, rfl, .inl rfl⟩
    · split
      · rename_i inventory lookup
        have misses := getItemOfType_misses (congrArg Prod.snd lookup)
        rw [lookup] at misses
        exact .inl ⟨.inl rfl, misses, .inl rfl⟩
      · rename_i inventory pickup lookup
        obtain ⟨held, throwable, removed⟩ := getItemOfType_removes (congrArg Prod.snd lookup)
        rw [lookup] at removed
        exact .inr (.inr ⟨pickup, rfl, held, throwable, removed, rfl⟩)
  | padlockUpdate padlock difference =>
    simp only [step]
    split
    · exact .inl ⟨.inl rfl, rfl, .inl rfl⟩
    · rename_i lock found
      split
      · exact .inl ⟨.inl rfl, rfl, .inl rfl⟩
      · have keeps := getItemOfType_keeps items.inventory items.typeOf lock.type
        split
        · rename_i inventory lookup
          rw [lookup] at keeps
          exact .inl ⟨.inl rfl, keeps, .inl rfl⟩
        · rename_i inventory pickup lookup
          rw [lookup] at keeps
          exact .inl ⟨.inr ⟨padlock, rfl⟩, keeps, .inl rfl⟩

theorem step_move (items : Items) (event : ItemEvent) {i : ℕ} {pickup : Pickup}
    (found : items.pickups[i]? = some pickup) :
    ∃ pickup', (items.step event).1.pickups[i]? = some pickup' ∧
      pickup.Move (items.entries i) pickup' ((items.step event).1.entries i) := by
  simp only [entries]
  rcases step_cases items event with
    ⟨-, inventory, pickups | ⟨moved, timeStep, pickups⟩⟩ | ⟨moved, -, updates, inventory, pickups⟩ |
      ⟨moved, -, held, throwable, inventory, pickups⟩
  · rw [inventory, pickups]
    exact ⟨pickup, found, .stay⟩
  · rw [inventory, pickups, List.getElem?_modify, found]
    by_cases same : moved = i
    · exact ⟨pickup.selfDestroyUpdate timeStep, by simp [same], .decay timeStep⟩
    · exact ⟨pickup, by simp [same], .stay⟩
  · rw [inventory, pickups, List.getElem?_modify, found, Inventory.addItem, List.count_append]
    by_cases same : moved = i
    · subst same
      rw [found] at updates
      refine ⟨{ pickup with nodeEnabled := false }, by simp, ?_⟩
      rw [List.count_singleton_self]
      exact .collect (Option.some.inj updates)
    · refine ⟨pickup, by simp [same], ?_⟩
      rw [List.count_singleton, if_neg (by simpa using same), Nat.add_zero]
      exact .stay
  · rw [inventory, pickups, List.getElem?_modify, found]
    by_cases same : moved = i
    · subst same
      refine ⟨pickup.throw, by simp, ?_⟩
      rw [List.count_erase_self]
      refine .throw (List.count_pos_iff.mpr held) ?_
      simpa [typeOf, found] using throwable
    · refine ⟨pickup, by simp [same], ?_⟩
      rw [List.count_erase_of_ne (Ne.symm same)]
      exact .stay

theorem step_missing {items : Items} {i : ℕ} (missing : items.pickups[i]? = none) (event : ItemEvent) :
    (items.step event).1.pickups[i]? = none := by
  rcases step_cases items event with
    ⟨-, -, pickups | ⟨moved, timeStep, pickups⟩⟩ | ⟨moved, -, -, -, pickups⟩ | ⟨moved, -, -, -, -, pickups⟩
  · rw [pickups, missing]
  all_goals rw [pickups, List.getElem?_modify, missing]; rfl

end Items

/-! ## The life cycle -/

inductive Phase where
  | lying | held | thrown
  deriving DecidableEq

/-- The phase of a pickup with some number of entries in the inventory. -/
def Pickup.InPhase (pickup : Pickup) (entries : ℕ) : Phase → Prop
  | .lying => pickup.nodeEnabled = true ∧ pickup.componentEnabled = true ∧ entries = 0
  | .held => pickup.nodeEnabled = false ∧ entries = 1
  | .thrown =>
    (pickup.nodeEnabled = true ∨ pickup.nodeRemoved = true) ∧ pickup.componentEnabled = false ∧ entries = 0

theorem Pickup.InPhase.unique {pickup : Pickup} {entries : ℕ} {phase phase' : Phase}
    (inPhase : pickup.InPhase entries phase) (inPhase' : pickup.InPhase entries phase') : phase = phase' := by
  cases phase <;> cases phase' <;> simp_all [Pickup.InPhase]

/-- The flags and the list agree: a pickup has a phase, and what makes a node removable comes with
    the throw. -/
structure Pickup.Consistent (pickup : Pickup) (entries : ℕ) : Prop where
  hasPhase : ∃ phase, pickup.InPhase entries phase
  active : pickup.componentEnabled = true → pickup.selfDestroy = none ∧ pickup.nodeRemoved = false
  heldActive : 0 < entries → pickup.componentEnabled = true

/-- The next phase, if any, is the one after; only a throwable pickup is thrown. -/
def Phase.Follows (type : String) (phase phase' : Phase) : Prop :=
  phase' = phase ∨ (phase = .lying ∧ phase' = .held) ∨
    (phase = .held ∧ phase' = .thrown ∧ sameType type "Throwable" = true)

namespace Pickup

theorem selfDestroyUpdate_of_none {pickup : Pickup} (alone : pickup.selfDestroy = none) (timeStep : ℚ) :
    pickup.selfDestroyUpdate timeStep = pickup := by
  simp only [selfDestroyUpdate, alone]

/-- The timer changes at most itself, the model and whether the node is removed. -/
theorem selfDestroyUpdate_shape (pickup : Pickup) (timeStep : ℚ) :
    ∃ modelEnabled selfDestroy nodeRemoved, pickup.selfDestroyUpdate timeStep =
      { pickup with modelEnabled := modelEnabled, selfDestroy := selfDestroy, nodeRemoved := nodeRemoved } := by
  unfold selfDestroyUpdate
  split
  · exact ⟨_, _, _, rfl⟩
  · split
    · exact ⟨_, _, _, rfl⟩
    · dsimp only
      split <;> exact ⟨_, _, _, rfl⟩

@[simp] theorem selfDestroyUpdate_nodeEnabled (pickup : Pickup) (timeStep : ℚ) :
    (pickup.selfDestroyUpdate timeStep).nodeEnabled = pickup.nodeEnabled := by
  obtain ⟨_, _, _, updated⟩ := pickup.selfDestroyUpdate_shape timeStep
  rw [updated]

@[simp] theorem selfDestroyUpdate_componentEnabled (pickup : Pickup) (timeStep : ℚ) :
    (pickup.selfDestroyUpdate timeStep).componentEnabled = pickup.componentEnabled := by
  obtain ⟨_, _, _, updated⟩ := pickup.selfDestroyUpdate_shape timeStep
  rw [updated]

theorem selfDestroyUpdate_nodeRemoved {pickup : Pickup} (removed : pickup.nodeRemoved = true) (timeStep : ℚ) :
    (pickup.selfDestroyUpdate timeStep).nodeRemoved = true := by
  simp only [selfDestroyUpdate]
  split
  · exact removed
  · rw [if_pos (by simp [removed])]
    exact removed

theorem InPhase.selfDestroyUpdate {pickup : Pickup} {entries : ℕ} {phase : Phase}
    (inPhase : pickup.InPhase entries phase) (timeStep : ℚ) :
    (pickup.selfDestroyUpdate timeStep).InPhase entries phase := by
  cases phase with
  | lying | held => simpa [InPhase] using inPhase
  | thrown =>
    simp only [InPhase, selfDestroyUpdate_nodeEnabled, selfDestroyUpdate_componentEnabled] at inPhase ⊢
    exact ⟨inPhase.1.imp id (selfDestroyUpdate_nodeRemoved · timeStep), inPhase.2⟩

theorem Move.consistent {pickup pickup' : Pickup} {entries entries' : ℕ}
    (move : pickup.Move entries pickup' entries') (consistent : pickup.Consistent entries) :
    pickup'.Consistent entries' := by
  obtain ⟨⟨phase, inPhase⟩, active, heldActive⟩ := consistent
  cases move with
  | stay => exact ⟨⟨phase, inPhase⟩, active, heldActive⟩
  | decay timeStep =>
    refine ⟨⟨phase, inPhase.selfDestroyUpdate timeStep⟩, ?_, ?_⟩
    · rw [selfDestroyUpdate_componentEnabled]
      intro enabled
      -- An active pickup has no timer yet.
      rw [selfDestroyUpdate_of_none (active enabled).1]
      exact active enabled
    · rw [selfDestroyUpdate_componentEnabled]
      exact heldActive
  | collect updates =>
    simp only [Pickup.updates, Bool.and_eq_true, Bool.not_eq_true'] at updates
    -- An enabled node is not held, so it had no entry yet.
    have none_before : entries = 0 := by
      cases phase with
      | lying => exact inPhase.2.2
      | held => exact absurd inPhase.1 (by simp [updates])
      | thrown => exact inPhase.2.2
    exact ⟨⟨.held, rfl, by rw [none_before]⟩, active, fun _ => updates.1.2⟩
  | throw held throwable =>
    -- It has an entry, so it is held, and held pickups have one.
    have one_before : entries = 1 := by
      cases phase with
      | lying | thrown => exact absurd inPhase.2.2 held.ne'
      | held => exact inPhase.2
    subst one_before
    refine ⟨⟨.thrown, .inl rfl, rfl, rfl⟩, ?_, ?_⟩
    · intro enabled
      cases enabled
    · intro entry
      cases entry

theorem Move.follows {pickup pickup' : Pickup} {entries entries' : ℕ} {phase phase' : Phase}
    (move : pickup.Move entries pickup' entries') (inPhase : pickup.InPhase entries phase)
    (inPhase' : pickup'.InPhase entries' phase') : phase.Follows pickup.type phase' := by
  cases move with
  | stay => exact .inl (inPhase'.unique inPhase)
  | decay timeStep => exact .inl (inPhase'.unique (inPhase.selfDestroyUpdate timeStep))
  | collect updates =>
    simp only [Pickup.updates, Bool.and_eq_true, Bool.not_eq_true'] at updates
    have lying : phase = .lying := by
      cases phase with
      | lying => rfl
      | held => exact absurd inPhase.1 (by simp [updates])
      | thrown => exact absurd inPhase.2.1 (by simp [updates])
    have held : phase' = .held := by
      cases phase' with
      | held => rfl
      | lying | thrown => cases inPhase'.2.2
    exact .inr (.inl ⟨lying, held⟩)
  | throw held throwable =>
    have wasHeld : phase = .held := by
      cases phase with
      | lying | thrown => exact absurd inPhase.2.2 held.ne'
      | held => rfl
    have isThrown : phase' = .thrown := by
      cases phase' with
      | thrown => rfl
      | lying => cases inPhase'.2.1
      | held => cases inPhase'.1
    exact .inr (.inr ⟨wasHeld, isThrown, throwable⟩)

end Pickup

/-! ## Runs of a level's items -/

/-- A record of the items' events and actions, newest first. -/
abbrev ItemPast := List (ItemEvent × ItemAction)

def ItemAction.collected? : ItemAction → Option ℕ
  | .collected pickup => some pickup
  | _ => none

def ItemAction.thrown? : ItemAction → Option ℕ
  | .thrown pickup => some pickup
  | _ => none

namespace ItemPast

def collected (past : ItemPast) : List ℕ := past.filterMap fun entry => entry.2.collected?

def thrown (past : ItemPast) : List ℕ := past.filterMap fun entry => entry.2.thrown?

end ItemPast

namespace Items

/-- The flags of every pickup agree with the inventory, and the inventory has what was collected
    and not thrown. -/
structure Accounted (items : Items) (past : ItemPast) : Prop where
  consistent : ∀ (i : ℕ) (pickup : Pickup), items.pickups[i]? = some pickup →
    pickup.Consistent (items.entries i)
  counted : items.inventory.itemCount + past.thrown.length = past.collected.length

theorem Accounted.step {items : Items} {past : ItemPast} (accounted : Accounted items past)
    (event : ItemEvent) : Accounted (items.step event).1 ((event, (items.step event).2) :: past) := by
  constructor
  · intro i pickup' found'
    cases found : items.pickups[i]? with
    | none =>
      rw [step_missing found event] at found'
      cases found'
    | some pickup =>
      obtain ⟨moved, movedFound, move⟩ := step_move items event found
      rw [movedFound, Option.some.injEq] at found'
      exact found' ▸ move.consistent (accounted.consistent i pickup found)
  · have counted := accounted.counted
    simp only [Inventory.itemCount] at counted ⊢
    rcases step_cases items event with
      ⟨quiet | ⟨padlock, quiet⟩, inventory, -⟩ | ⟨moved, action, -, inventory, -⟩ |
        ⟨moved, action, held, -, inventory, -⟩
    · simpa [ItemPast.collected, ItemPast.thrown, quiet, ItemAction.collected?, ItemAction.thrown?, inventory]
        using counted
    · simpa [ItemPast.collected, ItemPast.thrown, quiet, ItemAction.collected?, ItemAction.thrown?, inventory]
        using counted
    · simp only [ItemPast.collected, ItemPast.thrown, action, ItemAction.collected?, ItemAction.thrown?,
        inventory, Inventory.addItem, List.filterMap_cons, List.length_append, List.length_cons,
        List.length_nil] at counted ⊢
      omega
    · have size := List.length_erase_of_mem held
      have some_item := List.length_pos_of_mem held
      simp only [ItemPast.collected, ItemPast.thrown, action, ItemAction.collected?, ItemAction.thrown?,
        inventory, List.filterMap_cons, List.length_cons] at counted ⊢
      omega

theorem load_accounted (pickups padlocks : List XMLElement) (dirty : Bool) :
    Accounted (load pickups padlocks dirty) [] := by
  constructor
  · intro i pickup found
    obtain ⟨element, -, rfl⟩ := List.mem_map.mp (List.mem_of_getElem? found)
    exact ⟨⟨.lying, rfl, rfl, rfl⟩, fun _ => ⟨rfl, rfl⟩, fun _ => rfl⟩
  · rfl

end Items

structure LifeCycle (items : Items) (past : ItemPast) : Prop where
  /-- Every pickup is in exactly one phase. -/
  phases : ∀ (i : ℕ) (pickup : Pickup), items.pickups[i]? = some pickup →
    ∃! phase, pickup.InPhase (items.entries i) phase
  /-- A further step moves it to the next phase or leaves it in its own. -/
  follows : ∀ (event : ItemEvent) (i : ℕ) (pickup : Pickup), items.pickups[i]? = some pickup →
    ∃ pickup', (items.step event).1.pickups[i]? = some pickup' ∧ pickup'.type = pickup.type ∧
      ∀ phase phase', pickup.InPhase (items.entries i) phase →
        pickup'.InPhase ((items.step event).1.entries i) phase' → phase.Follows pickup.type phase'
  /-- Only throwable pickups leave the inventory. -/
  leaves : ∀ (event : ItemEvent) (i : ℕ), i ∈ items.inventory.items →
    i ∉ (items.step event).1.inventory.items → sameType (items.typeOf i) "Throwable" = true
  /-- The inventory counts the pickups collected and not thrown. -/
  counted : items.inventory.itemCount + past.thrown.length = past.collected.length

theorem Pickup.Move.type {pickup pickup' : Pickup} {entries entries' : ℕ}
    (move : pickup.Move entries pickup' entries') : pickup'.type = pickup.type := by
  cases move with
  | stay | collect | throw => rfl
  | decay timeStep =>
    obtain ⟨_, _, _, updated⟩ := pickup.selfDestroyUpdate_shape timeStep
    rw [updated]

theorem Items.Accounted.lifeCycle {items : Items} {past : ItemPast} (accounted : items.Accounted past) :
    LifeCycle items past := by
  constructor
  · intro i pickup found
    obtain ⟨phase, inPhase⟩ := (accounted.consistent i pickup found).hasPhase
    exact ⟨phase, inPhase, fun _ other => other.unique inPhase⟩
  · intro event i pickup found
    obtain ⟨pickup', found', move⟩ := items.step_move event found
    exact ⟨pickup', found', move.type, fun _ _ => move.follows⟩
  · intro event i member gone
    rcases items.step_cases event with
      ⟨-, inventory, -⟩ | ⟨moved, -, -, inventory, -⟩ | ⟨moved, -, held, throwable, inventory, -⟩
    · rw [inventory] at gone
      exact absurd member gone
    · rw [inventory] at gone
      exact absurd (List.mem_append_left _ member) gone
    · by_cases same : i = moved
      · rwa [same]
      · rw [inventory, List.mem_erase_of_ne same] at gone
        exact absurd member gone
  · exact accounted.counted

/-- However the components' updates are ordered, every pickup lies, is held or has been thrown, and
    goes through these phases in that order. -/
theorem pickup_life_cycle (pickups padlocks : List XMLElement) (dirty : Bool) (events : List ItemEvent) :
    LifeCycle (record Items.step (Items.load pickups padlocks dirty) events).1
      (record Items.step (Items.load pickups padlocks dirty) events).2 :=
  (record_invariant Items.step (fun _ => True) Items.Accounted
    (fun _ _ event accounted _ => accounted.step event) _ (Items.load_accounted pickups padlocks dirty)
    fun _ _ => trivial).lifeCycle

end SneakySneaky
