import SneakySneaky.LevelTeardown

/-! # Padlocks and their keys

A padlock opens to a pickup of its type in the inventory, and leaves it there.  It looks only
while the player is next to it, and what the inventory holds depends on everything that was
collected and thrown before.  Types are compared without regard to case, so only a padlock for
throwable items can lose its key again. -/

namespace SneakySneaky

open SneakySneaky.Foundation

/-! ## What the inventory holds -/

namespace ItemPast

/-- The pickup has been collected and not thrown. -/
def Holds (past : ItemPast) (pickup : ℕ) : Prop := pickup ∈ past.collected ∧ pickup ∉ past.thrown

variable (past : ItemPast) (event : ItemEvent) (moved index : ℕ)

theorem holds_collected : Holds ((event, .collected moved) :: past) index ↔
    (index = moved ∨ index ∈ past.collected) ∧ index ∉ past.thrown :=
  and_congr_left fun _ => List.mem_cons

theorem holds_thrown : Holds ((event, .thrown moved) :: past) index ↔ past.Holds index ∧ index ≠ moved := by
  change index ∈ past.collected ∧ index ∉ moved :: past.thrown ↔ _
  rw [List.mem_cons, not_or, Holds]
  tauto

end ItemPast

/-- Nothing gives a pickup its component back. -/
theorem Pickup.Move.componentDisabled {pickup pickup' : Pickup} {entries entries' : ℕ}
    (move : pickup.Move entries pickup' entries') (disabled : pickup.componentEnabled = false) :
    pickup'.componentEnabled = false := by
  cases move with
  | stay | collect => exact disabled
  | throw => rfl
  | decay timeStep => rw [selfDestroyUpdate_componentEnabled, disabled]

/-- A pickup that lies in the level is not in the inventory. -/
theorem Pickup.Consistent.unheld {pickup : Pickup} {entries : ℕ} (consistent : pickup.Consistent entries)
    (updates : pickup.updates = true) : entries = 0 := by
  obtain ⟨phase, inPhase⟩ := consistent.hasPhase
  cases phase with
  | lying | thrown => exact inPhase.2.2
  | held => simp [Pickup.updates, inPhase.1] at updates

namespace Items

theorem step_typeOf (items : Items) (event : ItemEvent) : (items.step event).1.typeOf = items.typeOf := by
  funext index
  cases found : items.pickups[index]? with
  | none => rw [typeOf, typeOf, step_missing found, found]
  | some pickup =>
    obtain ⟨pickup', found', move⟩ := step_move items event found
    rw [typeOf, typeOf, found, found', Option.map_some, Option.map_some, move.type]

/-- The pickup has been thrown, and cannot be collected again. -/
def Gone (items : Items) (index : ℕ) : Prop :=
  sameType (items.typeOf index) "Throwable" = true ∧
    ∀ pickup, items.pickups[index]? = some pickup → pickup.componentEnabled = false

theorem Gone.step {items : Items} {index : ℕ} (gone : items.Gone index) (event : ItemEvent) :
    (items.step event).1.Gone index := by
  refine ⟨by rw [step_typeOf, gone.1], fun pickup' found' => ?_⟩
  cases found : items.pickups[index]? with
  | none =>
    rw [step_missing found] at found'
    cases found'
  | some pickup =>
    obtain ⟨after, foundAfter, move⟩ := step_move items event found
    obtain rfl : after = pickup' := Option.some.inj (foundAfter.symm.trans found')
    exact move.componentDisabled (gone.2 pickup found)

/-- The inventory holds what has been collected and not thrown, each once. -/
structure Kept (items : Items) (past : ItemPast) : Prop where
  accounted : Accounted items past
  nodup : items.inventory.items.Nodup
  holds : ∀ pickup, pickup ∈ items.inventory.items ↔ past.Holds pickup
  gone : ∀ index ∈ past.thrown, items.Gone index

theorem load_kept (pickups padlocks : List XMLElement) (dirty : Bool) : Kept (load pickups padlocks dirty) [] := by
  refine ⟨load_accounted pickups padlocks dirty, List.nodup_nil, fun pickup => ?_, fun index impossible => ?_⟩
  · exact ⟨fun impossible => absurd impossible List.not_mem_nil, fun holds => absurd holds.1 List.not_mem_nil⟩
  · cases impossible

theorem Kept.step {items : Items} {past : ItemPast} (kept : Kept items past) (event : ItemEvent) :
    Kept (items.step event).1 ((event, (items.step event).2) :: past) := by
  have next := kept.accounted.step event
  have stays : ∀ index ∈ past.thrown, (items.step event).1.Gone index := fun index wasThrown =>
    (kept.gone index wasThrown).step event
  obtain ⟨accounted, nodup, holds, gone⟩ := kept
  rcases step_cases items event with
    ⟨quiet, inventory, -⟩ | ⟨moved, action, updates, inventory, -⟩ |
      ⟨moved, action, held, throwable, inventory, pickups⟩
  · have unchanged : ItemPast.collected ((event, (items.step event).2) :: past) = past.collected ∧
        ItemPast.thrown ((event, (items.step event).2) :: past) = past.thrown := by
      rcases quiet with quiet | ⟨padlock, quiet⟩
      · rw [quiet]
        exact ⟨rfl, rfl⟩
      · rw [quiet]
        exact ⟨rfl, rfl⟩
    refine ⟨next, by rwa [inventory], fun pickup => ?_, by rwa [unchanged.2]⟩
    rw [inventory, ItemPast.Holds, unchanged.1, unchanged.2]
    exact holds pickup
  · obtain ⟨pickup, found, updates⟩ := Option.map_eq_some_iff.mp updates
    have unheld : moved ∉ items.inventory.items :=
      List.count_eq_zero.mp ((accounted.consistent moved pickup found).unheld updates)
    -- What has been thrown does not lie in the level.
    have unthrown : moved ∉ past.thrown := by
      intro wasThrown
      simp [Pickup.updates, (gone moved wasThrown).2 pickup found] at updates
    rw [action] at next ⊢
    refine ⟨next, ?_, fun index => ?_, stays⟩
    · rw [inventory, Inventory.addItem, ← List.concat_eq_append]
      exact nodup.concat unheld
    · rw [inventory, Inventory.addItem, List.mem_append, List.mem_singleton, holds, ItemPast.holds_collected]
      by_cases same : index = moved
      · subst same
        simp [unthrown]
      · simp [ItemPast.Holds, same]
  · rw [action] at next ⊢
    refine ⟨next, ?_, fun index => ?_, fun index wasThrown => ?_⟩
    · rw [inventory]
      exact nodup.erase moved
    · rw [inventory, nodup.mem_erase_iff, holds, ItemPast.holds_thrown]
      tauto
    · rcases List.mem_cons.mp wasThrown with rfl | earlier
      · refine ⟨by rw [step_typeOf, throwable], fun pickup' found' => ?_⟩
        rw [pickups, List.getElem?_modify_eq] at found'
        obtain ⟨pickup, -, rfl⟩ := Option.map_eq_some_iff.mp found'
        rfl
      · exact stays index earlier

/-! ## Padlocks -/

theorem getItemOfType_isSome (inventory : Inventory) (typeOf : ℕ → String) (type : String) (remove : Bool) :
    (inventory.getItemOfType typeOf type remove).2.isSome = true ↔
      ∃ item ∈ inventory.items, sameType (typeOf item) type = true := by
  rw [← List.find?_isSome, Inventory.getItemOfType]
  cases inventory.items.find? fun item => sameType (typeOf item) type with
  | none => rfl
  | some item => rfl

/-- What a padlock's own update does to it. -/
theorem padlockUpdate_spec (items : Items) {padlock : ℕ} {lock : Padlock} (found : items.padlocks[padlock]? = some lock)
    (difference : Vector3) :
    ∃ lock', (items.step (.padlockUpdate padlock difference)).1.padlocks[padlock]? = some lock' ∧
      lock'.type = lock.type ∧
      (lock'.nodeRemoved = true ↔ lock.nodeRemoved = true ∨ Padlock.canPlayerInteract difference = true ∧
        ∃ key ∈ items.inventory.items, sameType (items.typeOf key) lock.type = true) := by
  simp only [step, found]
  split
  · rename_i idle
    refine ⟨lock, found, rfl, .inl, ?_⟩
    rintro (removed | ⟨near, -⟩)
    · exact removed
    · simpa [near] using idle
  · rename_i usable
    simp only [Bool.or_eq_true, Bool.not_eq_true', not_or, Bool.not_eq_true, Bool.not_eq_false] at usable
    have keyed := getItemOfType_isSome items.inventory items.typeOf lock.type false
    split
    · rename_i lookup
      rw [lookup] at keyed
      exact ⟨lock, found, rfl, by simp [usable, ← keyed]⟩
    · rename_i lookup
      rw [lookup] at keyed
      exact ⟨{ lock with nodeRemoved := true }, by simp [found], rfl, by simp [usable, ← keyed]⟩

/-- What an event does to a padlock. -/
theorem step_padlock (items : Items) (event : ItemEvent) {padlock : ℕ} {lock : Padlock}
    (found : items.padlocks[padlock]? = some lock) :
    ∃ lock', (items.step event).1.padlocks[padlock]? = some lock' ∧ lock'.type = lock.type ∧
      (lock'.nodeRemoved = true ↔ lock.nodeRemoved = true ∨
        ∃ difference, event = .padlockUpdate padlock difference ∧ Padlock.canPlayerInteract difference = true ∧
          ∃ key ∈ items.inventory.items, sameType (items.typeOf key) lock.type = true) := by
  by_cases visit : ∃ difference, event = .padlockUpdate padlock difference
  · obtain ⟨difference, rfl⟩ := visit
    simpa using padlockUpdate_spec items found difference
  · have same : (items.step event).1.padlocks[padlock]? = some lock := by
      by_cases elsewhere : ∃ other difference, event = .padlockUpdate other difference
      · obtain ⟨other, difference, rfl⟩ := elsewhere
        have apart : other ≠ padlock := fun same => visit ⟨difference, by rw [same]⟩
        rcases padlockUpdate_cases items other difference with ⟨-, padlocks⟩ | ⟨-, -, padlocks⟩
        · rw [padlocks, found]
        · rw [padlocks, List.getElem?_modify_ne _ _ apart, found]
      · rw [step_padlocks items fun other difference same => elsewhere ⟨other, difference, same⟩, found]
    refine ⟨lock, same, rfl, .inl, ?_⟩
    rintro (removed | ⟨difference, moved, -⟩)
    · exact removed
    · exact absurd ⟨difference, moved⟩ visit

theorem step_padlocks_length (items : Items) (event : ItemEvent) :
    (items.step event).1.padlocks.length = items.padlocks.length := by
  by_cases visit : ∃ padlock difference, event = .padlockUpdate padlock difference
  · obtain ⟨padlock, difference, rfl⟩ := visit
    rcases padlockUpdate_cases items padlock difference with ⟨-, padlocks⟩ | ⟨-, -, padlocks⟩
    · rw [padlocks]
    · rw [padlocks, List.length_modify]
  · rw [step_padlocks items fun padlock difference same => visit ⟨padlock, difference, same⟩]

/-! ## Runs -/

/-- The player comes to a padlock with a key to it. -/
def OpenedBy (items : Items) (padlock : ℕ) (type : String) (entry : ItemEvent × ItemAction) (earlier : ItemPast) :
    Prop :=
  ∃ difference, entry.1 = .padlockUpdate padlock difference ∧ Padlock.canPlayerInteract difference = true ∧
    ∃ key, earlier.Holds key ∧ sameType (items.typeOf key) type = true

/-- The padlocks that are gone are those that the player came to with a key. -/
structure Locked (items : Items) (past : ItemPast) : Prop where
  kept : Kept items past
  opened : ∀ (padlock : ℕ) (lock : Padlock), items.padlocks[padlock]? = some lock →
    (lock.nodeRemoved = true ↔ Happened (items.OpenedBy padlock lock.type) past)

theorem Locked.step {items : Items} {past : ItemPast} (locked : Locked items past) (event : ItemEvent) :
    Locked (items.step event).1 ((event, (items.step event).2) :: past) := by
  refine ⟨locked.kept.step event, fun padlock lock' found' => ?_⟩
  have sameKeys : (items.step event).1.OpenedBy = items.OpenedBy := by
    funext padlock type entry earlier
    rw [OpenedBy, OpenedBy, step_typeOf]
  cases found : items.padlocks[padlock]? with
  | none =>
    rw [List.getElem?_eq_none_iff, ← step_padlocks_length items event, ← List.getElem?_eq_none_iff, found'] at found
    cases found
  | some lock =>
    obtain ⟨after, foundAfter, type, removed⟩ := step_padlock items event found
    obtain rfl : after = lock' := Option.some.inj (foundAfter.symm.trans found')
    rw [removed, locked.opened padlock lock found, sameKeys, type, happened_cons]
    simp only [OpenedBy, locked.kept.holds]

theorem load_locked (pickups padlocks : List XMLElement) (dirty : Bool) : Locked (load pickups padlocks dirty) [] := by
  refine ⟨load_kept pickups padlocks dirty, fun padlock lock found => ?_⟩
  obtain ⟨element, -, rfl⟩ := List.mem_map.mp (List.mem_of_getElem? found)
  constructor
  · intro removed
    cases removed
  · exact fun happened => absurd happened (not_happened_nil _)

/-- A key to a padlock that is not for throwable items stays with the player. -/
theorem Kept.keeps_key {items : Items} {past : ItemPast} (kept : Kept items past) {type : String}
    (unthrowable : sameType type "Throwable" = false) {key : ℕ} (collected : key ∈ past.collected)
    (fits : sameType (items.typeOf key) type = true) : key ∈ items.inventory.items := by
  rw [kept.holds]
  refine ⟨collected, fun thrown => ?_⟩
  have throwable := (kept.gone key thrown).1
  simp only [sameType, decide_eq_true_eq, decide_eq_false_iff_not] at unthrowable fits throwable
  exact unthrowable (fits.symm.trans throwable)

end Items

/-- In every run of a level's items, a padlock is gone just when the player has been next to it with a pickup
    of its type, collected and not thrown before; and the keys to a padlock that is not for throwable items are
    never used up. -/
theorem padlocks_open_to_keys (pickups padlocks : List XMLElement) (dirty : Bool) (events : List ItemEvent)
    {padlock : ℕ} {lock : Padlock}
    (found : (record Items.step (Items.load pickups padlocks dirty) events).1.padlocks[padlock]? = some lock) :
    let (items, past) := record Items.step (Items.load pickups padlocks dirty) events
    (lock.nodeRemoved = true ↔ Happened (items.OpenedBy padlock lock.type) past) ∧
      (sameType lock.type "Throwable" = false → ∀ key ∈ ItemPast.collected past,
        sameType (items.typeOf key) lock.type = true → key ∈ items.inventory.items) := by
  have locked : Items.Locked (record Items.step (Items.load pickups padlocks dirty) events).1
      (record Items.step (Items.load pickups padlocks dirty) events).2 :=
    record_invariant Items.step (fun _ => True) Items.Locked (fun _ _ event locked _ => locked.step event) _
      (Items.load_locked pickups padlocks dirty) fun _ _ => trivial
  exact ⟨locked.opened padlock lock found, fun unthrowable key collected fits =>
    locked.kept.keeps_key unthrowable collected fits⟩

namespace KeyRoom

/-- A keycard in the room, and the padlock that it opens. -/
def items : Items :=
  Items.load [.mk "object" [("model", "Keycard"), ("type", "Keycard")] "" []]
    [.mk "object" [("type", "Keycard")] "Find the card." []] false

/-- The player looks at the padlock without the card, then with it. -/
def events : List ItemEvent :=
  [.padlockUpdate 0 ⟨1, 0, 0⟩, .pickupUpdate 0 [.person], .padlockUpdate 0 ⟨1, 0, 0⟩]

def unlocked : Padlock := ⟨"Keycard", "Find the card.", true⟩

end KeyRoom

open KeyRoom in
theorem padlocks_open_to_keys_card :
    let (items, past) := record Items.step items events
    (unlocked.nodeRemoved = true ↔ Happened (items.OpenedBy 0 unlocked.type) past) ∧
      (sameType unlocked.type "Throwable" = false → ∀ key ∈ ItemPast.collected past,
        sameType (items.typeOf key) unlocked.type = true → key ∈ items.inventory.items) := by
  have found : (record Items.step items events).1.padlocks[0]? = some unlocked := by decide +kernel
  exact padlocks_open_to_keys _ _ false events found

end SneakySneaky
