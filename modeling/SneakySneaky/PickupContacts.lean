import SneakySneaky.Items

/-! # Contacts of a pickup

A pickup is collected when the first of the bodies that collide with it is the player's.  The
engine promises no order, and guards, thrown items and Bertha can stand in a pickup as well: a
player who is reported after another body does not collect it in that frame. -/

namespace SneakySneaky

open SneakySneaky.Foundation

/-! ## One update -/

namespace Items

/-- The pickup is added to the inventory and its node is disabled. -/
def collect (items : Items) (pickup : ℕ) : Items where
  inventory := items.inventory.addItem pickup
  pickups := items.pickups.modify pickup ({ · with nodeEnabled := false })
  padlocks := items.padlocks

def Lying (items : Items) (pickup : ℕ) : Prop := items.pickups[pickup]?.map Pickup.updates = some true

instance (items : Items) (pickup : ℕ) : Decidable (items.Lying pickup) :=
  inferInstanceAs (Decidable (_ = _))

/-- An update collects a pickup that the player touches, and does nothing else. -/
def CollectsTouched (items : Items) (pickup : ℕ) (colliders : List Body) : Prop :=
  items.step (.pickupUpdate pickup colliders) =
    if .person ∈ colliders then (items.collect pickup, .collected pickup) else (items, .nothing)

end Items

/-- The player's body, if it is reported at all, is reported first. -/
def PersonFirst (colliders : List Body) : Prop := .person ∈ colliders → colliders.head? = some .person

theorem step_pickupUpdate {items : Items} {pickup : ℕ} (lying : items.Lying pickup) (colliders : List Body) :
    items.step (.pickupUpdate pickup colliders) =
      if colliders.head? = some .person then (items.collect pickup, .collected pickup) else (items, .nothing) := by
  simp only [Items.step, show items.pickups[pickup]?.map Pickup.updates = some true from lying, true_and]
  rfl

theorem collectsTouched_iff {items : Items} {pickup : ℕ} (lying : items.Lying pickup) (colliders : List Body) :
    items.CollectsTouched pickup colliders ↔ PersonFirst colliders := by
  rw [Items.CollectsTouched, step_pickupUpdate lying, PersonFirst]
  by_cases touched : Body.person ∈ colliders
  · by_cases first : colliders.head? = some .person
    · simp [touched, first]
    · simp [touched, first]
  · have other : colliders.head? ≠ some .person := fun first => touched (List.mem_of_head? first)
    simp [touched, other]

/-! ## Runs -/

def ItemEvent.PersonFirst : ItemEvent → Prop
  | .pickupUpdate _ colliders => SneakySneaky.PersonFirst colliders
  | _ => True

/-- The same event, with the bodies reported in any order. -/
inductive SameContacts : ItemEvent → ItemEvent → Prop where
  | pickupUpdate (pickup : ℕ) {colliders colliders' : List Body} (reordered : colliders.Perm colliders') :
      SameContacts (.pickupUpdate pickup colliders) (.pickupUpdate pickup colliders')
  | same (event : ItemEvent) : SameContacts event event

theorem SameContacts.step_eq {event event' : ItemEvent} (same : SameContacts event event') (items : Items)
    (first : event.PersonFirst) (first' : event'.PersonFirst) : items.step event = items.step event' := by
  cases same with
  | same => rfl
  | pickupUpdate pickup reordered =>
    by_cases lying : items.Lying pickup
    · rw [(collectsTouched_iff lying _).mpr first, (collectsTouched_iff lying _).mpr first']
      simp only [reordered.mem_iff]
    · have idle : items.pickups[pickup]?.map Pickup.updates ≠ some true := lying
      simp [Items.step, idle]

/-- Runs that differ only in the order of contacts, with the player always first, make the same
    items and do the same with them. -/
theorem record_sameContacts {events events' : List ItemEvent} (same : List.Forall₂ SameContacts events events')
    (first : ∀ event ∈ events, event.PersonFirst) (first' : ∀ event ∈ events', event.PersonFirst) (items : Items) :
    (record Items.step items events).1 = (record Items.step items events').1 ∧
      ItemPast.collected (record Items.step items events).2 =
        ItemPast.collected (record Items.step items events').2 := by
  -- Generalised over two records with the same collections.
  suffices general : ∀ (items : Items) (past past' : ItemPast), past.collected = past'.collected →
      (run (recordStep Items.step) (items, past) events).1 = (run (recordStep Items.step) (items, past') events').1 ∧
        ItemPast.collected (run (recordStep Items.step) (items, past) events).2 =
          ItemPast.collected (run (recordStep Items.step) (items, past') events').2 from general items [] [] rfl
  induction same with
  | nil =>
    intro items past past' collected
    exact ⟨rfl, collected⟩
  | @cons event event' events events' head _ inductionHypothesis =>
    intro items past past' collected
    have step := head.step_eq items (first event List.mem_cons_self) (first' event' List.mem_cons_self)
    have extended : ItemPast.collected ((event, (items.step event).2) :: past) =
        ItemPast.collected ((event', (items.step event').2) :: past') := by
      simp only [ItemPast.collected, List.filterMap_cons, step] at collected ⊢
      rw [collected]
    have rest := inductionHypothesis (fun later member => first later (List.mem_cons_of_mem _ member))
      (fun later member => first' later (List.mem_cons_of_mem _ member)) (items.step event).1 _ _ extended
    rw [run_cons, run_cons, recordStep, recordStep]
    rw [step] at rest ⊢
    exact rest

/-! ## Touched pickups -/

/-- A touched pickup is collected exactly when the player is reported first; runs in which the player
    always is do not depend on the order of the contacts. -/
theorem touched_pickup_collected_iff (items : Items) :
    (∀ (pickup : ℕ) (colliders : List Body), items.Lying pickup →
      (items.CollectsTouched pickup colliders ↔ PersonFirst colliders)) ∧
      ∀ events events' : List ItemEvent, List.Forall₂ SameContacts events events' →
        (∀ event ∈ events, event.PersonFirst) → (∀ event ∈ events', event.PersonFirst) →
        (record Items.step items events).1 = (record Items.step items events').1 ∧
          ItemPast.collected (record Items.step items events).2 =
            ItemPast.collected (record Items.step items events').2 :=
  ⟨fun _ colliders lying => collectsTouched_iff lying colliders,
    fun _ _ same first first' => record_sameContacts same first first' items⟩

/-- A rock on the floor of a level, with nothing in the inventory. -/
def rockOnFloor : Items := Items.load [.mk "object" [("model", "Rock"), ("type", "Throwable")] "" []] [] false

/-- A guard who stands in the rock and is reported before the player keeps the player from it. -/
theorem guard_blocks_pickup :
    rockOnFloor.Lying 0 ∧ rockOnFloor.step (.pickupUpdate 0 [.other, .person]) = (rockOnFloor, .nothing) ∧
      ¬ rockOnFloor.CollectsTouched 0 [.other, .person] ∧
      rockOnFloor.step (.pickupUpdate 0 [.person, .other]) = (rockOnFloor.collect 0, .collected 0) := by
  have blocked : rockOnFloor.step (.pickupUpdate 0 [.other, .person]) = (rockOnFloor, .nothing) := by decide
  refine ⟨by decide, blocked, ?_, by decide⟩
  intro collects
  rw [Items.CollectsTouched, blocked] at collects
  exact absurd collects (by decide)

end SneakySneaky
