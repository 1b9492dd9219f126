import Mathlib.Algebra.Group.Nat.Even
import Mathlib.Data.List.Induction
import SneakySneaky.Foundation.Fuse
import SneakySneaky.Items

/-! # Thrown items

A thrown item has seven seconds to live.  It blinks for the first time when three of them are
over, and then whenever a tenth of the time it had left at the last blink is over: its timer
is a fuse.  The update that ends its time removes its node.  The times are those of exact
arithmetic. -/

namespace SneakySneaky

open SneakySneaky.Foundation

/-! ## The timer -/

def SelfDestroy.fuse (timer : SelfDestroy) : Fuse ℚ := ⟨timer.lifeTime, timer.decayTime⟩

namespace Pickup

/-- The engine calls `SelfDestroy::Update`. -/
def flying (pickup : Pickup) : Bool := pickup.selfDestroy.isSome && pickup.nodeEnabled && !pickup.nodeRemoved

/-- A pickup whose timer has run for some time and has switched its model some number of times; the
    timer's steps are at most `bound` long. -/
structure Flight (bound airtime : ℚ) (blinks : ℕ) (pickup : Pickup) : Prop where
  nodeEnabled : pickup.nodeEnabled = true
  timer : ∃ timer, pickup.selfDestroy = some timer ∧ timer.lifeTime = 7 - airtime ∧
    Fuse.Paced (1 / 10) bound (19 * bound) 4 blinks timer.fuse
  removed : pickup.nodeRemoved = true ↔ 7 ≤ airtime
  visible : pickup.modelEnabled = true ↔ Even blinks

/-- A pickup that has not been thrown. -/
structure Grounded (pickup : Pickup) : Prop where
  selfDestroy : pickup.selfDestroy = none
  nodeRemoved : pickup.nodeRemoved = false
  modelEnabled : pickup.modelEnabled = true

variable {pickup : Pickup} {bound airtime : ℚ} {blinks : ℕ}

theorem Grounded.throw (grounded : pickup.Grounded) (nonneg : 0 ≤ bound) : pickup.throw.Flight bound 0 0 := by
  refine ⟨rfl, ⟨⟨7, 3⟩, rfl, by norm_num, ?_⟩, ?_, ?_⟩
  · have waiting : 0 ≤ (SelfDestroy.fuse ⟨7, 3⟩).wait := by norm_num [SelfDestroy.fuse]
    have whole : (SelfDestroy.fuse ⟨7, 3⟩).left - (SelfDestroy.fuse ⟨7, 3⟩).wait = 4 := by norm_num [SelfDestroy.fuse]
    rw [← whole]
    exact Fuse.paced_start nonneg waiting
  · rw [Pickup.throw, grounded.nodeRemoved]
    norm_num
  · rw [Pickup.throw, grounded.modelEnabled]
    simp

theorem Grounded.not_flying (grounded : pickup.Grounded) : pickup.flying = false := by
  simp [flying, grounded.selfDestroy]

theorem selfDestroyUpdate_of_not_flying (landed : pickup.flying = false) (timeStep : ℚ) :
    pickup.selfDestroyUpdate timeStep = pickup := by
  cases found : pickup.selfDestroy with
  | none => exact selfDestroyUpdate_of_none found timeStep
  | some timer =>
    have idle : (!pickup.nodeEnabled || pickup.nodeRemoved) = true := by
      cases enabled : pickup.nodeEnabled <;> cases removed : pickup.nodeRemoved <;>
        simp [flying, found, enabled, removed] at landed ⊢
    simp only [selfDestroyUpdate, found]
    rw [if_pos (by simp at idle ⊢; tauto)]

theorem selfDestroyUpdate_of_flying (flying : pickup.flying = true) {timer : SelfDestroy}
    (found : pickup.selfDestroy = some timer) (burning : timer.lifeTime ≠ 0) (timeStep : ℚ) :
    pickup.selfDestroyUpdate timeStep =
      { pickup with
        modelEnabled := if timer.decayTime ≤ 0 then !pickup.modelEnabled else pickup.modelEnabled
        selfDestroy := some ⟨(timer.fuse.burn (1 / 10) timeStep).left, (timer.fuse.burn (1 / 10) timeStep).wait⟩
        nodeRemoved := timer.lifeTime - timeStep ≤ 0 } := by
  simp only [Pickup.flying, Bool.and_eq_true, Bool.not_eq_true'] at flying
  have left : (timer.fuse.burn (1 / 10) timeStep).left = timer.lifeTime - timeStep := rfl
  simp only [selfDestroyUpdate, found, flying.1.2, flying.2, left]
  rw [if_neg (by simpa using burning)]
  by_cases due : timer.decayTime ≤ 0
  · have wait : (timer.fuse.burn (1 / 10) timeStep).wait = timer.lifeTime * (1 / 10) := if_pos due
    simp only [if_pos due, wait]
  · have wait : (timer.fuse.burn (1 / 10) timeStep).wait = timer.decayTime - timeStep := if_neg due
    simp only [if_neg due, wait]

/-- One update of the timer. -/
theorem Flight.update (flight : pickup.Flight bound airtime blinks) (flying : pickup.flying = true) {timeStep : ℚ}
    (nonneg : 0 ≤ timeStep) (short : timeStep ≤ bound) :
    (pickup.selfDestroyUpdate timeStep).Flight bound (airtime + timeStep)
      (blinks + if (pickup.selfDestroyUpdate timeStep).modelEnabled = pickup.modelEnabled then 0 else 1) := by
  obtain ⟨nodeEnabled, ⟨timer, found, lifeTime, paced⟩, removed, visible⟩ := flight
  have present : ¬ 7 ≤ airtime := by
    rw [← removed]
    simp only [Pickup.flying, Bool.and_eq_true, Bool.not_eq_true'] at flying
    simp [flying.2]
  have burning : 0 < timer.lifeTime := by linarith
  have updated := selfDestroyUpdate_of_flying flying found burning.ne' timeStep
  have burned := paced.burn (by ring) (by norm_num) (by norm_num) burning.le nonneg short
  have signals : (if (pickup.selfDestroyUpdate timeStep).modelEnabled = pickup.modelEnabled then 0 else 1) =
      timer.fuse.signals := by
    rw [updated, Fuse.signals, SelfDestroy.fuse]
    by_cases due : timer.decayTime ≤ 0
    · simp [due]
    · simp [due]
  rw [signals]
  refine ⟨?_, ⟨_, congrArg Pickup.selfDestroy updated, ?_, burned⟩, ?_, ?_⟩
  · rw [selfDestroyUpdate_nodeEnabled, nodeEnabled]
  · rw [Fuse.burn, SelfDestroy.fuse]
    linarith
  · rw [updated, decide_eq_true_eq, lifeTime]
    constructor
    · intro elapsed
      linarith
    · intro elapsed
      linarith
  · rw [updated, Fuse.signals, SelfDestroy.fuse]
    by_cases due : timer.decayTime ≤ 0
    · rw [if_pos due, if_pos due, Nat.even_add_one, ← visible]
      simp
    · rw [if_neg due, if_neg due, Nat.add_zero, visible]

end Pickup

/-! ## The items of a level -/

namespace Items

def next (items : Items) (event : ItemEvent) : Items := (items.step event).1

/-- The time that an event's update adds to the flight of a pickup. -/
def airtime (index : ℕ) (items : Items) : ItemEvent → ℚ
  | .selfDestroyUpdate pickup timeStep =>
    if pickup = index ∧ items.pickups[index]?.map Pickup.flying = some true then timeStep else 0
  | _ => 0

/-- Whether an event switches the model of a pickup on or off. -/
def blinks (index : ℕ) (items : Items) (event : ItemEvent) : ℕ :=
  if (items.next event).pickups[index]?.map Pickup.modelEnabled = items.pickups[index]?.map Pickup.modelEnabled then 0
  else 1

/-- What any event but an update of its timer does to a pickup. -/
theorem next_untimed (items : Items) {event : ItemEvent} {index : ℕ}
    (untimed : ∀ timeStep, event ≠ .selfDestroyUpdate index timeStep) {pickup : Pickup}
    (found : items.pickups[index]? = some pickup) :
    ∃ pickup', (items.next event).pickups[index]? = some pickup' ∧
      (pickup' = pickup ∨ pickup' = { pickup with nodeEnabled := false } ∧ pickup.updates = true ∨
        pickup' = pickup.throw ∧ index ∈ items.inventory.items) := by
  cases event with
  | selfDestroyUpdate moved timeStep =>
    have elsewhere : moved ≠ index := fun same => untimed timeStep (by rw [same])
    exact ⟨pickup, by simp [next, step, found, elsewhere], .inl rfl⟩
  | inventoryUpdate => exact ⟨pickup, found, .inl rfl⟩
  | padlockUpdate padlock difference =>
    refine ⟨pickup, ?_, .inl rfl⟩
    simp only [next, step]
    split
    · exact found
    · split
      · exact found
      · split <;> exact found
  | pickupUpdate moved colliders =>
    simp only [next, step]
    split
    · rename_i touched
      by_cases same : moved = index
      · subst same
        rw [found] at touched
        exact ⟨_, by simp [found], .inr (.inl ⟨rfl, Option.some.inj touched.1⟩)⟩
      · exact ⟨pickup, by simp [found, same], .inl rfl⟩
    · exact ⟨pickup, found, .inl rfl⟩
  | throwerUpdate throwPressed =>
    simp only [next, step]
    split
    · exact ⟨pickup, found, .inl rfl⟩
    · split
      · exact ⟨pickup, found, .inl rfl⟩
      · rename_i moved lookup
        obtain ⟨held, -, -⟩ := getItemOfType_removes (congrArg Prod.snd lookup)
        by_cases same : moved = index
        · subst same
          exact ⟨pickup.throw, by simp [found], .inr (.inr ⟨rfl, held⟩)⟩
        · exact ⟨pickup, by simp [found, same], .inl rfl⟩

theorem airtime_untimed (items : Items) {event : ItemEvent} {index : ℕ}
    (untimed : ∀ timeStep, event ≠ .selfDestroyUpdate index timeStep) : items.airtime index event = 0 := by
  cases event with
  | selfDestroyUpdate moved timeStep =>
    have elsewhere : moved ≠ index := fun same => untimed timeStep (by rw [same])
    simp [airtime, elsewhere]
  | pickupUpdate | throwerUpdate | padlockUpdate | inventoryUpdate => rfl

theorem blinks_eq {items : Items} {event : ItemEvent} {index : ℕ} {pickup pickup' : Pickup}
    (found : items.pickups[index]? = some pickup) (found' : (items.next event).pickups[index]? = some pickup') :
    items.blinks index event = if pickup'.modelEnabled = pickup.modelEnabled then 0 else 1 := by
  simp [blinks, found, found']

end Items

/-! ## Runs -/

/-- The engine's time steps. -/
def ItemEvent.Timely (bound : ℚ) : ItemEvent → Prop
  | .selfDestroyUpdate _ timeStep => 0 ≤ timeStep ∧ timeStep ≤ bound
  | _ => True

/-- A pickup has not been thrown, or it flies. -/
def Pickup.Tracked (bound airtime : ℚ) (blinks : ℕ) (pickup : Pickup) : Prop :=
  pickup.Grounded ∧ airtime = 0 ∧ blinks = 0 ∨ pickup.Flight bound airtime blinks

theorem Pickup.Tracked.grounded {bound airtime : ℚ} {blinks : ℕ} {pickup : Pickup}
    (tracked : pickup.Tracked bound airtime blinks) (alone : pickup.selfDestroy = none) :
    pickup.Grounded ∧ airtime = 0 ∧ blinks = 0 := by
  rcases tracked with grounded | flight
  · exact grounded
  · obtain ⟨timer, found, -⟩ := flight.timer
    rw [alone] at found
    cases found

namespace Items

variable {items : Items} {index : ℕ} {pickup pickup' : Pickup} {bound time : ℚ} {count : ℕ}

theorem next_tracked {event : ItemEvent} (nonneg : 0 ≤ bound) (timely : event.Timely bound)
    (found : items.pickups[index]? = some pickup) (consistent : pickup.Consistent (items.entries index))
    (tracked : pickup.Tracked bound time count) (found' : (items.next event).pickups[index]? = some pickup') :
    pickup'.Tracked bound (time + items.airtime index event) (count + items.blinks index event) := by
  rw [blinks_eq found found']
  by_cases timed : ∃ timeStep, event = .selfDestroyUpdate index timeStep
  · obtain ⟨timeStep, rfl⟩ := timed
    obtain rfl : pickup.selfDestroyUpdate timeStep = pickup' := by simpa [next, step, found] using found'
    cases flying : pickup.flying with
    | false =>
      rw [Pickup.selfDestroyUpdate_of_not_flying flying, if_pos rfl]
      simpa [airtime, found, flying] using tracked
    | true =>
      rcases tracked with ⟨grounded, -⟩ | flight
      · rw [grounded.not_flying] at flying
        cases flying
      · have gain : items.airtime index (.selfDestroyUpdate index timeStep) = timeStep := by
          simp [airtime, found, flying]
        rw [gain]
        exact .inr (flight.update flying timely.1 timely.2)
  · have untimed : ∀ timeStep, event ≠ .selfDestroyUpdate index timeStep := fun timeStep same =>
      timed ⟨timeStep, same⟩
    obtain ⟨after, foundAfter, changed⟩ := next_untimed items untimed found
    obtain rfl : after = pickup' := Option.some.inj (foundAfter.symm.trans found')
    rw [airtime_untimed items untimed, add_zero]
    rcases changed with rfl | ⟨rfl, updates⟩ | ⟨rfl, held⟩
    · rw [if_pos rfl]
      exact tracked
    · rw [if_pos rfl]
      simp only [Pickup.updates, Bool.and_eq_true] at updates
      obtain ⟨⟨selfDestroy, nodeRemoved, modelEnabled⟩, still⟩ := tracked.grounded (consistent.active updates.1.2).1
      exact .inl ⟨⟨selfDestroy, nodeRemoved, modelEnabled⟩, still⟩
    · have enabled := consistent.heldActive (List.count_pos_iff.mpr held)
      obtain ⟨grounded, rfl, rfl⟩ := tracked.grounded (consistent.active enabled).1
      rw [if_pos (show pickup.throw.modelEnabled = pickup.modelEnabled from rfl)]
      exact .inr (grounded.throw nonneg)

variable (pickups padlocks : List XMLElement) (dirty : Bool)

theorem run_consistent (events : List ItemEvent)
    (found : (run next (load pickups padlocks dirty) events).pickups[index]? = some pickup) :
    pickup.Consistent ((run next (load pickups padlocks dirty) events).entries index) := by
  have accounted : Accounted (record step (load pickups padlocks dirty) events).1
      (record step (load pickups padlocks dirty) events).2 :=
    record_invariant step (fun _ => True) Accounted (fun _ _ event accounted _ => accounted.step event) _
      (load_accounted pickups padlocks dirty) fun _ _ => trivial
  have same : (record step (load pickups padlocks dirty) events).1 = run next (load pickups padlocks dirty) events :=
    run_view Prod.fst (fun _ _ => rfl) _ events
  rw [← same] at found ⊢
  exact accounted.consistent index pickup found

theorem run_tracked (nonneg : 0 ≤ bound) {events : List ItemEvent} (timely : ∀ event ∈ events, event.Timely bound)
    (found : (run next (load pickups padlocks dirty) events).pickups[index]? = some pickup) :
    pickup.Tracked bound (tally next (airtime index) (load pickups padlocks dirty) events)
      (tally next (blinks index) (load pickups padlocks dirty) events) := by
  induction events using List.reverseRecOn generalizing pickup with
  | nil =>
    obtain ⟨element, -, rfl⟩ := List.mem_map.mp (List.mem_of_getElem? found)
    exact .inl ⟨⟨rfl, rfl, rfl⟩, rfl, rfl⟩
  | append_singleton events event inductionHypothesis =>
    rw [run_append, run_cons, run_nil] at found
    rw [tally_append_singleton, tally_append_singleton]
    cases before : (run next (load pickups padlocks dirty) events).pickups[index]? with
    | none =>
      rw [next, step_missing before] at found
      cases found
    | some pickup =>
      have tracked := inductionHypothesis (fun earlier member => timely earlier (List.mem_append_left _ member)) before
      have now : event.Timely bound := timely event (List.mem_append_right _ (List.mem_singleton_self event))
      exact next_tracked nonneg now before (run_consistent pickups padlocks dirty events before) tracked found

end Items

/-- In exact arithmetic, in every run of a level's items: a thrown item is removed by the update that makes its
    flight seven seconds long.  Until then its model is switched off and on, for the `k`th time not before
    `7 - 4 * (9/10) ^ (k - 1)` seconds of flight, and at any frame rate no more than twenty frames after that. -/
theorem thrown_items_blink (pickups padlocks : List XMLElement) (dirty : Bool) {bound : ℚ} (nonneg : 0 ≤ bound)
    {events : List ItemEvent} (timely : ∀ event ∈ events, event.Timely bound) {index : ℕ} {pickup : Pickup}
    (found : (run Items.next (Items.load pickups padlocks dirty) events).pickups[index]? = some pickup) :
    let airtime := tally Items.next (Items.airtime index) (Items.load pickups padlocks dirty) events
    let blinks := tally Items.next (Items.blinks index) (Items.load pickups padlocks dirty) events
    (pickup.nodeRemoved = true ↔ 7 ≤ airtime) ∧ (pickup.modelEnabled = true ↔ Even blinks) ∧
      (∀ earlier, blinks = earlier + 1 → 7 - 4 * (9 / 10) ^ earlier ≤ airtime) ∧
      airtime ≤ 7 - 4 * (9 / 10) ^ blinks + 20 * bound := by
  intro airtime blinks
  rcases Items.run_tracked pickups padlocks dirty nonneg timely found with ⟨grounded, still, unblinked⟩ | flight
  · change airtime = 0 at still
    change blinks = 0 at unblinked
    rw [still, unblinked, grounded.nodeRemoved, grounded.modelEnabled]
    refine ⟨by norm_num, by simp, fun earlier impossible => ?_, by norm_num; linarith⟩
    cases impossible
  · obtain ⟨-, ⟨timer, -, lifeTime, paced⟩, removed, visible⟩ := flight
    refine ⟨removed, visible, fun earlier same => ?_, ?_⟩
    · have last := paced.last earlier same
      norm_num [SelfDestroy.fuse, lifeTime] at last
      linarith
    · have left := paced.le_left (by norm_num) (by linarith)
      norm_num [SelfDestroy.fuse, lifeTime] at left
      linarith

namespace ThrownRock

def items : Items := Items.load [.mk "object" [("model", "Rock"), ("type", "Throwable")] "" []] [] false

/-- The player picks up the rock and throws it, and eight seconds go by. -/
def events : List ItemEvent :=
  [.pickupUpdate 0 [.person], .throwerUpdate true] ++ List.replicate 8 (.selfDestroyUpdate 0 1)

/-- It has blinked twice, and is gone after seven of them. -/
def flown : Pickup := ⟨"Throwable", "Throwable", true, false, true, true, some ⟨0, -(4 / 5)⟩⟩

end ThrownRock

open ThrownRock in
theorem thrown_items_blink_rock :
    (flown.nodeRemoved = true ↔ 7 ≤ tally Items.next (Items.airtime 0) items events) ∧
      (flown.modelEnabled = true ↔ Even (tally Items.next (Items.blinks 0) items events)) ∧
      (∀ earlier, tally Items.next (Items.blinks 0) items events = earlier + 1 →
        7 - 4 * (9 / 10) ^ earlier ≤ tally Items.next (Items.airtime 0) items events) ∧
      tally Items.next (Items.airtime 0) items events ≤
        7 - 4 * (9 / 10) ^ tally Items.next (Items.blinks 0) items events + 20 * 1 := by
  refine thrown_items_blink _ [] false zero_le_one ?_ (by decide +kernel)
  intro event member
  simp only [events, List.mem_append, List.mem_cons, List.not_mem_nil, or_false, List.mem_replicate] at member
  rcases member with (rfl | rfl) | ⟨-, rfl⟩
  · trivial
  · trivial
  · exact ⟨zero_le_one, le_refl 1⟩

end SneakySneaky
