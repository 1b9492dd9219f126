import SneakySneaky.Foundation.Periodic
import SneakySneaky.LevelComponents

/-! # The fight with Bertha

`BossBertha::Update`: her health bar, the timer of her charges and the charges themselves.
Between two updates the physics moves her and the player, and a boss laser may hit her.  Her
health is the float that it is in the game; the timer runs in exact arithmetic.  Her
materials, and the look of the bar, are left out. -/

namespace SneakySneaky

open SneakySneaky.Foundation

/-! ## The class -/

/-- Where Bertha stood, where the player was, and the velocity that she took. -/
structure Charge where
  position : Vector3
  personPosition : Vector3
  velocity : Vector3
  deriving DecidableEq

/-- Bertha and the player.  `charges` is newest first, and nothing in the source reads it. -/
structure BerthaFight where
  bertha : BossBertha
  person : Person
  position : Vector3
  velocity : Vector3
  personPosition : Vector3
  chargeTimer : ℚ
  /-- The text of the bar, `none` for the NULL pointer. -/
  healthBar : Option String
  charges : List Charge
  deriving DecidableEq

namespace BossBertha

def chargeSpeed : ℚ := 4

def chargeInterval : ℚ := 5

def healthText (health : ℚ) : String := "Bertha Health: " ++ toString (roundAway (binary32 (health * 100))) ++ "%"

end BossBertha

/-- Bertha charges at the player, and in one room with her. -/
structure Charge.Fair (normalize : Normalization) (charge : Charge) : Prop where
  sameRoom : BossBertha.inRoom charge.position charge.personPosition = true
  atPlayer : charge.velocity =
    normalize.apply (charge.personPosition - charge.position) * BossBertha.chargeSpeed

inductive BerthaEvent where
  | moved (position velocity : Vector3)
  | personMoved (position : Vector3)
  | laser
  | update (timeStep : ℚ)
  deriving DecidableEq

namespace BerthaFight

/-- The constructors; the two stand anywhere. -/
def create (position velocity personPosition : Vector3) : BerthaFight where
  bertha := .create
  person := .create
  position := position
  velocity := velocity
  personPosition := personPosition
  chargeTimer := 0
  healthBar := none
  charges := []

def inRoom (fight : BerthaFight) : Bool := BossBertha.inRoom fight.position fight.personPosition

def isCharging (fight : BerthaFight) : Bool := 1 < fight.velocity.lengthSquared

/-- The part of `Update` that makes, removes and fills in the bar. -/
def drawHealthBar (fight : BerthaFight) : BerthaFight :=
  let healthBar :=
    if fight.inRoom && fight.healthBar.isNone then some "Bertha Health: UNKNOWN"
    else if fight.healthBar.isSome && !fight.inRoom then none
    else fight.healthBar
  { fight with healthBar := healthBar.map fun _ => BossBertha.healthText fight.bertha.health }

/-- The end of `Update`: Bertha stands until her timer has run out, and then charges.  `chargeTimer_` is a
    float; what its additions round is left out. -/
def aim (fight : BerthaFight) (normalize : Normalization) (timeStep : ℚ) : BerthaFight :=
  if fight.chargeTimer + timeStep < BossBertha.chargeInterval then
    { fight with velocity := .zero, chargeTimer := fight.chargeTimer + timeStep }
  else
    let velocity := normalize.apply (fight.personPosition - fight.position) * BossBertha.chargeSpeed
    { fight with
      velocity := velocity
      chargeTimer := 0
      charges := ⟨fight.position, fight.personPosition, velocity⟩ :: fight.charges }

def showPersonHealth (fight : BerthaFight) : BerthaFight :=
  { fight with person := { fight.person with showHealth := true } }

def update (fight : BerthaFight) (normalize : Normalization) (timeStep : ℚ) : BerthaFight :=
  if fight.bertha.health ≤ 0 then fight
  else if !fight.inRoom then fight.drawHealthBar
  else if fight.isCharging then fight.drawHealthBar.showPersonHealth
  else fight.drawHealthBar.showPersonHealth.aim normalize timeStep

def step (normalize : Normalization) (cache : SoundCache) (fight : BerthaFight) : BerthaEvent → BerthaFight
  | .moved position velocity => { fight with position := position, velocity := velocity }
  | .personMoved position => { fight with personPosition := position }
  | .laser => { fight with bertha := (fight.bertha.takeDamage cache BossLaser.damage).1 }
  | .update timeStep => fight.update normalize timeStep

/-! ## What an update can do -/

/-- The update counts for the next charge. -/
def waits (fight : BerthaFight) : Bool := 0 < fight.bertha.health && fight.inRoom && !fight.isCharging

theorem update_defeated {fight : BerthaFight} (defeated : fight.bertha.health ≤ 0) (normalize : Normalization)
    (timeStep : ℚ) : fight.update normalize timeStep = fight := by
  rw [update, if_pos defeated]

theorem update_waiting {fight : BerthaFight} (waits : fight.waits = true) (normalize : Normalization) (timeStep : ℚ) :
    fight.update normalize timeStep = fight.drawHealthBar.showPersonHealth.aim normalize timeStep := by
  simp only [BerthaFight.waits, Bool.and_eq_true, decide_eq_true_eq, Bool.not_eq_true'] at waits
  obtain ⟨⟨alive, inRoom⟩, still⟩ := waits
  rw [update, if_neg (not_le.mpr alive), if_neg (by simp [inRoom]), if_neg (by simp [still])]

/-- Otherwise only the bar and the player's change. -/
theorem update_quiet {fight : BerthaFight} (alive : 0 < fight.bertha.health) (quiet : fight.waits = false)
    (normalize : Normalization) (timeStep : ℚ) :
    ∃ person, fight.update normalize timeStep = { fight.drawHealthBar with person := person } := by
  rw [update, if_neg (not_le.mpr alive)]
  cases inRoom : fight.inRoom with
  | false => exact ⟨fight.person, rfl⟩
  | true =>
    have charging : fight.isCharging = true := by simpa [waits, alive, inRoom] using quiet
    exact ⟨{ fight.person with showHealth := true }, if_pos charging⟩

/-! ## Charges -/

def waitingStep (fight : BerthaFight) : BerthaEvent → Option ℚ
  | .update timeStep => if fight.waits then some timeStep else none
  | .moved _ _ | .personMoved _ | .laser => none

/-- The steps of the updates in which Bertha has waited to charge. -/
def waitingSteps (normalize : Normalization) (cache : SoundCache) : BerthaFight → List BerthaEvent → List ℚ :=
  projection (step normalize cache) waitingStep

def timer (fight : BerthaFight) : ℚ × ℕ := (fight.chargeTimer, fight.charges.length)

theorem aim_timer (fight : BerthaFight) (normalize : Normalization) (timeStep : ℚ) :
    (fight.aim normalize timeStep).timer =
      (Periodic.resetting BossBertha.chargeInterval).tick fight.timer timeStep := by
  cases firing : (Periodic.resetting BossBertha.chargeInterval).fires fight.chargeTimer timeStep with
  | true =>
    have due : BossBertha.chargeInterval ≤ fight.chargeTimer + timeStep := Periodic.fires_iff.mp firing
    simp only [aim, if_neg (not_lt.mpr due), timer, Periodic.tick, Periodic.step_firing firing, firing, if_true]
    rfl
  | false =>
    have waits : fight.chargeTimer + timeStep < BossBertha.chargeInterval :=
      not_le.mp fun due => Bool.false_ne_true (firing.symm.trans (Periodic.fires_iff.mpr due))
    simp [aim, waits, timer, Periodic.tick, Periodic.step_waiting firing, firing]

/-- The charges follow a timer that is set back to zero. -/
theorem step_timer (normalize : Normalization) (cache : SoundCache) (fight : BerthaFight) (event : BerthaEvent) :
    (fight.step normalize cache event).timer =
      (fight.waitingStep event).elim fight.timer
        ((Periodic.resetting BossBertha.chargeInterval).tick fight.timer) := by
  cases event with
  | moved _ _ | personMoved _ | laser => rfl
  | update timeStep =>
    simp only [step, waitingStep]
    cases waits : fight.waits with
    | true =>
      rw [update_waiting waits, aim_timer]
      rfl
    | false =>
      cases lt_or_ge 0 fight.bertha.health with
      | inl alive =>
        obtain ⟨person, updated⟩ := update_quiet alive waits normalize timeStep
        rw [updated]
        rfl
      | inr defeated =>
        rw [update_defeated defeated]
        rfl

theorem step_fair {normalize : Normalization} {fight : BerthaFight}
    (fair : ∀ charge ∈ fight.charges, charge.Fair normalize) (cache : SoundCache) (event : BerthaEvent) :
    ∀ charge ∈ (fight.step normalize cache event).charges, charge.Fair normalize := by
  cases event with
  | moved _ _ | personMoved _ | laser => exact fair
  | update timeStep =>
    simp only [step]
    cases waits : fight.waits with
    | true =>
      rw [update_waiting waits, aim]
      split
      · exact fair
      · simp only [BerthaFight.waits, Bool.and_eq_true] at waits
        exact List.forall_mem_cons.mpr ⟨⟨waits.1.2, rfl⟩, fair⟩
    | false =>
      cases lt_or_ge 0 fight.bertha.health with
      | inl alive =>
        obtain ⟨person, updated⟩ := update_quiet alive waits normalize timeStep
        rw [updated]
        exact fair
      | inr defeated =>
        rw [update_defeated defeated]
        exact fair

end BerthaFight

/-- However the two move and whatever hits Bertha: each charge goes at the player in her room.  In exact
    arithmetic there are five seconds of waiting for every charge, and each comes at most one frame late. -/
theorem bertha_charges_paced (normalize : Normalization) (cache : SoundCache)
    (position velocity personPosition : Vector3) (events : List BerthaEvent) (longest : ℚ)
    (steps : ∀ timeStep, .update timeStep ∈ events → 0 ≤ timeStep ∧ timeStep ≤ longest) :
    let start := BerthaFight.create position velocity personPosition
    let fight := run (BerthaFight.step normalize cache) start events
    let waited := (BerthaFight.waitingSteps normalize cache start events).sum
    (∀ charge ∈ fight.charges, charge.Fair normalize) ∧
      fight.charges.length * BossBertha.chargeInterval ≤ waited ∧
      waited ≤ (fight.charges.length + 1) * BossBertha.chargeInterval + fight.charges.length * longest := by
  intro start fight waited
  have bounds : ∀ timeStep ∈ BerthaFight.waitingSteps normalize cache start events,
      0 ≤ timeStep ∧ timeStep ≤ longest := by
    intro timeStep member
    obtain ⟨before, event, isPrefix, accepted⟩ := mem_projection member
    have happened : event ∈ events := isPrefix.subset (List.mem_append_right before List.mem_cons_self)
    cases event with
    | moved _ _ | personMoved _ | laser => cases accepted
    | update step =>
      simp only [BerthaFight.waitingStep, Option.ite_none_right_eq_some, Option.some.injEq] at accepted
      rw [← accepted.2]
      exact steps step happened
  have timer := run_projection BerthaFight.timer (BerthaFight.step_timer normalize cache) start events
  rw [show start.timer = (0, 0) from rfl, Periodic.run_tick, zero_add] at timer
  have charges : fight.charges.length =
      (Periodic.resetting BossBertha.chargeInterval).count 0 (BerthaFight.waitingSteps normalize cache start events) :=
    congrArg Prod.snd timer
  have positive : 0 ≤ BossBertha.chargeInterval := by norm_num [BossBertha.chargeInterval]
  rw [charges]
  refine ⟨?_, ?_, ?_⟩
  · exact run_invariant (fun fight : BerthaFight => ∀ charge ∈ fight.charges, charge.Fair normalize)
      (fun _ event fair => BerthaFight.step_fair fair cache event) (by simp [start, BerthaFight.create]) events
  · have early := Periodic.count_mul_le (Periodic.resetting BossBertha.chargeInterval) (le_refl 0)
      fun timeStep member => (bounds timeStep member).1
    rwa [zero_add] at early
  · have late := Periodic.resetting_le_count positive positive fun timeStep member => (bounds timeStep member).2
    rwa [zero_add] at late

namespace BerthaFight

/-- A player that walks up to Bertha and waits: the second charge is stopped by a wall. -/
def duel : List BerthaEvent :=
  [.update 1, .personMoved ⟨3, 0, 0⟩, .update 3, .update 3, .update 1, .moved ⟨2, 0, 0⟩ .zero, .update 3, .laser,
    .update 3]

end BerthaFight

theorem bertha_charges_paced_duel :
    let start := BerthaFight.create .zero .zero ⟨20, 0, 0⟩
    let fight := run (BerthaFight.step .alongAxes fun _ => none) start BerthaFight.duel
    let waited := (BerthaFight.waitingSteps .alongAxes (fun _ => none) start BerthaFight.duel).sum
    (∀ charge ∈ fight.charges, charge.Fair .alongAxes) ∧
      fight.charges.length * BossBertha.chargeInterval ≤ waited ∧
      waited ≤ (fight.charges.length + 1) * BossBertha.chargeInterval + fight.charges.length * 3 :=
  bertha_charges_paced .alongAxes (fun _ => none) .zero .zero ⟨20, 0, 0⟩ BerthaFight.duel 3
    (by simp [BerthaFight.duel])

/-! ## The health bar -/

namespace BerthaFight

/-- Whether the player is in the room, at an update of a living Bertha. -/
def sharesRoom (fight : BerthaFight) : BerthaEvent → Option Bool
  | .update _ => if 0 < fight.bertha.health then some fight.inRoom else none
  | .moved _ _ | .personMoved _ | .laser => none

theorem drawHealthBar_healthBar (fight : BerthaFight) :
    fight.drawHealthBar.healthBar =
      if fight.inRoom then some (BossBertha.healthText fight.bertha.health) else none := by
  cases inRoom : fight.inRoom with
  | true => cases bar : fight.healthBar <;> simp [drawHealthBar, inRoom, bar]
  | false => cases bar : fight.healthBar <;> simp [drawHealthBar, inRoom, bar]

theorem aim_healthBar (fight : BerthaFight) (normalize : Normalization) (timeStep : ℚ) :
    (fight.aim normalize timeStep).healthBar = fight.healthBar := by
  rw [aim]
  split
  · rfl
  · rfl

/-- An update of a living Bertha leaves the bar as it is drawn at its beginning. -/
theorem update_healthBar {fight : BerthaFight} (alive : 0 < fight.bertha.health) (normalize : Normalization)
    (timeStep : ℚ) :
    (fight.update normalize timeStep).healthBar =
      if fight.inRoom then some (BossBertha.healthText fight.bertha.health) else none := by
  rw [← drawHealthBar_healthBar]
  cases waits : fight.waits with
  | true =>
    rw [update_waiting waits, aim_healthBar]
    rfl
  | false =>
    obtain ⟨person, updated⟩ := update_quiet alive waits normalize timeStep
    rw [updated]

theorem step_bar (normalize : Normalization) (cache : SoundCache) (fight : BerthaFight) (event : BerthaEvent) :
    (fight.step normalize cache event).healthBar.isSome =
      (fight.sharesRoom event).elim fight.healthBar.isSome id := by
  cases event with
  | moved _ _ | personMoved _ | laser => rfl
  | update timeStep =>
    simp only [step, sharesRoom]
    cases lt_or_ge 0 fight.bertha.health with
    | inl alive =>
      rw [update_healthBar alive, if_pos alive]
      cases fight.inRoom <;> rfl
    | inr defeated =>
      rw [update_defeated defeated, if_neg (not_lt.mpr defeated)]
      rfl

/-- The bar shows the health after the hits so far or, when Bertha is defeated, after some hits before. -/
structure Reads (fight : BerthaFight) (hits : ℕ) : Prop where
  health : fight.bertha.health = healthAfter hits
  text : ∀ text, fight.healthBar = some text →
    ∃ shown ≤ hits, shown < 201 ∧ text = BossBertha.healthText (healthAfter shown)

theorem update_bertha (fight : BerthaFight) (normalize : Normalization) (timeStep : ℚ) :
    (fight.update normalize timeStep).bertha = fight.bertha := by
  cases waits : fight.waits with
  | true =>
    rw [update_waiting waits, aim]
    split
    · rfl
    · rfl
  | false =>
    cases lt_or_ge 0 fight.bertha.health with
    | inl alive =>
      obtain ⟨person, updated⟩ := update_quiet alive waits normalize timeStep
      rw [updated]
      rfl
    | inr defeated => rw [update_defeated defeated]

theorem Reads.laser {fight : BerthaFight} {hits : ℕ} (reads : Reads fight hits) (normalize : Normalization)
    (cache : SoundCache) : Reads (fight.step normalize cache .laser) (hits + 1) := by
  refine ⟨BossBertha.takeDamage_health reads.health cache, fun text shows => ?_⟩
  obtain ⟨shown, before, few, isText⟩ := reads.text text shows
  exact ⟨shown, Nat.le_succ_of_le before, few, isText⟩

theorem Reads.update {fight : BerthaFight} {hits : ℕ} (reads : Reads fight hits) (normalize : Normalization)
    (timeStep : ℚ) : Reads (fight.update normalize timeStep) hits := by
  cases lt_or_ge 0 fight.bertha.health with
  | inr defeated =>
    rw [update_defeated defeated]
    exact reads
  | inl alive =>
    refine ⟨by rw [update_bertha, reads.health], fun text shows => ?_⟩
    rw [update_healthBar alive, Option.ite_none_right_eq_some, Option.some_inj] at shows
    rw [reads.health, healthAfter_pos] at alive
    exact ⟨hits, le_refl hits, alive, by rw [← shows.2, reads.health]⟩

theorem Reads.run {start : BerthaFight} {hits : ℕ} (reads : Reads start hits) (normalize : Normalization)
    (cache : SoundCache) (events : List BerthaEvent) :
    Reads (run (BerthaFight.step normalize cache) start events) (hits + events.count .laser) := by
  induction events generalizing start hits with
  | nil => exact reads
  | cons event events inductionHypothesis =>
    rw [run_cons]
    cases event with
    | moved position velocity =>
      rw [List.count_cons_of_ne (by simp)]
      exact inductionHypothesis ⟨reads.health, reads.text⟩
    | personMoved position =>
      rw [List.count_cons_of_ne (by simp)]
      exact inductionHypothesis ⟨reads.health, reads.text⟩
    | laser =>
      rw [List.count_cons_self, Nat.add_comm _ 1, ← Nat.add_assoc]
      exact inductionHypothesis (reads.laser normalize cache)
    | update timeStep =>
      rw [List.count_cons_of_ne (by simp)]
      exact inductionHypothesis (reads.update normalize timeStep)

/-- While Bertha lives the bar reads half a percent less for each hit, rounded up. -/
theorem roundAway_healthAfter :
    ∀ hits < 201, roundAway (binary32 (healthAfter hits * 100)) = ((201 - hits) / 2 : ℕ) := by
  decide +kernel

theorem healthText_healthAfter {hits : ℕ} (few : hits < 201) :
    BossBertha.healthText (healthAfter hits) =
      "Bertha Health: " ++ toString (((201 - hits) / 2 : ℕ) : ℤ) ++ "%" := by
  rw [BossBertha.healthText, roundAway_healthAfter hits few]

end BerthaFight

/-- The bar is there when the two were in one room at the last update of a living Bertha.  It shows her
    health after some of the hits so far and stays when the last hit has defeated her; after two hundred
    hits she still lives and it reads nothing. -/
theorem bertha_health_bar (normalize : Normalization) (cache : SoundCache)
    (position velocity personPosition : Vector3) (events : List BerthaEvent) :
    let start := BerthaFight.create position velocity personPosition
    let fight := run (BerthaFight.step normalize cache) start events
    fight.healthBar.isSome =
        (projection (BerthaFight.step normalize cache) BerthaFight.sharesRoom start events).getLastD false ∧
      ∀ text, fight.healthBar = some text → ∃ hits ≤ events.count .laser, hits < 201 ∧
        text = "Bertha Health: " ++ toString (((201 - hits) / 2 : ℕ) : ℤ) ++ "%" := by
  intro start fight
  constructor
  · have shared : fight.healthBar.isSome = run (fun _ shares => shares) false
        (projection (BerthaFight.step normalize cache) BerthaFight.sharesRoom start events) :=
      run_projection (fun fight => fight.healthBar.isSome) (BerthaFight.step_bar normalize cache) start events
    rw [shared, run_last]
  · intro text shows
    have fresh : BerthaFight.Reads start 0 := ⟨rfl, fun _ absent => by cases absent⟩
    obtain ⟨hits, before, few, isText⟩ := (fresh.run normalize cache events).text text shows
    rw [zero_add] at before
    exact ⟨hits, before, few, isText.trans (BerthaFight.healthText_healthAfter few)⟩

end SneakySneaky
