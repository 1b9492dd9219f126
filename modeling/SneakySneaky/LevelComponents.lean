import SneakySneaky.AudioManager
import SneakySneaky.Foundation.Draws
import SneakySneaky.RoomIndex

/-! # The components that can end a level

`Person`, `BossBertha`, `BossLaser`, `Stairs` and `Wife`: what decides whether they call
`EndLevel` or hand a queue to the `AudioManager`.  Health is a float: what a hit takes off is
rounded.  Their movement, materials and UI are left out. -/

namespace SneakySneaky

open SneakySneaky.Foundation

structure EndCall where
  died : Bool
  suppressScore : Bool
  deriving DecidableEq

/-! ## Health -/

structure Person where
  health : ℚ
  showHealth : Bool
  deriving DecidableEq

namespace Person

/-- The constructor. -/
def create : Person := ⟨1, false⟩

def takeDamage (person : Person) (damage : ℚ) : Person × Option EndCall :=
  -- A dead player dies no second time.
  if person.health ≤ 0 then (person, none)
  else if binary32 (person.health - damage) ≤ 0 then ({ person with health := 0 }, some ⟨true, false⟩)
  else ({ person with health := binary32 (person.health - damage) }, none)

def diesOf (person : Person) (damage : ℚ) : Bool :=
  0 < person.health && binary32 (person.health - damage) ≤ 0

theorem takeDamage_call (person : Person) (damage : ℚ) :
    (person.takeDamage damage).2 = if person.diesOf damage then some ⟨true, false⟩ else none := by
  simp only [takeDamage, diesOf]
  by_cases alive : 0 < person.health
  · rw [if_neg (not_le.mpr alive)]
    by_cases killed : binary32 (person.health - damage) ≤ 0
    · simp [alive, killed]
    · simp [alive, killed]
  · rw [if_pos (not_lt.mp alive)]
    simp [alive]

end Person

structure BossBertha where
  health : ℚ
  deriving DecidableEq

namespace BossBertha

/-- The constructor. -/
def create : BossBertha := ⟨1⟩

/-- The queue whose entry with the NULL sound ends the level. -/
def finalQueue (cache : SoundCache) : List AudioQueueEntry :=
  [.levelEnd,
    .bossClip (cache "Audio/VO/Black/29_Mav.wav"),
    .bossClip (cache "Audio/VO/Voice/29_IHaveWork.wav"),
    .bossClip (cache "Audio/VO/Black/28_YouInThere.wav"),
    .bossClip (cache "Audio/VO/Black/27_Faith.wav"),
    .bossClip (cache "Audio/VO/Voice/28_YouActuallyBeatHer.wav"),
    .bossClip (cache "Audio/VO/Black/26_BREATHE.wav")]

/-- The second component is what it hands to `AudioManager::Play`. -/
def takeDamage (bertha : BossBertha) (cache : SoundCache) (damage : ℚ) :
    BossBertha × Option (List AudioQueueEntry) :=
  -- Nor does Bertha.
  if bertha.health ≤ 0 then (bertha, none)
  else if binary32 (bertha.health - damage) ≤ 0 then (⟨0⟩, some (finalQueue cache))
  else (⟨binary32 (bertha.health - damage)⟩, none)

def diesOf (bertha : BossBertha) (damage : ℚ) : Bool :=
  0 < bertha.health && binary32 (bertha.health - damage) ≤ 0

theorem takeDamage_queue (bertha : BossBertha) (cache : SoundCache) (damage : ℚ) :
    (bertha.takeDamage cache damage).2 = if bertha.diesOf damage then some (finalQueue cache) else none := by
  simp only [takeDamage, diesOf]
  by_cases alive : 0 < bertha.health
  · rw [if_neg (not_le.mpr alive)]
    by_cases killed : binary32 (bertha.health - damage) ≤ 0
    · simp [alive, killed]
    · simp [alive, killed]
  · rw [if_pos (not_lt.mp alive)]
    simp [alive]

/-- Once Bertha has handed over her queue no hit makes her do it again. -/
theorem takeDamage_defeated {bertha : BossBertha} {cache : SoundCache} {damage : ℚ}
    {queue : List AudioQueueEntry} (played : (bertha.takeDamage cache damage).2 = some queue) (later : ℚ) :
    ((bertha.takeDamage cache damage).1.takeDamage cache later).2 = none := by
  simp only [takeDamage] at played ⊢
  split at played
  · cases played
  · split at played
    · rename_i alive killed
      simp [alive, killed]
    · cases played

end BossBertha

/-! ## The boss laser -/

structure BossLaser where
  laserTime : ℚ
  laserInterval : ℚ
  laserDelay : ℚ
  modelEnabled : Bool
  deriving DecidableEq

namespace BossLaser

/-- The constructor, `LoadFromXML` and `DelayedStart`. -/
def loadFromXML (conversions : Conversions) (element : XMLElement) : BossLaser where
  laserTime := 0
  laserInterval := conversions.toFloat (element.getAttribute "interval")
  laserDelay := conversions.toFloat (element.getAttribute "delay")
  modelEnabled := false

def update (laser : BossLaser) (timeStep : ℚ) : BossLaser :=
  -- The whole step goes to the delay, even if the delay ends within it.
  if 0 < laser.laserDelay then { laser with laserDelay := laser.laserDelay - timeStep }
  else if 0 < laser.laserInterval then
    if laser.laserInterval < laser.laserTime + timeStep then
      { laser with modelEnabled := !laser.modelEnabled, laserTime := 0 }
    else { laser with laserTime := laser.laserTime + timeStep }
  else laser

/-- What a body in the beam loses in one physics step: the float nearest to 0.005, a little less. -/
def damage : ℚ := binary32 (1 / 200)

end BossLaser

/-! ## Hits of the boss laser -/

/-- The health that a hit leaves. -/
def afterHit (health : ℚ) : ℚ :=
  if health ≤ 0 then health
  else if binary32 (health - BossLaser.damage) ≤ 0 then 0
  else binary32 (health - BossLaser.damage)

/-- The health that some number of hits leaves. -/
def healthAfter : ℕ → ℚ
  | 0 => 1
  | hits + 1 => afterHit (healthAfter hits)

/-- Two hundred hits take a two hundredth each, up to a millionth in all, and leave just a little. -/
theorem healthAfter_near_of_lt :
    ∀ hits < 201, 0 < healthAfter hits ∧ |healthAfter hits - (1 - (hits : ℚ) / 200)| ≤ 1 / 10 ^ 6 := by
  decide +kernel

theorem healthAfter_of_le {hits : ℕ} (many : 201 ≤ hits) : healthAfter hits = 0 := by
  induction hits, many using Nat.le_induction with
  | base => decide +kernel
  | succ hits many inductionHypothesis => rw [healthAfter, inductionHypothesis, afterHit, if_pos (le_refl 0)]

theorem healthAfter_pos {hits : ℕ} : 0 < healthAfter hits ↔ hits < 201 := by
  constructor
  · intro positive
    by_contra many
    exact positive.ne' (healthAfter_of_le (not_lt.mp many))
  · intro few
    exact (healthAfter_near_of_lt hits few).1

theorem healthAfter_near (hits : ℕ) : |healthAfter hits - max 0 (1 - (hits : ℚ) / 200)| ≤ 1 / 10 ^ 6 := by
  cases Nat.lt_or_ge hits 201 with
  | inl few =>
    have left : (0 : ℚ) ≤ 1 - hits / 200 := by
      have most : (hits : ℚ) ≤ 200 := by exact_mod_cast Nat.le_of_lt_succ few
      linarith
    rw [max_eq_right left]
    exact (healthAfter_near_of_lt hits few).2
  | inr many =>
    have gone : (1 : ℚ) - hits / 200 ≤ 0 := by
      have least : (201 : ℚ) ≤ hits := by exact_mod_cast many
      linarith
    rw [healthAfter_of_le many, max_eq_left gone]
    norm_num

/-- The two hundred and first hit takes the last of the health. -/
theorem healthAfter_dies {hits : ℕ} :
    (0 < healthAfter hits && binary32 (healthAfter hits - BossLaser.damage) ≤ 0) = decide (hits = 200) := by
  rw [Bool.eq_iff_iff, Bool.and_eq_true, decide_eq_true_eq, decide_eq_true_eq, decide_eq_true_eq]
  have next : 0 < healthAfter (hits + 1) ↔
      0 < healthAfter hits ∧ ¬ binary32 (healthAfter hits - BossLaser.damage) ≤ 0 := by
    rw [healthAfter, afterHit]
    by_cases dead : healthAfter hits ≤ 0
    · simp [dead, not_lt.mpr dead]
    · by_cases killed : binary32 (healthAfter hits - BossLaser.damage) ≤ 0
      · simp [dead, killed]
      · simp [dead, killed, not_le.mp dead, not_le.mp killed]
  rw [healthAfter_pos] at next ⊢
  rw [healthAfter_pos] at next
  constructor
  · rintro ⟨few, last⟩
    have notNext : ¬ hits + 1 < 201 := fun more => (next.mp more).2 last
    omega
  · rintro rfl
    refine ⟨by norm_num, ?_⟩
    by_contra lasts
    exact absurd (next.mpr ⟨by norm_num, lasts⟩) (by norm_num)

theorem Person.takeDamage_health {person : Person} {hits : ℕ} (health : person.health = healthAfter hits) :
    (person.takeDamage BossLaser.damage).1.health = healthAfter (hits + 1) := by
  rw [healthAfter, ← health, Person.takeDamage, afterHit]
  split
  · rfl
  · split <;> rfl

theorem BossBertha.takeDamage_health {bertha : BossBertha} {hits : ℕ} (health : bertha.health = healthAfter hits)
    (cache : SoundCache) : (bertha.takeDamage cache BossLaser.damage).1.health = healthAfter (hits + 1) := by
  rw [healthAfter, ← health, BossBertha.takeDamage, afterHit]
  split
  · rfl
  · split <;> rfl

/-! ## Stairs and wife -/

namespace Stairs

/-- `Update`, given the stairs' position minus the player's. -/
def update (personOffset : Vector3) : Option EndCall :=
  if 5 * 5 < personOffset.lengthSquared then none else some ⟨false, false⟩

end Stairs

/-- Terminals are numbered in node order; `sequence` is the terminals still to be touched, `none`
    before `DelayedStart`, and `green` those whose model has been turned green. -/
structure Wife where
  terminals : ℕ
  sequence : Option (List ℕ)
  green : List ℕ
  deriving DecidableEq

namespace Wife

def create (terminals : ℕ) : Wife := ⟨terminals, none, []⟩

def delayedStart (wife : Wife) (random : Random) : Wife :=
  { wife with sequence := some (shuffle random (List.range wife.terminals)) }

/-- Whether the player's health is shown, and the call of `EndLevel`. -/
def update (wife : Wife) (position personPosition : Vector3) : Bool × Option EndCall :=
  -- The engine calls `DelayedStart` first, so that `sequence` is there.
  if !inRoom position personPosition then (false, none)
  else if wife.sequence = some [] then (true, some ⟨false, true⟩)
  else (true, none)

def handleNodeCollision (wife : Wife) (terminal : ℕ) : Wife :=
  match wife.sequence with
  | some (front :: rest) =>
    if terminal ≠ front then wife
    else { wife with sequence := some rest, green := terminal :: wife.green }
  | _ => wife

end Wife

end SneakySneaky
