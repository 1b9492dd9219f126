import SneakySneaky.Level

/-! # What an event in a level can do

`Level.Move` lists what an event can do to what the end of a level depends on: the queue
of the `AudioManager` and the calls of `Play` and `EndLevel`. -/

namespace SneakySneaky

open SneakySneaky.Foundation

namespace Level

/-! ## What the state before says of a contact -/

def isFatal (level : Level) : Contact → Bool
  | .guard guard => guard < level.guards.length
  | .bertha bertha => bertha < level.berthas.length
  | .laserOnPerson laser => level.laserOn laser && level.person.diesOf BossLaser.damage
  | _ => false

/-- The contact is the last hit on Bertha or the last match of MrWright's puzzle. -/
def defeatsBoss (level : Level) : Contact → Bool
  | .laserOnBertha laser bertha =>
    level.laserOn laser && level.berthas[bertha]?.any (·.diesOf BossLaser.damage)
  | .poster room wright poster =>
    match level.wright? room wright with
    | none => false
    | some (levelRoom, started) => levelRoom.posters[poster]?.any fun material => started.remaining = [material]
  | _ => false

def entersZone (level : Level) : Contact → Option AudioZone
  | .audioZone zone =>
    match level.zones[zone]? with
    | none => none
    | some entered => if entered.removed then none else some entered.zone
  | _ => none

def finalQueue (cache : SoundCache) : Contact → List AudioQueueEntry
  | .poster _ _ _ => MrWright.finalQueue cache
  | .laserOnBertha _ _ => BossBertha.finalQueue cache
  | _ => []

/-! ## Moves -/

/-- What the end of a level depends on is as before. -/
structure Keeps (level level' : Level) : Prop where
  enabled : level'.enabled = level.enabled
  audio : level'.audio = level.audio

inductive Move (cache : SoundCache) (level : Level) : LevelEvent → Level → LevelAction → Prop where
  | quiet {event : LevelEvent} {level' : Level} (keeps : Keeps level level') :
      Move cache level event level' .nothing
  | fatal {contact : Contact} {caller : EndCaller} {level' : Level} (stepping : level.physics = .stepping true)
      (fatal : level.isFatal contact = true) (other : ∀ origin, caller ≠ .audioManager origin)
      (keeps : Keeps level level') : Move cache level (.contact contact) level' (.endLevel caller ⟨true, false⟩)
  | stairs {personOffset : Vector3} (sends : level.sends (.stairs personOffset) = true)
      (present : 0 < level.stairs) (near : Stairs.update personOffset = some ⟨false, false⟩) :
      Move cache level (.update (.stairs personOffset)) level (.endLevel .stairs ⟨false, false⟩)
  | wife {update : Update} {level' : Level} (sends : level.sends update = true) (enabled : level.enabled = true)
      (keeps : Keeps level level') : Move cache level (.update update) level' (.endLevel .wife ⟨false, true⟩)
  | enter {contact : Contact} {zone : AudioZone} {level' : Level} (stepping : level.physics = .stepping true)
      (enters : level.entersZone contact = some zone) (enabled : level'.enabled = level.enabled)
      (audio : level'.audio = level.audio.play zone.queue false) :
      Move cache level (.contact contact) level' (.played .audioZone)
  | defeat {contact : Contact} {source : PlaySource} {level' : Level}
      (stepping : level.physics = .stepping true) (defeats : level.defeatsBoss contact = true)
      (boss : source ≠ .audioZone) (enabled : level'.enabled = level.enabled)
      (audio : level'.audio = level.audio.play (finalQueue cache contact) false) :
      Move cache level (.contact contact) level' (.played source)
  | dialogue {isPlaying : Bool} {timeStep : ℚ} (sends : level.sends (.audioManager isPlaying timeStep) = true) :
      Move cache level (.update (.audioManager isPlaying timeStep)) (level.handleAudioUpdate isPlaying timeStep).1
        (level.handleAudioUpdate isPlaying timeStep).2

theorem setWright_keeps (level : Level) (room wright : ℕ) (started : MrWright String ℚ) :
    Keeps level (level.setWright room wright started) := ⟨rfl, rfl⟩

theorem playIfAny_move {cache : SoundCache} {level level' : Level} {contact : Contact} {source : PlaySource}
    (stepping : level.physics = .stepping true) (boss : source ≠ .audioZone) (keeps : Keeps level level') :
    Move cache level (.contact contact)
      (level'.playIfAny source (if level.defeatsBoss contact then some (finalQueue cache contact) else none)).1
      (level'.playIfAny source (if level.defeatsBoss contact then some (finalQueue cache contact) else none)).2 := by
  cases defeats : level.defeatsBoss contact with
  | false => exact .quiet keeps
  | true =>
    refine .defeat stepping defeats boss keeps.enabled ?_
    rw [← keeps.audio]
    rfl

theorem handleContact_move {cache : SoundCache} {level : Level} (stepping : level.physics = .stepping true)
    (contact : Contact) :
    Move cache level (.contact contact) (level.handleContact cache contact).1
      (level.handleContact cache contact).2 := by
  cases contact with
  | guard guard =>
    simp only [handleContact]
    split
    · rename_i present
      exact .fatal stepping (decide_eq_true present) nofun ⟨rfl, rfl⟩
    · exact .quiet ⟨rfl, rfl⟩
  | bertha bertha =>
    simp only [handleContact]
    split
    · rename_i present
      exact .fatal stepping (decide_eq_true present) nofun ⟨rfl, rfl⟩
    · exact .quiet ⟨rfl, rfl⟩
  | laserOnPerson laser =>
    simp only [handleContact]
    split
    · rename_i beam
      rw [Person.takeDamage_call]
      cases dies : level.person.diesOf BossLaser.damage with
      | false => exact .quiet ⟨rfl, rfl⟩
      | true => exact .fatal stepping (by simp [isFatal, beam, dies]) nofun ⟨rfl, rfl⟩
    · exact .quiet ⟨rfl, rfl⟩
  | laserOnBertha laser bertha =>
    simp only [handleContact]
    split
    · exact .quiet ⟨rfl, rfl⟩
    · rename_i hit found
      split
      · rename_i beam
        -- Bertha hands over hers when the beam takes the last of her health.
        have defeats : hit.diesOf BossLaser.damage = level.defeatsBoss (.laserOnBertha laser bertha) := by
          simp [defeatsBoss, beam, found]
        rw [BossBertha.takeDamage_queue, defeats]
        exact playIfAny_move stepping nofun ⟨rfl, rfl⟩
      · exact .quiet ⟨rfl, rfl⟩
  | audioZone zone =>
    simp only [handleContact]
    split
    · exact .quiet ⟨rfl, rfl⟩
    · rename_i entered found
      split
      · exact .quiet ⟨rfl, rfl⟩
      · rename_i present
        -- The zone's clips replace whatever waits.
        exact .enter stepping (by simp [entersZone, found, present]) rfl rfl
  | poster room wright poster =>
    simp only [handleContact]
    split
    · exact .quiet ⟨rfl, rfl⟩
    · rename_i levelRoom started found
      split
      · exact .quiet ⟨rfl, rfl⟩
      · rename_i material shows
        -- MrWright hands over his queue when the touch matches the last glyph.
        have defeats : level.defeatsBoss (.poster room wright poster) = true ↔ started.remaining = [material] := by
          simp [defeatsBoss, found, shows]
        simp only [MrWright.played_handleNodeCollision, ← defeats]
        exact playIfAny_move stepping nofun (setWright_keeps level room wright _)
  | terminal wife terminal => exact .quiet ⟨rfl, rfl⟩

theorem handleUpdate_move {cache : SoundCache} {level : Level} {update : Update}
    (sends : level.sends update = true) :
    Move cache level (.update update) (level.handleUpdate update).1 (level.handleUpdate update).2 := by
  cases update with
  | audioManager isPlaying timeStep => exact .dialogue sends
  | guard _ _ | item _ | laser _ _ | wifeStart _ _ => exact .quiet ⟨rfl, rfl⟩
  | stairs personOffset =>
    simp only [handleUpdate]
    split
    · rename_i present
      simp only [Stairs.update]
      split
      · exact .quiet ⟨rfl, rfl⟩
      · rename_i near
        exact .stairs sends present (by simp [Stairs.update, near])
    · exact .quiet ⟨rfl, rfl⟩
  | wrightStart room wright random swapTimer =>
    simp only [handleUpdate]
    split
    · exact .quiet ⟨rfl, rfl⟩
    · split <;> exact .quiet ⟨rfl, rfl⟩
  | wright room wright timeStep random =>
    simp only [handleUpdate]
    split <;> exact .quiet ⟨rfl, rfl⟩
  | wife wife position personPosition =>
    have enabled : level.enabled = true := by
      simp only [Level.sends, Bool.and_eq_true] at sends
      exact sends.2
    simp only [handleUpdate]
    split
    · exact .quiet ⟨rfl, rfl⟩
    · rename_i updated found
      simp only [Wife.update]
      split
      · exact .quiet ⟨rfl, rfl⟩
      · split
        · exact .wife sends enabled ⟨rfl, rfl⟩
        · exact .quiet ⟨rfl, rfl⟩

theorem step_move (cache : SoundCache) (level : Level) (event : LevelEvent) :
    Move cache level event (level.step cache event).1 (level.step cache event).2 := by
  cases event with
  | beginPhysicsStep =>
    simp only [step]
    split <;> exact .quiet ⟨rfl, rfl⟩
  | endPhysicsStep => exact .quiet ⟨rfl, rfl⟩
  | contact contact =>
    simp only [step]
    split
    · rename_i stepping
      exact handleContact_move stepping contact
    · exact .quiet ⟨rfl, rfl⟩
  | update update =>
    simp only [step]
    split
    · rename_i sends
      exact handleUpdate_move sends
    · exact .quiet ⟨rfl, rfl⟩

end Level

end SneakySneaky
