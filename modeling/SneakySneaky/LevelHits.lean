import SneakySneaky.Progression

/-! # The hits of boss lasers

A beam that is on takes a two hundredth of the health of the player or of a Bertha with every
contact, in floats.  Counting the contacts since the level was loaded gives the health of each
of them, whatever else happens in the game.  Two hundred leave a little; the next kills the
player, or has Bertha hand her queue to the `AudioManager`, and no other does. -/

namespace SneakySneaky

open SneakySneaky.Foundation

/-! ## One event in a level -/

inductive HitTarget where
  | person
  | bertha (bertha : ℕ)
  deriving DecidableEq

namespace Level

variable {cache : SoundCache} {level : Level} {event : LevelEvent}

/-- Whom the event takes health from. -/
def hits (level : Level) : LevelEvent → Option HitTarget
  | .contact (.laserOnPerson laser) =>
    if level.physics = .stepping true ∧ level.laserOn laser = true then some .person else none
  | .contact (.laserOnBertha laser bertha) =>
    if level.physics = .stepping true ∧ level.laserOn laser = true ∧ bertha < level.berthas.length then
      some (.bertha bertha)
    else none
  | _ => none

/-- An event that hits nobody leaves everyone's health, and is no death by a beam or defeat of Bertha. -/
structure Spared (level level' : Level) (action : LevelAction) : Prop where
  person : level'.person.health = level.person.health
  berthas : level'.berthas = level.berthas
  alive : ∀ call, action ≠ .endLevel .person call
  undefeated : action ≠ .played .bossBertha

theorem Spared.quiet {level' : Level} (person : level'.person.health = level.person.health)
    (berthas : level'.berthas = level.berthas) : Spared level level' .nothing := ⟨person, berthas, by simp, by simp⟩

theorem Spared.ofCall {level' : Level} (person : level'.person.health = level.person.health)
    (berthas : level'.berthas = level.berthas) {caller : EndCaller} (other : caller ≠ .person) (call : Option EndCall) :
    Spared level level' (.ofCall caller call) := by
  refine ⟨person, berthas, fun call' => ?_, ?_⟩
  · cases call <;> simp [LevelAction.ofCall, other]
  · cases call <;> simp [LevelAction.ofCall]

theorem playIfAny_spared {level' : Level} (person : level'.person.health = level.person.health)
    (berthas : level'.berthas = level.berthas) {source : PlaySource} (other : source ≠ .bossBertha)
    (queue : Option (List AudioQueueEntry)) :
    Spared level (level'.playIfAny source queue).1 (level'.playIfAny source queue).2 := by
  cases queue with
  | none => exact .quiet person berthas
  | some queue => exact ⟨person, berthas, by simp [playIfAny], by simpa [playIfAny] using other⟩

theorem handleContact_spared (stepping : level.physics = .stepping true) (contact : Contact)
    (missed : level.hits (.contact contact) = none) :
    Spared level (level.handleContact cache contact).1 (level.handleContact cache contact).2 := by
  cases contact with
  | guard guard | bertha bertha =>
    simp only [handleContact]
    split
    · exact ⟨rfl, rfl, by simp, by simp⟩
    · exact .quiet rfl rfl
  | laserOnPerson laser =>
    simp only [handleContact]
    split
    · rename_i beam
      simp [hits, stepping, beam] at missed
    · exact .quiet rfl rfl
  | laserOnBertha laser bertha =>
    simp only [handleContact]
    split
    · exact .quiet rfl rfl
    · rename_i hit found
      obtain ⟨present, -⟩ := List.getElem?_eq_some_iff.mp found
      split
      · rename_i beam
        simp [hits, stepping, beam, present] at missed
      · exact .quiet rfl rfl
  | audioZone zone =>
    simp only [handleContact]
    split
    · exact .quiet rfl rfl
    · split
      · exact .quiet rfl rfl
      · exact ⟨rfl, rfl, by simp, by simp⟩
  | poster room wright poster =>
    simp only [handleContact]
    split
    · exact .quiet rfl rfl
    · split
      · exact .quiet rfl rfl
      · exact playIfAny_spared (by rfl) (by rfl) (show PlaySource.mrWright ≠ .bossBertha by simp) _
  | terminal wife terminal => exact .quiet rfl rfl

theorem handleUpdate_spared (update : Update) :
    Spared level (level.handleUpdate update).1 (level.handleUpdate update).2 := by
  cases update with
  | audioManager isPlaying timeStep =>
    simp only [handleUpdate, handleAudioUpdate]
    split
    · exact ⟨rfl, rfl, by simp, by simp⟩
    · exact .quiet rfl rfl
  | guard _ _ | item _ | laser _ _ | wifeStart _ _ => exact .quiet rfl rfl
  | stairs personOffset =>
    simp only [handleUpdate]
    split
    · exact .ofCall rfl rfl (by simp) _
    · exact .quiet rfl rfl
  | wrightStart room wright random swapTimer =>
    simp only [handleUpdate]
    split
    · exact .quiet rfl rfl
    · split <;> exact .quiet rfl rfl
  | wright room wright timeStep random =>
    simp only [handleUpdate]
    split <;> exact .quiet rfl rfl
  | wife wife position personPosition =>
    simp only [handleUpdate]
    split
    · exact .quiet rfl rfl
    · exact .ofCall (by rfl) (by rfl) (show EndCaller.wife ≠ .person by simp) _

theorem step_spared (missed : level.hits event = none) :
    Spared level (level.step cache event).1 (level.step cache event).2 := by
  cases event with
  | beginPhysicsStep =>
    simp only [step]
    split <;> exact .quiet rfl rfl
  | endPhysicsStep => exact .quiet rfl rfl
  | contact contact =>
    simp only [step]
    split
    · rename_i stepping
      exact handleContact_spared stepping contact missed
    · exact .quiet rfl rfl
  | update update =>
    simp only [step]
    split
    · exact handleUpdate_spared update
    · exact .quiet rfl rfl

theorem step_hits_person (hit : level.hits event = some .person) :
    level.step cache event =
      ({ level with person := (level.person.takeDamage BossLaser.damage).1 },
        .ofCall .person (level.person.takeDamage BossLaser.damage).2) := by
  cases event with
  | contact contact =>
    cases contact with
    | laserOnPerson laser =>
      simp only [hits, Option.ite_none_right_eq_some] at hit
      simp only [step, hit.1.1, if_true, handleContact, hit.1.2]
    | laserOnBertha laser bertha => simp [hits] at hit
    | _ => cases hit
  | _ => cases hit

theorem step_hits_bertha {bertha : ℕ} (hit : level.hits event = some (.bertha bertha)) :
    ∃ hurt, level.berthas[bertha]? = some hurt ∧ level.step cache event =
      playIfAny { level with berthas := level.berthas.set bertha (hurt.takeDamage cache BossLaser.damage).1 }
        .bossBertha (hurt.takeDamage cache BossLaser.damage).2 := by
  cases event with
  | contact contact =>
    cases contact with
    | laserOnPerson laser => simp [hits] at hit
    | laserOnBertha laser struck =>
      simp only [hits, Option.ite_none_right_eq_some, Option.some.injEq, HitTarget.bertha.injEq] at hit
      obtain ⟨⟨stepping, beam, present⟩, rfl⟩ := hit
      refine ⟨level.berthas[struck], List.getElem?_eq_getElem present, ?_⟩
      simp only [step, stepping, if_true, handleContact, List.getElem?_eq_getElem present, beam]
    | _ => cases hit
  | _ => cases hit

end Level

/-! ## Counting -/

theorem Person.diesOf_healthAfter {person : Person} {hits : ℕ} (health : person.health = healthAfter hits) :
    person.diesOf BossLaser.damage = decide (hits = 200) := by
  rw [Person.diesOf, health, healthAfter_dies]

theorem BossBertha.diesOf_healthAfter {bertha : BossBertha} {hits : ℕ} (health : bertha.health = healthAfter hits) :
    bertha.diesOf BossLaser.damage = decide (hits = 200) := by
  rw [BossBertha.diesOf, health, healthAfter_dies]

/-- The calls since the last `LoadLevel`. -/
def Game.sinceLoad (game : Game) : List Call := game.calls.takeWhile (· ≠ .loadLevel)

def Call.isPersonEnd : Call → Bool
  | .endLevel .person _ => true
  | _ => false

theorem Level.Spared.deaths {level level' : Level} {action : LevelAction} (spared : Level.Spared level level' action) :
    action.calls.countP Call.isPersonEnd = 0 := by
  cases action with
  | nothing => rfl
  | played source => rfl
  | endLevel caller call =>
    cases caller with
    | person => exact absurd rfl (spared.alive call)
    | _ => rfl

theorem Level.Spared.defeats {level level' : Level} {action : LevelAction} (spared : Level.Spared level level' action) :
    action.calls.count (.play .bossBertha) = 0 := by
  cases action with
  | nothing => rfl
  | endLevel caller call => rfl
  | played source =>
    cases source with
    | bossBertha => exact absurd rfl spared.undefeated
    | audioZone | mrWright => rfl

/-- The health of everyone, and what was called, by the numbers of hits. -/
structure Wounded (hits : HitTarget → ℕ) (calls : List Call) (level : Level) : Prop where
  person : level.person.health = healthAfter (hits .person)
  berthas : ∀ (bertha : ℕ) (hurt : BossBertha), level.berthas[bertha]? = some hurt →
    hurt.health = healthAfter (hits (.bertha bertha))
  deaths : calls.countP Call.isPersonEnd = if hits .person < 201 then 0 else 1
  defeats : ∃ defeated : List ℕ, defeated.Nodup ∧ calls.count (.play .bossBertha) = defeated.length ∧
    ∀ bertha, bertha ∈ defeated ↔ bertha < level.berthas.length ∧ 201 ≤ hits (.bertha bertha)

namespace Wounded

variable {hits : HitTarget → ℕ} {calls : List Call} {level level' : Level}

theorem fresh (conversions : Conversions) (dirty : Bool) (rooms : List RoomContents) :
    Wounded (fun _ => 0) [] (.load conversions dirty rooms) := by
  refine ⟨rfl, fun bertha hurt found => ?_, rfl, [], List.nodup_nil, rfl, by simp⟩
  have member := List.mem_of_getElem? found
  simp only [Level.load, List.mem_flatMap, List.mem_map] at member
  obtain ⟨room, -, element, -, rfl⟩ := member
  exact rfl

/-- Only the player, the Berthas and the two kinds of call matter. -/
theorem congr (wounded : Wounded hits calls level) (person : level'.person.health = level.person.health)
    (berthas : level'.berthas = level.berthas) {calls' : List Call}
    (deaths : calls'.countP Call.isPersonEnd = calls.countP Call.isPersonEnd)
    (defeats : calls'.count (.play .bossBertha) = calls.count (.play .bossBertha)) : Wounded hits calls' level' := by
  refine ⟨person.trans wounded.person, ?_, deaths.trans wounded.deaths, ?_⟩
  · rw [berthas]
    exact wounded.berthas
  · rw [berthas, defeats]
    exact wounded.defeats

/-- One more hit on the player; the two hundred and first is a death. -/
theorem person_hit (wounded : Wounded hits calls level) :
    Wounded (Function.update hits .person (hits .person + 1))
      ((LevelAction.ofCall .person (level.person.takeDamage BossLaser.damage).2).calls ++ calls)
      { level with person := (level.person.takeDamage BossLaser.damage).1 } := by
  have dies := Person.diesOf_healthAfter wounded.person
  refine ⟨?_, fun bertha hurt found => ?_, ?_, ?_⟩
  · rw [Function.update_self]
    exact Person.takeDamage_health wounded.person
  · rw [Function.update_of_ne (by simp)]
    exact wounded.berthas bertha hurt found
  · have before := wounded.deaths
    rw [Function.update_self, Person.takeDamage_call, dies, List.countP_append, before]
    by_cases last : hits .person = 200
    · simp [last, LevelAction.ofCall, LevelAction.calls, Call.isPersonEnd]
    · simp only [last, decide_false, Bool.false_eq_true, if_false, LevelAction.ofCall, LevelAction.calls,
        List.countP_nil, zero_add]
      split <;> split <;> omega
  · obtain ⟨defeated, nodup, count, same⟩ := wounded.defeats
    refine ⟨defeated, nodup, ?_, fun bertha => ?_⟩
    · rw [List.count_append, count, Nat.add_eq_right, List.count_eq_zero]
      rw [Person.takeDamage_call]
      split <;> simp [LevelAction.ofCall, LevelAction.calls]
    · rw [Function.update_of_ne (by simp)]
      exact same bertha

/-- One more hit on a Bertha; after the two hundred and first she is defeated. -/
theorem bertha_hit (wounded : Wounded hits calls level) {bertha : ℕ} {hurt : BossBertha}
    (found : level.berthas[bertha]? = some hurt) (cache : SoundCache) :
    let result := Level.playIfAny
      { level with berthas := level.berthas.set bertha (hurt.takeDamage cache BossLaser.damage).1 }
      .bossBertha (hurt.takeDamage cache BossLaser.damage).2
    Wounded (Function.update hits (.bertha bertha) (hits (.bertha bertha) + 1)) (result.2.calls ++ calls) result.1 := by
  intro result
  have health := wounded.berthas bertha hurt found
  have dies := BossBertha.diesOf_healthAfter health
  have present := (List.getElem?_eq_some_iff.mp found).1
  have berthas : result.1.berthas = level.berthas.set bertha (hurt.takeDamage cache BossLaser.damage).1 := by
    show (Level.playIfAny _ _ _).1.berthas = _
    cases (hurt.takeDamage cache BossLaser.damage).2 <;> rfl
  have person : result.1.person = level.person := by
    show (Level.playIfAny _ _ _).1.person = _
    cases (hurt.takeDamage cache BossLaser.damage).2 <;> rfl
  have action : result.2.calls = if hits (.bertha bertha) = 200 then [.play .bossBertha] else [] := by
    show (Level.playIfAny _ _ _).2.calls = _
    rw [BossBertha.takeDamage_queue, dies]
    by_cases last : hits (.bertha bertha) = 200
    · simp [last, Level.playIfAny, LevelAction.calls]
    · simp [last, Level.playIfAny, LevelAction.calls]
  refine ⟨?_, fun other otherHurt otherFound => ?_, ?_, ?_⟩
  · rw [Function.update_of_ne (by simp), person]
    exact wounded.person
  · rw [berthas] at otherFound
    by_cases same : bertha = other
    · subst same
      rw [List.getElem?_set_self present, Option.some_inj] at otherFound
      rw [Function.update_self, ← otherFound]
      exact BossBertha.takeDamage_health health cache
    · rw [List.getElem?_set_ne same] at otherFound
      rw [Function.update_of_ne (by simpa using Ne.symm same)]
      exact wounded.berthas other otherHurt otherFound
  · rw [Function.update_of_ne (by simp), action, List.countP_append, wounded.deaths]
    split <;> simp [Call.isPersonEnd]
  · obtain ⟨defeated, nodup, count, same⟩ := wounded.defeats
    rw [berthas, List.length_set, action, List.count_append, count]
    have others : ∀ other, other ≠ bertha → (other ∈ defeated ↔ other < level.berthas.length ∧
        201 ≤ Function.update hits (.bertha bertha) (hits (.bertha bertha) + 1) (.bertha other)) := by
      intro other apart
      rw [Function.update_of_ne (by simpa using apart)]
      exact same other
    by_cases last : hits (.bertha bertha) = 200
    · refine ⟨bertha :: defeated, List.nodup_cons.mpr ⟨fun already => ?_, nodup⟩, ?_, fun other => ?_⟩
      · have many := ((same bertha).mp already).2
        omega
      · simp [last, Nat.add_comm]
      · by_cases apart : other = bertha
        · subst apart
          simp [present, last]
        · rw [List.mem_cons, or_iff_right apart]
          exact others other apart
    · refine ⟨defeated, nodup, by simp [last], fun other => ?_⟩
      by_cases apart : other = bertha
      · subst apart
        rw [same, Function.update_self]
        omega
      · exact others other apart

/-- A step of the level, with the call of `EndLevel` that it makes. -/
theorem step (wounded : Wounded hits calls level) (cache : SoundCache) (event : LevelEvent) :
    Wounded ((level.hits event).elim hits fun target => Function.update hits target (hits target + 1))
      ((level.step cache event).2.calls ++ calls) (level.step cache event).1 := by
  cases hit : level.hits event with
  | none =>
    have spared : Level.Spared level (level.step cache event).1 (level.step cache event).2 := Level.step_spared hit
    apply wounded.congr spared.person spared.berthas
    · rw [List.countP_append, spared.deaths, Nat.zero_add]
    · rw [List.count_append, spared.defeats, Nat.zero_add]
  | some target =>
    cases target with
    | person =>
      rw [Level.step_hits_person hit]
      exact wounded.person_hit
    | bertha bertha =>
      obtain ⟨hurt, found, stepped⟩ := Level.step_hits_bertha hit
      rw [stepped]
      exact wounded.bertha_hit found cache

end Wounded

/-! ## Runs of the game -/

/-- The game, and the hits since the last `LoadLevel`. -/
structure HitCount where
  game : Game
  hits : HitTarget → ℕ

namespace HitCount

def create : HitCount := ⟨.create, fun _ => 0⟩

/-- The hit of an event that the game hands to its level. -/
def target (game : Game) : Event → Option HitTarget
  | .level event => if game.status = .running then game.scene.level.bind (·.hits event) else none
  | .frame _ | .postRenderUpdate => none

def step (world : World) (count : HitCount) (event : Event) : HitCount :=
  let game := count.game.step world event
  ⟨game,
    if game.loads = count.game.loads then
      (target count.game event).elim count.hits fun target => Function.update count.hits target (count.hits target + 1)
    else fun _ => 0⟩

end HitCount

namespace Game

/-- The counts are right for the level that is there. -/
def Counted (game : Game) (hits : HitTarget → ℕ) : Prop :=
  ∀ level, game.scene.level = some level → Wounded hits game.sinceLoad level

theorem sinceLoad_append {game game' : Game} {made : List Call} (calls : game'.calls = made ++ game.calls)
    (unloaded : .loadLevel ∉ made) : game'.sinceLoad = made ++ game.sinceLoad := by
  rw [sinceLoad, calls, List.takeWhile_append_of_pos]
  · rfl
  · intro call member
    simpa using fun isLoad : call = .loadLevel => unloaded (isLoad ▸ member)

theorem loadLevel_counted (world : World) (game : Game) : Counted (game.loadLevel world) fun _ => 0 := by
  intro level found
  obtain ⟨rooms, rfl⟩ := loadLevel_level found
  rw [sinceLoad, loadLevel_calls]
  exact .fresh world.conversions world.dirty rooms

theorem Counted.adjusts {game game' : Game} {hits : HitTarget → ℕ} (counted : Counted game hits)
    (adjusts : Adjusts game game') : Counted game' hits := by
  intro level found
  obtain ⟨items, same⟩ := adjusts.level
  rw [same, Option.map_eq_some_iff] at found
  obtain ⟨before, foundBefore, rfl⟩ := found
  rw [sinceLoad, adjusts.calls]
  exact (counted before foundBefore).congr (by rfl) (by rfl) rfl rfl

theorem LevelAction.not_loadLevel (action : LevelAction) : .loadLevel ∉ action.calls := by
  cases action <;> simp [LevelAction.calls]

/-- The level that an action leaves is still counted, unless another was loaded. -/
theorem Counted.act {world : World} {game : Game} {level : Level} {action : LevelAction} {hits : HitTarget → ℕ}
    (wounded : Wounded hits (action.calls ++ game.sinceLoad) level)
    (unloaded : (Game.act world (game.withLevel level) action).loads = game.loads) :
    Counted (Game.act world (game.withLevel level) action) hits := by
  obtain ⟨calls, -⟩ := act_unloaded unloaded
  have since := sinceLoad_append calls (LevelAction.not_loadLevel action)
  intro later found
  rw [since]
  cases action with
  | nothing | played source =>
    cases found
    exact wounded
  | endLevel caller call =>
    obtain ⟨died, suppressScore⟩ := call
    have present : (game.withLevel level).scene.level = some level := rfl
    cases suppressScore with
    | true =>
      rw [Game.act, endLevel_loads present, loadLevel_calls] at calls
      have longer := congrArg List.length calls
      simp [LevelAction.calls, withLevel] at longer
    | false =>
      rw [Game.act, endLevel_ends present] at found
      cases found
      exact wounded.congr (by rfl) (by rfl) rfl rfl

/-- Whatever a frame does, either no level was loaded and the counts stand, or the last level loaded has
    not been hit yet. -/
theorem Counted.moves {world : World} {input : Input} {game middle : Game} {hits : HitTarget → ℕ}
    (placed : Placed world game) (counted : Counted game hits) (moves : Moves world input game middle) :
    Placed world middle ∧ game.loads ≤ middle.loads ∧
      Counted middle (if middle.loads = game.loads then hits else fun _ => 0) := by
  induction moves with
  | refl => exact ⟨placed, le_refl _, by rwa [if_pos rfl]⟩
  | @tail before after _ move inductionHypothesis =>
    obtain ⟨placedBefore, more, countedBefore⟩ := inductionHypothesis
    have grows := loads_le_of_suffix move.calls
    refine ⟨placedBefore.move move, more.trans grows, ?_⟩
    cases move with
    | adjust adjusts =>
      have same : after.loads = before.loads := by rw [loads, loads, adjusts.calls]
      rw [same]
      exact countedBefore.adjusts adjusts
    | @load entered _ _ _ calls =>
      have next : (entered.loadLevel world).loads ≠ game.loads := by
        have same : entered.loads = before.loads := by rw [loads, loads, calls]
        rw [loads_loadLevel, same]
        omega
      rw [if_neg next]
      exact loadLevel_counted world entered
    | leave outside _ _ _ _ _ _ level =>
      intro found present
      rw [level (placedBefore.no_level outside)] at present
      cases present
    | next playing =>
      cases found : before.scene.level with
      | none =>
        intro later present
        simp only [endLevel, found] at present
        cases present
      | some level =>
        have isAct : before.endLevel world .developer ⟨false, false⟩ =
            Game.act world (before.withLevel level) (.endLevel .developer ⟨false, false⟩) := by
          rw [Game.act, withLevel, ← found]
        have unloaded : (before.endLevel world .developer ⟨false, false⟩).loads = before.loads := by
          rw [endLevel_ends found]
          rfl
        rw [unloaded]
        rw [isAct] at unloaded ⊢
        exact Counted.act ((countedBefore level found).congr rfl rfl rfl rfl) unloaded

theorem Counted.handleUpdate {world : World} {game : Game} {hits : HitTarget → ℕ} (placed : Placed world game)
    (counted : Counted game hits) (input : Input) :
    Counted (game.handleUpdate world input)
      (if (game.handleUpdate world input).loads = game.loads then hits else fun _ => 0) := by
  obtain ⟨middle, moves, adjusts⟩ := handleUpdate_moves world input game
  have same : (game.handleUpdate world input).loads = middle.loads := by rw [loads, loads, adjusts.calls]
  rw [same]
  exact (counted.moves placed moves).2.2.adjusts adjusts

theorem Counted.levelStep {world : World} {game : Game} {level : Level} {hits : HitTarget → ℕ}
    (found : game.scene.level = some level) (counted : Counted game hits) (event : LevelEvent) :
    Counted (game.levelStep world event)
      (if (game.levelStep world event).loads = game.loads then
        (level.hits event).elim hits fun target => Function.update hits target (hits target + 1)
      else fun _ => 0) := by
  have stepped : game.levelStep world event =
      Game.act world (game.withLevel (level.step world.cache event).1) (level.step world.cache event).2 := by
    simp only [Game.levelStep, found]
    rfl
  have wounded := (counted level found).step world.cache event
  rw [stepped]
  by_cases unloaded : (Game.act world (game.withLevel (level.step world.cache event).1)
      (level.step world.cache event).2).loads = game.loads
  · rw [if_pos unloaded]
    exact Counted.act wounded unloaded
  · rw [if_neg unloaded]
    cases act_cases game (level.step world.cache event).1 (level.step world.cache event).2 with
    | inl kept =>
      have same : (Game.act world (game.withLevel (level.step world.cache event).1)
          (level.step world.cache event).2).loads = game.loads := by
        rw [loads, loads, kept.1, List.count_append, Nat.add_eq_right, List.count_eq_zero]
        exact LevelAction.not_loadLevel _
      exact absurd same unloaded
    | inr loaded =>
      obtain ⟨entered, -, loaded⟩ := loaded
      rw [loaded]
      exact loadLevel_counted world entered

end Game

namespace HitCount

/-- The game goes on by itself. -/
theorem run_game (world : World) (start : HitCount) (events : List Event) :
    (run (step world) start events).game = run (Game.step world) start.game events :=
  run_view HitCount.game (fun _ _ => rfl) start events

theorem step_counted {world : World} {count : HitCount} (placed : Game.Placed world count.game)
    (counted : count.game.Counted count.hits) (event : Event) :
    (count.step world event).game.Counted (count.step world event).hits := by
  by_cases running : count.game.status = .running
  · cases event with
    | frame input =>
      simp only [step, target, Game.step, if_pos running, Option.elim_none]
      split
      · exact counted.handleUpdate placed input
      · rwa [if_pos rfl]
    | level event =>
      simp only [step, target, Game.step, if_pos running]
      cases found : count.game.scene.level with
      | none =>
        have same : count.game.levelStep world event = count.game := by simp only [Game.levelStep, found]
        rw [same, if_pos rfl]
        exact counted
      | some level => exact counted.levelStep found event
    | postRenderUpdate =>
      simp only [step, target, Game.step, if_pos running, Option.elim_none]
      have adjusts : Game.Adjusts count.game
          (if count.game.betweenSteps then count.game.handlePostRenderUpdate else count.game) := by
        split
        · cases Game.handlePostRenderUpdate_cases count.game with
          | inl same =>
            rw [same]
            exact .refl _
          | inr crashed =>
            rw [crashed]
            exact .same rfl rfl rfl rfl rfl rfl
        · exact .refl _
      have same : Game.loads (if count.game.betweenSteps then count.game.handlePostRenderUpdate else count.game) =
          count.game.loads := by
        rw [Game.loads, Game.loads, adjusts.calls]
      rw [if_pos same]
      exact counted.adjusts adjusts
  · have still : count.game.step world event = count.game := by simp only [Game.step, if_neg running]
    have missed : target count.game event = none := by
      cases event with
      | level event => exact if_neg running
      | frame _ | postRenderUpdate => rfl
    rw [step, still, missed, if_pos rfl]
    exact counted

end HitCount

/-- The health that some hits leave is that of as many subtractions in floats, and close to a two hundredth
    less for each. -/
def LeftBy (hits : ℕ) (health : ℚ) : Prop :=
  health = healthAfter hits ∧ |health - max 0 (1 - (hits : ℚ) / 200)| ≤ 1 / 10 ^ 6

theorem LeftBy.of_eq {hits : ℕ} {health : ℚ} (same : health = healthAfter hits) : LeftBy hits health :=
  ⟨same, same ▸ healthAfter_near hits⟩

/-- In every reachable level the player and each Bertha have lost a two hundredth of their health, as floats
    have it, for each hit since the level was loaded.  The player has died of the beams once, or not at all,
    by whether the hits have passed two hundred, and as many queues were handed over as Berthas were hit
    that often. -/
theorem hits_account_for_health (world : World) (events : List Event) :
    let count := run (HitCount.step world) HitCount.create events
    count.game = run (Game.step world) Game.create events ∧
      ∀ level, count.game.scene.level = some level →
        LeftBy (count.hits .person) level.person.health ∧
        (∀ (bertha : ℕ) (hurt : BossBertha), level.berthas[bertha]? = some hurt →
          LeftBy (count.hits (.bertha bertha)) hurt.health) ∧
        count.game.sinceLoad.countP Call.isPersonEnd = (if count.hits .person < 201 then 0 else 1) ∧
        count.game.sinceLoad.count (.play .bossBertha) =
          ((List.range level.berthas.length).filter fun bertha => 201 ≤ count.hits (.bertha bertha)).length := by
  intro count
  have isRun : count.game = run (Game.step world) Game.create events := HitCount.run_game world .create events
  have counted : Game.Placed world count.game ∧ count.game.Counted count.hits :=
    run_invariant (fun count : HitCount => Game.Placed world count.game ∧ count.game.Counted count.hits)
      (fun _ event both => ⟨both.1.step event, HitCount.step_counted both.1 both.2 event⟩)
      ⟨Game.create_placed world, fun _ absent => by cases absent⟩ events
  refine ⟨isRun, fun level found => ?_⟩
  obtain ⟨person, berthas, deaths, defeated, nodup, count', same⟩ := counted.2 level found
  refine ⟨.of_eq person, fun bertha hurt found => .of_eq (berthas bertha hurt found), deaths, ?_⟩
  have rearranged : defeated.Perm
      ((List.range level.berthas.length).filter fun bertha => 201 ≤ count.hits (.bertha bertha)) := by
    rw [List.perm_ext_iff_of_nodup nodup (List.nodup_range.filter _)]
    intro bertha
    rw [same, List.mem_filter, List.mem_range, decide_eq_true_eq]
  rw [count', rearranged.length_eq]

end SneakySneaky
