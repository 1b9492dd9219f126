import Mathlib.Data.List.Nodup
import Mathlib.Data.List.Range
import SneakySneaky.Foundation.Runs
import SneakySneaky.LevelComponents

/-! # The terminals of `Wife`

`DelayedStart` shuffles the terminals and gives each a node that the player can touch.
The order it draws is fixed from then on: what has been turned green, oldest first, and
what is still to be touched make it up. -/

namespace SneakySneaky

open SneakySneaky.Foundation

/-- `interactionNodes` holds the terminal of each node that `DelayedStart` subscribes to. -/
structure TerminalRoom where
  wife : Wife
  interactionNodes : List ℕ
  deriving DecidableEq

inductive TerminalEvent where
  | nodeCollisionStart (node : ℕ) (otherIsPerson : Bool)
  | update (position personPosition : Vector3)

namespace TerminalRoom

/-- `DelayedStart` in a room with some number of terminals. -/
def delayedStart (terminals : ℕ) (random : Random) : TerminalRoom where
  wife := (Wife.create terminals).delayedStart random
  interactionNodes := List.range terminals

def step (room : TerminalRoom) : TerminalEvent → TerminalRoom
  | .nodeCollisionStart node otherIsPerson =>
    match room.interactionNodes[node]? with
    | none => room
    | some terminal =>
      if otherIsPerson then { room with wife := room.wife.handleNodeCollision terminal } else room
  -- What `Update` does to the player and the game is in its result.
  | .update _ _ => room

/-! ## The order -/

/-- How far the player has come through an order of the terminals. -/
structure Along (terminals : ℕ) (order : List ℕ) (room : TerminalRoom) (sequence : List ℕ) : Prop where
  nodes : room.interactionNodes = List.range terminals
  waits : room.wife.sequence = some sequence
  split : order = room.wife.green.reverse ++ sequence

variable {terminals : ℕ} {order sequence : List ℕ} {room : TerminalRoom}

theorem delayedStart_along (terminals : ℕ) (random : Random) :
    Along terminals (shuffle random (List.range terminals)) (delayedStart terminals random)
      (shuffle random (List.range terminals)) := ⟨rfl, rfl, rfl⟩

theorem Along.touch_other (along : Along terminals order room sequence) {terminal : ℕ}
    (other : sequence.head? ≠ some terminal) : room.wife.handleNodeCollision terminal = room.wife := by
  cases sequence with
  | nil => simp [Wife.handleNodeCollision, along.waits]
  | cons front rest =>
    have different : terminal ≠ front := fun same => other (by rw [same, List.head?_cons])
    simp [Wife.handleNodeCollision, along.waits, different]

theorem Along.touch_front {front : ℕ} {rest : List ℕ} (along : Along terminals order room (front :: rest)) :
    Along terminals order { room with wife := room.wife.handleNodeCollision front } rest := by
  have touched : room.wife.handleNodeCollision front =
      { room.wife with sequence := some rest, green := front :: room.wife.green } := by
    simp [Wife.handleNodeCollision, along.waits]
  constructor
  · exact along.nodes
  · rw [touched]
  · rw [touched, along.split]
    simp

/-- An event leaves the sequence or takes its front away. -/
theorem Along.step (along : Along terminals order room sequence) (event : TerminalEvent) :
    Along terminals order (room.step event) sequence ∨ Along terminals order (room.step event) sequence.tail := by
  cases event with
  | update position personPosition => exact .inl along
  | nodeCollisionStart node otherIsPerson =>
    simp only [TerminalRoom.step]
    split
    · exact .inl along
    · rename_i terminal found
      split
      · by_cases isFront : sequence.head? = some terminal
        · cases sequence with
          | nil => cases isFront
          | cons front rest =>
            cases isFront
            exact .inr along.touch_front
        · rw [along.touch_other isFront]
          exact .inl along
      · exact .inl along

theorem run_along (along : Along terminals order room sequence) (events : List TerminalEvent) :
    ∃ later, Along terminals order (run TerminalRoom.step room events) later := by
  refine run_invariant (fun room => ∃ later, Along terminals order room later) ?_ ⟨sequence, along⟩ events
  rintro room event ⟨later, along⟩
  exact (along.step event).elim (fun along => ⟨_, along⟩) fun along => ⟨_, along⟩

theorem Along.mem_green_iff (along : Along terminals order room sequence) (nodup : order.Nodup) (terminal : ℕ) :
    terminal ∈ room.wife.green ↔ terminal ∈ order ∧ terminal ∉ sequence := by
  rw [along.split] at nodup
  have apart := List.disjoint_of_nodup_append nodup
  rw [along.split, List.mem_append, List.mem_reverse]
  constructor
  · intro green
    exact ⟨.inl green, apart (List.mem_reverse.mpr green)⟩
  · rintro ⟨green | waiting, missing⟩
    · exact green
    · exact absurd waiting missing

/-- The next terminal has a node, and the player's touch of it is a match. -/
theorem Along.next_touchable (along : Along terminals order room sequence)
    (perm : order.Perm (List.range terminals)) {next : ℕ} (front : sequence.head? = some next) :
    ∃ node, room.interactionNodes[node]? = some next ∧
      (room.step (.nodeCollisionStart node true)).wife.sequence = some sequence.tail := by
  cases sequence with
  | nil => cases front
  | cons head rest =>
    cases front
    have member : next ∈ room.interactionNodes := by
      rw [along.nodes, ← perm.mem_iff, along.split]
      exact List.mem_append_right _ List.mem_cons_self
    obtain ⟨node, found⟩ := List.mem_iff_getElem?.mp member
    refine ⟨node, found, ?_⟩
    simp only [TerminalRoom.step, found, if_true]
    exact along.touch_front.waits

theorem Along.endCall (along : Along terminals order room sequence) (perm : order.Perm (List.range terminals))
    {position personPosition : Vector3} {call : EndCall}
    (ends : (room.wife.update position personPosition).2 = some call) :
    call = ⟨false, true⟩ ∧ room.wife.green.Perm (List.range terminals) := by
  simp only [Wife.update] at ends
  split at ends
  · cases ends
  · split at ends
    · rename_i finished
      cases ends
      rw [along.waits] at finished
      cases finished
      have all : order = room.wife.green.reverse := by simpa using along.split
      exact ⟨rfl, (List.reverse_perm _).symm.trans (all ▸ perm)⟩
    · cases ends

end TerminalRoom

/-- For some order of the room's terminals, in every run: the sequence is an end of that order, the
    terminals before it have turned green, once each, no other touch changes anything, the next one
    can be touched, and `EndLevel` is called when all are green. -/
theorem wife_puzzle (terminals : ℕ) (random : Random) :
    ∃ order : List ℕ, order.Perm (List.range terminals) ∧ order.Nodup ∧
      ∀ events, let room := run TerminalRoom.step (TerminalRoom.delayedStart terminals random) events
        ∃ sequence, room.wife.sequence = some sequence ∧ sequence <:+ order ∧
          room.wife.green.Nodup ∧
          (∀ terminal, terminal ∈ room.wife.green ↔ terminal ∈ order ∧ terminal ∉ sequence) ∧
          (∀ terminal, sequence.head? ≠ some terminal →
            room.wife.handleNodeCollision terminal = room.wife) ∧
          (∀ next, sequence.head? = some next → ∃ node, room.interactionNodes[node]? = some next ∧
            (room.step (.nodeCollisionStart node true)).wife.sequence = some sequence.tail) ∧
          ∀ position personPosition call, (room.wife.update position personPosition).2 = some call →
            call = ⟨false, true⟩ ∧ room.wife.green.Perm (List.range terminals) := by
  have perm := shuffle_perm random (List.range terminals)
  have nodup : (shuffle random (List.range terminals)).Nodup := perm.nodup_iff.mpr List.nodup_range
  refine ⟨_, perm, nodup, fun events => ?_⟩
  obtain ⟨sequence, along⟩ :=
    TerminalRoom.run_along (TerminalRoom.delayedStart_along terminals random) events
  refine ⟨sequence, along.waits, ⟨_, along.split.symm⟩, ?_, along.mem_green_iff nodup,
    fun terminal other => along.touch_other other, fun next front => along.next_touchable perm front,
    fun position personPosition call ends => along.endCall perm ends⟩
  rw [along.split] at nodup
  exact List.nodup_reverse.mp nodup.of_append_left

end SneakySneaky
