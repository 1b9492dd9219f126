import SneakySneaky.Foundation.Loops
import SneakySneaky.Foundation.Shuffle
import SneakySneaky.LevelComponents
import SneakySneaky.MrWright

/-! # The shuffles of `MrWright` and `Wife`

Both are loops that draw an index below `m`, count `m` down in the same expression, and
exchange the items at the new `m` and at the index.  Here an index outside the list has no
result; no loop comes to that. -/

namespace SneakySneaky

open SneakySneaky.Foundation

variable {α Material Time : Type*}

/-! ## The loop -/

/-- The counter of the loop, the calls of `Random` so far, and the list. -/
structure ShuffleState (α : Type*) where
  m : ℕ
  drawn : ℕ
  items : List α
  deriving DecidableEq

/-- `int n = Random(0, m--);` and the exchange of the items at `m` and `n`. -/
def shuffleRound (random : Random) (state : ShuffleState α) : Option (ShuffleState α) :=
  -- The call gets the old `m`, the exchange the new one.
  let n := random.index state.drawn state.m
  let m := state.m - 1
  match state.items[m]?, state.items[n]? with
  | some a, some b => some ⟨m, state.drawn + 1, (state.items.set m b).set n a⟩
  | _, _ => none

/-- `int m = items.Size(); while (m > 0)` -/
def shuffleLoop (random : Random) (items : List α) (fuel : ℕ) : Option (ShuffleState α) :=
  whileLoop (fun state => decide (0 < state.m)) (fun _ => shuffleRound random) fuel ⟨items.length, 0, items⟩

/-- The loop of `MrWright::Update` over the materials of the posters. -/
def MrWright.shufflePosters (random : Random) (posters : List Material) (fuel : ℕ) :
    Option (ShuffleState Material) := shuffleLoop random posters fuel

/-- The loop of `Wife::DelayedStart` over the terminals. -/
def Wife.shuffleTerminals (random : Random) (terminals : ℕ) (fuel : ℕ) : Option (ShuffleState ℕ) :=
  shuffleLoop random (List.range terminals) fuel

/-! ## One round -/

theorem shuffleRound_returns (random : Random) {m : ℕ} (drawn : ℕ) {items : List α} (inside : m < items.length) :
    shuffleRound random ⟨m + 1, drawn, items⟩ =
      some ⟨m, drawn + 1, swapAt items m (random.index drawn (m + 1))⟩ := by
  have below : random.index drawn (m + 1) < m + 1 := random.index_lt drawn (m + 1) (Nat.succ_pos m)
  simp only [shuffleRound, swapAt, Nat.add_sub_cancel]
  rw [List.getElem?_eq_getElem inside, List.getElem?_eq_getElem (by omega)]

/-- The loop makes one round for each item that is not placed yet. -/
theorem shuffle_whileLoop (random : Random) {m fuel : ℕ} (drawn : ℕ) {items : List α} (inside : m ≤ items.length)
    (enough : m < fuel) :
    whileLoop (fun state => decide (0 < state.m)) (fun _ => shuffleRound random) fuel ⟨m, drawn, items⟩ =
      some ⟨0, drawn + m, shuffleFrom random drawn m items⟩ := by
  induction m generalizing fuel drawn items with
  | zero =>
    obtain ⟨fuel, rfl⟩ : ∃ rest, fuel = rest + 1 := ⟨fuel - 1, by omega⟩
    simp [whileLoop, shuffleFrom]
  | succ m inductionHypothesis =>
    obtain ⟨fuel, rfl⟩ : ∃ rest, fuel = rest + 1 := ⟨fuel - 1, by omega⟩
    have length := (swapAt_perm items m (random.index drawn (m + 1))).length_eq
    rw [whileLoop, if_pos (by simp), shuffleRound_returns random drawn (by omega), Option.bind_some,
      inductionHypothesis (drawn + 1) (by omega) (by omega), shuffleFrom, Nat.add_assoc, Nat.add_comm 1 m]

/-! ## Fair shuffles -/

/-- What a shuffle of a list should do, whatever it draws: every index is inside the list, there are as
    many rounds as items, and the draws alone decide which rearrangement comes out; if the items are
    different, each rearrangement comes out for exactly one sequence of draws. -/
structure FairShuffle (loop : Random → ℕ → Option (ShuffleState α)) (items : List α) : Prop where
  returns : ∀ random fuel, items.length < fuel →
    loop random fuel = some ⟨0, items.length, rearrange items (random.draws items.length)⟩
  permutes : ∀ draws, (rearrange items draws).Perm items
  reaches : items.Nodup → ∀ target : List α, target.Perm items → ∃! draws, rearrange items draws = target

theorem shuffleLoop_fair (items : List α) : FairShuffle (shuffleLoop · items) items where
  returns random fuel enough := by
    rw [shuffleLoop, shuffle_whileLoop random 0 le_rfl enough, Nat.zero_add, ← shuffle_eq_rearrange, shuffle]
  permutes := rearrange_perm items
  reaches distinct _ permuted := existsUnique_rearrange_eq distinct permuted

-- Each round places the item drawn behind those that are left.
example : shuffleLoop .first [5, 6, 7] 4 = some ⟨0, 3, [6, 7, 5]⟩ := by decide

/-- The loops of `MrWright::Update` and `Wife::DelayedStart` are fair, and what they leave is what the
    calls go on with.  The sequences of draws, of which there are `count!`, correspond to the orders of
    `count` places. -/
theorem shuffles_are_fair [Add Time] [LT Time] [DecidableLT Time] [OfNat Time 0] [OfNat Time 10]
    (wright : MrWright Material Time) (posters : List Material) (wife : Wife) :
    FairShuffle (MrWright.shufflePosters · posters) posters ∧
      (∀ timeStep random, ¬ wright.swapTimer + timeStep < 10 →
        (wright.update posters timeStep random).2 = rearrange posters (random.draws posters.length)) ∧
      FairShuffle (Wife.shuffleTerminals · wife.terminals) (List.range wife.terminals) ∧
      (∀ random, (wife.delayedStart random).sequence =
        some (rearrange (List.range wife.terminals) (random.draws (List.range wife.terminals).length))) ∧
      ∀ count,
        (∀ draws : DrawSequence count, (Random.ofDraws draws).draws count = draws) ∧
        Fintype.card (DrawSequence count) = count.factorial ∧
        Function.Bijective fun draws : DrawSequence count =>
          (⟨draws.order, draws.order_perm⟩ : { places : List (Fin count) // places.Perm (List.finRange count) }) := by
  refine ⟨shuffleLoop_fair posters, fun timeStep random due => ?_, shuffleLoop_fair _, fun random => ?_,
    fun count => ⟨Random.draws_ofDraws, DrawSequence.card_eq_factorial count, DrawSequence.order_bijective count⟩⟩
  · rw [MrWright.update, if_neg due, shuffle_eq_rearrange]
  · rw [Wife.delayedStart, shuffle_eq_rearrange]

end SneakySneaky
