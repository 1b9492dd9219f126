import Mathlib.Algebra.BigOperators.Fin
import Mathlib.Data.Fintype.BigOperators
import Mathlib.Data.List.FinRange
import Mathlib.Data.Nat.Factorial.BigOperators
import SneakySneaky.Foundation.Draws

/-! # Orders reached by the in-place shuffle

The shuffle of a list depends only on the draws it makes, and rearranges places, not items.
Every order of the places is reached, each by one sequence of draws: the last place is
filled first, and what has been placed stays. -/

namespace SneakySneaky.Foundation

variable {α β : Type*}

/-! ## Exchanges -/

theorem swapAt_getElem?_left {items : List α} {m n : ℕ} (insideM : m < items.length) (insideN : n < items.length) :
    (swapAt items m n)[m]? = items[n]? := by
  rw [swapAt, List.getElem?_eq_getElem insideM, List.getElem?_eq_getElem insideN]
  by_cases same : n = m
  · subst same
    simp [insideM]
  · simp [same, insideM]

theorem swapAt_getElem?_of_ne {items : List α} {m n i : ℕ} (otherM : i ≠ m) (otherN : i ≠ n) :
    (swapAt items m n)[i]? = items[i]? := by
  rw [swapAt]
  split
  · rw [List.getElem?_set_ne otherN.symm, List.getElem?_set_ne otherM.symm]
  · rfl

theorem swapAt_map (f : α → β) (items : List α) (m n : ℕ) :
    swapAt (items.map f) m n = (swapAt items m n).map f := by
  simp only [swapAt, List.getElem?_map]
  cases items[m]? with
  | none => rfl
  | some a =>
    cases items[n]? with
    | none => rfl
    | some b => simp only [Option.map_some, List.map_set]

/-! ## What a shuffle depends on -/

/-- What has been placed stays. -/
theorem shuffleFrom_getElem?_of_le (random : Random) (drawn m : ℕ) (items : List α) {i : ℕ} (placed : m ≤ i) :
    (shuffleFrom random drawn m items)[i]? = items[i]? := by
  induction m generalizing drawn items with
  | zero => rfl
  | succ m inductionHypothesis =>
    have below : random.index drawn (m + 1) < m + 1 := random.index_lt drawn (m + 1) (Nat.succ_pos m)
    rw [shuffleFrom, inductionHypothesis _ _ (by omega), swapAt_getElem?_of_ne (by omega) (by omega)]

theorem shuffleFrom_map (f : α → β) (random : Random) (drawn m : ℕ) (items : List α) :
    shuffleFrom random drawn m (items.map f) = (shuffleFrom random drawn m items).map f := by
  induction m generalizing drawn items with
  | zero => rfl
  | succ m inductionHypothesis => rw [shuffleFrom, shuffleFrom, swapAt_map, inductionHypothesis]

/-- Two sources draw the same in the `m` calls of a shuffle that come after the first `drawn`. -/
def Random.Agrees (random other : Random) (drawn m : ℕ) : Prop :=
  ∀ call < m, random.index (drawn + call) (m - call) = other.index (drawn + call) (m - call)

theorem Random.agrees_succ {random other : Random} {drawn m : ℕ} :
    random.Agrees other drawn (m + 1) ↔
      random.index drawn (m + 1) = other.index drawn (m + 1) ∧ random.Agrees other (drawn + 1) m := by
  constructor
  · intro agrees
    refine ⟨agrees 0 (Nat.succ_pos m), fun call below => ?_⟩
    have next := agrees (call + 1) (by omega)
    rwa [Nat.add_sub_add_right, ← Nat.add_assoc, Nat.add_right_comm] at next
  · rintro ⟨first, rest⟩ call below
    cases call with
    | zero => exact first
    | succ call =>
      rw [Nat.add_sub_add_right, ← Nat.add_assoc, Nat.add_right_comm]
      exact rest call (by omega)

theorem Random.Agrees.shuffleFrom_eq {random other : Random} {drawn m : ℕ} (agrees : random.Agrees other drawn m)
    (items : List α) : shuffleFrom random drawn m items = shuffleFrom other drawn m items := by
  induction m generalizing drawn items with
  | zero => rfl
  | succ m inductionHypothesis =>
    obtain ⟨first, rest⟩ := Random.agrees_succ.mp agrees
    rw [shuffleFrom, shuffleFrom, first, inductionHypothesis rest]

/-- A list of different items tells how it was shuffled. -/
theorem Random.agrees_of_shuffleFrom_eq {random other : Random} {drawn m : ℕ} {items : List α}
    (distinct : items.Nodup) (inside : m ≤ items.length)
    (same : shuffleFrom random drawn m items = shuffleFrom other drawn m items) : random.Agrees other drawn m := by
  induction m generalizing drawn items with
  | zero => exact fun call below => absurd below (Nat.not_lt_zero call)
  | succ m inductionHypothesis =>
    have below : random.index drawn (m + 1) < m + 1 := random.index_lt drawn (m + 1) (Nat.succ_pos m)
    have otherBelow : other.index drawn (m + 1) < m + 1 := other.index_lt drawn (m + 1) (Nat.succ_pos m)
    -- The item at the place filled first is the one that stood where the first call drew.
    have first : random.index drawn (m + 1) = other.index drawn (m + 1) := by
      have atLast := congrArg (fun shuffled => shuffled[m]?) same
      simp only [shuffleFrom, shuffleFrom_getElem?_of_le _ _ m _ le_rfl] at atLast
      rw [swapAt_getElem?_left (by omega) (by omega), swapAt_getElem?_left (by omega) (by omega)] at atLast
      exact (List.getElem?_inj (by omega) distinct).mp atLast
    rw [shuffleFrom, shuffleFrom, ← first] at same
    have permuted := swapAt_perm items m (random.index drawn (m + 1))
    refine Random.agrees_succ.mpr ⟨first, inductionHypothesis (permuted.nodup_iff.mpr distinct) ?_ same⟩
    rw [permuted.length_eq]
    omega

/-! ## Every order is reached -/

/-- The source that gives `n` at one call and otherwise draws like another. -/
def Random.answer (random : Random) (drawn bound n : ℕ) (below : n < bound) : Random where
  index call limit := if call = drawn ∧ limit = bound then n else random.index call limit
  index_lt call limit positive := by
    split
    · rename_i answered
      rwa [answered.2]
    · exact random.index_lt call limit positive

theorem exists_shuffleFrom_eq {items target : List α} (distinct : items.Nodup) (permuted : target.Perm items)
    {m : ℕ} (inside : m ≤ items.length) (placed : ∀ i, m ≤ i → target[i]? = items[i]?) (drawn : ℕ) :
    ∃ random : Random, shuffleFrom random drawn m items = target := by
  induction m generalizing drawn items with
  | zero => exact ⟨.first, (List.ext_getElem? fun i => placed i (Nat.zero_le i)).symm⟩
  | succ m inductionHypothesis =>
    have targetInside : m < target.length := by
      rw [permuted.length_eq]
      omega
    obtain ⟨n, insideN, found⟩ := List.getElem_of_mem (permuted.subset (List.getElem_mem targetInside))
    have standsAt : target[m]? = items[n]? := by
      rw [List.getElem?_eq_getElem targetInside, List.getElem?_eq_getElem insideN, found]
    -- Beyond `m` the target has its items already, and it has each of them once.
    have below : n < m + 1 := by
      by_contra beyond
      rw [← placed n (by omega)] at standsAt
      have same := (List.getElem?_inj targetInside (permuted.nodup_iff.mpr distinct)).mp standsAt
      omega
    have swapped := swapAt_perm items m n
    obtain ⟨random, reached⟩ := inductionHypothesis (swapped.nodup_iff.mpr distinct) (permuted.trans swapped.symm)
      (by rw [swapped.length_eq]; omega)
      (fun i after => by
        by_cases last : i = m
        · rw [last, standsAt, swapAt_getElem?_left (by omega) insideN]
        · rw [placed i (by omega), swapAt_getElem?_of_ne last (by omega)])
      (drawn + 1)
    refine ⟨random.answer drawn (m + 1) n below, ?_⟩
    have later : (random.answer drawn (m + 1) n below).Agrees random (drawn + 1) m := fun call _ =>
      if_neg fun answered => absurd answered.1 (by omega)
    rw [shuffleFrom, later.shuffleFrom_eq, ← reached]
    congr 2
    exact if_pos ⟨rfl, rfl⟩

/-- Any order of different items is reached. -/
theorem exists_shuffle_eq {items target : List α} (distinct : items.Nodup) (permuted : target.Perm items) :
    ∃ random, shuffle random items = target := by
  refine exists_shuffleFrom_eq distinct permuted le_rfl (fun i beyond => ?_) 0
  rw [List.getElem?_eq_none beyond, List.getElem?_eq_none (permuted.length_eq.trans_le beyond)]

/-! ## Draws and orders -/

/-- The results of the calls in one shuffle: each is below the number of places still to be filled. -/
abbrev DrawSequence (count : ℕ) : Type := (call : Fin count) → Fin (count - call)

def Random.draws (random : Random) (count : ℕ) : DrawSequence count := fun call =>
  ⟨random.index call (count - call), random.index_lt call (count - call) (Nat.sub_pos_of_lt call.isLt)⟩

/-- The source that makes the given draws. -/
def Random.ofDraws {count : ℕ} (draws : DrawSequence count) : Random where
  index call bound := if fits : call < count ∧ bound = count - call then draws ⟨call, fits.1⟩ else 0
  index_lt call bound positive := by
    split
    · rename_i fits
      exact (draws ⟨call, fits.1⟩).isLt.trans_eq fits.2.symm
    · exact positive

@[simp] theorem Random.draws_ofDraws {count : ℕ} (draws : DrawSequence count) :
    (Random.ofDraws draws).draws count = draws := by
  funext call
  exact Fin.ext (dif_pos ⟨call.isLt, rfl⟩)

theorem Random.draws_eq_iff {random other : Random} {count : ℕ} :
    random.draws count = other.draws count ↔ random.Agrees other 0 count := by
  simp only [funext_iff, Fin.forall_iff, Random.draws, Random.Agrees, Fin.mk.injEq, Nat.zero_add]

theorem Random.ofDraws_agrees (random : Random) (count : ℕ) :
    (Random.ofDraws (random.draws count)).Agrees random 0 count :=
  Random.draws_eq_iff.mp (Random.draws_ofDraws (random.draws count))

namespace DrawSequence

variable {count : ℕ}

/-- Where the item at each place of a shuffled list stood before. -/
def order (draws : DrawSequence count) : List (Fin count) := shuffle (.ofDraws draws) (List.finRange count)

theorem order_eq_shuffleFrom (draws : DrawSequence count) :
    draws.order = shuffleFrom (.ofDraws draws) 0 count (List.finRange count) := by
  rw [order, shuffle, List.length_finRange]

theorem order_perm (draws : DrawSequence count) : draws.order.Perm (List.finRange count) := shuffle_perm _ _

theorem order_injective (count : ℕ) :
    Function.Injective (order : DrawSequence count → List (Fin count)) := by
  intro draws others same
  rw [order_eq_shuffleFrom, order_eq_shuffleFrom] at same
  have agrees := Random.agrees_of_shuffleFrom_eq (List.nodup_finRange count) (List.length_finRange).ge same
  rwa [← Random.draws_eq_iff, Random.draws_ofDraws, Random.draws_ofDraws] at agrees

theorem exists_order_eq {target : List (Fin count)} (permuted : target.Perm (List.finRange count)) :
    ∃ draws : DrawSequence count, draws.order = target := by
  obtain ⟨random, reached⟩ := exists_shuffle_eq (List.nodup_finRange count) permuted
  rw [shuffle, List.length_finRange] at reached
  refine ⟨random.draws count, ?_⟩
  rw [order_eq_shuffleFrom, (random.ofDraws_agrees count).shuffleFrom_eq, reached]

/-- The orders of the places are reached each by one sequence of draws. -/
theorem order_bijective (count : ℕ) :
    Function.Bijective fun draws : DrawSequence count =>
      (⟨draws.order, draws.order_perm⟩ : { places : List (Fin count) // places.Perm (List.finRange count) }) := by
  constructor
  · intro draws others same
    exact order_injective count (congrArg Subtype.val same)
  · rintro ⟨target, permuted⟩
    obtain ⟨draws, rfl⟩ := exists_order_eq permuted
    exact ⟨draws, rfl⟩

theorem card_eq_factorial (count : ℕ) : Fintype.card (DrawSequence count) = count.factorial := by
  rw [Fintype.card_pi]
  simp only [Fintype.card_fin]
  rw [Fin.prod_univ_eq_prod_range (fun call => count - call) count, ← Nat.descFactorial_eq_prod_range,
    Nat.descFactorial_self]

end DrawSequence

/-! ## Rearranged lists -/

/-- The list that the draws of a shuffle lead to. -/
def rearrange (items : List α) (draws : DrawSequence items.length) : List α := draws.order.map items.get

/-- A shuffle rearranges the places by its draws, whatever the items are. -/
theorem shuffle_eq_rearrange (random : Random) (items : List α) :
    shuffle random items = rearrange items (random.draws items.length) := by
  rw [rearrange, DrawSequence.order_eq_shuffleFrom, (random.ofDraws_agrees _).shuffleFrom_eq, ← shuffleFrom_map,
    List.map_get_finRange, shuffle]

theorem rearrange_perm (items : List α) (draws : DrawSequence items.length) : (rearrange items draws).Perm items := by
  have permuted := draws.order_perm.map items.get
  rwa [List.map_get_finRange] at permuted

/-- Every order of different items is reached by one sequence of draws. -/
theorem existsUnique_rearrange_eq {items target : List α} (distinct : items.Nodup) (permuted : target.Perm items) :
    ∃! draws, rearrange items draws = target := by
  obtain ⟨random, reached⟩ := exists_shuffle_eq distinct permuted
  rw [shuffle_eq_rearrange] at reached
  refine ⟨random.draws items.length, reached, fun others alsoReached => ?_⟩
  have sameOrder := List.map_injective_iff.mpr distinct.injective_get (alsoReached.trans reached.symm)
  exact DrawSequence.order_injective items.length sameOrder

end SneakySneaky.Foundation
