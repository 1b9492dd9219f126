import Mathlib.Data.List.Basic
import Mathlib.Data.List.Nodup
import Mathlib.Data.List.Perm.Basic

/-! # Random draws from a list

A source of random indices, drawing without replacement, and the in-place shuffle. -/

namespace SneakySneaky.Foundation

variable {α : Type*}

/-- The results of successive calls that each draw an index below a bound; the first argument
    counts the calls before. -/
structure Random where
  index : ℕ → ℕ → ℕ
  index_lt : ∀ drawn bound, 0 < bound → index drawn bound < bound

/-- The source that always draws the first index. -/
def Random.first : Random := ⟨fun _ _ => 0, fun _ _ positive => positive⟩

/-! ## Drawing without replacement -/

/-- Take `count` items out of a pool, one at a time; `none` when the pool is too small. -/
def draw (random : Random) : ℕ → ℕ → List α → Option (List α)
  | _, 0, _ => some []
  | drawn, count + 1, pool =>
    let k := random.index drawn pool.length
    match pool[k]? with
    | none => none
    | some item => (draw random (drawn + 1) count (pool.eraseIdx k)).map (item :: ·)

theorem draw_returns (random : Random) (drawn count : ℕ) (pool : List α) (enough : count ≤ pool.length) :
    ∃ items, draw random drawn count pool = some items ∧ items.length = count ∧ items ⊆ pool := by
  induction count generalizing drawn pool with
  | zero => exact ⟨[], rfl, rfl, List.nil_subset pool⟩
  | succ count inductionHypothesis =>
    have inside : random.index drawn pool.length < pool.length :=
      random.index_lt drawn pool.length (by omega)
    obtain ⟨items, drew, size, contained⟩ := inductionHypothesis (drawn + 1)
      (pool.eraseIdx (random.index drawn pool.length)) (by rw [List.length_eraseIdx_of_lt inside]; omega)
    -- The rest was drawn from the pool without the first item, hence from the pool.
    refine ⟨pool[random.index drawn pool.length] :: items, ?_, by rw [List.length_cons, size], ?_⟩
    · simp only [draw, List.getElem?_eq_getElem inside, drew, Option.map_some]
    · exact List.cons_subset.mpr
        ⟨List.getElem_mem inside, List.Subset.trans contained List.eraseIdx_subset⟩

theorem draw_short (random : Random) (drawn count : ℕ) (pool : List α) (short : pool.length < count) :
    draw random drawn count pool = none := by
  induction count generalizing drawn pool with
  | zero => omega
  | succ count inductionHypothesis =>
    simp only [draw]
    split
    · rfl
    · rename_i item found
      have inside := (List.getElem?_eq_some_iff.mp found).1
      rw [inductionHypothesis (drawn + 1) _ (by rw [List.length_eraseIdx_of_lt inside]; omega)]
      rfl

/-- What is drawn depends on the places in the pool, not on the items. -/
theorem draw_map {β : Type*} (f : α → β) (random : Random) (drawn count : ℕ) (pool : List α) :
    draw random drawn count (pool.map f) = (draw random drawn count pool).map (List.map f) := by
  induction count generalizing drawn pool with
  | zero => rfl
  | succ count inductionHypothesis =>
    simp only [draw, List.length_map, List.getElem?_map]
    cases pool[random.index drawn pool.length]? with
    | none => rfl
    | some item =>
      simp only [Option.map_some, List.eraseIdx_map, inductionHypothesis, Option.map_map]
      rfl

/-- No item is drawn more often than the pool has it. -/
theorem draw_subperm {random : Random} {drawn count : ℕ} {pool items : List α}
    (drew : draw random drawn count pool = some items) : items.Subperm pool := by
  induction count generalizing drawn pool items with
  | zero =>
    cases drew
    exact List.nil_subperm
  | succ count inductionHypothesis =>
    simp only [draw] at drew
    split at drew
    · cases drew
    · rename_i item found
      obtain ⟨inside, rfl⟩ := List.getElem?_eq_some_iff.mp found
      obtain ⟨rest, drewRest, rfl⟩ := Option.map_eq_some_iff.mp drew
      have together := (List.subperm_cons pool[random.index drawn pool.length]).mpr (inductionHypothesis drewRest)
      exact together.trans (List.getElem_cons_eraseIdx_perm inside).subperm

/-- The items drawn stood at different places in the pool. -/
theorem draw_places {random : Random} {drawn count : ℕ} {pool items : List α}
    (drew : draw random drawn count pool = some items) :
    ∃ places : List ℕ, places.Nodup ∧ items.map some = places.map (pool[·]?) := by
  have asPlaces : draw random drawn count ((List.finRange pool.length).map pool.get) = some items := by
    rwa [List.map_get_finRange]
  rw [draw_map] at asPlaces
  obtain ⟨chosen, drewChosen, rfl⟩ := Option.map_eq_some_iff.mp asPlaces
  refine ⟨chosen.map Fin.val, ?_, ?_⟩
  · obtain ⟨sublist, permuted, within⟩ := draw_subperm drewChosen
    have distinct : chosen.Nodup := permuted.nodup_iff.mp (within.nodup (List.nodup_finRange pool.length))
    exact List.Nodup.map (fun _ _ same => Fin.ext same) distinct
  · simp only [List.map_map, List.map_inj_left]
    intro place _
    simp

/-! ## The in-place shuffle -/

/-- Exchange two items; an index beyond the end changes nothing. -/
def swapAt (items : List α) (m n : ℕ) : List α :=
  match items[m]?, items[n]? with
  | some a, some b => (items.set m b).set n a
  | _, _ => items

theorem swapAt_perm (items : List α) (m n : ℕ) : (swapAt items m n).Perm items := by
  simp only [swapAt]
  split
  · rename_i a b atM atN
    obtain ⟨insideM, rfl⟩ := List.getElem?_eq_some_iff.mp atM
    obtain ⟨insideN, rfl⟩ := List.getElem?_eq_some_iff.mp atN
    exact List.set_set_perm insideM insideN
  · exact List.Perm.refl items

/-- `while (m > 0)`: draw an index below `m`, count `m` down, exchange the items at the two. -/
def shuffleFrom (random : Random) : ℕ → ℕ → List α → List α
  | _, 0, items => items
  | drawn, m + 1, items =>
    shuffleFrom random (drawn + 1) m (swapAt items m (random.index drawn (m + 1)))

def shuffle (random : Random) (items : List α) : List α := shuffleFrom random 0 items.length items

theorem shuffleFrom_perm (random : Random) (drawn m : ℕ) (items : List α) :
    (shuffleFrom random drawn m items).Perm items := by
  induction m generalizing drawn items with
  | zero => exact List.Perm.refl items
  | succ m inductionHypothesis => exact (inductionHypothesis _ _).trans (swapAt_perm items m _)

theorem shuffle_perm (random : Random) (items : List α) : (shuffle random items).Perm items :=
  shuffleFrom_perm random 0 items.length items

end SneakySneaky.Foundation
