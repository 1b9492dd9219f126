import Mathlib.Data.List.Nodup
import Mathlib.Data.List.ProdSigma
import Mathlib.Data.Int.Cast.Lemmas
import Mathlib.Order.Lattice

/-! # Loops

Counted loops are lists of the values their counter takes.  Loops whose end is a
question are run with fuel: `Computes f r` says that `f` returns `r` whenever it has
fuel enough, `Diverges f` that no fuel is enough.  `sweep` is the loop over a list by a
cursor that is moved to the next element of interest at the end of the body. -/

namespace SneakySneaky.Foundation

/-! ## Counted loops -/

/-- The values of the counter in `for (int i = 0; i < bound; ++i)`. -/
def upTo (bound : ℤ) : List ℤ := (List.range bound.toNat).map Nat.cast

@[simp] theorem mem_upTo {bound i : ℤ} : i ∈ upTo bound ↔ 0 ≤ i ∧ i < bound := by
  simp only [upTo, List.mem_map, List.mem_range]
  constructor
  · rintro ⟨n, below, rfl⟩
    omega
  · rintro ⟨nonneg, below⟩
    exact ⟨i.toNat, by omega, by omega⟩

theorem upTo_nodup (bound : ℤ) : (upTo bound).Nodup :=
  List.nodup_range.map Nat.cast_injective

/-- A counter below a truncated half fits twice below the whole. -/
theorem two_mul_add_two_le_of_lt_tdiv {i bound : ℤ} (nonneg : 0 ≤ i) (below : i < bound.tdiv 2) :
    2 * i + 2 ≤ bound := by
  rcases le_or_gt 0 bound with positive | negative
  · rw [Int.tdiv_eq_ediv_of_nonneg positive] at below
    omega
  · have half : bound.tdiv 2 ≤ 0 := by
      simpa using Int.tdiv_le_tdiv (by decide : (0 : ℤ) < 2) negative.le
    omega

/-- The pairs of counters of one counted loop inside another. -/
def grid (width height : ℤ) : List (ℤ × ℤ) := upTo width ×ˢ upTo height

@[simp] theorem mem_grid {width height : ℤ} {cell : ℤ × ℤ} :
    cell ∈ grid width height ↔
      (0 ≤ cell.1 ∧ cell.1 < width) ∧ (0 ≤ cell.2 ∧ cell.2 < height) := by
  obtain ⟨x, y⟩ := cell
  simp [grid, List.mem_product]

theorem grid_nodup (width height : ℤ) : (grid width height).Nodup :=
  (upTo_nodup width).product (upTo_nodup height)

/-! ## Computations with fuel -/

variable {σ α β : Type*}

def Computes (f : ℕ → Option α) (result : α) : Prop :=
  ∃ bound, ∀ fuel, bound ≤ fuel → f fuel = some result

def Diverges (f : ℕ → Option α) : Prop := ∀ fuel, f fuel = none

theorem Computes.not_diverges {f : ℕ → Option α} {result : α} (computes : Computes f result) :
    ¬ Diverges f := by
  intro diverges
  obtain ⟨bound, computes⟩ := computes
  have returned := computes bound le_rfl
  rw [diverges bound] at returned
  cases returned

theorem computes_some (result : α) : Computes (fun _ => some result) result :=
  ⟨0, fun _ _ => rfl⟩

theorem Computes.bind {f : ℕ → Option α} {g : α → ℕ → Option β} {middle : α} {result : β}
    (first : Computes f middle) (second : Computes (g middle) result) :
    Computes (fun fuel => (f fuel).bind fun value => g value fuel) result := by
  obtain ⟨firstBound, first⟩ := first
  obtain ⟨secondBound, second⟩ := second
  -- Both get the whole fuel: it is a bound on the depth of the loops, not a budget.
  refine ⟨max firstBound secondBound, fun fuel enough => ?_⟩
  have firstReturns := first fuel (le_trans (le_max_left _ _) enough)
  have secondReturns := second fuel (le_trans (le_max_right _ _) enough)
  simp only [firstReturns, Option.bind_some, secondReturns]

theorem Computes.map {f : ℕ → Option α} {value : α} (g : α → β) (computes : Computes f value) :
    Computes (fun fuel => (f fuel).map g) (g value) := by
  obtain ⟨bound, computes⟩ := computes
  exact ⟨bound, fun fuel enough => by simp only [computes fuel enough, Option.map_some]⟩

theorem Diverges.map {f : ℕ → Option α} (g : α → β) (diverges : Diverges f) :
    Diverges (fun fuel => (f fuel).map g) := by
  intro fuel
  simp only [diverges fuel, Option.map_none]

/-! ## `while` loops -/

/-- `while (condition) body`.  The body has the remaining fuel for loops of its own. -/
def whileLoop (condition : σ → Bool) (body : ℕ → σ → Option σ) : ℕ → σ → Option σ
  | 0, _ => none
  | fuel + 1, state =>
    if condition state then (body fuel state).bind (whileLoop condition body fuel)
    else some state

section While

variable {condition : σ → Bool} {body : ℕ → σ → Option σ}

theorem whileLoop_exit {state : σ} (done : condition state = false) :
    Computes (fun fuel => whileLoop condition body fuel state) state := by
  refine ⟨1, fun fuel enough => ?_⟩
  obtain ⟨fuel, rfl⟩ : ∃ rest, fuel = rest + 1 := ⟨fuel - 1, by omega⟩
  simp [whileLoop, done]

theorem whileLoop_iterate {state next result : σ} (live : condition state = true)
    (step : Computes (fun fuel => body fuel state) next)
    (rest : Computes (fun fuel => whileLoop condition body fuel next) result) :
    Computes (fun fuel => whileLoop condition body fuel state) result := by
  obtain ⟨stepBound, step⟩ := step
  obtain ⟨restBound, rest⟩ := rest
  refine ⟨max stepBound restBound + 1, fun fuel enough => ?_⟩
  obtain ⟨fuel, rfl⟩ : ∃ rest, fuel = rest + 1 := ⟨fuel - 1, by omega⟩
  have stepReturns := step fuel (by omega)
  have restReturns := rest fuel (by omega)
  simp [whileLoop, live, stepReturns, restReturns]

/-- A loop whose body gives its own state back, if it returns at all, never ends. -/
theorem whileLoop_stuck {state : σ} (live : condition state = true)
    (stuck : ∀ fuel next, body fuel state = some next → next = state) :
    Diverges (fun fuel => whileLoop condition body fuel state) := by
  intro fuel
  induction fuel with
  | zero => rfl
  | succ fuel inductionHypothesis =>
    simp only [whileLoop, live, if_true]
    cases returned : body fuel state with
    | none => rfl
    | some next =>
      -- The next iteration starts in the same state with less fuel.
      rw [stuck fuel next returned]
      exact inductionHypothesis

/-- A loop that diverges after its first iteration diverges. -/
theorem whileLoop_diverges_of_next {state next : σ} (live : condition state = true)
    (step : ∀ fuel reached, body fuel state = some reached → reached = next)
    (rest : Diverges (fun fuel => whileLoop condition body fuel next)) :
    Diverges (fun fuel => whileLoop condition body fuel state) := by
  intro fuel
  cases fuel with
  | zero => rfl
  | succ fuel =>
    simp only [whileLoop, live, if_true]
    cases returned : body fuel state with
    | none => rfl
    | some reached =>
      rw [step fuel reached returned]
      exact rest fuel

/-- The invariant rule: what the body keeps holds when the loop ends, and the condition fails. -/
theorem whileLoop_invariant (holds : σ → Prop)
    (keeps : ∀ fuel state next, holds state → condition state = true → body fuel state = some next → holds next)
    {fuel : ℕ} {state result : σ} (initially : holds state)
    (returned : whileLoop condition body fuel state = some result) :
    holds result ∧ condition result = false := by
  induction fuel generalizing state with
  | zero => cases returned
  | succ fuel inductionHypothesis =>
    simp only [whileLoop] at returned
    by_cases live : condition state = true
    · rw [if_pos live, Option.bind_eq_some_iff] at returned
      obtain ⟨next, stepped, returned⟩ := returned
      exact inductionHypothesis (keeps fuel state next initially live stepped) returned
    · rw [if_neg live, Option.some.injEq] at returned
      subst returned
      exact ⟨initially, by simpa using live⟩

end While

/-! ## Cursor sweeps -/

/-- The suffix of a list that starts at its first element satisfying `wanted`. -/
def seek (wanted : α → Bool) (items : List α) : List α :=
  items.dropWhile fun item => !wanted item

/-- The cursor after the element it stands on: the next one satisfying `wanted`. -/
def advance (wanted : α → Bool) (cursor : List α) : List α := seek wanted cursor.tail

theorem seek_cons_wanted {wanted : α → Bool} {item : α} (items : List α)
    (accepted : wanted item = true) : seek wanted (item :: items) = item :: items := by
  simp [seek, accepted]

theorem seek_cons_skipped {wanted : α → Bool} {item : α} (items : List α)
    (rejected : wanted item = false) : seek wanted (item :: items) = seek wanted items := by
  simp [seek, rejected]

/-- What a cursor stands on is wanted, and the elements after it are those still to be handled. -/
theorem filter_of_seek_cons {wanted : α → Bool} {items tail : List α} {item : α}
    (found : seek wanted items = item :: tail) : items.filter wanted = item :: tail.filter wanted := by
  induction items with
  | nil => cases found
  | cons head items inductionHypothesis =>
    cases decision : wanted head with
    | false =>
      rw [seek_cons_skipped items decision] at found
      rw [List.filter_cons_of_neg (by simp [decision])]
      exact inductionHypothesis found
    | true =>
      rw [seek_cons_wanted items decision] at found
      cases found
      rw [List.filter_cons_of_pos decision]

theorem filter_of_seek_nil {wanted : α → Bool} {items : List α} (found : seek wanted items = []) :
    items.filter wanted = [] := by
  induction items with
  | nil => rfl
  | cons head items inductionHypothesis =>
    cases decision : wanted head with
    | true => rw [seek_cons_wanted items decision] at found; cases found
    | false =>
      rw [seek_cons_skipped items decision] at found
      rw [List.filter_cons_of_neg (by simp [decision])]
      exact inductionHypothesis found

/-- `while (cursor) { body; cursor = next }`, collecting into an accumulator. -/
def sweep (wanted : α → Bool) (body : ℕ → α → β → Option β) (fuel : ℕ) (cursor : List α)
    (collected : β) : Option β :=
  (whileLoop (fun state : List α × β => !state.1.isEmpty)
    (fun fuel state =>
      match state.1 with
      | [] => none
      | item :: _ =>
        (body fuel item state.2).map fun collected => (advance wanted state.1, collected))
    fuel (cursor, collected)).map Prod.snd

/-- A sweep whose body always returns ends, and has handled the wanted elements, each once
    and in order. -/
theorem sweep_computes {wanted : α → Bool} {body : ℕ → α → β → Option β} {effect : β → α → β}
    (returns : ∀ item collected,
      Computes (fun fuel => body fuel item collected) (effect collected item))
    (items : List α) (collected : β) :
    Computes (fun fuel => sweep wanted body fuel (seek wanted items) collected)
      ((items.filter wanted).foldl effect collected) := by
  simp only [sweep]
  -- Induction on the list, not on the cursor: the cursor skips what is not wanted.
  suffices loop : Computes (fun fuel => whileLoop _ _ fuel (seek wanted items, collected))
      ([], (items.filter wanted).foldl effect collected) from loop.map Prod.snd
  induction items generalizing collected with
  | nil => exact whileLoop_exit rfl
  | cons item items inductionHypothesis =>
    cases decision : wanted item with
    | false =>
      rw [seek_cons_skipped items decision, List.filter_cons_of_neg (by simp [decision])]
      exact inductionHypothesis collected
    | true =>
      rw [seek_cons_wanted items decision, List.filter_cons_of_pos decision, List.foldl_cons]
      exact whileLoop_iterate rfl ((returns item collected).map _)
        (inductionHypothesis (effect collected item))

theorem sweep_collects {wanted : α → Bool} {body : ℕ → α → List β → Option (List β)} {make : α → β}
    (returns : ∀ item collected,
      Computes (fun fuel => body fuel item collected) (collected ++ [make item])) (items : List α) :
    Computes (fun fuel => sweep wanted body fuel (seek wanted items) [])
      ((items.filter wanted).map make) := by
  have pushed : (items.filter wanted).foldl (fun collected item => collected ++ [make item]) [] =
      (items.filter wanted).map make := by
    rw [List.foldl_append_eq_append, List.nil_append, ← List.flatMap_def, List.map_eq_flatMap]
  rw [← pushed]
  exact sweep_computes returns items []

/-- However little fuel it took, a sweep that ends has handled the wanted elements. -/
theorem sweep_returned {wanted : α → Bool} {body : ℕ → α → β → Option β} {effect : β → α → β}
    (returned : ∀ fuel item collected result, body fuel item collected = some result →
      result = effect collected item)
    {fuel : ℕ} {items : List α} {collected result : β}
    (swept : sweep wanted body fuel (seek wanted items) collected = some result) :
    result = (items.filter wanted).foldl effect collected := by
  simp only [sweep, Option.map_eq_some_iff] at swept
  obtain ⟨⟨cursor, reached⟩, looped, rfl⟩ := swept
  -- Invariant: the rest of the list, handled from here on, gives what the whole list gives.
  have ended := whileLoop_invariant
    (fun state => ∃ rest, state.1 = seek wanted rest ∧
      (rest.filter wanted).foldl effect state.2 = (items.filter wanted).foldl effect collected)
    ?_ ⟨items, rfl, rfl⟩ looped
  · obtain ⟨⟨rest, cursorAt, same⟩, empty⟩ := ended
    rw [filter_of_seek_nil (cursorAt.symm.trans (by simpa using empty))] at same
    exact same
  · rintro fuel ⟨cursor, reached⟩ next ⟨rest, cursorAt, same⟩ live stepped
    cases cursor with
    | nil => cases live
    | cons item tail =>
      simp only [Option.map_eq_some_iff] at stepped
      obtain ⟨result, bodyReturned, rfl⟩ := stepped
      refine ⟨tail, rfl, ?_⟩
      rw [filter_of_seek_cons cursorAt.symm, List.foldl_cons] at same
      rw [returned fuel item reached result bodyReturned]
      exact same

end SneakySneaky.Foundation
