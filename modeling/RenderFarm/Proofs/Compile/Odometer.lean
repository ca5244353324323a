import Mathlib.Data.List.FinRange
import Mathlib.Data.List.Forall2
import RenderFarm.Compile.Odometer

/-!
The order in which an odometer goes through the choices. Its positions are all index vectors that are in
range, in lexicographic order, each of them once; so a run folds over the product of the lists.
-/

namespace RenderFarm.Compile

/-- Every choice of one item per list, in lexicographic order, the last list fastest. -/
def product {α : Type} : List (List α) → List (List α)
  | [] => [[]]
  | xs :: rest => xs.flatMap fun x => (product rest).map (x :: ·)

namespace Odometer

variable {α σ : Type} {draws : List (List α)}

/-- The positions from this one on. -/
def onwards (o : Odometer draws) : List (Odometer draws) :=
  match _h : o.advance? with
  | none => [o]
  | some next => o :: next.onwards
termination_by o.remaining
decreasing_by exact remaining_advance? ‹_›

theorem onwards_of_last {o : Odometer draws} (last : o.advance? = none) : o.onwards = [o] := by
  rw [onwards]
  split
  · rfl
  · rename_i moved
    rw [last] at moved
    cases moved

theorem onwards_of_next {o next : Odometer draws} (moved : o.advance? = some next) :
    o.onwards = o :: next.onwards := by
  rw [onwards]
  split
  · rename_i last
    rw [moved] at last
    cases last
  · rename_i next' moved'
    rw [moved] at moved'
    cases moved'
    rfl

/-- A run visits the positions one after another. -/
theorem run_eq_foldl (visit : σ → Odometer draws → σ) (o : Odometer draws) (s : σ) :
    o.run visit s = o.onwards.foldl visit s := by
  fun_induction run visit o s with
  | case1 o s last => rw [onwards_of_last last, List.foldl_cons, List.foldl_nil]
  | case2 o s next moved ih => rw [ih, onwards_of_next moved, List.foldl_cons]

/-- All odometers over the same lists go back to the same position. -/
theorem reset_eq (o o' : Odometer draws) : o.reset = o'.reset := by
  induction o with
  | nil =>
    cases o'
    rfl
  | cons i is ih =>
    cases o' with
    | cons j js => rw [reset, reset, ih js]

theorem reset_first (filled : ∀ xs ∈ draws, xs ≠ []) : (first draws filled).reset = first draws filled := by
  induction draws with
  | nil => rfl
  | cons xs rest ih => rw [first, reset, ih]

/-- Every position, in lexicographic order. -/
def all : (draws : List (List α)) → List (Odometer draws)
  | [] => [nil]
  | xs :: rest => (List.finRange xs.length).flatMap fun i => (all rest).map (cons i)

/-- While the first list stays at a position, the others go on; then it moves on and the others start
afresh. -/
theorem onwards_cons {xs : List α} {rest : List (List α)} (i : Fin xs.length) (is : Odometer rest) :
    (cons i is).onwards = is.onwards.map (cons i) ++
      ((List.finRange xs.length).drop (i.val + 1)).flatMap fun j => is.reset.onwards.map (cons j) := by
  -- The induction is on the moves that are left, since a move of the first list resets the others.
  induction left : (cons i is).remaining using Nat.strongRecOn generalizing i is with
  | ind n ih =>
    cases others : is.advance? with
    | some next =>
      have moved : (cons i is).advance? = some (cons i next) := by simp [advance?, others]
      have later := ih _ (left ▸ remaining_advance? moved) i next rfl
      rw [onwards_of_next moved, onwards_of_next others, later, reset_eq next is, List.map_cons,
        List.cons_append]
    | none =>
      by_cases inside : i.val + 1 < xs.length
      · have moved : (cons i is).advance? = some (cons ⟨i.val + 1, inside⟩ is.reset) := by
          simp [advance?, others, inside]
        have later := ih _ (left ▸ remaining_advance? moved) _ _ rfl
        have further : (List.finRange xs.length).drop (i.val + 1) =
            ⟨i.val + 1, inside⟩ :: (List.finRange xs.length).drop (i.val + 1 + 1) := by
          rw [List.drop_eq_getElem_cons (by simpa using inside)]
          simp
        rw [onwards_of_next moved, onwards_of_last others, later, further, List.flatMap_cons,
          reset_eq is.reset is, List.map_cons, List.map_nil, List.cons_append, List.nil_append]
      · have last : (cons i is).advance? = none := by simp [advance?, others, inside]
        have passed : (List.finRange xs.length).drop (i.val + 1) = [] :=
          List.drop_eq_nil_of_le (by simpa using inside)
        rw [onwards_of_last last, onwards_of_last others, passed]
        rfl

/-- From the first position on an odometer goes through all of them. -/
theorem onwards_first (filled : ∀ xs ∈ draws, xs ≠ []) : (first draws filled).onwards = all draws := by
  induction draws with
  | nil => exact onwards_of_last rfl
  | cons xs rest ih =>
    obtain ⟨n, length⟩ : ∃ n, xs.length = n + 1 :=
      Nat.exists_eq_succ_of_ne_zero (by simpa using filled xs List.mem_cons_self)
    have firsts : List.finRange xs.length =
        ⟨0, by omega⟩ :: (List.finRange xs.length).drop 1 := by
      have split := List.drop_eq_getElem_cons (l := List.finRange xs.length) (i := 0) (by simp [length])
      simpa using split
    rw [first, onwards_cons, reset_first, ih, all, firsts]
    rfl

/-! ## Each position once -/

/-- The choices are the product of the lists. -/
theorem all_map_choice (draws : List (List α)) : (all draws).map choice = product draws := by
  induction draws with
  | nil => rfl
  | cons xs rest ih =>
    have items : xs = (List.finRange xs.length).map fun i => xs[i] := by
      rw [← List.ofFn_eq_map]
      exact List.ofFn_getElem.symm
    have others : ∀ i : Fin xs.length, ((all rest).map (cons i)).map choice =
        (product rest).map (xs[i] :: ·) := by
      intro i
      rw [← ih]
      simp [Function.comp_def, choice]
    rw [all, List.map_flatMap, product]
    simp only [others]
    conv => rhs; rw [items]
    rw [List.flatMap_map]

/-- The index vectors that an odometer goes through, from its first position on. -/
def visited (draws : List (List α)) (filled : ∀ xs ∈ draws, xs ≠ []) : List (List Nat) :=
  (first draws filled).run (fun seen o => seen ++ [o.index]) []

/-- A run that looks only at the choices folds over the product of the lists. -/
theorem run_choice (step : σ → List α → σ) (filled : ∀ xs ∈ draws, xs ≠ []) (s : σ) :
    (first draws filled).run (fun s o => step s o.choice) s = (product draws).foldl step s := by
  rw [run_eq_foldl, onwards_first, ← all_map_choice, List.foldl_map]

end Odometer

end RenderFarm.Compile
