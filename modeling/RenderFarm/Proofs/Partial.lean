import Mathlib.Data.List.Basic

/-!
Computations that may be without a result, put together from parts that have one.
-/

namespace RenderFarm

/-- What follows a part that has a result. -/
theorem bind_eq {α β : Type} {x : Option α} {f : α → Option β} {a : α} {b : Option β} (found : x = some a)
    (next : f a = b) : (x >>= f) = b := by
  rw [found]
  exact next

/-- Where every item has a result, so has the list. -/
theorem mapM_eq_some {α β : Type} {f : α → Option β} {h : α → β} {xs : List α} (found : ∀ x ∈ xs, f x = some (h x)) :
    xs.mapM f = some (xs.map h) := by
  induction xs with
  | nil => rfl
  | cons x rest ih =>
    obtain ⟨first, later⟩ := List.forall_mem_cons.mp found
    rw [List.mapM_cons]
    refine bind_eq first ?_
    exact bind_eq (ih later) rfl

/-- The items at some positions; there are none when a position is out of range. -/
def itemsAt? {α : Type} (xs : List α) (positions : List Nat) : Option (List α) :=
  positions.mapM fun i => xs[i]?

end RenderFarm
