/-!
An odometer over some lists: one position in each of them. It goes through every choice of one item per list,
the last list fastest, and stops after the last choice.
-/

namespace RenderFarm.Compile

/-- One position in each of some lists. -/
inductive Odometer {α : Type} : List (List α) → Type where
  | nil : Odometer []
  | cons {xs : List α} {rest : List (List α)} (i : Fin xs.length) (is : Odometer rest) : Odometer (xs :: rest)

namespace Odometer

variable {α σ : Type}

/-- The items at the positions. -/
def choice : {draws : List (List α)} → Odometer draws → List α
  | _, nil => []
  | xs :: _, cons i is => xs[i] :: is.choice

/-- The positions as numbers. -/
def index : {draws : List (List α)} → Odometer draws → List Nat
  | _, nil => []
  | _, cons i is => i.val :: is.index

/-- The first position in every list. -/
def first : (draws : List (List α)) → (∀ xs ∈ draws, xs ≠ []) → Odometer draws
  | [], _ => nil
  | xs :: rest, filled =>
    cons ⟨0, List.length_pos_iff.mpr (filled xs List.mem_cons_self)⟩
      (first rest fun ys mem => filled ys (List.mem_cons_of_mem xs mem))

/-- Back to the first position in every list. -/
def reset : {draws : List (List α)} → Odometer draws → Odometer draws
  | _, nil => nil
  | _, cons i is => cons ⟨0, i.pos⟩ is.reset

/-- The next choice: the last position that can move on does so, and all after it go back to the first. -/
def advance? : {draws : List (List α)} → Odometer draws → Option (Odometer draws)
  | _, nil => none
  | xs :: _, cons i is =>
    match is.advance? with
    | some is => some (cons i is)
    | none => if next : i.val + 1 < xs.length then some (cons ⟨i.val + 1, next⟩ is.reset) else none

/-- The number of choices. -/
def size : List (List α) → Nat
  | [] => 1
  | xs :: rest => xs.length * size rest

/-- The number of choices that are still to come. -/
def remaining : {draws : List (List α)} → Odometer draws → Nat
  | _, nil => 0
  | xs :: rest, cons i is => (xs.length - 1 - i.val) * size rest + is.remaining

/-- After the first choice all others are still to come. -/
theorem remaining_reset {draws : List (List α)} (o : Odometer draws) :
    o.reset.remaining + 1 = size draws := by
  induction o with
  | nil => rfl
  | @cons xs rest i is ih =>
    obtain ⟨n, length⟩ : ∃ n, xs.length = n + 1 := ⟨xs.length - 1, by have := i.pos; omega⟩
    simp only [reset, remaining, size, length, Nat.add_sub_cancel, Nat.sub_zero, Nat.succ_mul]
    omega

/-- Every step leaves fewer choices to come. -/
theorem remaining_advance? {draws : List (List α)} {o next : Odometer draws} (h : o.advance? = some next) :
    next.remaining < o.remaining := by
  induction o with
  | nil => cases h
  | @cons xs rest i is ih =>
    simp only [advance?] at h
    split at h
    · rename_i later moved
      cases h
      exact Nat.add_lt_add_left (ih moved) _
    · split at h
      · rename_i inside
        cases h
        obtain ⟨n, left⟩ : ∃ n, xs.length - 1 - i.val = n + 1 := ⟨xs.length - 2 - i.val, by omega⟩
        have fewer : xs.length - 1 - (i.val + 1) = n := by omega
        have others := remaining_reset is
        simp only [remaining, fewer, left, Nat.succ_mul]
        omega
      · cases h

/-- Goes through every choice from this one on, and carries a state along. -/
def run {draws : List (List α)} (visit : σ → Odometer draws → σ) (o : Odometer draws) (s : σ) : σ :=
  match _h : o.advance? with
  | none => visit s o
  | some next => next.run visit (visit s o)
termination_by o.remaining
decreasing_by exact remaining_advance? ‹_›

end Odometer

end RenderFarm.Compile
