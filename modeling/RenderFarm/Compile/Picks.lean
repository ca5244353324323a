import RenderFarm.Random
import RenderFarm.Template

/-!
Picks from the sections of a template: every selection of a number of tokens, in order, and the number of
tokens to pick.
-/

namespace RenderFarm.Compile

/-- The selections of `k` items that keep their order; those with the first item come first, and there are
none without it once too few items are left. -/
def selections {α : Type} : Nat → List α → List (List α)
  | 0, _ => [[]]
  | _ + 1, [] => []
  | k + 1, x :: xs =>
    (selections k xs).map (x :: ·) ++ if xs.length ≤ k then [] else selections (k + 1) xs

/-- Every draw of `k` tokens from a section, in order. A section that has no more than `k` tokens has one
draw, of all of them. -/
def combinations {α : Type} (tokens : List α) (k : Nat) : List (List α) :=
  if k = 0 then [[]] else if tokens.length ≤ k then [tokens] else selections k tokens

/-- Where there are enough items, there is a selection. -/
theorem selections_ne_nil {α : Type} {k : Nat} {items : List α} (enough : k ≤ items.length) :
    selections k items ≠ [] := by
  induction items generalizing k with
  | nil =>
    obtain rfl : k = 0 := Nat.le_zero.mp enough
    simp [selections]
  | cons x xs ih =>
    cases k with
    | zero => simp [selections]
    | succ k => simp [selections, ih (Nat.le_of_succ_le_succ enough)]

/-- Every section has a draw. -/
theorem combinations_ne_nil {α : Type} (tokens : List α) (k : Nat) : combinations tokens k ≠ [] := by
  unfold combinations
  split
  · simp
  · split
    · simp
    · rename_i more
      exact selections_ne_nil (Nat.le_of_lt (Nat.lt_of_not_le more))

/-- The number of tokens to pick from a section. -/
def pickCount {γ : Type} [Generator γ] (s : Section) (g : γ) : Nat × γ :=
  if s.isFixedPick then (s.minPick, g) else Random.between s.minPick s.maxPick g

/-- The draws of each section, with the number of picks settled in order. -/
def drawsOf {γ : Type} [Generator γ] : List Section → γ → List (List (List String)) × γ
  | [], g => ([], g)
  | s :: rest, g =>
    let (k, g) := pickCount s g
    let (draws, g) := drawsOf rest g
    (combinations s.tokens k :: draws, g)

theorem drawsOf_ne_nil {γ : Type} [Generator γ] (sections : List Section) (g : γ) :
    ∀ draws ∈ (drawsOf sections g).1, draws ≠ [] := by
  induction sections generalizing g with
  | nil => simp [drawsOf]
  | cons s rest ih =>
    simp only [drawsOf, List.forall_mem_cons]
    exact ⟨combinations_ne_nil _ _, ih _⟩

end RenderFarm.Compile
