import Mathlib.Data.List.FinRange
import Mathlib.Data.List.Sort
import Mathlib.Data.Nat.Choose.Basic
import RenderFarm.Compile.Picks
import RenderFarm.Proofs.Partial

/-!
The order in which a section's draws are made. The positions of the tokens go up like a counter: the last one that
can go up does, and those behind it follow directly. Every increasing index is visited once, in lexicographic order.
-/

namespace RenderFarm.Compile

variable {α β : Type}

/-! ## Selections -/

theorem mem_selections {k : Nat} {items t : List α} : t ∈ selections k items ↔ t.Sublist items ∧ t.length = k := by
  induction items generalizing k t with
  | nil => cases k <;> simp +contextual [selections]
  | cons x rest ih =>
    cases k with
    | zero => simp +contextual [selections]
    | succ k =>
      have without : t ∈ (if rest.length ≤ k then [] else selections (k + 1) rest) ↔
          t.Sublist rest ∧ t.length = k + 1 := by
        split
        · rename_i few
          simp only [List.not_mem_nil, false_iff]
          rintro ⟨inside, length⟩
          have := inside.length_le
          omega
        · exact ih
      rw [selections, List.mem_append, without, List.mem_map, List.sublist_cons_iff]
      constructor
      · rintro (⟨r, mem, rfl⟩ | ⟨inside, length⟩)
        · obtain ⟨inside, length⟩ := ih.mp mem
          exact ⟨.inr ⟨r, rfl, inside⟩, by rw [List.length_cons, length]⟩
        · exact ⟨.inl inside, length⟩
      · rintro ⟨inside | ⟨r, rfl, inside⟩, length⟩
        · exact .inr ⟨inside, length⟩
        · exact .inl ⟨r, ih.mpr ⟨inside, Nat.succ.inj length⟩, rfl⟩

theorem length_selections (k : Nat) (items : List α) : (selections k items).length = items.length.choose k := by
  induction items generalizing k with
  | nil => cases k <;> simp [selections]
  | cons x rest ih =>
    cases k with
    | zero => simp [selections]
    | succ k =>
      rw [selections, List.length_append, List.length_map, ih, List.length_cons, Nat.choose_succ_succ]
      split
      · rename_i few
        rw [Nat.choose_eq_zero_of_lt (Nat.lt_succ_of_le few), List.length_nil]
      · rw [ih]

/-- Selections from an increasing list come in lexicographic order. -/
theorem selections_increase {items : List Nat} (increasing : items.Pairwise (· < ·)) (k : Nat) :
    (selections k items).Pairwise (· < ·) := by
  induction items generalizing k with
  | nil => cases k <;> simp [selections]
  | cons x rest ih =>
    obtain ⟨above, increasing⟩ := List.pairwise_cons.mp increasing
    cases k with
    | zero => simp [selections]
    | succ k =>
      rw [selections, List.pairwise_append]
      refine ⟨?_, ?_, ?_⟩
      · refine List.pairwise_map.mpr ((ih increasing k).imp fun less => ?_)
        exact List.cons_lt_cons_iff.mpr (.inr ⟨rfl, less⟩)
      · split
        · exact .nil
        · exact ih increasing (k + 1)
      · -- What has the first item comes before what starts later.
        intro s hs t ht
        obtain ⟨r, -, rfl⟩ := List.mem_map.mp hs
        split at ht
        · cases ht
        · obtain ⟨inside, length⟩ := mem_selections.mp ht
          obtain ⟨y, t, rfl⟩ := List.exists_cons_of_length_eq_add_one length
          exact List.cons_lt_cons_iff.mpr (.inl (above y (inside.subset List.mem_cons_self)))

theorem selections_map (f : α → β) (k : Nat) (items : List α) :
    selections k (items.map f) = (selections k items).map (List.map f) := by
  induction items generalizing k with
  | nil => cases k <;> simp [selections]
  | cons x rest ih =>
    cases k with
    | zero => simp [selections]
    | succ k =>
      rw [List.map_cons, selections, selections, ih, ih, List.length_map, List.map_append, List.map_map,
        List.map_map]
      split <;> rfl

theorem combinations_map (f : α → β) (items : List α) (k : Nat) :
    combinations (items.map f) k = (combinations items k).map (List.map f) := by
  unfold combinations
  rw [List.length_map, selections_map]
  split
  · rfl
  · split <;> rfl

/-- Every draw of `k` items, taken from their positions. -/
def combinations? (items : List α) (k : Nat) : Option (List (List α)) :=
  (combinations (List.range items.length) k).mapM (itemsAt? items)

theorem combinations?_eq (items : List α) (k : Nat) : combinations? items k = some (combinations items k) := by
  have positions : List.range items.length = (List.finRange items.length).map Fin.val := by simp
  have taken : items = (List.finRange items.length).map fun i => items[i] := by
    rw [← List.ofFn_eq_map]
    exact List.ofFn_getElem.symm
  have inside (draw : List (Fin items.length)) :
      itemsAt? items (draw.map Fin.val) = some (draw.map fun i => items[i]) := by
    rw [itemsAt?, List.mapM_map]
    exact mapM_eq_some fun i _ => List.getElem?_eq_getElem i.isLt
  rw [combinations?, positions, combinations_map, List.mapM_map]
  conv => rhs; rw [taken, combinations_map]
  exact mapM_eq_some fun draw _ => inside draw

/-! ## The next index -/

/-- The last place whose position is not yet as high as it can be. -/
def lastLow? (n : Nat) (index : List Nat) : Option Nat :=
  (List.range index.length).reverse.find? fun i => index[i]? != some (i + n - index.length)

/-- Puts the position at a place right behind the one at the place before. -/
def follow (index : List Nat) (j : Nat) : List Nat :=
  index.set j (index.getD (j - 1) 0 + 1)

/-- The position at a place goes up by one, and those at the later places follow. -/
def advanced (index : List Nat) (i : Nat) : List Nat :=
  (List.range' (i + 1) (index.length - (i + 1))).foldl follow (index.set i (index.getD i 0 + 1))

/-- The index after this one. -/
def nextIndex? (n : Nat) (index : List Nat) : Option (List Nat) :=
  (lastLow? n index).map (advanced index)

/-- `VisitsIndexes n index visited`: from `index` on, the indexes `visited` are gone through, one after another, and
then there is no next one. -/
inductive VisitsIndexes (n : Nat) : List Nat → List (List Nat) → Prop
  | last {index : List Nat} (stop : nextIndex? n index = none) : VisitsIndexes n index [index]
  | more {index next : List Nat} {later : List (List Nat)} (go : nextIndex? n index = some next)
      (onwards : VisitsIndexes n next later) : VisitsIndexes n index (index :: later)

theorem follow_all (before rest : List Nat) (y : Nat) :
    (List.range' (before.length + 1) rest.length).foldl follow (before ++ y :: rest) =
      before ++ List.range' y (rest.length + 1) := by
  induction rest generalizing before y with
  | nil => rfl
  | cons z rest ih =>
    have step : follow (before ++ y :: z :: rest) (before.length + 1) = (before ++ [y]) ++ (y + 1) :: rest := by
      simp [follow]
    have later := ih (before ++ [y]) (y + 1)
    rw [List.length_append, List.length_singleton] at later
    rw [List.length_cons, List.range'_succ, List.foldl_cons, step, later, List.append_assoc, List.range'_succ (s := y)]
    rfl

theorem advanced_append (before rest : List Nat) (y : Nat) :
    advanced (before ++ y :: rest) before.length = before ++ List.range' (y + 1) (rest.length + 1) := by
  have raised : (before ++ y :: rest).set before.length ((before ++ y :: rest).getD before.length 0 + 1) =
      before ++ (y + 1) :: rest := by simp
  have left : (before ++ y :: rest).length - (before.length + 1) = rest.length := by
    rw [List.length_append, List.length_cons]
    omega
  rw [advanced, raised, left, follow_all]

theorem lastLow?_cons (n x : Nat) (rest : List Nat) :
    lastLow? n (x :: rest) =
      ((lastLow? n rest).map (· + 1)).or (if x = n - (rest.length + 1) then none else some 0) := by
  have places : (List.range (rest.length + 1)).reverse = (List.range rest.length).reverse.map (· + 1) ++ [0] := by
    rw [List.range_succ_eq_map, List.reverse_cons, List.map_reverse]
  have same (i : Nat) : i + 1 + n - (rest.length + 1) = i + n - rest.length := by omega
  rw [lastLow?, List.length_cons, places, List.find?_append, List.find?_map, lastLow?]
  congr 1
  · congr 2
    funext i
    simp [same]
  · by_cases high : x = n - (rest.length + 1) <;> simp [high]

theorem lastLow?_lt {n i : Nat} {index : List Nat} (found : lastLow? n index = some i) : i < index.length := by
  have mem := List.mem_of_find?_eq_some found
  simpa using mem

theorem nextIndex?_cons_of_some {n x : Nat} {rest next : List Nat} (go : nextIndex? n rest = some next) :
    nextIndex? n (x :: rest) = some (x :: next) := by
  obtain ⟨i, low, rfl⟩ := Option.map_eq_some_iff.mp go
  obtain ⟨before, y, after, rfl, rfl⟩ : ∃ before y after, rest = before ++ y :: after ∧ before.length = i := by
    have inside := lastLow?_lt low
    refine ⟨rest.take i, rest[i], rest.drop (i + 1), ?_, ?_⟩
    · rw [List.getElem_cons_drop, List.take_append_drop]
    · rw [List.length_take, Nat.min_eq_left inside.le]
  have ahead := advanced_append (x :: before) after y
  rw [List.length_cons] at ahead
  rw [nextIndex?, lastLow?_cons, low, Option.map_some, Option.some_or, Option.map_some, ← List.cons_append, ahead,
    advanced_append, List.cons_append]

theorem nextIndex?_cons_of_none {n x : Nat} {rest : List Nat} (stop : nextIndex? n rest = none) :
    nextIndex? n (x :: rest) =
      if x = n - (rest.length + 1) then none else some (List.range' (x + 1) (rest.length + 1)) := by
  have none : lastLow? n rest = none := Option.map_eq_none_iff.mp stop
  have raised := advanced_append [] rest x
  rw [nextIndex?, lastLow?_cons, none, Option.map_none, Option.none_or]
  split
  · rfl
  · exact congrArg some raised

theorem length_nextIndex? {n : Nat} {index next : List Nat} (go : nextIndex? n index = some next) :
    next.length = index.length := by
  induction index generalizing next with
  | nil => cases go
  | cons x rest ih =>
    cases later : nextIndex? n rest with
    | some r =>
      rw [nextIndex?_cons_of_some later] at go
      cases go
      rw [List.length_cons, List.length_cons, ih later]
    | none =>
      rw [nextIndex?_cons_of_none later] at go
      split at go
      · cases go
      · cases go
        exact List.length_range'

/-! ## All indexes -/

/-- While the first position stays, the later ones go through theirs; then it goes up, if it can. -/
theorem VisitsIndexes.cons {n x : Nat} {rest : List Nat} {visited later : List (List Nat)}
    (inner : VisitsIndexes n rest visited)
    (outer : if x = n - (rest.length + 1) then later = []
      else VisitsIndexes n (List.range' (x + 1) (rest.length + 1)) later) :
    VisitsIndexes n (x :: rest) (visited.map (x :: ·) ++ later) := by
  induction inner with
  | last stop =>
    have next := nextIndex?_cons_of_none (x := x) stop
    split at outer
    · rename_i high
      rw [if_pos high] at next
      rw [outer]
      exact .last next
    · rename_i low
      rw [if_neg low] at next
      exact .more next outer
  | more go _ ih =>
    rw [← length_nextIndex? go] at outer
    exact .more (nextIndex?_cons_of_some go) (ih outer)

/-- From the first index on, the indexes are the selections of the positions. -/
theorem visitsIndexes_selections {n a m k : Nat} (all : a + m = n) (enough : k ≤ m) :
    VisitsIndexes n (List.range' a k) (selections k (List.range' a m)) := by
  induction m generalizing a k with
  | zero =>
    obtain rfl : k = 0 := Nat.le_zero.mp enough
    exact .last rfl
  | succ m ih =>
    cases k with
    | zero => exact .last rfl
    | succ k =>
      rw [List.range'_succ, List.range'_succ, selections]
      refine (ih (by omega) (Nat.le_of_succ_le_succ enough)).cons ?_
      rw [List.length_range', List.length_range']
      split
      · exact if_pos (by omega)
      · rw [if_neg (by omega)]
        exact ih (by omega) (by omega)

theorem mem_selections_range {n k : Nat} {t : List Nat} :
    t ∈ selections k (List.range n) ↔ t.length = k ∧ t.Pairwise (· < ·) ∧ ∀ i ∈ t, i < n := by
  rw [mem_selections]
  constructor
  · intro ⟨inside, length⟩
    exact ⟨length, List.pairwise_lt_range.sublist inside, fun i mem => List.mem_range.mp (inside.subset mem)⟩
  · intro ⟨length, increasing, below⟩
    have distinct : t.Nodup := increasing.imp Nat.ne_of_lt
    have among : t.Subperm (List.range n) :=
      List.subperm_of_subset distinct fun i mem => List.mem_range.mpr (below i mem)
    exact ⟨List.sublist_of_subperm_of_pairwise among increasing List.pairwise_lt_range, length⟩

/-- The draws of a section are all selections of `k` tokens, each of them once: the run through the indexes comes to
its end, in lexicographic order, and every increasing index is visited. Without picks there is one draw without
tokens, and where there are not enough tokens there is one of all of them. -/
theorem combinations_enumerate (tokens : List α) (k : Nat) :
    (k = 0 → combinations tokens k = [[]]) ∧
    (0 < k → tokens.length ≤ k → combinations tokens k = [tokens]) ∧
    (0 < k → k < tokens.length →
      ∃ visited, VisitsIndexes tokens.length (List.range k) visited ∧
        visited.mapM (itemsAt? tokens) = some (combinations tokens k) ∧
        visited.Pairwise (· < ·) ∧
        (∀ index, index ∈ visited ↔
          index.length = k ∧ index.Pairwise (· < ·) ∧ ∀ i ∈ index, i < tokens.length) ∧
        (combinations tokens k).length = tokens.length.choose k) := by
  refine ⟨fun none => if_pos none, fun some few => ?_, fun some more => ?_⟩
  · rw [combinations, if_neg some.ne', if_pos few]
  · have drawn {β : Type} (items : List β) (size : items.length = tokens.length) :
        combinations items k = selections k items := by
      rw [combinations, if_neg some.ne', if_neg (by omega)]
    have taken := combinations?_eq tokens k
    rw [combinations?, drawn _ List.length_range] at taken
    refine ⟨selections k (List.range tokens.length), ?_, taken, selections_increase List.pairwise_lt_range k,
      fun index => mem_selections_range, ?_⟩
    · rw [List.range_eq_range', List.range_eq_range']
      exact visitsIndexes_selections (Nat.zero_add _) more.le
    · rw [drawn tokens rfl, length_selections]

end RenderFarm.Compile
