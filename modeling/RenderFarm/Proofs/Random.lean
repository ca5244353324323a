import Mathlib.Data.List.Nodup
import RenderFarm.Random

/-!
Whole numbers that are drawn lie between their bounds, and the positions of a sample are distinct, whatever words the
generator hands out.
-/

namespace RenderFarm.Random

variable {γ : Type}

/-- The correction by a second word never goes beyond the count: a first word that falls short just below the
count leaves too small a low half for it. -/
theorem scaled_lt {size count : Nat} {word : γ → Nat × γ} (below : ∀ g, (word g).1 < size)
    (positive : 0 < count) (g : γ) : (scaled size word count g).1 < count := by
  have inside : (word g).1 < size := below g
  have high : (word g).1 * count / size < count :=
    Nat.div_lt_of_lt_mul (Nat.mul_lt_mul_of_pos_right inside positive)
  unfold scaled
  dsimp only
  split
  · rename_i whole
    exact whole ▸ inside
  · split
    · rename_i short
      dsimp only
      split
      · have parts := Nat.div_add_mod ((word g).1 * count) size
        have most : ((word g).1 + 1) * count ≤ size * count := Nat.mul_le_mul_right count inside
        rw [Nat.succ_mul] at most
        refine Nat.lt_of_not_le fun beyond => ?_
        have last : count = (word g).1 * count / size + 1 := by omega
        have top : size * count = size * ((word g).1 * count / size) + size := by
          conv => lhs; rw [last, Nat.mul_succ]
        omega
      · exact high
    · exact high

variable [Generator γ]

theorem word32_lt (g : γ) : (word32 g).1 < twoTo 32 :=
  UInt32.toNat_lt _

theorem word64_lt (g : γ) : (word64 g).1 < twoTo 64 :=
  UInt64.toNat_lt _

theorem between_le {lo hi : Nat} (ordered : lo ≤ hi) (g : γ) :
    lo ≤ (between lo hi g).1 ∧ (between lo hi g).1 ≤ hi := by
  have positive : 0 < hi - lo + 1 := Nat.succ_pos _
  unfold between
  dsimp only
  split
  · have drawn := scaled_lt word32_lt positive g
    omega
  · have drawn := scaled_lt word64_lt positive g
    omega

/-- A position is one of the list. -/
theorem position_lt {length : Nat} (positive : 0 < length) (g : γ) : (position length g).1 < length := by
  have drawn := (between_le (Nat.zero_le (length - 1)) g).2
  unfold position
  omega

/-! ## Samples -/

/-- An exchange of two elements loses none. -/
theorem exchange_perm (xs : Array Nat) (i j : Nat) : (exchange xs i j).Perm xs := by
  unfold exchange
  split
  · rename_i a b first second
    obtain ⟨inside, rfl⟩ := Array.getElem?_eq_some_iff.mp first
    obtain ⟨inside', rfl⟩ := Array.getElem?_eq_some_iff.mp second
    have swapped : (xs.setIfInBounds i xs[j]).setIfInBounds j xs[i] = xs.swap i j := by
      simp [Array.swap, Array.setIfInBounds, inside, inside']
    rw [swapped]
    exact Array.swap_perm inside inside'
  · exact Array.Perm.refl xs

/-- Shuffling puts the elements in another order. -/
theorem shuffleFront_perm (xs : Array Nat) (i left : Nat) (g : γ) : (shuffleFront xs i left g).1.Perm xs := by
  induction left generalizing xs i g with
  | zero => exact Array.Perm.refl xs
  | succ left ih => exact (ih _ _ _).trans (exchange_perm _ _ _)

/-- Distinct numbers below a bound. -/
structure Positions (bound : Nat) (xs : List Nat) : Prop where
  distinct : xs.Nodup
  below : ∀ x ∈ xs, x < bound

/-- One draw of Floyd's method: a position that is taken already gives its place to the bound, which cannot have been
taken before. -/
theorem Positions.draw {j t : Nat} {taken : List Nat} (h : Positions j taken) (drawn : t ≤ j) :
    Positions (j + 1) (taken.map (fun x => if x = t then j else x) ++ [t]) where
  distinct := by
    rw [List.nodup_append]
    refine ⟨h.distinct.map_on ?_, List.nodup_singleton t, ?_⟩
    · intro x mem y mem' same
      have first := h.below x mem
      have second := h.below y mem'
      split at same <;> split at same <;> omega
    · intro y mem t' here
      obtain ⟨x, among, rfl⟩ := List.mem_map.mp mem
      have before := h.below x among
      rw [List.mem_singleton] at here
      split <;> omega
  below := by
    intro y mem
    obtain mem | mem := List.mem_append.mp mem
    · obtain ⟨x, among, rfl⟩ := List.mem_map.mp mem
      have before := h.below x among
      split <;> omega
    · rw [List.mem_singleton.mp mem]
      omega

theorem Positions.floyd {j : Nat} {taken : List Nat} (h : Positions j taken) (left : Nat) (g : γ) :
    Positions (j + left) (floyd taken j left g).1 := by
  induction left generalizing taken j g with
  | zero => exact h
  | succ left ih =>
    have later := ih (h.draw (between_le (Nat.zero_le j) g).2) (between 0 j g).2
    rwa [Nat.add_right_comm, Nat.add_assoc] at later

theorem length_floyd (taken : List Nat) (j left : Nat) (g : γ) :
    (floyd taken j left g).1.length = taken.length + left := by
  induction left generalizing taken j g with
  | zero => rfl
  | succ left ih =>
    unfold floyd
    dsimp only
    rw [ih, List.length_append, List.length_map, List.length_singleton, Nat.add_assoc, Nat.add_comm 1]

/-- A sample is as large as it should be. -/
theorem length_sample {length amount : Nat} (fits : amount ≤ length) (g : γ) :
    (sample length amount g).1.length = amount := by
  unfold sample
  split
  · have size := (shuffleFront_perm (Array.range length) 0 amount g).size_eq
    rw [Array.size_range] at size
    rw [List.length_take, Array.length_toList, size, Nat.min_eq_left fits]
  · rw [length_floyd, List.length_nil, Nat.zero_add]

/-- A sample holds distinct positions of the list. -/
theorem sample_positions {length amount : Nat} (fits : amount ≤ length) (g : γ) :
    Positions length (sample length amount g).1 := by
  unfold sample
  split
  · have order : (shuffleFront (Array.range length) 0 amount g).1.toList.Perm (List.range length) := by
      simpa using (shuffleFront_perm (Array.range length) 0 amount g).toList
    refine ⟨(List.take_sublist _ _).nodup (order.nodup_iff.mpr List.nodup_range), fun i mem => ?_⟩
    exact List.mem_range.mp (order.mem_iff.mp (List.mem_of_mem_take mem))
  · have empty : Positions (length - amount) [] := ⟨List.nodup_nil, List.forall_mem_nil _⟩
    have drawn := empty.floyd amount g
    rwa [Nat.sub_add_cancel fits] at drawn

end RenderFarm.Random
