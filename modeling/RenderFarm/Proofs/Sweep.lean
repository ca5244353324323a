import Mathlib.Data.List.Basic
import Mathlib.Logic.Function.Iterate
import Mathlib.Tactic.Ring
import RenderFarm.Sweep

/-!
A sweep as two digits that count up: the checkpoint of the second pass is the lower one, the checkpoint the
higher one. The pass with number `p`, over all rounds, shows the digits of `p`, and what is added to fixed seeds is
the digit above them.
-/

namespace RenderFarm

/-- A number below a product is counted by two digits. -/
theorem range_mul (m n : Nat) :
    List.range (m * n) = (List.range m).flatMap fun i => (List.range n).map (i * n + ·) := by
  induction m with
  | zero => simp
  | succ m ih =>
    rw [Nat.succ_mul, List.range_add, ih, List.range_succ, List.flatMap_append]
    simp

/-- How the lower of two digits and what is above it go on. -/
theorem succ_digits {h : Nat} (positive : 0 < h) (p : Nat) :
    (p % h + 1 < h ∧ (p + 1) % h = p % h + 1 ∧ (p + 1) / h = p / h) ∨
      (p % h + 1 = h ∧ (p + 1) % h = 0 ∧ (p + 1) / h = p / h + 1) := by
  have split : p + 1 = h * (p / h) + (p % h + 1) := by rw [← Nat.add_assoc, Nat.div_add_mod]
  have below : p % h < h := Nat.mod_lt p positive
  rw [split, Nat.mul_add_mod, Nat.mul_add_div positive]
  obtain less | equal := Nat.lt_or_eq_of_le (Nat.succ_le_of_lt below)
  · exact .inl ⟨less, Nat.mod_eq_of_lt less, by rw [Nat.div_eq_of_lt less, Nat.add_zero]⟩
  · refine .inr ⟨equal, ?_, ?_⟩
    · rw [← Nat.succ_eq_add_one, equal, Nat.mod_self]
    · rw [← Nat.succ_eq_add_one (p % h), equal, Nat.div_self positive]

namespace Sweep

variable {models highres : List String}

/-- The number of pairs of two lists of checkpoints; an empty list counts as one. -/
def span (models highres : List String) : Nat :=
  max models.length 1 * max highres.length 1

/-- The sweep in the pass with a number, counted over all rounds from zero on. -/
def atPass (models highres : List String) (p : Nat) : Sweep where
  models := models
  modelIndex := p / max highres.length 1 % max models.length 1
  highresModels := highres
  highresIndex := p % max highres.length 1
  loops := UInt32.ofNat p

theorem span_pos (models highres : List String) : 0 < span models highres :=
  Nat.mul_pos (by omega) (by omega)

theorem atPass_zero (models highres : List String) : atPass models highres 0 = ofLists models highres := by
  simp [atPass, ofLists]

theorem recordLoop_loops (p : Nat) : UInt32.ofNat p + 1 = UInt32.ofNat (p + 1) := by
  simp [UInt32.ofNat_add]

/-- Where the sweep goes on after a pass: to the next pass of the round, or to the first one of the next
round. -/
theorem advance_atPass (models highres : List String) (p : Nat) :
    (¬ span models highres ∣ p + 1 ∧ (atPass models highres p).advance.2 ≠ .complete ∧
        (atPass models highres p).advance.1.recordLoop = atPass models highres (p + 1)) ∨
      (span models highres ∣ p + 1 ∧ (atPass models highres p).advance.2 = .complete ∧
        (atPass models highres p).restart.recordLoop = atPass models highres (p + 1)) := by
  have low : 0 < max highres.length 1 := by omega
  have high : 0 < max models.length 1 := by omega
  have number : (p + 1) % span models highres =
      (p + 1) % max highres.length 1 +
        max highres.length 1 * ((p + 1) / max highres.length 1 % max models.length 1) := by
    rw [span, Nat.mul_comm, Nat.mod_mul]
  rw [Nat.dvd_iff_mod_eq_zero, number]
  obtain ⟨more, digit, above⟩ | ⟨last, digit, above⟩ := succ_digits low p
  · have next : (atPass models highres p).advance =
        ({ atPass models highres p with highresIndex := p % max highres.length 1 + 1 }, .highres) := by
      have inside : p % max highres.length 1 + 1 < highres.length := by omega
      simp [advance, atPass, inside]
    rw [next]
    refine .inl ⟨by rw [digit]; omega, by simp, ?_⟩
    simp only [recordLoop, atPass, recordLoop_loops, digit, above]
  · have full : ¬ p % max highres.length 1 + 1 < highres.length := by omega
    obtain ⟨more, digit', _⟩ | ⟨last', digit', _⟩ := succ_digits high (p / max highres.length 1)
    · have next : (atPass models highres p).advance =
          ({ atPass models highres p with
              modelIndex := p / max highres.length 1 % max models.length 1 + 1, highresIndex := 0 }, .model) := by
        have inside : p / max highres.length 1 % max models.length 1 + 1 < models.length := by omega
        simp [advance, atPass, full, inside]
      rw [next]
      refine .inl ⟨?_, by simp, ?_⟩
      · rw [digit, above, digit', Nat.zero_add]
        exact Nat.ne_of_gt (Nat.mul_pos low (Nat.succ_pos _))
      · simp only [recordLoop, atPass, recordLoop_loops, digit, above, digit']
    · have next : (atPass models highres p).advance = (atPass models highres p, .complete) := by
        have full' : ¬ p / max highres.length 1 % max models.length 1 + 1 < models.length := by omega
        simp [advance, atPass, full, full']
      rw [next]
      refine .inr ⟨by rw [digit, above, digit']; simp, rfl, ?_⟩
      simp only [restart, recordLoop, atPass, recordLoop_loops, digit, above, digit']

/-- As long as passes can be counted, fixed seeds are moved on by the number of rounds completed. -/
theorem seedOffset_atPass {p : Nat} (counted : p < 2 ^ 32) :
    (atPass models highres p).seedOffset = Int64.ofNat (p / span models highres) := by
  have loops : (atPass models highres p).loops.toNat = p := by
    simp only [atPass, UInt32.toNat_ofNat']
    exact Nat.mod_eq_of_lt counted
  unfold seedOffset
  rw [loops]
  split
  · rfl
  · rename_i inactive
    have none : models = [] ∧ highres = [] := by simpa [isActive, atPass] using inactive
    rw [none.1, none.2]
    simp [span]

/-! ## The pairs of a round -/

/-- What a list of checkpoints offers: each of them in turn, or none when the list is empty. -/
def choices (names : List String) : List (Option String) :=
  if names.isEmpty then [none] else names.map some

/-- The pairs of a round, the checkpoints of the second pass changing fastest. -/
def pairsOf (models highres : List String) : List SweepOverrides :=
  (choices models).flatMap fun checkpoint =>
    (choices highres).map fun highresCheckpoint => { checkpoint, highresCheckpoint }

theorem choices_eq (names : List String) :
    choices names = (List.range (max names.length 1)).map fun i => names[i]? := by
  cases names with
  | nil => rfl
  | cons name rest =>
    have length : max (name :: rest).length 1 = (name :: rest).length := by simp
    have some : choices (name :: rest) = (name :: rest).map some := rfl
    rw [length, some]
    refine List.ext_getElem (by simp) fun i inside _ => ?_
    rw [List.length_map] at inside
    simp only [List.getElem_map, List.getElem_range, List.getElem?_eq_getElem inside]

/-- The passes of a round go through its pairs. -/
theorem pairsOf_eq (models highres : List String) :
    pairsOf models highres =
      (List.range (span models highres)).map fun k => (atPass models highres k).overrides := by
  rw [span, range_mul, List.map_flatMap, pairsOf, choices_eq, choices_eq, List.flatMap_map]
  refine List.flatMap_congr fun i mem => ?_
  have inside : i < max models.length 1 := List.mem_range.mp mem
  rw [List.map_map, List.map_map]
  refine List.map_congr_left fun j mem' => ?_
  have inside' : j < max highres.length 1 := List.mem_range.mp mem'
  have digits : (i * max highres.length 1 + j) % max highres.length 1 = j ∧
      (i * max highres.length 1 + j) / max highres.length 1 = i := by
    rw [Nat.mul_comm i, Nat.mul_add_mod, Nat.mul_add_div (by omega), Nat.mod_eq_of_lt inside',
      Nat.div_eq_of_lt inside', Nat.add_zero]
    exact ⟨rfl, rfl⟩
  simp only [Function.comp_apply, overrides, model?, highresModel?, atPass, digits, Nat.mod_eq_of_lt inside]

/-- The pairs are the same in every round. -/
theorem overrides_atPass (models highres : List String) (r k : Nat) :
    (atPass models highres (r * span models highres + k)).overrides = (atPass models highres k).overrides := by
  have positive : 0 < max highres.length 1 := by omega
  have round : r * span models highres = max highres.length 1 * (r * max models.length 1) := by
    rw [span]
    ring
  simp only [overrides, model?, highresModel?, atPass, round]
  rw [Nat.mul_add_mod, Nat.mul_add_div positive, Nat.mul_comm r, Nat.mul_add_mod]

/-! ## Pass after pass -/

/-- What becomes of a sweep between two passes of a template that repeats: it goes on to the next pair, from the last
one back to the first, and counts the pass. -/
def next (s : Sweep) : Sweep :=
  let (moved, step) := s.advance
  (if step = .complete then moved.restart else moved).recordLoop

/-- After the last pair a sweep stays where it is. -/
theorem advance_of_complete {s : Sweep} (complete : s.advance.2 = .complete) : s.advance.1 = s := by
  unfold advance at complete ⊢
  split at complete
  · cases complete
  · rename_i lastHighres
    rw [if_neg lastHighres]
    split at complete
    · cases complete
    · rename_i lastModel
      rw [if_neg lastModel]

theorem next_atPass (models highres : List String) (p : Nat) :
    (atPass models highres p).next = atPass models highres (p + 1) := by
  unfold next
  obtain ⟨-, more, moved⟩ | ⟨-, complete, moved⟩ := advance_atPass models highres p
  · simp only [more, if_false, moved]
  · simp only [complete, if_true, advance_of_complete complete, moved]

/-- From its first pair on, a sweep goes through its passes in order. -/
theorem iterate_next (models highres : List String) (t : Nat) :
    next^[t] (ofLists models highres) = atPass models highres t := by
  induction t with
  | zero => exact (atPass_zero models highres).symm
  | succ t ih => rw [Function.iterate_succ_apply', ih, next_atPass]

/-- A round is complete after the pass that has the highest digits. -/
theorem advance_complete_iff (models highres : List String) (p : Nat) :
    (atPass models highres p).advance.2 = .complete ↔ p % span models highres = span models highres - 1 := by
  have round : (atPass models highres p).advance.2 = .complete ↔ span models highres ∣ p + 1 := by
    obtain ⟨inside, more, -⟩ | ⟨last, complete, -⟩ := advance_atPass models highres p
    · exact iff_of_false more inside
    · exact iff_of_true complete last
  rw [round, Nat.dvd_iff_mod_eq_zero]
  obtain ⟨less, digit, -⟩ | ⟨full, digit, -⟩ := succ_digits (span_pos models highres) p <;> omega

/-- **Passes are counted in mixed radix.** Let a sweep go on from its first pair `t` times, each time to the next pair,
from the last one back to the first. Then the two places are the digits of `t` in its round; the round is complete
exactly at its last pass, and going on from there changes nothing. As long as passes can be counted, what is added to
fixed seeds is the number of rounds completed. An empty list of checkpoints counts as one. -/
theorem passes_count_in_mixed_radix (models highres : List String) (t : Nat) :
    let H := max highres.length 1
    let C := max models.length 1 * H
    let s := next^[t] (ofLists models highres)
    s.models = models ∧ s.highresModels = highres ∧ s.modelIndex = t % C / H ∧ s.highresIndex = t % C % H ∧
      (s.advance.2 = .complete ↔ t % C = C - 1) ∧ (s.advance.2 = .complete → s.advance.1 = s) ∧
      (t < 2 ^ 32 → s.loops.toNat = t ∧ s.seedOffset.toInt = (t / C : Nat)) := by
  intro H C s
  have state : s = atPass models highres t := iterate_next models highres t
  rw [state]
  refine ⟨rfl, rfl, ?_, ?_, advance_complete_iff models highres t, advance_of_complete, fun counted => ⟨?_, ?_⟩⟩
  · exact (Nat.mod_mul_left_div_self t H (max models.length 1)).symm
  · exact (Nat.mod_mul_left_mod t (max models.length 1) H).symm
  · exact Nat.mod_eq_of_lt counted
  · have rounds : t / span models highres ≤ t := Nat.div_le_self t _
    rw [seedOffset_atPass counted]
    exact Int64.toInt_ofNat_of_lt (by omega)

/-- Two checkpoints and three of the second pass make rounds of six passes; pass 11 is the last one of the second
round. -/
theorem eleven_passes_counted :
    let s := next^[11] (ofLists ["A", "B"] ["X", "Y", "Z"])
    11 < 2 ^ 32 ∧ s.modelIndex = 1 ∧ s.highresIndex = 2 ∧ s.advance = (s, .complete) ∧ s.loops.toNat = 11 ∧
      s.seedOffset.toInt = 1 := by
  intro s
  obtain ⟨-, -, model, highres, complete, stays, counted⟩ :=
    passes_count_in_mixed_radix ["A", "B"] ["X", "Y", "Z"] 11
  obtain ⟨loops, offset⟩ := counted (by decide)
  have last : s.advance.2 = .complete := complete.mpr rfl
  exact ⟨by decide, model, highres, Prod.ext (stays last) last, loops, offset⟩

end Sweep

end RenderFarm
