import Mathlib.Tactic.Ring
import RenderFarm.Number.Reading
import RenderFarm.Proofs.Trimming
import RenderFarm.Time.Calendar

/-!
Runs of decimal digits and what they stand for. A number is written as its digits, or padded with zeros to a width.
-/

namespace RenderFarm

/-! ## The digits of a number -/

theorem isDigit_of_mem_toDigits {n : Nat} {c : Char} (mem : c ∈ Nat.toDigits 10 n) : c.isDigit :=
  Nat.isDigit_of_mem_toDigits (by decide) (by decide) mem

theorem not_mem_toDigits {c : Char} (other : ¬ c.isDigit) (n : Nat) : c ∉ Nat.toDigits 10 n :=
  fun mem => other (isDigit_of_mem_toDigits mem)

namespace Chars

theorem toNat_of_isDigit {c : Char} (digit : c.isDigit) : 48 ≤ c.toNat ∧ c.toNat ≤ 57 := by
  simpa [Char.isDigit, Char.le_def, UInt32.le_iff_toNat_le] using digit

theorem isBlank_of_isDigit {c : Char} (digit : c.isDigit) : isBlank c = false :=
  isBlank_of_isAlphanum (by simp [Char.isAlphanum, digit])

theorem digitsValue_append (s t : List Char) :
    digitsValue (s ++ t) = digitsValue s * tenTo t.length + digitsValue t := by
  have shifted : ∀ (t : List Char) (acc : Nat),
      t.foldl (fun acc c => acc * 10 + (digitValue? c).getD 0) acc = acc * tenTo t.length + digitsValue t := by
    intro t
    induction t with
    | nil => simp [digitsValue, tenTo]
    | cons c t ih =>
      intro acc
      rw [digitsValue, List.foldl_cons, List.foldl_cons, ih, ih (0 * 10 + _), List.length_cons, tenTo_add]
      simp only [tenTo, Nat.pow_eq]
      ring
  rw [digitsValue, List.foldl_append, shifted]
  rfl

theorem digitsValue_lt (s : List Char) : digitsValue s < tenTo s.length := by
  induction s with
  | nil => decide
  | cons c s ih =>
    have first : digitsValue [c] < 10 := by
      simp only [digitsValue, List.foldl_cons, List.foldl_nil, digitValue?]
      split
      case isTrue digit =>
        have := toNat_of_isDigit digit
        simp
        omega
      case isFalse => decide
    have split : digitsValue (c :: s) = digitsValue [c] * tenTo s.length + digitsValue s :=
      digitsValue_append [c] s
    have power : tenTo (s.length + 1) = tenTo s.length * 10 := tenTo_add _ 1
    rw [split, List.length_cons, power]
    have := Nat.mul_le_mul_right (tenTo s.length) (Nat.le_of_lt_succ first)
    omega

/-- Zeros in front count for nothing. -/
theorem digitsValue_replicate_zero (k : Nat) (s : List Char) :
    digitsValue (List.replicate k '0' ++ s) = digitsValue s := by
  induction k with
  | zero => rfl
  | succ k ih =>
    rw [List.replicate_succ, List.cons_append, digitsValue, List.foldl_cons]
    exact ih

/-- The digits of a number stand for it. -/
theorem digitsValue_toDigits (n : Nat) : digitsValue (Nat.toDigits 10 n) = n := by
  have same : ∀ (s : List Char) (acc : Nat), (∀ c ∈ s, c.isDigit) →
      s.foldl (fun acc c => acc * 10 + (digitValue? c).getD 0) acc = Nat.ofDigitChars 10 s acc := by
    intro s
    induction s with
    | nil => intro acc _; rfl
    | cons c s ih =>
      intro acc digits
      obtain ⟨digit, later⟩ := List.forall_mem_cons.mp digits
      rw [List.foldl_cons, ih _ later]
      simp [digitValue?, digit, Nat.ofDigitChars, Nat.mul_comm]
  rw [digitsValue, same _ _ fun _ => isDigit_of_mem_toDigits]
  exact Nat.ofDigitChars_toDigits (by decide) (by decide)

end Chars

/-! ## Numbers of a width -/

theorem toList_padded (width n : Nat) :
    (padded width n).toList = List.replicate (width - (Nat.toDigits 10 n).length) '0' ++ Nat.toDigits 10 n := by
  simp [padded, Nat.toList_repr, ← String.length_toList]

theorem isDigit_of_mem_padded {width n : Nat} {c : Char} (mem : c ∈ (padded width n).toList) : c.isDigit := by
  rw [toList_padded, List.mem_append] at mem
  obtain zero | digit := mem
  · rw [(List.mem_replicate.mp zero).2]
    rfl
  · exact isDigit_of_mem_toDigits digit

theorem not_mem_padded {c : Char} (other : ¬ c.isDigit) (width n : Nat) : c ∉ (padded width n).toList :=
  fun mem => other (isDigit_of_mem_padded mem)

theorem padded_ne_nil (width n : Nat) : (padded width n).toList ≠ [] := by
  rw [toList_padded]
  exact List.append_ne_nil_of_right_ne_nil _ Nat.toDigits_ne_nil

theorem isEmpty_padded (width n : Nat) : (padded width n).toList.isEmpty = false :=
  List.isEmpty_eq_false_iff.mpr (padded_ne_nil width n)

theorem length_padded {width n : Nat} (pos : 0 < width) (fits : n < tenTo width) :
    (padded width n).toList.length = width := by
  have short : (Nat.toDigits 10 n).length ≤ width := (Nat.length_toDigits_le_iff (by decide) pos).mpr fits
  rw [toList_padded, List.length_append, List.length_replicate]
  omega

theorem digitsValue_padded (width n : Nat) : Chars.digitsValue (padded width n).toList = n := by
  rw [toList_padded, Chars.digitsValue_replicate_zero, Chars.digitsValue_toDigits]

end RenderFarm
