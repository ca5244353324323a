import Mathlib.Data.List.TakeWhile
import RenderFarm.Json.Reader
import RenderFarm.Proofs.Digits

/-!
JSON text cut into tokens. What follows a token does not change it as long as it could not go on a number, so texts
that are cut one by one may be put together; and a bound that reaches to the end of the text never matters.
-/

namespace RenderFarm.Json

variable {s tail rest : List Char} {t : Token} {ts us : List Token}

/-- A string ends with its own quote. -/
theorem scanString_append {codes : List Nat} (scan : scanString s = some (codes, rest)) (tail : List Char) :
    scanString (s ++ tail) = some (codes, rest ++ tail) := by
  fun_induction scanString s generalizing codes rest with
  | case1 => cases scan
  | case2 s =>
    cases scan
    rfl
  | case3 a b c d s ih =>
    simp only [Option.bind_eq_bind, Option.bind_eq_some_iff] at scan
    obtain ⟨code, hex, ⟨codes', rest'⟩, more, scan⟩ := scan
    cases scan
    simp [scanString, hex, ih more]
  | case4 e s notUnicode ih =>
    simp only [Option.bind_eq_bind, Option.bind_eq_some_iff] at scan
    obtain ⟨c, escaped, ⟨codes', rest'⟩, more, scan⟩ := scan
    cases scan
    have plain : e ≠ 'u' := by
      rintro rfl
      cases escaped
    simp [scanString, escaped, ih more, plain]
  | case5 => cases scan
  | case6 c s notQuote notUnicode notEscape plain ih =>
    simp only [Option.bind_eq_bind, Option.bind_eq_some_iff] at scan
    obtain ⟨⟨codes', rest'⟩, more, scan⟩ := scan
    cases scan
    obtain ⟨notBackslash, printable⟩ := not_or.mp plain
    simp [scanString, ih more, notBackslash, Nat.le_of_not_lt printable]

theorem length_of_scanString {codes : List Nat} (scan : scanString s = some (codes, rest)) :
    rest.length < s.length := by
  fun_induction scanString s generalizing codes rest with
  | case1 => cases scan
  | case2 s =>
    cases scan
    simp
  | case3 a b c d s ih =>
    simp only [Option.bind_eq_bind, Option.bind_eq_some_iff] at scan
    obtain ⟨code, hex, ⟨codes', rest'⟩, more, scan⟩ := scan
    cases scan
    have := ih more
    simp only [List.length_cons]
    omega
  | case4 e s notUnicode ih =>
    simp only [Option.bind_eq_bind, Option.bind_eq_some_iff] at scan
    obtain ⟨c, escaped, ⟨codes', rest'⟩, more, scan⟩ := scan
    cases scan
    have := ih more
    simp only [List.length_cons]
    omega
  | case5 => cases scan
  | case6 c s notQuote notUnicode notEscape plain ih =>
    simp only [Option.bind_eq_bind, Option.bind_eq_some_iff] at scan
    obtain ⟨⟨codes', rest'⟩, more, scan⟩ := scan
    cases scan
    exact Nat.lt_succ_of_lt (ih more)

/-- Whether a number ends in front of a text. -/
def EndsNumber (tail : List Char) : Prop :=
  ∀ c, tail.head? = some c → c.isDigit = false ∧ c ≠ '.' ∧ c ≠ 'e' ∧ c ≠ 'E'

theorem span_append (ends : EndsNumber tail) (s : List Char) :
    (s ++ tail).takeWhile Char.isDigit = s.takeWhile Char.isDigit ∧
      (s ++ tail).dropWhile Char.isDigit = s.dropWhile Char.isDigit ++ tail := by
  induction s with
  | nil =>
    cases tail with
    | nil => simp
    | cons c tail => simp [(ends c rfl).1]
  | cons c s ih =>
    rw [List.cons_append, List.takeWhile_cons, List.takeWhile_cons, List.dropWhile_cons, List.dropWhile_cons]
    split
    · exact ⟨congrArg _ ih.1, ih.2⟩
    · exact ⟨rfl, rfl⟩

theorem scanWhole_append {whole : List Char} (scan : scanWhole s = some (whole, rest)) (ends : EndsNumber tail) :
    scanWhole (s ++ tail) = some (whole, rest ++ tail) := by
  cases s with
  | nil => cases scan
  | cons c s =>
    simp only [scanWhole, List.cons_append] at scan ⊢
    by_cases zero : c = '0'
    · rw [if_pos zero] at scan ⊢
      cases scan
      rfl
    · rw [if_neg zero] at scan ⊢
      obtain ⟨digit, scan⟩ := Option.ite_none_right_eq_some.mp scan
      cases scan
      rw [if_pos digit, ← List.cons_append, (span_append ends _).1, (span_append ends _).2]

theorem scanFraction_append {fraction : Option (List Char)} (scan : scanFraction s = some (fraction, rest))
    (ends : EndsNumber tail) : scanFraction (s ++ tail) = some (fraction, rest ++ tail) := by
  cases s with
  | nil =>
    cases scan
    cases tail with
    | nil => rfl
    | cons c tail => exact if_neg (ends c rfl).2.1
  | cons c s =>
    simp only [scanFraction, List.cons_append] at scan ⊢
    by_cases point : c = '.'
    · rw [if_pos point] at scan ⊢
      obtain ⟨digits, scan⟩ := Option.ite_none_left_eq_some.mp scan
      cases scan
      rw [(span_append ends _).1, (span_append ends _).2, if_neg digits]
    · rw [if_neg point] at scan ⊢
      cases scan
      rfl

theorem scanSign_append (nonempty : s ≠ []) (tail : List Char) :
    scanSign (s ++ tail) = ((scanSign s).1, (scanSign s).2 ++ tail) := by
  cases s with
  | nil => exact absurd rfl nonempty
  | cons c s =>
    simp only [scanSign, List.cons_append]
    split
    · rfl
    · split <;> rfl

theorem scanExponent_append {exponent : Option (Bool × List Char)} (scan : scanExponent s = some (exponent, rest))
    (ends : EndsNumber tail) : scanExponent (s ++ tail) = some (exponent, rest ++ tail) := by
  cases s with
  | nil =>
    cases scan
    cases tail with
    | nil => rfl
    | cons c tail => exact if_neg (not_or.mpr (ends c rfl).2.2)
  | cons c s =>
    simp only [scanExponent, List.cons_append] at scan ⊢
    by_cases mark : c = 'e' ∨ c = 'E'
    · rw [if_pos mark] at scan ⊢
      obtain ⟨digits, scan⟩ := Option.ite_none_left_eq_some.mp scan
      cases scan
      have nonempty : s ≠ [] := by
        rintro rfl
        exact digits rfl
      rw [scanSign_append nonempty, (span_append ends _).1, (span_append ends _).2, if_neg digits]
    · rw [if_neg mark] at scan ⊢
      cases scan
      rfl

theorem scanNumber_append {negative : Bool} {v : Json} (scan : scanNumber negative s = some (v, rest))
    (ends : EndsNumber tail) : scanNumber negative (s ++ tail) = some (v, rest ++ tail) := by
  simp only [scanNumber, Option.bind_eq_bind, Option.bind_eq_some_iff] at scan ⊢
  obtain ⟨⟨whole, s₁⟩, whole_eq, ⟨fraction, s₂⟩, fraction_eq, ⟨exponent, s₃⟩, exponent_eq, scan⟩ := scan
  cases scan
  exact ⟨_, scanWhole_append whole_eq ends, _, scanFraction_append fraction_eq ends, _,
    scanExponent_append exponent_eq ends, rfl⟩

theorem length_dropWhile_le (p : Char → Bool) (s : List Char) : (s.dropWhile p).length ≤ s.length :=
  (List.dropWhile_suffix p).length_le

theorem length_of_scanWhole {whole : List Char} (scan : scanWhole s = some (whole, rest)) : rest.length < s.length := by
  cases s with
  | nil => cases scan
  | cons c s =>
    simp only [scanWhole] at scan
    rw [List.length_cons, Nat.lt_succ_iff]
    by_cases zero : c = '0'
    · rw [if_pos zero] at scan
      cases scan
      exact Nat.le_refl _
    · rw [if_neg zero] at scan
      obtain ⟨digit, scan⟩ := Option.ite_none_right_eq_some.mp scan
      cases scan
      rw [List.dropWhile_cons_of_pos digit]
      exact length_dropWhile_le _ _

theorem length_of_scanFraction {fraction : Option (List Char)} (scan : scanFraction s = some (fraction, rest)) :
    rest.length ≤ s.length := by
  cases s with
  | nil =>
    cases scan
    exact Nat.le_refl _
  | cons c s =>
    simp only [scanFraction] at scan
    by_cases point : c = '.'
    · rw [if_pos point] at scan
      obtain ⟨-, scan⟩ := Option.ite_none_left_eq_some.mp scan
      cases scan
      exact Nat.le_succ_of_le (length_dropWhile_le _ _)
    · rw [if_neg point] at scan
      cases scan
      exact Nat.le_refl _

theorem length_scanSign_le (s : List Char) : (scanSign s).2.length ≤ s.length := by
  cases s with
  | nil => exact Nat.le_refl _
  | cons c s =>
    simp only [scanSign]
    split
    · exact Nat.le_succ _
    · split
      · exact Nat.le_succ _
      · exact Nat.le_refl _

theorem length_of_scanExponent {exponent : Option (Bool × List Char)} (scan : scanExponent s = some (exponent, rest)) :
    rest.length ≤ s.length := by
  cases s with
  | nil =>
    cases scan
    exact Nat.le_refl _
  | cons c s =>
    simp only [scanExponent] at scan
    by_cases mark : c = 'e' ∨ c = 'E'
    · rw [if_pos mark] at scan
      obtain ⟨-, scan⟩ := Option.ite_none_left_eq_some.mp scan
      cases scan
      exact Nat.le_succ_of_le (Nat.le_trans (length_dropWhile_le _ _) (length_scanSign_le _))
    · rw [if_neg mark] at scan
      cases scan
      exact Nat.le_refl _

theorem length_of_scanNumber {negative : Bool} {v : Json} (scan : scanNumber negative s = some (v, rest)) :
    rest.length < s.length := by
  simp only [scanNumber, Option.bind_eq_bind, Option.bind_eq_some_iff] at scan
  obtain ⟨_, whole, _, fraction, _, exponent, scan⟩ := scan
  cases scan
  exact Nat.lt_of_le_of_lt (length_of_scanExponent exponent)
    (Nat.lt_of_le_of_lt (length_of_scanFraction fraction) (length_of_scanWhole whole))

theorem scanToken_quote (s : List Char) :
    scanToken ('"' :: s) = (scanString s).map fun (codes, rest) => (.scalar (stringOf codes), rest) :=
  rfl

theorem scanToken_minus (s : List Char) :
    scanToken ('-' :: s) = (scanNumber true s).map fun (v, rest) => (.scalar v, rest) :=
  rfl

/-- A text that starts with a digit starts with a number. -/
theorem scanToken_of_isDigit {c : Char} (digit : c.isDigit) (s : List Char) :
    scanToken (c :: s) = (scanNumber false (c :: s)).map fun (v, rest) => (.scalar v, rest) := by
  unfold scanToken
  split <;> first | rfl | (rename_i eq; rw [(List.cons.inj eq).1] at digit; cases digit)

theorem exists_digit_of_scanNumber {negative : Bool} {v : Json} (scan : scanNumber negative s = some (v, rest)) :
    ∃ c s', s = c :: s' ∧ c.isDigit := by
  simp only [scanNumber, Option.bind_eq_bind, Option.bind_eq_some_iff] at scan
  obtain ⟨_, whole, -⟩ := scan
  cases s with
  | nil => cases whole
  | cons c s =>
    refine ⟨c, s, rfl, ?_⟩
    by_cases zero : c = '0'
    · subst zero
      rfl
    · exact (Option.ite_none_right_eq_some.mp ((if_neg zero).symm.trans whole)).1

/-- What a token is: a mark, a word, a string or a number. -/
theorem scanToken_cases (scan : scanToken s = some (t, rest)) :
    (∃ lexeme, lexeme ≠ [] ∧ s = lexeme ++ rest ∧ ∀ rest, scanToken (lexeme ++ rest) = some (t, rest)) ∨
      (∃ s' codes, s = '"' :: s' ∧ scanString s' = some (codes, rest) ∧ t = .scalar (stringOf codes)) ∨
      (∃ s' v, s = '-' :: s' ∧ scanNumber true s' = some (v, rest) ∧ t = .scalar v) ∨
      ∃ c s' v, s = c :: s' ∧ c.isDigit ∧ scanNumber false s = some (v, rest) ∧ t = .scalar v := by
  unfold scanToken at scan
  split at scan
  case h_1 | h_2 | h_3 | h_4 | h_5 | h_6 =>
    cases scan
    exact .inl ⟨[_], List.cons_ne_nil _ _, rfl, fun _ => rfl⟩
  case h_7 s' =>
    obtain ⟨⟨codes, _⟩, string, same⟩ := Option.map_eq_some_iff.mp scan
    cases same
    exact .inr (.inl ⟨s', codes, rfl, string, rfl⟩)
  case h_8 =>
    cases scan
    exact .inl ⟨"null".toList, List.cons_ne_nil _ _, rfl, fun _ => rfl⟩
  case h_9 =>
    cases scan
    exact .inl ⟨"true".toList, List.cons_ne_nil _ _, rfl, fun _ => rfl⟩
  case h_10 =>
    cases scan
    exact .inl ⟨"false".toList, List.cons_ne_nil _ _, rfl, fun _ => rfl⟩
  case h_11 s' =>
    obtain ⟨⟨v, _⟩, number, same⟩ := Option.map_eq_some_iff.mp scan
    cases same
    exact .inr (.inr (.inl ⟨s', v, rfl, number, rfl⟩))
  case h_12 =>
    obtain ⟨⟨v, _⟩, number, same⟩ := Option.map_eq_some_iff.mp scan
    cases same
    obtain ⟨c, s', eq, digit⟩ := exists_digit_of_scanNumber number
    exact .inr (.inr (.inr ⟨c, s', v, eq, digit, number, rfl⟩))

theorem scanToken_append (scan : scanToken s = some (t, rest)) (ends : EndsNumber tail) :
    scanToken (s ++ tail) = some (t, rest ++ tail) := by
  rcases scanToken_cases scan with ⟨lexeme, -, rfl, whole⟩ | ⟨s', codes, rfl, string, rfl⟩ |
    ⟨s', v, rfl, number, rfl⟩ | ⟨c, s', v, rfl, digit, number, rfl⟩
  · rw [List.append_assoc]
    exact whole _
  · rw [List.cons_append, scanToken_quote, scanString_append string]
    rfl
  · rw [List.cons_append, scanToken_minus, scanNumber_append number ends]
    rfl
  · rw [List.cons_append, scanToken_of_isDigit digit, ← List.cons_append, scanNumber_append number ends]
    rfl

theorem length_of_scanToken (scan : scanToken s = some (t, rest)) : rest.length < s.length := by
  rcases scanToken_cases scan with ⟨lexeme, nonempty, rfl, -⟩ | ⟨s', codes, rfl, string, -⟩ |
    ⟨s', v, rfl, number, -⟩ | ⟨c, s', v, rfl, -, number, -⟩
  · have := List.length_pos_iff.mpr nonempty
    rw [List.length_append]
    omega
  · exact Nat.lt_succ_of_lt (length_of_scanString string)
  · exact Nat.lt_succ_of_lt (length_of_scanNumber number)
  · exact length_of_scanNumber number

/-- A text cut into tokens with blanks between them. -/
inductive Cut : List Char → List Token → Prop
  | nil : Cut [] []
  | space {c : Char} {s : List Char} {ts : List Token} (space : isSpace c) (cut : Cut s ts) : Cut (c :: s) ts
  | token {s rest : List Char} {t : Token} {ts : List Token} (scan : scanToken s = some (t, rest))
      (cut : Cut rest ts) : Cut s (t :: ts)

namespace Cut

theorem spaces {gap : List Char} (blank : ∀ c ∈ gap, isSpace c) (cut : Cut s ts) : Cut (gap ++ s) ts := by
  induction gap with
  | nil => exact cut
  | cons c gap ih =>
    obtain ⟨first, more⟩ := List.forall_mem_cons.mp blank
    exact .space first (ih more)

/-- Texts that are cut one by one are cut together. -/
theorem append (cut : Cut s ts) (ends : EndsNumber tail) (more : Cut tail us) : Cut (s ++ tail) (ts ++ us) := by
  induction cut with
  | nil => exact more
  | space space _ ih => exact .space space ih
  | token scan _ ih => exact .token (scanToken_append scan ends) ih

end Cut

theorem isSpace_of_scanToken {c : Char} (scan : scanToken (c :: s) = some (t, rest)) : isSpace c = false := by
  refine Bool.eq_false_iff.mpr fun space => ?_
  simp only [isSpace, Bool.or_eq_true, beq_iff_eq] at space
  obtain ((rfl | rfl) | rfl) | rfl := space <;> cases scan

theorem scanTokens_of_cut (cut : Cut s ts) {bound : Nat} (reaches : s.length ≤ bound) :
    scanTokens bound s = some ts := by
  induction cut generalizing bound with
  | nil => cases bound <;> rfl
  | space space _ ih =>
    have skip := ih (Nat.le_of_succ_le reaches)
    cases bound <;> simpa only [scanTokens, List.dropWhile_cons_of_pos space] using skip
  | @token s rest t ts scan _ ih =>
    cases s with
    | nil => cases scan
    | cons c s =>
      cases bound with
      | zero => cases reaches
      | succ bound =>
        have solid : ¬ isSpace c := by rw [isSpace_of_scanToken scan]; decide
        have shorter := length_of_scanToken scan
        have more : scanTokens bound rest = some ts := ih (by omega)
        simp [scanTokens, List.dropWhile_cons_of_neg solid, scan, more]

theorem cut_of_scanTokens {bound : Nat} (scan : scanTokens bound s = some ts) : Cut s ts := by
  induction bound generalizing s ts with
  | zero =>
    obtain ⟨empty, scan⟩ := Option.ite_none_right_eq_some.mp scan
    cases scan
    have blank := List.dropWhile_eq_nil_iff.mp (List.isEmpty_iff.mp empty)
    rw [← List.append_nil s]
    exact .spaces blank .nil
  | succ bound ih =>
    rw [← List.takeWhile_append_dropWhile (p := isSpace) (l := s)]
    refine .spaces (fun _ => List.mem_takeWhile_imp) ?_
    unfold scanTokens at scan
    split at scan
    case h_1 empty =>
      cases scan
      rw [empty]
      exact .nil
    case h_2 c s' text =>
      simp only [Option.bind_eq_bind, Option.bind_eq_some_iff] at scan
      obtain ⟨⟨t, rest⟩, first, ts', more, scan⟩ := scan
      cases scan
      rw [text]
      exact .token first (ih more)

end RenderFarm.Json
