import RenderFarm.Proofs.Digits
import RenderFarm.Proofs.Time.Calendar
import RenderFarm.Time.Instant

/-!
Points in time are read back from their text. What can be read at all is a point in time within reach whose
nanoseconds stay in their second, or in the leap second at the end of a minute; each of these is what its own text
reads as.
-/

namespace RenderFarm

namespace Instant

variable {width n : Nat} {rest : List Char}

/-- Whether a text does not go on with a digit. -/
def EndsDigits (rest : List Char) : Prop :=
  ∀ c, rest.head? = some c → c.isDigit = false

theorem skip_cons {c : Char} (solid : Chars.isBlank c = false) (s : List Char) : skip (c :: s) = c :: s := by
  simp [skip, solid]

/-- A run of digits starts with one. -/
theorem exists_padded_eq_cons (width n : Nat) : ∃ c s, (padded width n).toList = c :: s ∧ c.isDigit := by
  obtain ⟨c, s, run⟩ := List.exists_cons_of_ne_nil (padded_ne_nil width n)
  exact ⟨c, s, run, isDigit_of_mem_padded (run ▸ List.mem_cons_self)⟩

theorem skip_padded (width n : Nat) (rest : List Char) :
    skip ((padded width n).toList ++ rest) = (padded width n).toList ++ rest := by
  obtain ⟨c, s, run, digit⟩ := exists_padded_eq_cons width n
  rw [run]
  exact skip_cons (Chars.isBlank_of_isDigit digit) _

/-- The digits of a padded number end where something else follows. -/
theorem takeWhile_padded (width n : Nat) (ends : EndsDigits rest) :
    ((padded width n).toList ++ rest).takeWhile Char.isDigit = (padded width n).toList :=
  Chars.takeWhile_run (fun _ => isDigit_of_mem_padded) ends

theorem number?_padded (pos : 0 < width) (fits : n < tenTo width) (rest : List Char) :
    number? width ((padded width n).toList ++ rest) = some (n, rest) := by
  have run : (padded width n).toList.takeWhile Char.isDigit = (padded width n).toList := by
    have := @takeWhile_padded [] width n fun _ none => nomatch none
    rwa [List.append_nil] at this
  unfold number?
  dsimp only
  rw [skip_padded, List.take_left' (length_padded pos fits), run, isEmpty_padded, digitsValue_padded, List.drop_left]
  rfl

theorem year?_minus (s : List Char) : year? ('-' :: s) =
    if (s.takeWhile Char.isDigit).isEmpty then none
    else some (-(Chars.digitsValue (s.takeWhile Char.isDigit) : Int), s.drop (s.takeWhile Char.isDigit).length) := by
  unfold year?
  rw [skip_cons (by decide)]
  rfl

theorem year?_plus (s : List Char) : year? ('+' :: s) =
    if (s.takeWhile Char.isDigit).isEmpty then none
    else some ((Chars.digitsValue (s.takeWhile Char.isDigit) : Int), s.drop (s.takeWhile Char.isDigit).length) := by
  unfold year?
  rw [skip_cons (by decide)]
  rfl

theorem year?_yearText (y : Int) (ends : EndsDigits rest) :
    year? ((yearText y).toList ++ rest) = some (y, rest) := by
  have minus : "-".toList = ['-'] := rfl
  have plus : "+".toList = ['+'] := rfl
  unfold yearText
  split
  case isTrue short =>
    have fits : y.toNat < tenTo 4 := by
      simp only [tenTo, Nat.pow_eq]
      omega
    obtain ⟨c, s, run, digit⟩ := exists_padded_eq_cons 4 y.toNat
    have signless : c ≠ '-' ∧ c ≠ '+' := by
      constructor <;> rintro rfl <;> exact absurd digit (by decide)
    have number := number?_padded (by decide) fits rest
    unfold year?
    rw [skip_padded, run, List.cons_append]
    split
    · rename_i eq
      exact absurd (List.cons.inj eq).1 signless.1
    · rename_i eq
      exact absurd (List.cons.inj eq).1 signless.2
    · rw [← List.cons_append, ← run, number]
      simp [Int.toNat_of_nonneg short.1]
  case isFalse long =>
    rw [String.toList_append, List.append_assoc]
    split
    case isTrue negative =>
      rw [minus, List.singleton_append, year?_minus, takeWhile_padded _ _ ends, isEmpty_padded, digitsValue_padded,
        List.drop_left]
      simp only [Bool.false_eq_true, if_false, Option.some.injEq, Prod.mk.injEq, and_true]
      omega
    case isFalse positive =>
      rw [plus, List.singleton_append, year?_plus, takeWhile_padded _ _ ends, isEmpty_padded, digitsValue_padded,
        List.drop_left]
      simp only [Bool.false_eq_true, if_false, Option.some.injEq, Prod.mk.injEq, and_true]
      omega

theorem mark?_cons {c : Char} (solid : Chars.isBlank c = false) (s : List Char) : mark? c (c :: s) = some s := by
  simp [mark?, skip_cons solid]

theorem fraction?_point (s : List Char) : fraction? ('.' :: s) =
    if (s.takeWhile Char.isDigit).isEmpty then none
    else some (Chars.digitsValue ((s.takeWhile Char.isDigit).take 9) *
        tenTo (9 - ((s.takeWhile Char.isDigit).take 9).length), s.drop (s.takeWhile Char.isDigit).length) :=
  rfl

/-- Decimals of a given width are read as nanoseconds. -/
theorem fraction?_padded (pos : 0 < width) (most : width ≤ 9) (fits : n < tenTo width) (ends : EndsDigits rest) :
    fraction? ('.' :: ((padded width n).toList ++ rest)) = some (n * tenTo (9 - width), rest) := by
  have length := length_padded pos fits
  rw [fraction?_point, takeWhile_padded _ _ ends, isEmpty_padded, List.take_of_length_le (by omega), digitsValue_padded,
    List.drop_left, length]
  rfl

theorem fraction?_fractionText {nanos : Nat} (fits : nanos < tenTo 9) :
    fraction? ((fractionText nanos).toList ++ ['Z']) = some (nanos, ['Z']) := by
  have ends : EndsDigits ['Z'] := by
    rintro c ⟨⟩
    rfl
  have scaled (width : Nat) (pos : 0 < width) (most : width ≤ 9) (whole : nanos % tenTo (9 - width) = 0)
      (same : tenTo 9 = tenTo (9 - width) * tenTo width) :
      fraction? (("." ++ padded width (nanos / tenTo (9 - width))).toList ++ ['Z']) = some (nanos, ['Z']) := by
    have point : ".".toList = ['.'] := rfl
    rw [String.toList_append, List.append_assoc, point, List.singleton_append,
      fraction?_padded pos most (Nat.div_lt_of_lt_mul (same ▸ fits)) ends,
      Nat.div_mul_cancel (Nat.dvd_of_mod_eq_zero whole)]
  unfold fractionText
  split
  case isTrue zero =>
    subst zero
    rfl
  split
  case isTrue milli => exact scaled 3 (by decide) (by decide) milli rfl
  split
  case isTrue micro => exact scaled 6 (by decide) (by decide) micro rfl
  case isFalse =>
    have := scaled 9 (by decide) (by decide) (Nat.mod_one nanos) rfl
    rwa [show nanos / tenTo (9 - 9) = nanos from Nat.div_one nanos] at this

/-- The points in time that are stored: within reach, and with nanoseconds that stay in their second or in the leap
second at the end of a minute. -/
structure Stored (t : Instant) : Prop where
  inReach : t.date.inReach
  nanos : t.nanos < tenTo 9 ∨ t.nanos < 2 * tenTo 9 ∧ t.seconds % 60 = 59

theorem number?_two {n : Nat} (small : n ≤ 60) (rest : List Char) :
    number? 2 ((padded 2 n).toList ++ rest) = some (n, rest) :=
  number?_padded (by decide) (Nat.lt_of_le_of_lt small (by decide)) rest

theorem date?_text {d : Date} (valid : d.isValid) (rest : List Char) :
    date? (d.text.toList ++ rest) = some (d, rest) := by
  have ends (s : List Char) : EndsDigits ('-' :: s) := by
    rintro c ⟨⟩
    rfl
  have mark (s : List Char) : mark? '-' ('-' :: s) = some s := mark?_cons (by decide) s
  have dash : "-".toList = ['-'] := rfl
  obtain ⟨month, day⟩ := Date.month_day_le valid
  simp only [date?, Date.text, String.toList_append, List.append_assoc, dash, List.cons_append, List.nil_append,
    year?_yearText _ (ends _), mark, number?_two (Nat.le_trans month (by decide : 12 ≤ 60)),
    number?_two (Nat.le_trans day (by decide : 31 ≤ 60)), Option.bind_eq_bind, Option.bind_some]
  rfl

theorem clock?_padded {hour minute second : Nat} (hours : hour < 24) (minutes : minute < 60) (seconds : second ≤ 60)
    (rest : List Char) :
    clock? ((padded 2 hour ++ ":" ++ padded 2 minute ++ ":" ++ padded 2 second).toList ++ rest) =
      some ((hour, minute, second), rest) := by
  have mark (s : List Char) : mark? ':' (':' :: s) = some s := mark?_cons (by decide) s
  have colon : ":".toList = [':'] := rfl
  simp only [clock?, String.toList_append, List.append_assoc, colon, List.cons_append, List.nil_append, mark,
    number?_two (Nat.le_trans (Nat.le_of_lt hours) (by decide : 24 ≤ 60)), number?_two (Nat.le_of_lt minutes),
    number?_two seconds, Option.bind_eq_bind, Option.bind_some]
  rfl

/-- The second in writing; a leap second is the sixtieth. -/
def writtenSecond (t : Instant) : Nat :=
  if tenTo 9 ≤ t.nanos then (t.seconds % 86400).toNat % 60 + 1 else (t.seconds % 86400).toNat % 60

/-- The nanoseconds in writing. -/
def writtenNanos (t : Instant) : Nat :=
  if tenTo 9 ≤ t.nanos then t.nanos - tenTo 9 else t.nanos

theorem clock_lt (t : Instant) : t.clock.1 < 24 ∧ t.clock.2.1 < 60 := by
  simp only [clock]
  omega

theorem writtenSecond_le (t : Instant) : t.writtenSecond ≤ 60 := by
  unfold writtenSecond
  split <;> omega

theorem ofParts?_clock {t : Instant} (stored : t.Stored) :
    ofParts? t.date (t.clock.1, t.clock.2.1, t.writtenSecond) t.writtenNanos 0 = some t := by
  obtain ⟨inReach, nanos⟩ := stored
  have days : t.date.toDays = t.seconds / 86400 := Date.toDays_ofDays _
  have same : (⟨(ofParts t.date t.clock.1 t.clock.2.1 (min t.writtenSecond 59)).seconds - 0,
      if t.writtenSecond = 60 then t.writtenNanos + 1000000000 else t.writtenNanos⟩ : Instant) = t := by
    have nine : tenTo 9 = 1000000000 := rfl
    obtain ⟨seconds, n⟩ := t
    simp only [ofParts, days, clock, writtenSecond, writtenNanos, mk.injEq] at nanos ⊢
    by_cases leap : tenTo 9 ≤ n
    · have last : seconds % 60 = 59 := by omega
      rw [if_pos leap, if_pos leap]
      constructor
      · omega
      · rw [if_pos (by omega)]
        omega
    · rw [if_neg leap, if_neg leap]
      constructor
      · omega
      · rw [if_neg (by omega)]
  unfold ofParts?
  dsimp only
  rw [if_pos ⟨Date.isValid_ofDays _, inReach, t.clock_lt.1, t.clock_lt.2, t.writtenSecond_le⟩, same, if_pos inReach]

/-- A point in time is what its text reads as. -/
theorem ofChars?_text {t : Instant} (stored : t.Stored) : ofChars? t.text.toList = some t := by
  have valid : t.date.isValid := Date.isValid_ofDays _
  have offset : offset? ['Z'] = some (0, []) := rfl
  have letter (s : List Char) : letter? ('T' :: s) = some s := rfl
  have fits : t.writtenNanos < tenTo 9 := by
    have := stored.nanos
    unfold writtenNanos
    split <;> omega
  have text : t.text.toList = t.date.text.toList ++ 'T' ::
      ((padded 2 t.clock.1 ++ ":" ++ padded 2 t.clock.2.1 ++ ":" ++ padded 2 t.writtenSecond).toList ++
        ((fractionText t.writtenNanos).toList ++ ['Z'])) := by
    have T : "T".toList = ['T'] := rfl
    have Z : "Z".toList = ['Z'] := rfl
    have leap : tenTo 9 = 1000000000 := rfl
    simp only [Instant.text, clock, writtenSecond, writtenNanos, leap, String.toList_append, T, Z, List.append_assoc,
      List.cons_append, List.nil_append]
  rw [text]
  simp only [ofChars?, date?_text valid, letter, clock?_padded t.clock_lt.1 t.clock_lt.2 t.writtenSecond_le,
    fraction?_fractionText fits, offset, Option.bind_eq_bind, Option.bind_some]
  exact ofParts?_clock stored

theorem lt_of_fraction? {s : List Char} (read : fraction? s = some (n, rest)) : n < tenTo 9 := by
  unfold fraction? at read
  split at read
  · rename_i s
    dsimp only at read
    split at read
    · cases read
    · simp only [Option.some.injEq, Prod.mk.injEq] at read
      have most : ((s.takeWhile Char.isDigit).take 9).length ≤ 9 := List.length_take_le _ _
      have value := Chars.digitsValue_lt ((s.takeWhile Char.isDigit).take 9)
      rw [← read.1, show tenTo 9 = _ from (congrArg tenTo (Nat.add_sub_cancel' most).symm).trans (tenTo_add _ _)]
      exact Nat.mul_lt_mul_of_pos_right value (tenTo_pos _)
  · simp only [Option.some.injEq, Prod.mk.injEq] at read
    rw [← read.1]
    decide

/-- Offsets are whole minutes. -/
theorem mod_of_offset? {s : List Char} {o : Int} (read : offset? s = some (o, rest)) : o % 60 = 0 := by
  unfold offset? at read
  split at read
  · simp only [Option.some.injEq, Prod.mk.injEq] at read
    omega
  · simp only [Option.some.injEq, Prod.mk.injEq] at read
    omega
  · split at read
    · simp only [Option.some.injEq, Prod.mk.injEq] at read
      omega
    · split at read
      · simp only [Option.bind_eq_bind, Option.bind_eq_some_iff] at read
        obtain ⟨⟨hours, s₁⟩, -, ⟨minutes, s₂⟩, -, read⟩ := read
        split at read
        · simp only [Option.some.injEq, Prod.mk.injEq] at read
          obtain ⟨rfl, -⟩ := read
          split <;> omega
        · cases read
      · cases read
  · cases read

/-- What is read is a point in time that can be stored. -/
theorem stored_of_ofChars? {s : List Char} {t : Instant} (read : ofChars? s = some t) : t.Stored := by
  simp only [ofChars?, Option.bind_eq_bind, Option.bind_eq_some_iff] at read
  obtain ⟨⟨d, s₁⟩, -, s₂, -, ⟨⟨hour, minute, second⟩, s₃⟩, -, ⟨nanos, s₄⟩, fraction, ⟨o, s₅⟩, offset, read⟩ := read
  have fits := lt_of_fraction? fraction
  have minutes := mod_of_offset? offset
  have nine : tenTo 9 = 1000000000 := rfl
  simp only [ofParts?] at read
  split at read
  case isFalse => cases read
  split at read
  case isFalse => cases read
  split at read
  case isTrue leap =>
    obtain ⟨inReach, read⟩ := Option.ite_none_right_eq_some.mp read
    obtain rfl := Option.some.inj read
    refine ⟨inReach, .inr ⟨?_, ?_⟩⟩
    · dsimp only
      omega
    · dsimp only [ofParts]
      omega
  case isFalse =>
    obtain ⟨inReach, read⟩ := Option.ite_none_right_eq_some.mp read
    obtain rfl := Option.some.inj read
    exact ⟨inReach, .inl fits⟩

/-- Texts hold exactly the points in time that can be stored. -/
theorem exists_text_iff (t : Instant) : (∃ s, ofChars? s = some t) ↔ t.Stored :=
  ⟨fun ⟨_, read⟩ => stored_of_ofChars? read, fun stored => ⟨_, ofChars?_text stored⟩⟩

end Instant

end RenderFarm
