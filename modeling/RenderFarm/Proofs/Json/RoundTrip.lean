import RenderFarm.Json.Printer
import RenderFarm.Proofs.Json.Tokens

/-!
JSON values in writing. A value is read back from its text when its numbers are: whole numbers of 64 bits always are,
and a double when it is what its own text reads as.
-/

namespace RenderFarm.Json

/-! ## Strings -/

/-- A character is read back from the way it stands in a string. -/
theorem scanString_escapeChar (c : Char) {s rest : List Char} {codes : List Nat}
    (more : scanString s = some (codes, rest)) : scanString (escapeChar c ++ s) = some (c.toNat :: codes, rest) := by
  have named {e c : Char} (plain : e ≠ 'u') (escaped : escapedChar? e = some c) :
      scanString ('\\' :: e :: s) = some (c.toNat :: codes, rest) := by
    simp [scanString, plain, escaped, more]
  unfold escapeChar
  split
  case isTrue quote =>
    subst quote
    exact named (by decide) rfl
  split
  case isTrue backslash =>
    subst backslash
    exact named (by decide) rfl
  split
  case isTrue backspace =>
    subst backspace
    exact named (by decide) rfl
  split
  case isTrue feed =>
    subst feed
    exact named (by decide) rfl
  split
  case isTrue line =>
    subst line
    exact named (by decide) rfl
  split
  case isTrue return_ =>
    subst return_
    exact named (by decide) rfl
  split
  case isTrue tab =>
    subst tab
    exact named (by decide) rfl
  split
  case isTrue control =>
    have code : ∀ n < 0x20, hexCode? '0' '0' (hexDigit (n / 16)) (hexDigit (n % 16)) = some n := by decide
    simp [scanString, code _ control, more]
  case isFalse notQuote notBackslash _ _ _ _ _ printable =>
    simp [scanString, notBackslash, Nat.le_of_not_lt printable, more]

theorem scanString_quote (s rest : List Char) :
    scanString (s.flatMap escapeChar ++ '"' :: rest) = some (s.map Char.toNat, rest) := by
  induction s with
  | nil => rfl
  | cons c s ih =>
    rw [List.flatMap_cons, List.append_assoc]
    exact scanString_escapeChar c ih

/-- Characters are never surrogates, so their codes are joined to themselves. -/
theorem joinSurrogates?_toNat (s : List Char) : joinSurrogates? (s.map Char.toNat) = some s := by
  have outside (c : Char) : c.toNat < 0xD800 ∨ 0xE000 ≤ c.toNat := by
    have := c.valid
    unfold UInt32.isValidChar Nat.isValidChar at this
    simp only [Char.toNat]
    omega
  induction s with
  | nil => rfl
  | cons c s ih =>
    have single := outside c
    cases s with
    | nil =>
      simp only [List.map_cons, List.map_nil, joinSurrogates?, Char.ofNat_toNat]
      exact if_neg (by omega)
    | cons d s =>
      rw [List.map_cons] at ih
      rw [List.map_cons, List.map_cons, joinSurrogates?, if_neg (by omega), if_neg (by omega), ih, Char.ofNat_toNat]
      rfl

theorem cut_quote (s : String) : Cut (quote s) [.scalar (.string s)] := by
  refine .token (show scanToken (quote s) = some (_, []) from ?_) .nil
  unfold quote
  rw [List.cons_append, scanToken_quote, scanString_quote, Option.map_some]
  simp [stringOf, joinSurrogates?_toNat]

/-! ## Whole numbers -/

/-- Digits that stand for a number of 64 bits are all kept. -/
theorem addWhole_eq (digits : List Char) (sig : Significand)
    (fits : sig.digits * tenTo digits.length + Chars.digitsValue digits < twoTo 64) :
    sig.addWhole digits = ⟨sig.digits * tenTo digits.length + Chars.digitsValue digits, sig.exponent⟩ := by
  induction digits generalizing sig with
  | nil => simp [Significand.addWhole, Chars.digitsValue, tenTo]
  | cons c digits ih =>
    have first : Chars.digitsValue [c] = (Chars.digitValue? c).getD 0 := by simp [Chars.digitsValue]
    have split : Chars.digitsValue (c :: digits) =
        (Chars.digitValue? c).getD 0 * tenTo digits.length + Chars.digitsValue digits := by
      rw [← first]
      exact Chars.digitsValue_append [c] digits
    have shifted : sig.digits * tenTo (c :: digits).length + Chars.digitsValue (c :: digits) =
        (sig.digits * 10 + (Chars.digitValue? c).getD 0) * tenTo digits.length + Chars.digitsValue digits := by
      rw [split, List.length_cons, tenTo_add]
      simp only [tenTo, Nat.pow_eq]
      ring
    rw [shifted] at fits ⊢
    have small : sig.digits * 10 + (Chars.digitValue? c).getD 0 < twoTo 64 :=
      Nat.lt_of_le_of_lt (Nat.le_trans (Nat.le_mul_of_pos_right _ (tenTo_pos _)) (Nat.le_add_right _ _)) fits
    rw [Significand.addWhole, if_pos small]
    exact ih _ fits

/-- The digits of a number start with a zero only when they are nothing else. -/
theorem toDigits_eq_of_zero {n : Nat} {s : List Char} (digits : Nat.toDigits 10 n = '0' :: s) : s = [] := by
  by_contra more
  have value := Chars.digitsValue_toDigits n
  have length :=
    Nat.length_toDigits_le_iff (b := 10) (n := n) (k := s.length) (by decide) (List.length_pos_iff.mpr more)
  rw [digits] at value length
  have small : n < tenTo s.length := by
    rw [← value]
    exact Chars.digitsValue_lt s
  have := length.mpr small
  simp at this

theorem scanNumber_toDigits (negative : Bool) (n : Nat) :
    scanNumber negative (Nat.toDigits 10 n) = some (numberOf negative (Nat.toDigits 10 n) none none, []) := by
  have digits : ∀ c ∈ Nat.toDigits 10 n, c.isDigit := fun _ => isDigit_of_mem_toDigits
  have whole : scanWhole (Nat.toDigits 10 n) = some (Nat.toDigits 10 n, []) := by
    obtain ⟨c, s, text⟩ := List.exists_cons_of_ne_nil (Nat.toDigits_ne_nil (b := 10) (n := n))
    rw [text] at digits ⊢
    unfold scanWhole
    dsimp only
    by_cases zero : c = '0'
    · subst zero
      rw [if_pos rfl, toDigits_eq_of_zero text]
    · rw [if_neg zero, if_pos (digits c List.mem_cons_self), List.takeWhile_eq_self_iff.mpr digits,
        List.dropWhile_eq_nil_iff.mpr digits]
  simp [scanNumber, whole, scanFraction, scanExponent]

/-- Whole numbers of 64 bits, with or without a sign. -/
def FitsWord (n : Int) : Prop :=
  -(twoTo 63 : Int) ≤ n ∧ n < twoTo 64

theorem numberOf_toDigits {negative : Bool} {n : Nat} (fits : n < twoTo 64)
    (signed : negative → 0 < n ∧ n ≤ twoTo 63) :
    numberOf negative (Nat.toDigits 10 n) none none = .int (if negative then -(n : Int) else n) := by
  have kept : (Significand.mk 0 0).addWhole (Nat.toDigits 10 n) = ⟨n, 0⟩ := by
    rw [addWhole_eq]
    · simp [Chars.digitsValue_toDigits]
    · simpa [Chars.digitsValue_toDigits] using fits
  unfold numberOf
  dsimp only
  rw [kept]
  cases negative with
  | false => rfl
  | true =>
    dsimp only
    rw [if_neg (by decide), if_neg (by decide), if_pos (signed rfl)]
    rfl

theorem cut_int {n : Int} (fits : FitsWord n) : Cut (toString n).toList [.scalar (.int n)] := by
  obtain ⟨low, high⟩ := fits
  have words : twoTo 64 = 2 * twoTo 63 := rfl
  change Cut (Int.repr n).toList _
  rw [Int.repr_eq_if]
  split
  case isTrue positive =>
    have value := @numberOf_toDigits false n.toNat (by omega) nofun
    have same : ((n.toNat : Nat) : Int) = n := by omega
    obtain ⟨c, s, text⟩ := List.exists_cons_of_ne_nil (Nat.toDigits_ne_nil (b := 10) (n := n.toNat))
    have digit : c.isDigit := isDigit_of_mem_toDigits (text ▸ List.mem_cons_self : c ∈ Nat.toDigits 10 n.toNat)
    rw [Nat.toList_repr]
    refine .token ?_ .nil
    rw [text, scanToken_of_isDigit digit, ← text, scanNumber_toDigits, value, if_neg (by decide), same]
    rfl
  case isFalse negative =>
    have minus : "-".toList = ['-'] := rfl
    have value := @numberOf_toDigits true (-n).toNat (by omega) fun _ => by omega
    have same : -(((-n).toNat : Nat) : Int) = n := by omega
    rw [String.toList_append, Nat.toList_repr, minus, List.singleton_append]
    refine .token ?_ .nil
    rw [scanToken_minus, scanNumber_toDigits, value, if_pos rfl, same]
    rfl

/-! ## Values -/

mutual

/-- Whether the numbers of a value are read back from their text. -/
def Plain : Json → Prop
  | .null => True
  | .bool _ => True
  | .int n => FitsWord n
  | .float x => parse? (pretty (.float x)) = some (.float x)
  | .string _ => True
  | .array items => PlainItems items
  | .object members => PlainMembers members
  | .unreadable => False

/-- Whether the numbers of every item are read back. -/
def PlainItems : List Json → Prop
  | [] => True
  | item :: items => Plain item ∧ PlainItems items

/-- Whether the numbers of every member are read back. -/
def PlainMembers : List (String × Json) → Prop
  | [] => True
  | (_, v) :: members => Plain v ∧ PlainMembers members

end

mutual

/-- The tokens of a value. -/
def tokens : Json → List Token
  | .array [] => [.openArray, .closeArray]
  | .array (item :: items) => .openArray :: (tokens item ++ moreItems items)
  | .object [] => [.openObject, .closeObject]
  | .object ((name, v) :: members) =>
    .openObject :: .scalar (.string name) :: .colon :: (tokens v ++ moreMembers members)
  | .null => [.scalar .null]
  | .bool b => [.scalar (.bool b)]
  | .int n => [.scalar (.int n)]
  | .float x => [.scalar (.float x)]
  | .string s => [.scalar (.string s)]
  | .unreadable => [.scalar .unreadable]

/-- The tokens of the items after the first, with the closing bracket. -/
def moreItems : List Json → List Token
  | [] => [.closeArray]
  | item :: items => .comma :: (tokens item ++ moreItems items)

/-- The tokens of the members after the first, with the closing brace. -/
def moreMembers : List (String × Json) → List Token
  | [] => [.closeObject]
  | (name, v) :: members => .comma :: .scalar (.string name) :: .colon :: (tokens v ++ moreMembers members)

end

theorem cut_newLine (level : Nat) {s : List Char} {ts : List Token} (cut : Cut s ts) : Cut (newLine level ++ s) ts := by
  refine .spaces (fun c mem => ?_) cut
  obtain rfl | blank := List.mem_cons.mp mem
  · rfl
  · rw [(List.mem_replicate.mp blank).2]
    rfl

/-- Numbers end in front of marks and of new lines. -/
theorem endsNumber_prettyItems (level : Nat) (items : List Json) : EndsNumber (prettyItems level items) := by
  cases items <;> rintro c ⟨⟩ <;> decide

theorem endsNumber_prettyMembers (level : Nat) (members : List (String × Json)) :
    EndsNumber (prettyMembers level members) := by
  cases members <;> rintro c ⟨⟩ <;> decide

theorem eq_scalar_of_readValue {bound : Nat} {ts rest : List Token} {x : Float}
    (read : readValue bound ts = some (.float x, rest)) : ts = .scalar (.float x) :: rest := by
  unfold readValue at read
  split at read
  · cases read
  · cases read
    rfl
  all_goals simp at read

theorem cut_float {x : Float} (same : parse? (pretty (.float x)) = some (.float x)) :
    Cut (printFloat x) [.scalar (.float x)] := by
  have text : (pretty (.float x)).toList = printFloat x := String.toList_ofList
  simp only [parse?, ofChars?, text, Option.bind_eq_bind, Option.bind_eq_some_iff] at same
  obtain ⟨ts, scanned, read⟩ := same
  have cut := cut_of_scanTokens scanned
  unfold ofTokens? at read
  split at read
  case h_1 v whole =>
    cases read
    rwa [eq_scalar_of_readValue whole] at cut
  case h_2 => cases read

theorem cut_member (level : Nat) (name : String) {s tail : List Char} {ts us : List Token} (cut : Cut s ts)
    (ends : EndsNumber tail) (more : Cut tail us) :
    Cut (newLine level ++ (quote name ++ ':' :: ' ' :: (s ++ tail)))
      (.scalar (.string name) :: .colon :: (ts ++ us)) := by
  have value : Cut (':' :: ' ' :: (s ++ tail)) (.colon :: (ts ++ us)) :=
    .token rfl (.space rfl (cut.append ends more))
  refine cut_newLine level ((cut_quote name).append ?_ value)
  rintro c ⟨⟩
  decide

mutual

theorem cut_prettyChars (level : Nat) : ∀ v : Json, v.Plain → Cut (prettyChars level v) (tokens v)
  | .null, _ => .token rfl .nil
  | .bool true, _ => .token rfl .nil
  | .bool false, _ => .token rfl .nil
  | .int _, fits => cut_int fits
  | .float _, same => cut_float same
  | .string s, _ => cut_quote s
  | .array [], _ => .token rfl (.token rfl .nil)
  | .array (item :: items), plain => by
    have first := cut_prettyChars (level + 1) item plain.1
    have more := cut_prettyItems level items plain.2
    have inside := first.append (endsNumber_prettyItems level items) more
    rw [prettyChars, tokens, List.cons_append, List.cons_append, List.append_assoc]
    exact .token rfl (cut_newLine _ inside)
  | .object [], _ => .token rfl (.token rfl .nil)
  | .object ((name, v) :: members), plain => by
    have members := cut_member (level + 1) name (cut_prettyChars (level + 1) v plain.1)
      (endsNumber_prettyMembers level members) (cut_prettyMembers level members plain.2)
    simp only [prettyChars, tokens, List.cons_append, List.append_assoc]
    exact .token rfl members

theorem cut_prettyItems (level : Nat) : ∀ items : List Json, PlainItems items →
    Cut (prettyItems level items) (moreItems items)
  | [], _ => cut_newLine level (.token rfl .nil)
  | item :: items, plain => by
    have first := cut_prettyChars (level + 1) item plain.1
    have more := cut_prettyItems level items plain.2
    have inside := first.append (endsNumber_prettyItems level items) more
    rw [prettyItems, moreItems, List.cons_append, List.cons_append, List.append_assoc]
    exact .token rfl (cut_newLine _ inside)

theorem cut_prettyMembers (level : Nat) : ∀ members : List (String × Json), PlainMembers members →
    Cut (prettyMembers level members) (moreMembers members)
  | [], _ => cut_newLine level (.token rfl .nil)
  | (name, v) :: members, plain => by
    have members := cut_member (level + 1) name (cut_prettyChars (level + 1) v plain.1)
      (endsNumber_prettyMembers level members) (cut_prettyMembers level members plain.2)
    simp only [prettyMembers, moreMembers, List.cons_append, List.append_assoc]
    exact .token rfl members

end

/-! ## Reading -/

/-- The tokens of the items of an array that has some, with the closing bracket. -/
def itemTokens : List Json → List Token
  | [] => []
  | item :: items => tokens item ++ moreItems items

/-- The tokens of the members of an object that has some, with the closing brace. -/
def memberTokens : List (String × Json) → List Token
  | [] => []
  | (name, v) :: members => .scalar (.string name) :: .colon :: (tokens v ++ moreMembers members)

/-- The items of an array do not start with its closing bracket. -/
theorem readValue_openArray (bound : Nat) (items : List Json) (nonempty : items ≠ []) (rest : List Token) :
    readValue (bound + 1) (.openArray :: (itemTokens items ++ rest)) =
      (readItems bound (itemTokens items ++ rest)).map fun (items, rest) => (.array items, rest) := by
  cases items with
  | nil => exact absurd rfl nonempty
  | cons v items =>
    cases v
    case array more => cases more <;> rfl
    case object more => cases more <;> rfl
    all_goals rfl

theorem moreItems_of_ne_nil {items : List Json} (nonempty : items ≠ []) :
    moreItems items = .comma :: itemTokens items := by
  cases items with
  | nil => exact absurd rfl nonempty
  | cons v items => rfl

theorem moreMembers_of_ne_nil {members : List (String × Json)} (nonempty : members ≠ []) :
    moreMembers members = .comma :: memberTokens members := by
  cases members with
  | nil => exact absurd rfl nonempty
  | cons v members => rfl

theorem length_moreItems_pos (items : List Json) : 0 < (moreItems items).length := by
  cases items <;> exact Nat.succ_pos _

mutual

/-- Every token is worth one step. -/
theorem readValue_tokens : ∀ (v : Json) {bound : Nat}, (tokens v).length ≤ bound → ∀ rest : List Token,
    readValue bound (tokens v ++ rest) = some (v, rest)
  | .array (item :: items), bound + 1, enough, rest => by
    have inside := readItems_tokens (item :: items) (List.cons_ne_nil _ _) (Nat.le_of_succ_le_succ enough) rest
    change readValue (bound + 1) (.openArray :: (itemTokens (item :: items) ++ rest)) = _
    rw [readValue_openArray _ _ (List.cons_ne_nil _ _), inside]
    rfl
  | .object ((name, v) :: members), bound + 1, enough, rest => by
    have inside := readMembers_tokens ((name, v) :: members) (List.cons_ne_nil _ _) (Nat.le_of_succ_le_succ enough) rest
    exact congrArg (Option.map fun (members, rest) => (Json.object members, rest)) inside
  | .array [], bound + 1, _, _ => rfl
  | .object [], bound + 1, _, _ => rfl
  | .null, bound + 1, _, _ => rfl
  | .bool _, bound + 1, _, _ => rfl
  | .int _, bound + 1, _, _ => rfl
  | .float _, bound + 1, _, _ => rfl
  | .string _, bound + 1, _, _ => rfl
  | .unreadable, bound + 1, _, _ => rfl

theorem readItems_tokens : ∀ (items : List Json), items ≠ [] → ∀ {bound : Nat}, (itemTokens items).length ≤ bound →
    ∀ rest : List Token, readItems bound (itemTokens items ++ rest) = some (items, rest)
  | item :: items, _, 0, enough, rest => by
    have := length_moreItems_pos items
    rw [itemTokens, List.length_append] at enough
    omega
  | item :: items, _, bound + 1, enough, rest => by
    have more := length_moreItems_pos items
    rw [itemTokens, List.length_append] at enough
    rw [itemTokens, List.append_assoc, readItems, readValue_tokens item (by omega)]
    cases items with
    | nil => rfl
    | cons next items =>
      rw [moreItems_of_ne_nil (List.cons_ne_nil _ _), List.length_cons] at enough
      have inside := @readItems_tokens (next :: items) (List.cons_ne_nil _ _) bound (by omega) rest
      rw [moreItems_of_ne_nil (List.cons_ne_nil _ _), List.cons_append]
      dsimp only
      rw [inside]
      rfl

theorem readMembers_tokens : ∀ (members : List (String × Json)), members ≠ [] → ∀ {bound : Nat},
    (memberTokens members).length ≤ bound →
    ∀ rest : List Token, readMembers bound (memberTokens members ++ rest) = some (members, rest)
  | (name, v) :: members, _, 0, enough, rest => by
    simp [memberTokens] at enough
  | (name, v) :: members, _, bound + 1, enough, rest => by
    rw [memberTokens, List.length_cons, List.length_cons, List.length_append] at enough
    rw [memberTokens, List.cons_append, List.cons_append, List.append_assoc, readMembers, readValue_tokens v (by omega)]
    cases members with
    | nil => rfl
    | cons next members =>
      rw [moreMembers_of_ne_nil (List.cons_ne_nil _ _), List.length_cons] at enough
      have inside := @readMembers_tokens (next :: members) (List.cons_ne_nil _ _) bound (by omega) rest
      rw [moreMembers_of_ne_nil (List.cons_ne_nil _ _), List.cons_append]
      dsimp only
      rw [inside]
      rfl

end

/-- A value whose numbers are read back is read back from its text. -/
theorem parse?_pretty {v : Json} (plain : v.Plain) : parse? (pretty v) = some v := by
  have cut := cut_prettyChars 0 v plain
  have read := @readValue_tokens v (2 * (tokens v).length + 1) (by omega) []
  rw [List.append_nil] at read
  simp only [parse?, ofChars?, pretty, String.toList_ofList, scanTokens_of_cut cut (Nat.le_refl _), ofTokens?, read,
    Option.bind_eq_bind, Option.bind_some]

end RenderFarm.Json
