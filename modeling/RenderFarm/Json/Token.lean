import RenderFarm.Json.Number

/-!
Tokens of JSON text. Strings hold their characters, with escapes resolved; a pair of escaped surrogates is
one character, and a surrogate without its partner leaves the string without a value.
-/

namespace RenderFarm.Json

/-- The smallest parts of JSON text; a scalar carries its value. -/
inductive Token where
  | openArray
  | closeArray
  | openObject
  | closeObject
  | comma
  | colon
  | scalar (v : Json)

/-- The value of a hexadecimal digit. -/
def hexValue? (c : Char) : Option Nat :=
  if c.isDigit then some (c.toNat - '0'.toNat)
  else if 'a' ≤ c ∧ c ≤ 'f' then some (c.toNat - 'a'.toNat + 10)
  else if 'A' ≤ c ∧ c ≤ 'F' then some (c.toNat - 'A'.toNat + 10)
  else none

/-- The code that four hexadecimal digits stand for. -/
def hexCode? (a b c d : Char) : Option Nat := do
  let a ← hexValue? a
  let b ← hexValue? b
  let c ← hexValue? c
  let d ← hexValue? d
  pure (((a * 16 + b) * 16 + c) * 16 + d)

/-- The character that a one-letter escape stands for. -/
def escapedChar? : Char → Option Char
  | '"' => some '"'
  | '\\' => some '\\'
  | '/' => some '/'
  | 'b' => some '\x08'
  | 'f' => some '\x0c'
  | 'n' => some '\n'
  | 'r' => some '\r'
  | 't' => some '\t'
  | _ => none

/-- Reads the codes of a string up to its closing quote, and the text after that. Control characters have to
be escaped. -/
def scanString : List Char → Option (List Nat × List Char)
  | [] => none
  | '"' :: s => some ([], s)
  | '\\' :: 'u' :: a :: b :: c :: d :: s => do
    let code ← hexCode? a b c d
    let (codes, rest) ← scanString s
    pure (code :: codes, rest)
  | '\\' :: e :: s => do
    let c ← escapedChar? e
    let (codes, rest) ← scanString s
    pure (c.toNat :: codes, rest)
  | c :: s =>
    if c = '\\' ∨ c.toNat < 0x20 then none
    else do
      let (codes, rest) ← scanString s
      pure (c.toNat :: codes, rest)

/-- Joins surrogate pairs into characters. -/
def joinSurrogates? : List Nat → Option (List Char)
  | [] => some []
  | [code] => if 0xD800 ≤ code ∧ code < 0xE000 then none else some [Char.ofNat code]
  | code :: next :: rest =>
    if 0xD800 ≤ code ∧ code < 0xDC00 then
      if 0xDC00 ≤ next ∧ next < 0xE000 then
        (joinSurrogates? rest).map
          (Char.ofNat (0x10000 + (code - 0xD800) * 0x400 + (next - 0xDC00)) :: ·)
      else none
    else if 0xDC00 ≤ code ∧ code < 0xE000 then none
    else (joinSurrogates? (next :: rest)).map (Char.ofNat code :: ·)

/-- The value of a string with these codes. -/
def stringOf (codes : List Nat) : Json :=
  match joinSurrogates? codes with
  | some cs => .string (String.ofList cs)
  | none => .unreadable

/-- Reads the digits before the point. A zero stands alone. -/
def scanWhole : List Char → Option (List Char × List Char)
  | [] => none
  | c :: s =>
    if c = '0' then some (['0'], s)
    else if c.isDigit then some ((c :: s).takeWhile Char.isDigit, (c :: s).dropWhile Char.isDigit)
    else none

/-- Reads a point with the digits after it, when there is one. -/
def scanFraction : List Char → Option (Option (List Char) × List Char)
  | [] => some (none, [])
  | c :: s =>
    if c = '.' then
      let digits := s.takeWhile Char.isDigit
      if digits.isEmpty then none else some (some digits, s.dropWhile Char.isDigit)
    else some (none, c :: s)

/-- Reads the sign of an exponent, and whether it is a minus. -/
def scanSign : List Char → Bool × List Char
  | [] => (false, [])
  | c :: s => if c = '-' then (true, s) else if c = '+' then (false, s) else (false, c :: s)

/-- Reads an exponent mark with its sign and digits, when there is one. -/
def scanExponent : List Char → Option (Option (Bool × List Char) × List Char)
  | [] => some (none, [])
  | c :: s =>
    if c = 'e' ∨ c = 'E' then
      let (down, s) := scanSign s
      let digits := s.takeWhile Char.isDigit
      if digits.isEmpty then none else some (some (down, digits), s.dropWhile Char.isDigit)
    else some (none, c :: s)

/-- Reads an unsigned number and gives its value under the sign. -/
def scanNumber (negative : Bool) (s : List Char) : Option (Json × List Char) := do
  let (whole, s) ← scanWhole s
  let (fraction, s) ← scanFraction s
  let (exponent, s) ← scanExponent s
  pure (numberOf negative whole fraction exponent, s)

/-- Reads one token from a text that does not start with a blank. -/
def scanToken : List Char → Option (Token × List Char)
  | '[' :: s => some (.openArray, s)
  | ']' :: s => some (.closeArray, s)
  | '{' :: s => some (.openObject, s)
  | '}' :: s => some (.closeObject, s)
  | ',' :: s => some (.comma, s)
  | ':' :: s => some (.colon, s)
  | '"' :: s => (scanString s).map fun (codes, rest) => (.scalar (stringOf codes), rest)
  | 'n' :: 'u' :: 'l' :: 'l' :: s => some (.scalar .null, s)
  | 't' :: 'r' :: 'u' :: 'e' :: s => some (.scalar (.bool true), s)
  | 'f' :: 'a' :: 'l' :: 's' :: 'e' :: s => some (.scalar (.bool false), s)
  | '-' :: s => (scanNumber true s).map fun (v, rest) => (.scalar v, rest)
  | s => (scanNumber false s).map fun (v, rest) => (.scalar v, rest)

/-- Blanks between tokens. -/
def isSpace (c : Char) : Bool :=
  c == ' ' || c == '\n' || c == '\t' || c == '\r'

/-- Cuts a text into tokens. A token takes at least one character, so a bound of the text's length is
never reached. -/
def scanTokens : Nat → List Char → Option (List Token)
  | 0, s => if (s.dropWhile isSpace).isEmpty then some [] else none
  | bound + 1, s =>
    match s.dropWhile isSpace with
    | [] => some []
    | c :: s => do
      let (t, rest) ← scanToken (c :: s)
      let ts ← scanTokens bound rest
      pure (t :: ts)

end RenderFarm.Json
