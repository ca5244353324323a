import RenderFarm.Json.Value
import RenderFarm.Number.Layout

/-!
JSON text of a value: compact, or on lines of their own with two blanks for every level.
-/

namespace RenderFarm.Json

/-- The lower-case hexadecimal digit of a number below sixteen. -/
def hexDigit (n : Nat) : Char :=
  if n < 10 then Char.ofNat ('0'.toNat + n) else Char.ofNat ('a'.toNat + (n - 10))

/-- How a character stands in a string. Quotes, backslashes and control characters are escaped. -/
def escapeChar (c : Char) : List Char :=
  if c = '"' then ['\\', '"']
  else if c = '\\' then ['\\', '\\']
  else if c = '\x08' then ['\\', 'b']
  else if c = '\x0c' then ['\\', 'f']
  else if c = '\n' then ['\\', 'n']
  else if c = '\r' then ['\\', 'r']
  else if c = '\t' then ['\\', 't']
  else if c.toNat < 0x20 then
    ['\\', 'u', '0', '0', hexDigit (c.toNat / 16), hexDigit (c.toNat % 16)]
  else [c]

/-- A string in quotes. -/
def quote (s : String) : List Char :=
  '"' :: s.toList.flatMap escapeChar ++ ['"']

/-- A double; one that is not finite has no number in JSON. -/
def printFloat (x : Float) : List Char :=
  if x.isFinite then (NumberLayout.record.write x).toList else "null".toList

/-- A scalar; arrays and objects are not scalars. -/
def printScalar : Json → List Char
  | .null => "null".toList
  | .bool true => "true".toList
  | .bool false => "false".toList
  | .int n => (toString n).toList
  | .float x => printFloat x
  | .string s => quote s
  | _ => "null".toList

/-- The start of a line at a level. -/
def newLine (level : Nat) : List Char :=
  '\n' :: List.replicate (2 * level) ' '

mutual

/-- A value without any blanks. -/
def compactChars : Json → List Char
  | .array [] => ['[', ']']
  | .array (item :: items) => '[' :: compactChars item ++ compactItems items
  | .object [] => ['{', '}']
  | .object ((name, v) :: members) =>
    '{' :: quote name ++ ':' :: compactChars v ++ compactMembers members
  | .null => printScalar .null
  | .bool b => printScalar (.bool b)
  | .int n => printScalar (.int n)
  | .float x => printScalar (.float x)
  | .string s => printScalar (.string s)
  | .unreadable => printScalar .null

/-- The items after the first, with the closing bracket. -/
def compactItems : List Json → List Char
  | [] => [']']
  | item :: items => ',' :: compactChars item ++ compactItems items

/-- The members after the first, with the closing brace. -/
def compactMembers : List (String × Json) → List Char
  | [] => ['}']
  | (name, v) :: members => ',' :: quote name ++ ':' :: compactChars v ++ compactMembers members

end

mutual

/-- A value on lines of their own, its closing bracket at the given level. -/
def prettyChars (level : Nat) : Json → List Char
  | .array [] => ['[', ']']
  | .array (item :: items) =>
    '[' :: newLine (level + 1) ++ prettyChars (level + 1) item ++ prettyItems level items
  | .object [] => ['{', '}']
  | .object ((name, v) :: members) =>
    '{' :: newLine (level + 1) ++ quote name ++ ':' :: ' ' :: prettyChars (level + 1) v ++
      prettyMembers level members
  | .null => printScalar .null
  | .bool b => printScalar (.bool b)
  | .int n => printScalar (.int n)
  | .float x => printScalar (.float x)
  | .string s => printScalar (.string s)
  | .unreadable => printScalar .null

/-- The items after the first, with the closing bracket. -/
def prettyItems (level : Nat) : List Json → List Char
  | [] => newLine level ++ [']']
  | item :: items =>
    ',' :: newLine (level + 1) ++ prettyChars (level + 1) item ++ prettyItems level items

/-- The members after the first, with the closing brace. -/
def prettyMembers (level : Nat) : List (String × Json) → List Char
  | [] => newLine level ++ ['}']
  | (name, v) :: members =>
    ',' :: newLine (level + 1) ++ quote name ++ ':' :: ' ' :: prettyChars (level + 1) v ++
      prettyMembers level members

end

/-- The text of a value without any blanks. -/
def compact (v : Json) : String :=
  String.ofList (compactChars v)

/-- The text of a value on lines of their own. -/
def pretty (v : Json) : String :=
  String.ofList (prettyChars 0 v)

end RenderFarm.Json
