import RenderFarm.Json.Token

/-!
JSON text read into a value. A text holds exactly one value; there is no comma before a closing bracket,
and names are strings.
-/

namespace RenderFarm.Json

mutual

/-- Reads one value from tokens. The bound is on the number of steps. -/
def readValue : Nat → List Token → Option (Json × List Token)
  | 0, _ => none
  | _ + 1, .scalar v :: ts => some (v, ts)
  | _ + 1, .openArray :: .closeArray :: ts => some (.array [], ts)
  | bound + 1, .openArray :: ts =>
    (readItems bound ts).map fun (items, rest) => (.array items, rest)
  | _ + 1, .openObject :: .closeObject :: ts => some (.object [], ts)
  | bound + 1, .openObject :: ts =>
    (readMembers bound ts).map fun (members, rest) => (.object members, rest)
  | _ + 1, _ => none

/-- Reads items up to the closing bracket. -/
def readItems : Nat → List Token → Option (List Json × List Token)
  | 0, _ => none
  | bound + 1, ts =>
    match readValue bound ts with
    | some (v, .closeArray :: rest) => some ([v], rest)
    | some (v, .comma :: rest) =>
      (readItems bound rest).map fun (items, rest) => (v :: items, rest)
    | _ => none

/-- Reads members up to the closing brace. -/
def readMembers : Nat → List Token → Option (List (String × Json) × List Token)
  | 0, _ => none
  | bound + 1, .scalar (.string name) :: .colon :: ts =>
    match readValue bound ts with
    | some (v, .closeObject :: rest) => some ([(name, v)], rest)
    | some (v, .comma :: rest) =>
      (readMembers bound rest).map fun (members, rest) => ((name, v) :: members, rest)
    | _ => none
  | _ + 1, _ => none

end

/-- Reads tokens that hold exactly one value. Every step takes a token, or one for two, so twice their
number bounds the steps. -/
def ofTokens? (ts : List Token) : Option Json :=
  match readValue (2 * ts.length + 1) ts with
  | some (v, []) => some v
  | _ => none

/-- Reads a text that holds exactly one value. -/
def ofChars? (s : List Char) : Option Json := do
  ofTokens? (← scanTokens s.length s)

/-- Reads a text that holds exactly one value. -/
def parse? (s : String) : Option Json :=
  ofChars? s.toList

end RenderFarm.Json
