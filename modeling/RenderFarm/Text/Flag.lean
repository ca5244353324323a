import RenderFarm.Text.Case

/-!
Small values written as text: yes-or-no flags and texts in double quotes.
-/

namespace RenderFarm.Text

/-- Reads a flag, with the case of ASCII letters ignored. -/
def parseFlag? (s : String) : Option Bool :=
  let word := lowerAscii (trim s)
  if word = "yes" ∨ word = "true" ∨ word = "on" then some true
  else if word = "no" ∨ word = "false" ∨ word = "off" then some false
  else none

/-- The text between one pair of surrounding double quotes. A lone quote is no pair. -/
def unquote? (s : String) : Option String :=
  match Chars.trim s.toList with
  | '"' :: rest =>
    match rest.reverse with
    | '"' :: inner => some (String.ofList inner.reverse)
    | _ => none
  | _ => none

end RenderFarm.Text
