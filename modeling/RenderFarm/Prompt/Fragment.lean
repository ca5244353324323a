import RenderFarm.Text.Search

/-!
Prompt fragments: how sampled tokens are joined into one prompt and how the punctuation that sampling
leaves behind is tidied up.
-/

namespace RenderFarm.Prompt

/-- Fragments that attach to what precedes them without a delimiter. -/
def attaches : List Char → Bool
  | ',' :: _ => true
  | ';' :: _ => true
  | _ => false

/-- Adds one fragment to the text joined so far. An empty fragment adds nothing. -/
def appendFragment (delimiter out fragment : List Char) : List Char :=
  if fragment.isEmpty then out
  else if out.isEmpty || attaches fragment then out ++ fragment
  else out ++ delimiter ++ fragment

/-- Joins fragments with a delimiter. -/
def joinChars (fragments : List (List Char)) (delimiter : List Char) : List Char :=
  fragments.foldl (appendFragment delimiter) []

/-- Removes doubled commas, a dangling "and", and commas and blanks at either end. -/
def cleanChars (s : List Char) : List Char :=
  let s := Chars.replace [',', ','] [','] s
  let s := Chars.replace [',', ' ', ','] [','] s
  let s := Chars.replace " and,".toList [','] s
  let s := Chars.replace " by and ".toList " by ".toList s
  Chars.trim (Chars.trimBy (· == ',') (Chars.trim s))

/-- Joins fragments with a delimiter. A fragment that starts with a comma or a semicolon attaches
directly; empty fragments are skipped. -/
def join (fragments : List String) (delimiter : String) : String :=
  String.ofList (joinChars (fragments.map String.toList) delimiter.toList)

/-- Removes doubled commas, a dangling "and", and commas and blanks at either end. -/
def clean (s : String) : String :=
  String.ofList (cleanChars s.toList)

end RenderFarm.Prompt
