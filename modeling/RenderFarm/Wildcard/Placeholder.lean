import RenderFarm.Text.Case
import RenderFarm.Job.Stage

/-!
Placeholders in text: `__name__` stands for a wildcard, and a few reserved ones stand for the descriptive
fields of a job. A name starts with a letter or a digit, goes on with letters, digits, underscores and
dashes, and ends at the first two underscores that follow.
-/

namespace RenderFarm.Wildcard

/-- A text cut at its placeholders. -/
inductive Piece where
  | char (c : Char)
  /-- A placeholder, by its name as written. -/
  | reference (name : List Char)
deriving DecidableEq, Repr

/-- Characters of a name after its first. -/
def isNameChar (c : Char) : Bool :=
  c.isAlphanum || c == '_' || c == '-'

/-- The rest of a name up to the first two underscores. -/
def nameEnd? : List Char → Option (List Char)
  | '_' :: '_' :: _ => some []
  | c :: s => if isNameChar c then (nameEnd? s).map (c :: ·) else none
  | [] => none

/-- The name of a placeholder that the text starts with. -/
def nameAt? : List Char → Option (List Char)
  | '_' :: '_' :: c :: s => if c.isAlphanum then (nameEnd? s).map (c :: ·) else none
  | _ => none

/-- Cuts a text at its placeholders, from left to right; `skip` counts the characters of a placeholder that
are still to be passed over. -/
def piecesFrom : Nat → List Char → List Piece
  | _, [] => []
  | skip + 1, _ :: s => piecesFrom skip s
  | 0, c :: s =>
    match nameAt? (c :: s) with
    | some name => .reference name :: piecesFrom (name.length + 3) s
    | none => .char c :: piecesFrom 0 s

/-- Cuts a text at its placeholders. -/
def pieces (s : List Char) : List Piece :=
  piecesFrom 0 s

/-- The text of a piece. -/
def Piece.chars : Piece → List Char
  | .char c => [c]
  | .reference name => '_' :: '_' :: name ++ ['_', '_']

/-- The name in a token that is, blanks aside, exactly one placeholder. -/
def wholeReference? (token : String) : Option String :=
  match pieces (Chars.trim token.toList) with
  | [.reference name] => some (String.ofList (Chars.lower name))
  | _ => none

/-- Whether a character stands for one of a reserved placeholder: letter case is ignored, and the long s
and the Kelvin sign count as the letters that they are forms of. -/
def matchesReserved (want got : Char) : Bool :=
  got.toLower == want || (want == 's' && got == 'ſ') || (want == 'k' && got == '\u212A')

/-- Whether a text starts with a reserved placeholder. -/
def startsReserved : List Char → List Char → Bool
  | [], _ => true
  | _ :: _, [] => false
  | w :: word, c :: s => matchesReserved w c && startsReserved word s

/-- Replaces a reserved placeholder from left to right; `skip` counts the characters of an occurrence that
are still to be passed over. -/
def fillFrom (word rep : List Char) : Nat → List Char → List Char
  | _, [] => []
  | skip + 1, _ :: s => fillFrom word rep skip s
  | 0, c :: s =>
    if startsReserved word (c :: s) then rep ++ fillFrom word rep (word.length - 1) s
    else c :: fillFrom word rep 0 s

/-- Replaces the reserved placeholders by the descriptive fields, one after the other, so that a field may
bring in placeholders of those after it. -/
def fillReserved (iptc : Iptc) (s : String) : String :=
  if Text.contains s "__!" then
    let cs := fillFrom "__!iptc_title__".toList iptc.title.toList 0 s.toList
    let cs := fillFrom "__!iptc_description__".toList iptc.description.toList 0 cs
    let cs := fillFrom "__!iptc_keywords__".toList iptc.keywords.toList 0 cs
    String.ofList cs
  else s

end RenderFarm.Wildcard
