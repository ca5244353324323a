import RenderFarm.Text.Search

/-!
Slugs: text in a form that is safe in file names. Only ASCII is kept, in lower case; everything but letters,
digits, underscores, dashes and blanks is dropped, and runs of dashes and blanks become one dash.
-/

namespace RenderFarm.Naming

/-- The greatest length of a file stem. -/
def maxLength : Nat := 180

/-- Characters that a slug may keep before its blanks are replaced. -/
def isSlugChar (c : Char) : Bool :=
  c.isAlphanum || c == '_' || c == '-' || Chars.isBlank c

/-- Dashes and blanks. -/
def isGap (c : Char) : Bool :=
  c == '-' || Chars.isBlank c

/-- Turns every run of dashes and blanks into one dash. -/
def joinGaps : List Char → List Char
  | [] => []
  | c :: s =>
    if isGap c then
      match s with
      | [] => ['-']
      | d :: _ => if isGap d then joinGaps s else '-' :: joinGaps s
    else c :: joinGaps s

/-- Dashes and underscores, which are dropped at both ends. -/
def isEdge (c : Char) : Bool :=
  c == '-' || c == '_'

/-- The slug of a text. -/
def slugChars (s : List Char) : List Char :=
  let ascii := (s.filter (·.toNat < 0x80)).map Char.toLower
  (Chars.trimBy isEdge (joinGaps (ascii.filter isSlugChar))).take maxLength

/-- The slug of a text. -/
def slug (s : String) : String :=
  String.ofList (slugChars s.toList)

end RenderFarm.Naming
