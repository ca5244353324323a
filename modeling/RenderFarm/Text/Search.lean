import RenderFarm.Text.Blank

/-!
Searching and cutting: the first occurrence of a pattern, replacement of every occurrence from left to
right, and splitting at a separator. Patterns are compared character by character, so no cut can fall
inside a character.
-/

namespace RenderFarm

namespace Chars

/-- The text after `pat`, when the text starts with it. -/
def stripPrefix? : List Char → List Char → Option (List Char)
  | [], s => some s
  | _ :: _, [] => none
  | p :: pat, c :: s => if p = c then stripPrefix? pat s else none

/-- The text before and after the first occurrence of `pat`. -/
def cut? (pat : List Char) : List Char → Option (List Char × List Char)
  | [] => (stripPrefix? pat []).map fun rest => ([], rest)
  | c :: s =>
    match stripPrefix? pat (c :: s) with
    | some rest => some ([], rest)
    | none => (cut? pat s).map fun (before, rest) => (c :: before, rest)

/-- The text before and after the last occurrence of `pat`. -/
def cutLast? (pat : List Char) : List Char → Option (List Char × List Char)
  | [] => (stripPrefix? pat []).map fun rest => ([], rest)
  | c :: s =>
    match cutLast? pat s with
    | some (before, rest) => some (c :: before, rest)
    | none => (stripPrefix? pat (c :: s)).map fun rest => ([], rest)

/-- Whether `pat` occurs as a contiguous part. -/
def contains (pat : List Char) : List Char → Bool
  | [] => pat.isEmpty
  | c :: s => pat.isPrefixOf (c :: s) || contains pat s

/-- Replaces every occurrence of a non-empty pattern, from left to right and without overlap; `skip`
counts the characters of an occurrence that are still to be passed over. -/
def replaceFrom (pat rep : List Char) : Nat → List Char → List Char
  | _, [] => []
  | skip + 1, _ :: s => replaceFrom pat rep skip s
  | 0, c :: s =>
    if pat.isPrefixOf (c :: s) then rep ++ replaceFrom pat rep (pat.length - 1) s
    else c :: replaceFrom pat rep 0 s

/-- Replaces every occurrence of a non-empty pattern, from left to right and without overlap. -/
def replace (pat rep s : List Char) : List Char :=
  replaceFrom pat rep 0 s

/-- The parts between separators; there is always at least one. -/
def splitOn (sep : Char) : List Char → List (List Char)
  | [] => [[]]
  | c :: s =>
    if c = sep then [] :: splitOn sep s
    else
      match splitOn sep s with
      | [] => [[c]]
      | part :: parts => (c :: part) :: parts

/-- The maximal runs of characters outside the class, empty runs left out. -/
def words (p : Char → Bool) : List Char → List (List Char)
  | [] => []
  | c :: s =>
    if p c then words p s
    else
      match s with
      | [] => [[c]]
      | d :: _ =>
        if p d then [c] :: words p s
        else
          match words p s with
          | [] => [[c]]
          | word :: rest => (c :: word) :: rest

/-- The parts between separators, trimmed, with empty ones left out. -/
def listItems (sep : Char) (s : List Char) : List (List Char) :=
  ((splitOn sep s).map trim).filter fun item => !item.isEmpty

end Chars

namespace Text

/-- The text before and after the first occurrence of `pat`. -/
def cut? (pat : String) (s : String) : Option (String × String) :=
  (Chars.cut? pat.toList s.toList).map fun (a, b) => (String.ofList a, String.ofList b)

/-- Whether `pat` occurs as a contiguous part of `s`. -/
def contains (s pat : String) : Bool :=
  Chars.contains pat.toList s.toList

/-- Replaces every occurrence of a non-empty pattern, from left to right and without overlap. -/
def replace (pat rep s : String) : String :=
  String.ofList (Chars.replace pat.toList rep.toList s.toList)

/-- The parts between separators, trimmed, with empty ones left out. -/
def listItems (sep : Char) (s : String) : List String :=
  (Chars.listItems sep s.toList).map String.ofList

/-- Whether `s` starts with `pat`. -/
def startsWith (s pat : String) : Bool :=
  pat.toList.isPrefixOf s.toList

/-- Whether `s` ends with `pat`. -/
def endsWith (s pat : String) : Bool :=
  pat.toList.isSuffixOf s.toList

end Text

end RenderFarm
