import RenderFarm.Text.CaseTable
import RenderFarm.Text.Search

/-!
Letter case. Keys and fixed words are compared with the case of ASCII letters ignored; names that users
and backends choose are lowered with the full mapping of the Unicode standard, where a capital sigma
turns into the final form at the end of a word and the dotted capital I into two characters.
-/

namespace RenderFarm

namespace Chars

/-- Lowers ASCII letters only. -/
def lowerAscii (s : List Char) : List Char :=
  s.map Char.toLower

/-- Equality up to the case of ASCII letters. -/
def eqIgnoringCase (a b : List Char) : Bool :=
  lowerAscii a == lowerAscii b

/-- Whether a code point lies in one of the ranges. -/
def inRanges (ranges : List (Nat × Nat)) (c : Char) : Bool :=
  ranges.any fun (lo, hi) => lo ≤ c.toNat && c.toNat ≤ hi

/-- The lower-case form of a character outside any context. -/
def lowerChar (c : Char) : List Char :=
  if c.toNat < 0x80 then [c.toLower]
  else if c.toNat = 0x130 then ['i', '\u0307']
  else
    match capitalRuns.find? (·.holds c.toNat) with
    | some run => [Char.ofNat (Int.toNat (c.toNat + run.shift))]
    | none => [c]

/-- Whether the first character that is not case-ignorable is a cased letter. -/
def casedAfterIgnorable (s : List Char) : Bool :=
  match s.dropWhile (inRanges caseIgnorableRanges) with
  | [] => false
  | c :: _ => inRanges casedRanges c

/-- Lower-cases the rest of a text; `before` is what precedes it, nearest character first. -/
def lowerAfter (before : List Char) : List Char → List Char
  | [] => []
  | c :: s =>
    let lowered :=
      if c = 'Σ' then
        if casedAfterIgnorable before && !casedAfterIgnorable s then ['ς'] else ['σ']
      else lowerChar c
    lowered ++ lowerAfter (c :: before) s

/-- Lower-cases a text by the full mapping. -/
def lower (s : List Char) : List Char :=
  if s.all (·.toNat < 0x80) then lowerAscii s else lowerAfter [] s

/-- The first occurrence of `pat`, with the case of ASCII letters ignored: the text before it, the
occurrence itself and the text after it. -/
def cutIgnoringCase? (pat : List Char) : List Char → Option (List Char × List Char × List Char)
  | [] => none
  | c :: s =>
    if (lowerAscii pat).isPrefixOf (lowerAscii (c :: s)) then
      some ([], (c :: s).take pat.length, (c :: s).drop pat.length)
    else (cutIgnoringCase? pat s).map fun (before, hit, rest) => (c :: before, hit, rest)

end Chars

namespace Text

/-- Lowers ASCII letters only. -/
def lowerAscii (s : String) : String :=
  String.ofList (Chars.lowerAscii s.toList)

/-- Raises ASCII letters only. -/
def upperAscii (s : String) : String :=
  String.ofList (s.toList.map Char.toUpper)

/-- Equality up to the case of ASCII letters. -/
def eqIgnoringCase (a b : String) : Bool :=
  Chars.eqIgnoringCase a.toList b.toList

/-- Lower-cases a text by the full mapping. -/
def lower (s : String) : String :=
  String.ofList (Chars.lower s.toList)

end Text

end RenderFarm
