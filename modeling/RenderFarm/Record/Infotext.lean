import RenderFarm.Number.Reading
import RenderFarm.Text.Digit
import RenderFarm.Text.Search

/-!
The text that a backend attaches to an image. Its fields are found by their labels, wherever they stand; the
first place where a label is followed by something that fits counts.
-/

namespace RenderFarm.Infotext

/-- The digits of a number with its sign, when the text after a label starts with one. -/
def seedText? (s : List Char) : Option (List Char) :=
  let s := s.dropWhile Chars.isBlank
  let (sign, digits) :=
    match s with
    | '-' :: rest => (['-'], rest)
    | rest => ([], rest)
  let digits := digits.takeWhile Chars.isDecimalDigit
  if digits.isEmpty then none else some (sign ++ digits)

/-- The text of a name up to a comma or the end of the line, when there is any after a label. Blanks alone
also count as a name, unless they are line feeds only. -/
def modelText? (s : List Char) : Option (List Char) :=
  let blanks := s.takeWhile Chars.isBlank
  match s.dropWhile Chars.isBlank with
  | c :: rest =>
    if c ≠ ',' then some ((c :: rest).takeWhile fun c => c != ',' && c != '\n')
    else if blanks.any (· != '\n') then some [] else none
  | [] => if blanks.any (· != '\n') then some [] else none

/-- The first text that fits after a label. -/
def firstField? (label : List Char) (fit? : List Char → Option (List Char)) :
    List Char → Option (List Char)
  | [] => none
  | c :: s =>
    match (Chars.stripPrefix? label (c :: s)).bind fit? with
    | some found => some found
    | none => firstField? label fit? s

/-- The seed, when there is one that fits in 64 bits. -/
def seed? (s : String) : Option Int64 :=
  (firstField? "Seed:".toList seedText? s.toList).bind fun text =>
    ((Chars.readInt (twoTo 63 - 1) text).toOption).map Int64.ofInt

/-- The checkpoint name, when it is not blank. -/
def model? (s : String) : Option String :=
  (firstField? "Model:".toList modelText? s.toList).bind fun text =>
    let name := Chars.trim text
    if name.isEmpty then none else some (String.ofList name)

end RenderFarm.Infotext
