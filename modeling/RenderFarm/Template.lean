import RenderFarm.FileSystem
import RenderFarm.StorageError
import RenderFarm.Text.Digit
import RenderFarm.Text.Line
import RenderFarm.Number.Reading

/-!
Prompt templates. A template file has a `[config]` block of directive lines and any number of `[prompts]`
blocks of tokens; a header may give how many tokens are picked from its block and how they are joined.
Lines that belong nowhere are reported as warnings.
-/

namespace RenderFarm

/-- A block of tokens, of which between `minPick` and `maxPick` are picked and joined by the delimiter. -/
structure Section where
  tokens : List String
  minPick : Nat
  maxPick : Nat
  delimiter : String
  minPick_le_maxPick : minPick ≤ maxPick := by omega
deriving DecidableEq, Repr

/-- A parsed template. Directive lines and sections are in the order of the file. -/
structure Template where
  path : Option Path := none
  config : List String := []
  sections : List Section := []
  warnings : List String := []
deriving DecidableEq, Repr

namespace Section

/-- The delimiter of a section whose header names none. -/
def defaultDelimiter : String := " "

/-- A section without tokens. Reversed bounds are exchanged. -/
def empty (a b : Nat) (delimiter : String) : Section :=
  { tokens := [], minPick := min a b, maxPick := max a b, delimiter }

/-- Whether the number of picks leaves nothing to chance. -/
def isFixedPick (s : Section) : Bool :=
  s.minPick == s.maxPick

/-- The section with one more token. -/
def addToken (s : Section) (token : String) : Section :=
  { s with tokens := s.tokens ++ [token] }

end Section

namespace Template

/-- Drops a word, with letter case ignored; the long s counts as an s. -/
def dropWord? : List Char → List Char → Option (List Char)
  | [], s => some s
  | _ :: _, [] => none
  | w :: word, c :: s =>
    if c.toLower = w ∨ (w = 's' ∧ c = 'ſ') then dropWord? word s else none

/-- The number that a run of decimal digits stands for, when they are ASCII digits and it fits in 64 bits. -/
def countOf (digits : List Char) : Option Nat :=
  if digits.all Char.isDigit ∧ Chars.digitsValue digits < twoTo 64 then some (Chars.digitsValue digits)
  else none

/-- The end of a header: a delimiter in quotes after a blank, if any, and the closing bracket. -/
def headerEnd? (s : List Char) : Option (Option (List Char)) :=
  let rest := s.dropWhile Chars.isBlank
  match rest with
  | [']'] => some none
  | '"' :: quoted =>
    if rest.length = s.length then none
    else
      match (quoted.dropWhile (· ≠ '"')) with
      | '"' :: tail =>
        if tail.dropWhile Chars.isBlank = [']'] then some (some (quoted.takeWhile (· ≠ '"'))) else none
      | _ => none
  | _ => none

/-- The pick counts of a header, as far as they are written, and the text after them. A count follows a
blank; the second one follows a dash. -/
def headerCounts (s : List Char) : Option (List Char) × Option (List Char) × List Char :=
  let rest := s.dropWhile Chars.isBlank
  let low := rest.takeWhile Chars.isDecimalDigit
  if low.isEmpty || rest.length = s.length then (none, none, s)
  else
    let afterLow := rest.dropWhile Chars.isDecimalDigit
    match afterLow.dropWhile Chars.isBlank with
    | '-' :: tail =>
      let tail := tail.dropWhile Chars.isBlank
      let high := tail.takeWhile Chars.isDecimalDigit
      if high.isEmpty then (some low, none, afterLow)
      else (some low, some high, tail.dropWhile Chars.isDecimalDigit)
    | _ => (some low, none, afterLow)

/-- Reads a `[prompts]` header. A count that is missing or unreadable is one, and the upper bound then
equals the lower one. -/
def sectionOfHeader? (line : List Char) : Option Section := do
  let s ← dropWord? "[prompts".toList line
  let (low, high, rest) := headerCounts s
  let delimiter ← headerEnd? rest
  let low := (low.bind countOf).getD 1
  let high := (high.bind countOf).getD low
  pure (Section.empty low high ((delimiter.map String.ofList).getD Section.defaultDelimiter))

/-- The block that a line belongs to. -/
inductive Block where
  | outside
  | config
  | prompts
  | ignored
deriving DecidableEq, Repr

/-- Adds a token to the last of some sections. -/
def addToLast (token : String) : List Section → List Section
  | [] => []
  | [s] => [s.addToken token]
  | s :: t :: rest => s :: addToLast token (t :: rest)

/-- Whether a line is written like a header. -/
def isHeader (line : List Char) : Bool :=
  line.head? == some '[' && line.getLast? == some ']'

/-- Takes in one content line. -/
def addLine (t : Template) (block : Block) (line : String) : Template × Block :=
  if isHeader line.toList then
    if Text.eqIgnoringCase line "[config]" then (t, .config)
    else
      match sectionOfHeader? line.toList with
      | some s => ({ t with sections := t.sections ++ [s] }, .prompts)
      | none =>
        ({ t with
            warnings := t.warnings ++
              ["unrecognized section header " ++ line ++ "; its lines are ignored"] },
          .ignored)
  else
    match block with
    | .config => ({ t with config := t.config ++ [line] }, block)
    | .prompts => ({ t with sections := addToLast line t.sections }, block)
    | .outside =>
      ({ t with warnings := t.warnings ++ ["line outside any section ignored: " ++ line] }, block)
    | .ignored => (t, block)

/-- Reads a template from text. -/
def parse (contents : String) : Template :=
  ((Text.contentLines contents).foldl (fun (t, block) line => addLine t block line) ({}, .outside)).1

/-- Reads a template from a file. -/
def load (fs : FileSystem) (path : Path) : Except StorageError Template :=
  (fs.loadText path).map fun contents => { parse contents with path := some path }

end Template

end RenderFarm
