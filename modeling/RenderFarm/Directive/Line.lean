import RenderFarm.Text.Case

/-!
Directive lines `KEY = VALUE`. A name is an ASCII letter followed by letters, digits and underscores; blanks
may stand around it; a `!` in front marks the directives that count inside prompt sections.
-/

namespace RenderFarm

/-- A directive as it is written: the name in upper case, the trimmed value, and whether a `!` stood in
front. -/
structure Directive where
  key : String
  value : String
  marked : Bool
deriving DecidableEq, Repr

namespace Directive

/-- Characters of a name after its first letter. -/
def isNameChar (c : Char) : Bool :=
  c.isAlphanum || c == '_'

/-- Reads an unmarked directive from trimmed text. The value ends with its line, so a text that goes on
after a line feed is none. -/
def readPlain? (marked : Bool) (s : List Char) : Option Directive :=
  let name := s.takeWhile isNameChar
  match name with
  | [] => none
  | c :: _ =>
    if c.isAlpha then
      match (s.dropWhile isNameChar).dropWhile Chars.isBlank with
      | '=' :: value =>
        if value.contains '\n' then none
        else
          some
            { key := Text.upperAscii (String.ofList name)
              value := String.ofList (Chars.trim value), marked }
      | _ => none
    else none

/-- Reads a directive; the mark may be there or not. -/
def parse? (line : String) : Option Directive :=
  match Chars.trim line.toList with
  | '!' :: s => readPlain? true (s.dropWhile Chars.isBlank)
  | s => readPlain? false s

/-- Reads a directive inside a prompt section, where it has to be marked. -/
def parseEmbedded? (token : String) : Option Directive :=
  (parse? token).filter (·.marked)

end Directive

end RenderFarm
