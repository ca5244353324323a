import RenderFarm.Text.Search

/-!
Lines and comments of plain-text files. A line ends at a line feed, with one carriage return before it
dropped; a comment runs from the first `#` to the end of its line.
-/

namespace RenderFarm

namespace Chars

/-- The lines of a text. A line feed ends a line and takes one carriage return before it along; text
after the last line feed is a line of its own unless it is empty. -/
def lines : List Char → List (List Char)
  | [] => []
  | '\n' :: s => [] :: lines s
  | '\r' :: '\n' :: s => [] :: lines s
  | c :: s =>
    match lines s with
    | [] => [[c]]
    | line :: rest => (c :: line) :: rest

/-- The text before the first `#`, trimmed. -/
def stripComment (line : List Char) : List Char :=
  trim (line.takeWhile (· ≠ '#'))

/-- The lines that hold something besides blanks and a comment, stripped of both. -/
def contentLines (s : List Char) : List (List Char) :=
  ((lines s).map stripComment).filter fun line => !line.isEmpty

end Chars

namespace Text

/-- The lines of a text, without their ends. -/
def lines (s : String) : List String :=
  (Chars.lines s.toList).map String.ofList

/-- The text before the first `#`, trimmed. -/
def stripComment (line : String) : String :=
  String.ofList (Chars.stripComment line.toList)

/-- The lines that hold something besides blanks and a comment, stripped of both. -/
def contentLines (s : String) : List String :=
  (Chars.contentLines s.toList).map String.ofList

end Text

end RenderFarm
