/-!
Blank characters and trimming. The class is the property White_Space of the Unicode standard; trimming
removes a run of a class at either end, first at the front and then at the back.
-/

namespace RenderFarm

namespace Chars

/-- Blank characters: the 25 code points with the property White_Space. -/
def isBlank (c : Char) : Bool :=
  let n := c.toNat
  (9 ≤ n && n ≤ 13) || n == 0x20 || n == 0x85 || n == 0xA0 || n == 0x1680 ||
    (0x2000 ≤ n && n ≤ 0x200A) || n == 0x2028 || n == 0x2029 || n == 0x202F || n == 0x205F ||
    n == 0x3000

/-- Blanks of the ASCII range that separate fields of a request line: tab, line feed, form feed,
carriage return and space. -/
def isAsciiBlank (c : Char) : Bool :=
  c == '\t' || c == '\n' || c == '\x0c' || c == '\r' || c == ' '

/-- Drops the longest run of the class at the front. -/
def trimStart (p : Char → Bool) (s : List Char) : List Char :=
  s.dropWhile p

/-- Drops the longest run of the class at the back. -/
def trimEnd (p : Char → Bool) (s : List Char) : List Char :=
  (s.reverse.dropWhile p).reverse

/-- Drops the longest run of the class at both ends. -/
def trimBy (p : Char → Bool) (s : List Char) : List Char :=
  trimEnd p (trimStart p s)

/-- Drops blanks at both ends. -/
def trim (s : List Char) : List Char :=
  trimBy isBlank s

end Chars

namespace Text

/-- Drops blanks at both ends. -/
def trim (s : String) : String :=
  String.ofList (Chars.trim s.toList)

/-- Drops the longest run of the class at both ends. -/
def trimBy (p : Char → Bool) (s : String) : String :=
  String.ofList (Chars.trimBy p s.toList)

end Text

end RenderFarm
