import RenderFarm.Text.Search

/-!
Checkpoint titles. A backend writes the name of a file, often with a hash in brackets after it.
-/

namespace RenderFarm.Title

/-- A title without the hash in brackets at its end, trimmed. -/
def stripHashChars (title : List Char) : List Char :=
  match Chars.cutLast? [' ', '['] title with
  | some (name, _) => if title.getLast? = some ']' then Chars.trim name else Chars.trim title
  | none => Chars.trim title

/-- A title without the hash in brackets at its end, trimmed. -/
def stripHash (title : String) : String :=
  String.ofList (stripHashChars title.toList)

/-- Extensions of checkpoint files. -/
def fileExtensions : List String := ["ckpt", "safetensors", "pt", "bin"]

/-- A title without its hash, its directories and the extension of a checkpoint file. -/
def shortName (title : String) : String :=
  let name := stripHashChars title.toList
  let name := (name.reverse.takeWhile fun c => c != '/' && c != '\\').reverse
  match Chars.cutLast? ['.'] name with
  | some (stem, ext) =>
    if String.ofList ext ∈ fileExtensions then String.ofList stem else String.ofList name
  | none => String.ofList name

end RenderFarm.Title
