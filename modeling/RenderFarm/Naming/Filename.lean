import RenderFarm.FileSystem
import RenderFarm.Naming.Slug
import RenderFarm.Number.Layout
import RenderFarm.Time.Instant
import RenderFarm.Trigger.Title

/-!
Names of output files. A file name comes from a template in which names in angle brackets stand for values of
the job; it never holds a character that is special in a path, and a name that is taken gets a number.
-/

namespace RenderFarm.Naming

/-- The template of a job that names none. -/
def defaultTemplate : String := "<seed>-<prompt>"

/-- The values that a template can refer to. -/
structure Values where
  prompt : String
  model : Option String
  seed : Int64
  width : UInt32
  height : UInt32
  steps : UInt32
  scale : Float
  sampler : String
  inputImage : Option Path
  time : Instant

/-- The value that a name in lower case stands for. -/
def Values.get? (v : Values) (name : String) : Option String :=
  let (hour, minute, second) := v.time.clock
  match name with
  | "prompt" => some v.prompt
  | "model" => some ((v.model.map Title.shortName).getD "")
  | "seed" => some (toString v.seed.toInt)
  | "width" => some (toString v.width.toNat)
  | "height" => some (toString v.height.toNat)
  | "steps" => some (toString v.steps.toNat)
  | "scale" => some (Text.replace "." "_" (NumberLayout.plain.write v.scale))
  | "sampler" => some v.sampler
  | "date" => some v.time.date.text
  | "time" => some (padded 2 hour ++ "-" ++ padded 2 minute ++ "-" ++ padded 2 second)
  | "date-year" => some (yearText v.time.date.year)
  | "date-month" => some (padded 2 v.time.date.month)
  | "date-day" => some (padded 2 v.time.date.day)
  | "input-img" => some ((v.inputImage.bind Path.stem?).getD "")
  | _ => none

/-- Characters of a name in angle brackets. -/
def isNameChar (c : Char) : Bool :=
  c.isAlpha || c == '-'

/-- The name in angle brackets that the text starts with. -/
def nameAt? : List Char → Option (List Char)
  | '<' :: s =>
    let name := s.takeWhile isNameChar
    if name.isEmpty then none
    else
      match s.dropWhile isNameChar with
      | '>' :: _ => some name
      | _ => none
  | _ => none

/-- Replaces the names in angle brackets by the slugs of their values, from left to right; `skip` counts the
characters of a name that are still to be passed over. A name without a value is removed. -/
def fillFrom (v : Values) : Nat → List Char → List Char
  | _, [] => []
  | skip + 1, _ :: s => fillFrom v skip s
  | 0, c :: s =>
    match nameAt? (c :: s) with
    | some name =>
      let value := (v.get? (String.ofList (name.map Char.toLower))).getD ""
      slugChars value.toList ++ fillFrom v (name.length + 1) s
    | none => c :: fillFrom v 0 s

/-- Characters that are special in paths. -/
def isPathChar (c : Char) : Bool :=
  c == '/' || c == '\\' || c == ':' || c == '*' || c == '?' || c == '"' || c == '<' || c == '>' ||
    c == '|'

/-- The stem of a file name. One that would be empty is the seed. -/
def render (template : String) (v : Values) : String :=
  let filled := (fillFrom v 0 template.toList).filter fun c => !isPathChar c
  let stem := (Chars.trimBy (fun c => isEdge c || Chars.isBlank c) filled).take maxLength
  if stem.isEmpty then toString v.seed.toInt else String.ofList stem

/-- The output folder of a template on a day. -/
def folder (root : Path) (stem : String) (time : Instant) : Path :=
  root.join (time.date.text ++ "-" ++ stem)

/-- A file name with a number, or without one for zero. -/
def numbered (dir : Path) (stem ext : String) (n : Nat) : Path :=
  dir.join (if n = 0 then stem ++ "." ++ ext else stem ++ "-" ++ toString n ++ "." ++ ext)

/-- The first path from a number on that nothing is at, among a number of them. -/
def firstFree (fs : FileSystem) (dir : Path) (stem ext : String) : Nat → Nat → Path
  | 0, n => numbered dir stem ext n
  | bound + 1, n =>
    if fs.exists? (numbered dir stem ext n) then firstFree fs dir stem ext bound (n + 1)
    else numbered dir stem ext n

/-- The first path that nothing is at, without a number or with the smallest one. One more path is tried
than there are entries. -/
def uniquePath (fs : FileSystem) (dir : Path) (stem ext : String) : Path :=
  firstFree fs dir stem ext (fs.entries.length + 1) 0

end RenderFarm.Naming
