import RenderFarm.Text.Case
import RenderFarm.Json.Codec

/-!
Trigger phrases in prompts: where the phrase of a checkpoint is put. A prompt that already holds the phrase
is left alone.
-/

namespace RenderFarm

/-- Where a trigger phrase goes. A keyword is replaced by it. -/
inductive Placement where
  | off
  | start
  | finish
  | firstComma
  | keyword (word : String)
deriving DecidableEq, Repr

namespace Placement

/-- Why a text is no placement. -/
inductive Fault where
  | keywordMissing
  | unknown (value : String)
deriving DecidableEq, Repr

/-- The wording of a fault. -/
def Fault.message : Fault → String
  | .keywordMissing => "keyword placement needs a word"
  | .unknown value => "unknown trigger placement '" ++ value ++ "'"

/-- Reads a placement, with the case of ASCII letters ignored. -/
def parse (s : String) : Except Fault Placement :=
  let value := Text.trim s
  let word := Text.lowerAscii value
  if word = "off" ∨ word = "no" ∨ word = "" then .ok .off
  else if word = "start" ∨ word = "yes" then .ok .start
  else if word = "end" then .ok .finish
  else if word = "first_comma" then .ok .firstComma
  else
    match Chars.stripPrefix? "keyword:".toList word.toList with
    | some _ =>
      let keyword := Chars.trim (value.toList.drop "keyword:".length)
      if keyword.isEmpty then .error .keywordMissing else .ok (.keyword (String.ofList keyword))
    | none => .error (.unknown value)

/-- The text of a placement. -/
def text : Placement → String
  | .off => "off"
  | .start => "start"
  | .finish => "end"
  | .firstComma => "first_comma"
  | .keyword word => "keyword:" ++ word

/-- Puts a phrase into a prompt. Both are trimmed and the prompt does not hold the phrase yet. Without a
comma the phrase goes to the end, and without the keyword to the front. -/
def insertChars (prompt phrase : List Char) : Placement → List Char
  | .off => prompt
  | .start => phrase ++ [',', ' '] ++ prompt
  | .finish => prompt ++ [',', ' '] ++ phrase
  | .firstComma =>
    match Chars.cut? [','] prompt with
    | some (head, tail) => head ++ [',', ' '] ++ phrase ++ [','] ++ tail
    | none => prompt ++ [',', ' '] ++ phrase
  | .keyword word =>
    match if word.isEmpty then none else Chars.cutIgnoringCase? word.toList prompt with
    | some (before, _, after) => before ++ phrase ++ after
    | none => phrase ++ [',', ' '] ++ prompt

/-- Whether a prompt holds a phrase, with letter case ignored. -/
def holds (prompt phrase : String) : Bool :=
  Text.contains (Text.lower prompt) (Text.lower phrase)

/-- Inserts a trigger phrase into a prompt. -/
def insert (prompt phrase : String) (placement : Placement) : String :=
  let phrase := Text.trim phrase
  if phrase.isEmpty || placement == .off || holds prompt phrase then prompt
  else
    let prompt := Text.trim prompt
    if prompt.isEmpty then phrase
    else String.ofList (insertChars prompt.toList phrase.toList placement)

instance : JsonForm Placement where
  toJson
    | .off => .string "off"
    | .start => .string "start"
    | .finish => .string "end"
    | .firstComma => .string "first_comma"
    | .keyword word => .object [("keyword", .string word)]
  ofJson?
    | .string "off" => some .off
    | .string "start" => some .start
    | .string "end" => some .finish
    | .string "first_comma" => some .firstComma
    | .object [("keyword", .string word)] => some (.keyword word)
    | _ => none

end Placement

end RenderFarm
