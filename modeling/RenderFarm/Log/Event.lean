import RenderFarm.Text.Visible

/-!
What is logged. An event of at least informative level has a line of text, which starts with the device it
belongs to, or with the controller for an event of no device, and ends with its fields.
-/

namespace RenderFarm

/-- How serious an event is. -/
inductive LogLevel where
  | error
  | warning
  | info
  | debug
  | trace
deriving DecidableEq, Repr

namespace LogLevel

/-- Whether events of the level have a line. -/
def isLogged : LogLevel → Bool
  | .error | .warning | .info => true
  | .debug | .trace => false

/-- The mark in front of a message. -/
def mark : LogLevel → String
  | .error => "ERROR: "
  | .warning => "WARNING: "
  | _ => ""

end LogLevel

/-- The value of a field. -/
inductive LogValue where
  /-- Text as it is. -/
  | text (s : String)
  /-- The text of some other value. -/
  | shown (s : String)
  /-- Text in quotes. -/
  | quoted (s : String)
deriving DecidableEq, Repr

namespace LogValue

/-- The hexadecimal digits of a number. -/
def hexDigits (n : Nat) : List Char :=
  Nat.toDigits 16 n

/-- How a character is written between quotes. -/
def escape (c : Char) : List Char :=
  if c = '\x00' then ['\\', '0']
  else if c = '\t' then ['\\', 't']
  else if c = '\r' then ['\\', 'r']
  else if c = '\n' then ['\\', 'n']
  else if c = '\\' ∨ c = '"' then ['\\', c]
  else if Chars.isVisible c then [c]
  else ['\\', 'u', '\x7b'] ++ hexDigits c.toNat ++ ['\x7d']

/-- The characters of a value. -/
def chars : LogValue → List Char
  | .text s => s.toList
  | .shown s => s.toList
  | .quoted s => ['"'] ++ s.toList.flatMap escape ++ ['"']

/-- A value as the name of a device. Quotes around a shown or quoted value are dropped. -/
def deviceChars : LogValue → List Char
  | .text s => s.toList
  | v => ((v.chars.dropWhile (· == '"')).reverse.dropWhile (· == '"')).reverse

/-- A value that is a number. -/
def number (n : Nat) : LogValue :=
  .shown (toString n)

end LogValue

/-- Something that is worth a note, with its fields in order. The field `device` tells whom it is about. -/
structure LogEvent where
  level : LogLevel
  message : String
  fields : List (String × LogValue) := []
deriving DecidableEq, Repr

namespace LogEvent

/-- The name of the field that holds the device. -/
def deviceField : String := "device"

/-- The device of an event, named last if named more than once, or the controller. -/
def source (e : LogEvent) : List Char :=
  match (e.fields.filter (·.1 == deviceField)).getLast? with
  | some (_, v) => v.deviceChars
  | none => "controller".toList

/-- The fields other than the device, each after a blank. -/
def fieldChars (e : LogEvent) : List Char :=
  (e.fields.filter (·.1 != deviceField)).flatMap fun (name, v) => [' '] ++ name.toList ++ ['='] ++ v.chars

/-- The line of an event, when it has one. -/
def line? (e : LogEvent) : Option String :=
  if e.level.isLogged then
    some (String.ofList
      (['['] ++ e.source ++ "] >>> ".toList ++ e.level.mark.toList ++ e.message.toList ++ e.fieldChars))
  else none

/-- An event for information. -/
def info (message : String) (fields : List (String × LogValue)) : LogEvent :=
  ⟨.info, message, fields⟩

/-- A warning. -/
def warning (message : String) (fields : List (String × LogValue)) : LogEvent :=
  ⟨.warning, message, fields⟩

/-- An error. -/
def error (message : String) (fields : List (String × LogValue)) : LogEvent :=
  ⟨.error, message, fields⟩

end LogEvent

end RenderFarm
