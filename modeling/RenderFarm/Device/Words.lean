import RenderFarm.Text.Blank

/-!
The words of a line of a shell script: text between blanks, where quotes and backslashes keep characters
together and a dollar sign stands for the value of a variable.
-/

namespace RenderFarm.Shell

/-- The values of variables, the latest first. -/
abbrev Variables := List (List Char × List Char)

/-- The value of a variable; one that is not set is empty. -/
def Variables.value (vars : Variables) (name : List Char) : List Char :=
  ((vars.find? (·.1 == name)).map (·.2)).getD []

/-- The quotes that a character stands in. -/
inductive Quote where
  | none
  | single
  | double
deriving DecidableEq, Repr

/-- What the next character belongs to. -/
inductive Pending where
  | nothing
  | escape
  | dollar
  | name (chars : List Char)
  | bracedName (chars : List Char)
  | comment
deriving DecidableEq, Repr

/-- A line that is being split. -/
structure Splitting where
  words : List (List Char) := []
  /-- The word under way. -/
  word : Option (List Char) := none
  quote : Quote := .none
  pending : Pending := .nothing

namespace Splitting

/-- Adds a character to the word under way. -/
def add (s : Splitting) (c : Char) : Splitting :=
  { s with word := some (s.word.getD [] ++ [c]) }

/-- Ends the word under way. -/
def endWord (s : Splitting) : Splitting :=
  match s.word with
  | some w => { s with words := s.words ++ [w], word := none }
  | none => s

/-- Goes into or out of quotes. A word may consist of nothing but its quotes. -/
def setQuote (s : Splitting) (q : Quote) : Splitting :=
  { s with quote := q, word := some (s.word.getD []) }

/-- Adds the value of a variable. Outside quotes it is split at its blanks. -/
def addValue (s : Splitting) (value : List Char) : Splitting :=
  value.foldl (fun s c => if s.quote = .none && Chars.isAsciiBlank c then s.endWord else s.add c) s

/-- Characters of a variable's name. -/
def isNameChar (c : Char) : Bool :=
  c.isAlphanum || c == '_'

/-- Takes in a character that does not belong to one before it. -/
def plain (s : Splitting) (c : Char) : Splitting :=
  match s.quote with
  | .single => if c = '\'' then s.setQuote .none else s.add c
  | .double =>
    if c = '"' then s.setQuote .none
    else if c = '\\' then { s with pending := .escape }
    else if c = '$' then { s with pending := .dollar }
    else s.add c
  | .none =>
    if Chars.isAsciiBlank c then s.endWord
    else if c = '\'' then s.setQuote .single
    else if c = '"' then s.setQuote .double
    else if c = '\\' then { s with pending := .escape }
    else if c = '$' then { s with pending := .dollar }
    else if c = '#' && s.word.isNone then { s with pending := .comment }
    else s.add c

/-- Ends a name that has no braces, or a dollar sign that starts none. -/
def settle (vars : Variables) (s : Splitting) : Splitting :=
  match s.pending with
  | .name n => { s with pending := .nothing }.addValue (vars.value n)
  | .dollar => { s with pending := .nothing }.add '$'
  | .escape => { s with pending := .nothing }.add '\\'
  | _ => s

/-- Takes in a character. Two dollar signs stand for the process itself. -/
def step (vars : Variables) (self : List Char) (s : Splitting) (c : Char) : Splitting :=
  match s.pending with
  | .comment => s
  | .nothing => s.plain c
  | .escape =>
    let s := { s with pending := .nothing }
    if s.quote = .double && !(c == '"' || c == '\\' || c == '$') then (s.add '\\').add c else s.add c
  | .dollar =>
    if c = '\x7b' then { s with pending := .bracedName [] }
    else if c = '$' then { s with pending := .nothing }.addValue self
    else if isNameChar c then { s with pending := .name [c] }
    else (s.settle vars).plain c
  | .name n => if isNameChar c then { s with pending := .name (n ++ [c]) } else (s.settle vars).plain c
  | .bracedName n =>
    if c = '\x7d' then { s with pending := .nothing }.addValue (vars.value n)
    else { s with pending := .bracedName (n ++ [c]) }

end Splitting

/-- The words of a line. -/
def words (vars : Variables) (self line : List Char) : List (List Char) :=
  ((line.foldl (Splitting.step vars self) {}).settle vars).endWord.words

end RenderFarm.Shell
