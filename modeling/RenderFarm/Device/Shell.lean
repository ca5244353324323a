import RenderFarm.Device.Words
import RenderFarm.FileSystem
import RenderFarm.Number.Reading
import RenderFarm.Text.Line

/-!
What a render process shows of itself: what it writes, how long it lives and how it ends. A process runs a
shell script of single commands, one a line, with variables and further scripts that it reads in.
-/

namespace RenderFarm

/-- A process as it is seen from outside. Times are in milliseconds from its start. -/
structure Process where
  output : String := ""
  errors : String := ""
  /-- The code that it ends with; a process that is killed has none. -/
  exitCode : Option Int
  lifetime : Nat
deriving Repr

namespace Process

/-- How long a process takes to do anything at all. -/
def latency : Nat := 2

/-- Whether the process has ended at a moment, and with what code. -/
def exitedAt? (p : Process) (time : Nat) : Option (Option Int) :=
  if p.lifetime ≤ time then some p.exitCode else none

/-- What the process has written to its output and its errors, stopped at a moment. -/
def writtenAt (p : Process) (time : Nat) : String × String :=
  if time < latency then ("", "") else (p.output, p.errors)

end Process

namespace Shell

/-- The number of the process. -/
def self : List Char := "4242".toList

/-- A script under way. -/
structure State where
  bindings : Variables := []
  output : List Char := []
  errors : List Char := []
  /-- The status of the last command. -/
  status : Nat := 0
  elapsed : Nat := Process.latency
  /-- How the process has ended. -/
  ended : Option (Option Int) := none

/-- Where a command stands: the name of the script and the number of the line. -/
structure Place where
  script : List Char
  line : Nat

namespace State

/-- A command that fails with a message. -/
def complain (p : Place) (status : Nat) (message : List Char) (s : State) : State :=
  { s with
    status
    errors := s.errors ++ p.script ++ ": line ".toList ++ (toString p.line).toList ++ [':', ' '] ++ message ++
      ['\n'] }

/-- Sets the variables of assignments. -/
def assign (assignments : List (List Char)) (s : State) : State :=
  let set (vars : Variables) (a : List Char) : Variables :=
    match Chars.cut? ['='] a with
    | some (name, value) => (name, value) :: vars
    | none => vars
  { s with bindings := assignments.foldl set s.bindings, status := 0 }

/-- Writes words with blanks between them. -/
def echo (args : List (List Char)) (s : State) : State :=
  let redirect := ">&2".toList
  let line := [' '].intercalate (args.filter (· != redirect)) ++ ['\n']
  if args.contains redirect then { s with errors := s.errors ++ line, status := 0 }
  else { s with output := s.output ++ line, status := 0 }

/-- Waits for a number of seconds. -/
def sleep (args : List (List Char)) (s : State) : State :=
  match args.head?.bind Chars.readDecimal? with
  | some seconds => { s with elapsed := s.elapsed + (seconds * 1000).toUInt64.toNat, status := 0 }
  | none => { s with status := 1 }

/-- Ends the process with a status. -/
def exit (status : Nat) (s : State) : State :=
  { s with ended := some (some ((status % 256 : Nat) : Int)) }

end State

/-- Whether a word assigns a variable. -/
def isAssignment (word : List Char) : Bool :=
  match Chars.cut? ['='] word with
  | some (name, _) => !name.isEmpty && name.all Splitting.isNameChar && !(name.head?.any Char.isDigit)
  | none => false

/-- Carries out a command. A further script is read in by `included`, which has no result when there is no
such file. -/
def command (included : List Char → State → Option State) (p : Place) (words : List (List Char)) (s : State) :
    State :=
  match words with
  | [] => s
  | name :: args =>
    if (name :: args).all isAssignment then s.assign (name :: args)
    else
      match String.ofList name with
      | "export" => s.assign args
      | "echo" => s.echo args
      | "true" | ":" => { s with status := 0 }
      | "false" => { s with status := 1 }
      | "exit" => s.exit ((args.head?.map Chars.digitsValue).getD s.status)
      | "kill" => { s with ended := some none }
      | "sleep" => s.sleep args
      | "exec" =>
        let s := s.sleep args.tail
        s.exit s.status
      | "source" | "." =>
        match included (args.head?.getD []) s with
        | some s => s
        | none => s.complain p 1 (args.head?.getD [] ++ ": No such file or directory".toList)
      | _ => s.complain p 127 (name ++ ": command not found".toList)

/-- Runs the lines of a script, from a line number on. -/
def lines (included : List Char → State → Option State) (script : List Char) :
    Nat → List (List Char) → State → State
  | _, [], s => s
  | n, line :: rest, s =>
    if s.ended.isSome then s
    else lines included script (n + 1) rest (command included ⟨script, n⟩ (words s.bindings self line) s)

/-- Runs a script that may read in others, up to a depth. -/
def script (fs : FileSystem) (dir : Path) : Nat → List Char → String → State → State
  | 0, _, _, s => s
  | depth + 1, name, text, s =>
    let included (file : List Char) (s : State) : Option State :=
      match fs.readText (dir.join (String.ofList file)) with
      | .ok text => some (script fs dir depth file text s)
      | .error _ => none
    lines included name 1 (Chars.lines text.toList) s

/-- How deep scripts read in one another. -/
def maxDepth : Nat := 64

/-- The process that runs a script in a directory. -/
def spawn (fs : FileSystem) (dir file : Path) : Process :=
  match fs.readText (dir.join file.text) with
  | .error _ =>
    { errors := "bash: " ++ file.text ++ ": No such file or directory\n", exitCode := some 127
      lifetime := Process.latency }
  | .ok text =>
    let s := script fs dir maxDepth file.text.toList text {}
    { output := String.ofList s.output, errors := String.ofList s.errors, lifetime := s.elapsed
      exitCode := s.ended.getD (some (s.status : Int)) }

end Shell

end RenderFarm
