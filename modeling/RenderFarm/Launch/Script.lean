import RenderFarm.Launch.Arguments
import RenderFarm.StorageError
import RenderFarm.Text.Case

/-!
Launch scripts. Every device gets a copy of the user's script in which the first line that assigns the
command-line arguments carries the device's own; later assignments are turned into comments. On Unix the
device script goes on with the backend's own script, which reads the user's script again, so an assignment
that is active there is turned into a comment as well.
-/

namespace RenderFarm.Launch

/-- The two kinds of launch script. -/
inductive Platform where
  | unix
  | windows
deriving DecidableEq, Repr

namespace Platform

/-- The name of the user's script. -/
def baseScript : Platform → String
  | .unix => "webui-user.sh"
  | .windows => "webui-user.bat"

/-- The name of a device's script. -/
def deviceScript (p : Platform) (device : String) : String :=
  "df-start-gpu-" ++ device ++
    match p with
    | .unix => ".sh"
    | .windows => ".bat"

/-- What a line that assigns the arguments starts with. -/
def assignment : Platform → List Char
  | .unix => "export COMMANDLINE_ARGS=".toList
  | .windows => "set COMMANDLINE_ARGS=".toList

/-- The end of a line. -/
def lineEnd : Platform → List Char
  | .unix => ['\n']
  | .windows => ['\r', '\n']

end Platform

/-- Drops one quote at either end of trimmed text. -/
def dropQuotes (s : List Char) : List Char :=
  let s := Chars.trim s
  let s := (Chars.stripPrefix? ['"'] s).getD s
  if s.getLast? = some '"' then s.dropLast else s

/-- The arguments that a line assigns. On Unix the line may be a comment, and quotes are dropped. -/
def assigned? (p : Platform) (line : List Char) : Option (List Char) :=
  match p with
  | .windows => Chars.stripPrefix? p.assignment line
  | .unix =>
    (Chars.stripPrefix? p.assignment ((Chars.stripPrefix? ['#'] line).getD line)).map dropQuotes

/-- The line that assigns the arguments of a device. -/
def assignmentLine (p : Platform) (args : List Char) : List Char :=
  match p with
  | .windows => p.assignment ++ args
  | .unix => p.assignment ++ ['"'] ++ args ++ ['"']

/-- A line turned into a comment; on Unix a comment stays as it is. -/
def commentOut (p : Platform) (line : List Char) : List Char :=
  match p with
  | .windows => "rem ".toList ++ line
  | .unix => if line.head? = some '#' then line else '#' :: line

/-- The lines after the first assignment. -/
def laterLines (p : Platform) (lines : List (List Char)) : List (List Char) :=
  lines.map fun line => if (assigned? p line).isSome then commentOut p line else line

/-- Gives the first assignment the arguments of the device and comments out the later ones. There is no
result without any. -/
def assignFirst? (p : Platform) (port : UInt16) (device : List Char) :
    List (List Char) → Option (List (List Char))
  | [] => none
  | line :: rest =>
    match assigned? p line with
    | some args => some (assignmentLine p (deviceArgs args port device) :: laterLines p rest)
    | none => (assignFirst? p port device rest).map (line :: ·)

/-- Whether a line of a Windows script calls another script. -/
def isCall (line : List Char) : Bool :=
  "call ".toList.isPrefixOf (Chars.lowerAscii (Chars.trimStart Chars.isBlank line))

/-- Puts a line before the first one that satisfies a test, or at the end. -/
def insertBefore (p : List Char → Bool) (new : List Char) : List (List Char) → List (List Char)
  | [] => [new]
  | line :: rest => if p line then new :: line :: rest else line :: insertBefore p new rest

/-- The lines of a device script. Without an assignment one is added: before the call of the backend's own
script on Windows, else at the end. -/
def deviceLines (p : Platform) (port : UInt16) (device : List Char) (lines : List (List Char)) :
    List (List Char) :=
  let assigned :=
    match assignFirst? p port device lines with
    | some lines => lines
    | none =>
      let line := assignmentLine p (deviceArgs [] port device)
      match p with
      | .windows => insertBefore isCall line lines
      | .unix => lines ++ [line]
  match p with
  | .windows => assigned
  | .unix => assigned ++ ["source webui.sh".toList]

/-- The text of a device script. -/
def deviceScriptChars (contents : List Char) (p : Platform) (port : UInt16) (device : List Char) :
    List Char :=
  p.lineEnd.intercalate (deviceLines p port device (Chars.lines contents)) ++ p.lineEnd

/-- The text of a device script. -/
def deviceScriptText (contents : String) (p : Platform) (port : UInt16) (device : String) : String :=
  String.ofList (deviceScriptChars contents.toList p port device.toList)

/-- Whether a line of a Unix script assigns the arguments. -/
def isActive (line : List Char) : Bool :=
  (Platform.unix.assignment).isPrefixOf line

/-- The user's Unix script with its assignments turned into comments, when there are any. -/
def silenced? (contents : List Char) : Option (List Char) :=
  let lines := Chars.lines contents
  if lines.any isActive then
    let text := ['\n'].intercalate (lines.map fun line => if isActive line then '#' :: line else line)
    some (if contents.getLast? = some '\n' then text ++ ['\n'] else text)
  else none

/-- Why a launch script cannot be written. -/
inductive Error where
  | missingBaseScript (path : Path)
  | io (path : Path) (fault : IoFault)
deriving DecidableEq, Repr

/-- The wording of a failure. -/
def Error.message : Error → String
  | .missingBaseScript path =>
    "render backend launch script not found at " ++ path.text ++ " (check SD_LOCATION)"
  | .io path fault => "I/O error on " ++ path.text ++ ": " ++ fault.message

/-- Writes the launch script of a device into the backend's directory. The files that are written before a
failure stay written. -/
def write (fs : FileSystem) (dir : Path) (p : Platform) (port : UInt16) (device : String) :
    Except Error Path × FileSystem :=
  let base := dir.join p.baseScript
  if !fs.isFile base then (.error (.missingBaseScript base), fs)
  else
    match fs.readText base with
    | .error fault => (.error (.io base fault), fs)
    | .ok contents =>
      let silenced :=
        if p = .unix then
          match silenced? contents.toList with
          | some text => fs.writeText base (String.ofList text)
          | none => .ok fs
        else .ok fs
      match silenced with
      | .error fault => (.error (.io base fault), fs)
      | .ok fs =>
        let target := dir.join (p.deviceScript device)
        match fs.writeText target (deviceScriptText contents p port device) with
        | .error fault => (.error (.io target fault), fs)
        | .ok fs => (.ok target, fs)

end RenderFarm.Launch
