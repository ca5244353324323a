import RenderFarm.Path

/-!
Files and directories as a value. An entry is known by its location, the list of names from the root; a
path is walked from the working directory or from the root, and every step but the last has to be a
directory that exists. Operations return the changed file system or the reason why they fail.
-/

namespace RenderFarm

/-- What is stored at a location. -/
inductive Entry where
  | file (bytes : ByteArray)
  | directory
deriving Inhabited

/-- Whether an entry is a directory. -/
def Entry.isDirectory : Entry → Bool
  | .file _ => false
  | .directory => true

/-- Why an operation on files fails. -/
inductive IoFault where
  | notFound
  | notDirectory
  | isDirectory
  | exists
  | notEmpty
  | notText
  | notRegular
  | nameTooLong
  | zeroByte
deriving DecidableEq, Repr

/-- The wording of a fault. -/
def IoFault.message : IoFault → String
  | .notFound => "No such file or directory (os error 2)"
  | .notDirectory => "Not a directory (os error 20)"
  | .isDirectory => "Is a directory (os error 21)"
  | .exists => "File exists (os error 17)"
  | .notEmpty => "Directory not empty (os error 39)"
  | .notText => "stream did not contain valid UTF-8"
  | .notRegular => "the source path is neither a regular file nor a symlink to a regular file"
  | .nameTooLong => "File name too long (os error 36)"
  | .zeroByte => "file name contained an unexpected NUL byte"

/-- The names from the root to an entry. -/
abbrev Location := List String

/-- Files and directories by location, with the directory that relative paths start from. The root is
always there and has no entry of its own. -/
structure FileSystem where
  entries : List (Location × Entry)
  workingDirectory : Location
deriving Inhabited

namespace FileSystem

/-- The entry at a location. -/
def get? (fs : FileSystem) (l : Location) : Option Entry :=
  if l.isEmpty then some .directory else (fs.entries.find? (·.1 == l)).map (·.2)

/-- The file system with an entry put at a location; an entry that was there is replaced in place. -/
def set (fs : FileSystem) (l : Location) (e : Entry) : FileSystem :=
  if fs.entries.any (·.1 == l) then
    { fs with entries := fs.entries.map fun x => if x.1 == l then (l, e) else x }
  else { fs with entries := fs.entries ++ [(l, e)] }

/-- The file system without the entry at a location. -/
def erase (fs : FileSystem) (l : Location) : FileSystem :=
  { fs with entries := fs.entries.filter (·.1 != l) }

/-- Whether a location holds a directory. -/
def holdsDirectory (fs : FileSystem) (l : Location) : Bool :=
  (fs.get? l).any Entry.isDirectory

/-- The most bytes of a name. -/
def maxNameBytes : Nat := 255

/-- Walks components from a location. The location reached may hold nothing; all before it are
directories. -/
def walk (fs : FileSystem) : Location → List Component → Except IoFault Location
  | l, [] => .ok l
  | l, c :: cs =>
    match fs.get? l with
    | none => .error .notFound
    | some (.file _) => .error .notDirectory
    | some .directory =>
      match c with
      | .root => walk fs [] cs
      | .here => walk fs l cs
      | .up => walk fs l.dropLast cs
      | .name s => if maxNameBytes < s.utf8ByteSize then .error .nameTooLong else walk fs (l ++ [s]) cs

/-- The location that a path leads to. -/
def locate (fs : FileSystem) (p : Path) : Except IoFault Location :=
  if p.text.isEmpty then .error .notFound
  else if '\x00' ∈ p.text.toList then .error .zeroByte
  else fs.walk (if p.isAbsolute then [] else fs.workingDirectory) p.components

/-- The entry that a path leads to. -/
def entryAt? (fs : FileSystem) (p : Path) : Option Entry :=
  match fs.locate p with
  | .error _ => none
  | .ok l =>
    match fs.get? l with
    | some (.file bytes) => if p.asksForDirectory then none else some (.file bytes)
    | e => e

/-- Whether a path leads to a directory. -/
def isDirectory (fs : FileSystem) (p : Path) : Bool :=
  (fs.entryAt? p).any Entry.isDirectory

/-- Whether a path leads to a file. -/
def isFile (fs : FileSystem) (p : Path) : Bool :=
  match fs.entryAt? p with
  | some (.file _) => true
  | _ => false

/-- Whether a path leads to an entry. -/
def exists? (fs : FileSystem) (p : Path) : Bool :=
  (fs.entryAt? p).isSome

/-- The bytes of a file. -/
def read (fs : FileSystem) (p : Path) : Except IoFault ByteArray := do
  let l ← fs.locate p
  match fs.get? l with
  | none => .error .notFound
  | some .directory => .error .isDirectory
  | some (.file bytes) => if p.asksForDirectory then .error .notDirectory else .ok bytes

/-- The text of a file. -/
def readText (fs : FileSystem) (p : Path) : Except IoFault String := do
  let bytes ← fs.read p
  match String.fromUTF8? bytes with
  | some s => .ok s
  | none => .error .notText

/-- Writes a file, making it where nothing is. -/
def write (fs : FileSystem) (p : Path) (bytes : ByteArray) : Except IoFault FileSystem := do
  let l ← fs.locate p
  match fs.get? l with
  | some .directory => .error .isDirectory
  | some (.file _) => if p.asksForDirectory then .error .notDirectory else .ok (fs.set l (.file bytes))
  | none =>
    if !fs.holdsDirectory l.dropLast then .error .notFound
    else if p.asksForDirectory then .error .isDirectory
    else .ok (fs.set l (.file bytes))

/-- Writes a text file. -/
def writeText (fs : FileSystem) (p : Path) (s : String) : Except IoFault FileSystem :=
  fs.write p s.toUTF8

/-- Makes every missing directory on a way of components. -/
def makeDirectories (fs : FileSystem) : Location → List Component → Except IoFault FileSystem
  | _, [] => .ok fs
  | l, .root :: cs => makeDirectories fs (l.take 0) cs
  | l, .here :: cs => makeDirectories fs l cs
  | l, .up :: cs => makeDirectories fs l.dropLast cs
  | l, .name s :: cs =>
    match fs.get? (l ++ [s]) with
    | some .directory => makeDirectories fs (l ++ [s]) cs
    | some (.file _) => .error (if cs.isEmpty then .exists else .notDirectory)
    | none =>
      if maxNameBytes < s.utf8ByteSize then .error .nameTooLong
      else makeDirectories (fs.set (l ++ [s]) .directory) (l ++ [s]) cs

/-- Makes a directory and its parents, as far as they are missing. -/
def createDirectories (fs : FileSystem) (p : Path) : Except IoFault FileSystem :=
  if '\x00' ∈ p.text.toList then .error .zeroByte
  else fs.makeDirectories (if p.isAbsolute then [] else fs.workingDirectory) p.components

/-- Copies a file over another one or to a place where nothing is. -/
def copy (fs : FileSystem) (source target : Path) : Except IoFault FileSystem :=
  match fs.read source with
  | .ok bytes => fs.write target bytes
  | .error .isDirectory => .error .notRegular
  | .error fault => .error fault

/-- The file system with what is at or below one location put at another one. -/
def relocate (fs : FileSystem) (a b : Location) : FileSystem :=
  { fs with entries := fs.entries.map fun (k, e) => if a.isPrefixOf k then (b ++ k.drop a.length, e) else (k, e) }

/-- Moves a file or a directory to a place where nothing is; a file may also take the place of another. -/
def rename (fs : FileSystem) (source target : Path) : Except IoFault FileSystem := do
  let a ← fs.locate source
  let b ← fs.locate target
  match fs.get? a, fs.get? b with
  | none, _ => .error .notFound
  | some (.file _), some .directory => .error .isDirectory
  | some .directory, some _ => .error .exists
  | some (.file bytes), _ =>
    if source.asksForDirectory || target.asksForDirectory then .error .notDirectory
    else if !fs.holdsDirectory b.dropLast then .error .notFound
    else .ok ((fs.erase a).set b (.file bytes))
  | some .directory, none =>
    if !fs.holdsDirectory b.dropLast then .error .notFound
    else if a.isPrefixOf b then .error .exists
    else .ok (fs.relocate a b)

/-- Removes a file. -/
def removeFile (fs : FileSystem) (p : Path) : Except IoFault FileSystem := do
  let l ← fs.locate p
  match fs.get? l with
  | none => .error .notFound
  | some .directory => .error .isDirectory
  | some (.file _) => if p.asksForDirectory then .error .notDirectory else .ok (fs.erase l)

/-- The names directly inside a location, in the order in which they were made. -/
def children (fs : FileSystem) (l : Location) : List String :=
  fs.entries.filterMap fun (k, _) =>
    if k.dropLast == l then k.getLast? else none

/-- The entries below a location, with their names from there, a directory before what it holds. -/
def below (fs : FileSystem) (l : Location) : List (Location × Entry) :=
  fs.entries.filterMap fun (k, e) =>
    if l.isPrefixOf k && l != k then some (k.drop l.length, e) else none

/-- Removes a directory with all that is below it. -/
def removeTree (fs : FileSystem) (p : Path) : Except IoFault FileSystem := do
  let l ← fs.locate p
  match fs.get? l with
  | none => .error .notFound
  | some (.file _) => .error .notDirectory
  | some .directory => .ok { fs with entries := fs.entries.filter fun (k, _) => !l.isPrefixOf k }

/-- Removes the files directly inside a directory and keeps the directories. -/
def removeFilesIn (fs : FileSystem) (p : Path) : Except IoFault FileSystem := do
  let l ← fs.locate p
  match fs.get? l with
  | none => .error .notFound
  | some (.file _) => .error .notDirectory
  | some .directory =>
    .ok { fs with entries := fs.entries.filter fun (k, e) => k.dropLast != l || e.isDirectory }

/-- The names directly inside the directory that a path leads to. -/
def list (fs : FileSystem) (p : Path) : Except IoFault (List String) := do
  let l ← fs.locate p
  match fs.get? l with
  | none => .error .notFound
  | some (.file _) => .error .notDirectory
  | some .directory => .ok (fs.children l)

end FileSystem

end RenderFarm
