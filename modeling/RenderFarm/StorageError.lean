import RenderFarm.FileSystem
import RenderFarm.Text.Line

/-!
Why stored data cannot be used: a file that is missing, one that cannot be read or written, a record that
does not have the form of one, and an image without readable dimensions.
-/

namespace RenderFarm

/-- A failure on stored data. -/
inductive StorageError where
  | notFound (path : Path)
  | io (path : Path) (fault : IoFault)
  | malformedRecord (path : Path)
  | unreadableImage (path : Path)
deriving DecidableEq, Repr

namespace StorageError

/-- A fault at a path; a missing file is a failure of its own kind. -/
def ofFault (path : Path) : IoFault → StorageError
  | .notFound => .notFound path
  | fault => .io path fault

/-- The wording of a failure. -/
def message : StorageError → String
  | .notFound path => "File not found: " ++ path.text
  | .io path fault => "I/O error on " ++ path.text ++ ": " ++ fault.message
  | .malformedRecord path => "Malformed record in " ++ path.text
  | .unreadableImage path => "Validation failed: " ++ path.text

end StorageError

/-- The text of a file. -/
def FileSystem.loadText (fs : FileSystem) (path : Path) : Except StorageError String :=
  (fs.readText path).mapError (StorageError.ofFault path)

/-- The content lines of a file. -/
def FileSystem.loadLines (fs : FileSystem) (path : Path) : Except StorageError (List String) :=
  (fs.loadText path).map Text.contentLines

end RenderFarm
