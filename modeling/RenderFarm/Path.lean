import RenderFarm.Text.Search
import RenderFarm.Text.Case

/-!
Paths as text. A path is kept as it was written; its parts are read from the components between slashes,
where repeated slashes and dots in the middle do not count.
-/

namespace RenderFarm

/-- A path, absolute when it starts with a slash. -/
structure Path where
  text : String
deriving DecidableEq, Repr, Inhabited

/-- One step of a path. -/
inductive Component where
  | root
  | here
  | up
  | name (s : String)
deriving DecidableEq, Repr

namespace Path

/-- Absolute paths start with a slash. -/
def isAbsolute (p : Path) : Bool :=
  p.text.toList.head? == some '/'

/-- The components of a path. A dot counts only as the very first component. -/
def components (p : Path) : List Component :=
  let parts := (Chars.splitOn '/' p.text.toList).map String.ofList
  let first : List Component :=
    if p.isAbsolute then [.root] else if parts.head? == some "." then [.here] else []
  first ++ parts.filterMap fun s =>
    if s = "" ∨ s = "." then none else if s = ".." then some .up else some (.name s)

/-- Two paths lead through the same components. -/
def sameAs (a b : Path) : Bool :=
  a.components == b.components

/-- Appends a relative path after a slash; an absolute path replaces the first one. -/
def join (p : Path) (q : String) : Path :=
  if q.toList.head? == some '/' || p.text.isEmpty then ⟨q⟩
  else if p.text.toList.getLast? == some '/' then ⟨p.text ++ q⟩
  else ⟨p.text ++ "/" ++ q⟩

/-- The last component, when it is a name. -/
def fileName? (p : Path) : Option String :=
  match p.components.getLast? with
  | some (.name s) => some s
  | _ => none

/-- A file name cut at its last dot. A dot at the very front belongs to the name. -/
def splitName (s : String) : String × Option String :=
  match Chars.cutLast? ['.'] s.toList with
  | some ([], _) => (s, none)
  | some (stem, ext) => (String.ofList stem, some (String.ofList ext))
  | none => (s, none)

/-- The file name without its extension. -/
def stem? (p : Path) : Option String :=
  p.fileName?.map fun s => (splitName s).1

/-- The part of the file name after its last dot. -/
def extension? (p : Path) : Option String :=
  p.fileName?.bind fun s => (splitName s).2

/-- The text without the slashes and dots that follow its last component. -/
def trimmedChars (s : List Char) : List Char :=
  (go s.reverse).reverse
where
  /-- Drops them from a reversed text. -/
  go : List Char → List Char
    | ['/'] => ['/']
    | '/' :: s => go s
    | ['.', '/'] => ['/']
    | '.' :: '/' :: s => go s
    | s => s

/-- The path without its last component. -/
def parent? (p : Path) : Option Path :=
  match p.components.getLast? with
  | none => none
  | some .root => none
  | some _ =>
    let s := trimmedChars p.text.toList
    let front := (s.reverse.dropWhile (· ≠ '/')).reverse
    some ⟨String.ofList (trimmedChars front)⟩

/-- The path with another extension: everything after the stem of its file name is replaced. A name that is
an extension after two dots is left with the dots alone, which are no name to extend. -/
def withExtension (p : Path) (ext : String) : Path :=
  match p.fileName? with
  | none => p
  | some name =>
    let s := trimmedChars p.text.toList
    let front := String.ofList (s.take (s.length - name.toList.length))
    let stem := (splitName name).1
    if stem = "." ∧ s = p.text.toList then ⟨front ++ ".."⟩ else ⟨front ++ stem ++ "." ++ ext⟩

/-- Whether the path ends in a slash, or in a dot component, so that only a directory fits. -/
def asksForDirectory (p : Path) : Bool :=
  match p.text.toList.reverse with
  | '/' :: _ => true
  | ['.'] => true
  | '.' :: '/' :: _ => true
  | _ => false

/-- The order of components: the root, a dot, two dots, names by their characters. -/
def componentLt (a b : Component) : Bool :=
  let rank : Component → Nat
    | .root => 0
    | .here => 1
    | .up => 2
    | .name _ => 3
  match a, b with
  | .name s, .name t => s < t
  | a, b => rank a < rank b

/-- The order of paths, component by component. -/
def componentsLe : List Component → List Component → Bool
  | [], _ => true
  | _ :: _, [] => false
  | a :: as, b :: bs => componentLt a b || (a == b && componentsLe as bs)

/-- The order of paths, component by component. -/
def le (a b : Path) : Bool :=
  componentsLe a.components b.components

end Path

end RenderFarm
