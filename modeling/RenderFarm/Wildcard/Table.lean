import RenderFarm.StorageError
import RenderFarm.Wildcard.Placeholder

/-!
Wildcard tables: lists of tokens under lower-case names. The pool of a name holds its tokens with every token
that is itself one placeholder replaced by the pool of the table it names; a reference that leads back into
its own chain contributes nothing.
-/

namespace RenderFarm

/-- Token lists by name. Names are in lower case and differ from each other. -/
structure WildcardTable where
  entries : List (String × List String) := []
deriving DecidableEq, Repr

namespace WildcardTable

/-- The tokens under a lower-case name. -/
def find? (t : WildcardTable) (key : String) : Option (List String) :=
  (t.entries.find? (·.1 == key)).map (·.2)

/-- Whether there is a list under a lower-case name. -/
def hasKey (t : WildcardTable) (key : String) : Bool :=
  (t.find? key).isSome

/-- The tokens under a name in any letter case. -/
def get? (t : WildcardTable) (name : String) : Option (List String) :=
  t.find? (Text.lower name)

/-- Whether there is a list under a name in any letter case. -/
def contains (t : WildcardTable) (name : String) : Bool :=
  t.hasKey (Text.lower name)

/-- Puts a list under a name; one that was there before is replaced. -/
def insert (t : WildcardTable) (name : String) (tokens : List String) : WildcardTable :=
  let key := Text.lower name
  if t.hasKey key then
    ⟨t.entries.map fun e => if e.1 == key then (key, tokens) else e⟩
  else ⟨t.entries ++ [(key, tokens)]⟩

/-- The number of names. -/
def size (t : WildcardTable) : Nat :=
  t.entries.length

/-- Whether there is no name at all. -/
def isEmpty (t : WildcardTable) : Bool :=
  t.entries.isEmpty

/-- The pool of a lower-case name below a chain of references. Every step adds a name of the table to the
chain, so the number of names bounds the depth. -/
def flatten (t : WildcardTable) : Nat → List String → String → List String
  | 0, _, _ => []
  | depth + 1, chain, key =>
    match t.find? key with
    | none => []
    | some tokens =>
      tokens.flatMap fun token =>
        match Wildcard.wholeReference? token with
        | some inner =>
          if t.hasKey inner then
            if inner ∈ chain then [] else flatten t depth (inner :: chain) inner
          else [token]
        | none => [token]

/-- The pool of a name in any letter case. -/
def pool (t : WildcardTable) (name : String) : List String :=
  let key := Text.lower name
  t.flatten t.size [key] key

/-- Loads every text file below a directory; its tokens are the content lines and its name is the file's
stem. A directory that is missing gives an empty table. -/
def load (fs : FileSystem) (dir : Path) : Except StorageError WildcardTable :=
  match fs.locate dir with
  | .error _ => .ok {}
  | .ok l =>
    if fs.isDirectory dir then
      (fs.below l).foldlM (fun t (names, entry) =>
        let path := names.foldl Path.join dir
        match entry, path.extension?, path.stem? with
        | .file _, some ext, some stem =>
          if Text.eqIgnoringCase ext "txt" then (fs.loadLines path).map (t.insert stem) else .ok t
        | _, _, _ => .ok t) {}
    else .ok {}

end WildcardTable

end RenderFarm
