import RenderFarm.Capability
import RenderFarm.StorageError
import RenderFarm.Trigger.Title

/-!
The registry of trigger phrases: a file with one line per checkpoint, its name and its phrase with a comma
between them. It is brought in line with the backend's checkpoints, where phrases that a user has filled in
are kept.
-/

namespace RenderFarm

/-- A checkpoint and its phrase, which may be empty. -/
structure TriggerEntry where
  model : String
  phrase : String
deriving DecidableEq, Repr

/-- The entries of a registry file. -/
structure TriggerRegistry where
  path : Path
  entries : List TriggerEntry := []
deriving DecidableEq, Repr

namespace TriggerRegistry

/-- Reads one content line. The name ends at the first comma. -/
def entryOfLine (line : String) : TriggerEntry :=
  match Text.cut? "," line with
  | some (model, phrase) => ⟨Text.trim model, Text.trim phrase⟩
  | none => ⟨Text.trim line, ""⟩

/-- Reads the entries of a file's text; lines without a name are left out. -/
def parse (contents : String) : List TriggerEntry :=
  ((Text.contentLines contents).map entryOfLine).filter fun e => !e.model.isEmpty

/-- Loads a registry. A file that is missing gives an empty one. -/
def load (fs : FileSystem) (path : Path) : Except StorageError TriggerRegistry :=
  match fs.loadText path with
  | .ok contents => .ok ⟨path, parse contents⟩
  | .error (.notFound _) => .ok ⟨path, []⟩
  | .error e => .error e

/-- The phrase for a checkpoint title, unless it is empty: that of the first entry named like the title, or
like the title without its hash. -/
def lookup? (r : TriggerRegistry) (title : String) : Option String :=
  let short := Title.stripHash title
  match r.entries.find? fun e => Text.eqIgnoringCase e.model title || Text.eqIgnoringCase e.model short with
  | some e => if e.phrase.isEmpty then none else some e.phrase
  | none => none

/-- The entry for a name: it takes over the phrase of the first entry of that name. -/
def entryFor (entries : List TriggerEntry) (name : String) : TriggerEntry :=
  match entries.find? fun e => Text.eqIgnoringCase e.model name with
  | some e => ⟨name, e.phrase⟩
  | none => ⟨name, ""⟩

/-- The order of entries: by name in lower case. -/
def entryLe (a b : TriggerEntry) : Bool :=
  !decide (Text.lower b.model < Text.lower a.model)

/-- Brings the registry in line with the backend's checkpoints, sorted by name. The flag says whether its
entries have changed. -/
def sync (r : TriggerRegistry) (models : List Model) : TriggerRegistry × Bool :=
  let entries := (models.map fun m => entryFor r.entries (Title.stripHash m.title)).mergeSort entryLe
  ({ r with entries }, entries != r.entries)

/-- The line of an entry. -/
def TriggerEntry.line (e : TriggerEntry) : String :=
  e.model ++ ", " ++ e.phrase ++ "\n"

/-- The text of a registry file. -/
def text (r : TriggerRegistry) : String :=
  "# model-name, trigger-phrase\n" ++ String.join (r.entries.map TriggerEntry.line)

/-- Writes the registry to its file, making the directory of the file if it is missing. -/
def save (r : TriggerRegistry) (fs : FileSystem) : Except StorageError FileSystem := do
  let fs ←
    match r.path.parent?.filter fun p => !p.text.isEmpty with
    | some parent => (fs.createDirectories parent).mapError (StorageError.ofFault parent)
    | none => .ok fs
  (fs.writeText r.path r.text).mapError (StorageError.ofFault r.path)

end TriggerRegistry

end RenderFarm
