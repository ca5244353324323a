import RenderFarm.Proofs.Files.Walk

/-!
Changes that are confined to one directory: paths lead where they led, files elsewhere stay as they are, and the
directory gets files but no directories of its own. Folders that were made need not be made again, and where the
files of a directory are removed, all else stays.
-/

namespace RenderFarm.FileSystem

variable {fs fs' fs'' : FileSystem} {k l : Location} {p dir : Path} {bytes : ByteArray}

/-! ## Directories that are made -/

/-- Whether a directory with all its parents is there, so that none of them has to be made. -/
def HasFolder (fs : FileSystem) (p : Path) : Prop :=
  fs.createDirectories p = .ok fs

/-- Directories that were made and that stay need not be made again. -/
theorem makeDirectories_again {cs : List Component} (made : fs.makeDirectories k cs = .ok fs')
    (stay : ∀ l, fs'.holdsDirectory l → fs''.holdsDirectory l) : fs''.makeDirectories k cs = .ok fs'' := by
  induction cs generalizing fs k with
  | nil => rfl
  | cons c cs ih =>
    cases c with
    | root | here | up => exact ih made
    | name s =>
      rw [makeDirectories] at made
      split at made
      · rename_i directory
        have still := stay _ ((makeDirectories_keeps made).directory _ (holdsDirectory_iff.mpr directory))
        rw [makeDirectories, holdsDirectory_iff.mp still]
        exact ih made
      · cases made
      · split at made
        · cases made
        · have new : (fs.set (k ++ [s]) .directory).holdsDirectory (k ++ [s]) :=
            holdsDirectory_iff.mpr (get?_set_self (by simp) _)
          have still := stay _ ((makeDirectories_keeps made).directory _ new)
          rw [makeDirectories, holdsDirectory_iff.mp still]
          exact ih made

/-- The first directories on a way are made before the others. -/
theorem exists_makeDirectories_append {cs ds : List Component} (made : fs.makeDirectories k (cs ++ ds) = .ok fs') :
    ∃ mid, fs.makeDirectories k cs = .ok mid ∧ Keeps mid fs' [] := by
  induction cs generalizing fs k with
  | nil => exact ⟨fs, rfl, makeDirectories_keeps made⟩
  | cons c cs ih =>
    cases c with
    | root | here | up => exact ih made
    | name s =>
      rw [List.cons_append, makeDirectories] at made
      rw [makeDirectories]
      split at made
      · exact ih made
      · cases made
      · rename_i long
        split at made
        · cases made
        · rw [if_neg ‹_›]
          exact ih made

theorem whole_of_createDirectories (made : fs.createDirectories p = .ok fs') : '\x00' ∉ p.text.toList := by
  intro zero
  rw [createDirectories, if_pos zero] at made
  cases made

theorem hasFolder_of_createDirectories (made : fs.createDirectories p = .ok fs') (kept : KeepsWays fs' fs'') :
    fs''.HasFolder p := by
  unfold createDirectories at made
  split at made
  · cases made
  · rename_i whole
    have same : fs''.workingDirectory = fs.workingDirectory :=
      kept.workingDirectory.trans (makeDirectories_keeps made).workingDirectory
    rw [HasFolder, createDirectories, if_neg whole, same]
    exact makeDirectories_again made fun l => kept.directory

theorem HasFolder.keeps (there : fs.HasFolder p) (kept : KeepsWays fs fs') : fs'.HasFolder p :=
  hasFolder_of_createDirectories there kept

/-- A folder is there when one in it is. -/
theorem HasFolder.of_join {s : String} (name : Path.IsName s) (nonempty : p.text ≠ "")
    (there : fs.HasFolder (p.join s)) : fs.HasFolder p := by
  have components := Path.components_join_name name p
  have whole : '\x00' ∉ p.text.toList := fun zero => by
    refine whole_of_createDirectories there ?_
    rw [Path.mem_text_iff (by decide) (by decide)] at zero ⊢
    obtain ⟨t, mem, inside⟩ := zero
    exact ⟨t, components ▸ List.mem_append_left _ mem, inside⟩
  have absolute := Path.isAbsolute_of_components_append nonempty components
  unfold HasFolder createDirectories at there ⊢
  split at there
  · cases there
  · rw [components, absolute] at there
    obtain ⟨mid, made, kept⟩ := exists_makeDirectories_append there
    rw [if_neg whole]
    exact makeDirectories_again made kept.directory

/-! ## One directory -/

/-- Whether a location is below the directory that a path leads to. -/
def isBelow (fs : FileSystem) (dir : Path) (l : Location) : Bool :=
  (fs.place? dir).any fun place => place.isPrefixOf l && place != l

theorem KeepsWays.isBelow (h : KeepsWays fs fs') (below : fs.isBelow dir l) : fs'.isBelow dir l := by
  obtain ⟨place, leads, inside⟩ := (Option.any_eq_true _ _).mp below
  exact (Option.any_eq_true _ _).mpr ⟨place, place?_eq_some.mpr (h.locate (place?_eq_some.mp leads)), inside⟩

theorem isBelow_child {name : String} (leads : fs.locate dir = .ok l) : fs.isBelow dir (l ++ [name]) := by
  rw [isBelow, place?_eq_some.mpr leads]
  simp

/-- The bytes of the file at a location, one by one. -/
def fileAt? (fs : FileSystem) (l : Location) : Option (Array UInt8) :=
  match fs.get? l with
  | some (.file bytes) => some bytes.data
  | _ => none

theorem fileAt?_eq_some : fs.fileAt? l = some bytes.data ↔ fs.get? l = some (.file bytes) := by
  unfold fileAt?
  rcases fs.get? l with _ | _ | _ <;> simp [ByteArray.ext_iff]

/-- The locations of all entries. -/
def locations (fs : FileSystem) : List Location :=
  fs.entries.map (·.1)

/-- Whether a change is confined to the files below a directory. -/
structure Confined (dir : Path) (before after : FileSystem) : Prop where
  workingDirectory : after.workingDirectory = before.workingDirectory
  directories : ∀ l ∈ before.locations, before.holdsDirectory l → after.holdsDirectory l
  /-- Files elsewhere stay as they are, and there are no new ones. -/
  files : ∀ l ∈ before.locations ++ after.locations, after.isBelow dir l ∨ after.fileAt? l = before.fileAt? l
  /-- No directories are made there. -/
  plain : ∀ l ∈ after.locations, after.isBelow dir l → after.holdsDirectory l → before.holdsDirectory l

instance {before after : FileSystem} : Decidable (Confined dir before after) :=
  decidable_of_iff (_ ∧ _ ∧ _ ∧ _)
    ⟨fun ⟨workingDirectory, directories, files, plain⟩ => ⟨workingDirectory, directories, files, plain⟩,
      fun h => ⟨h.workingDirectory, h.directories, h.files, h.plain⟩⟩

/-- What is stored somewhere is at the root or an entry. -/
theorem mem_locations_of_get? {e : Entry} (there : fs.get? l = some e) : l = [] ∨ l ∈ fs.locations := by
  by_cases root : l = []
  · exact .inl root
  · exact .inr (mem_entries_of_get? root there)

namespace Confined

theorem ways (h : Confined dir fs fs') : KeepsWays fs fs' := by
  refine .of_directories h.workingDirectory fun l there => ?_
  obtain rfl | mem := mem_locations_of_get? (holdsDirectory_iff.mp there)
  · rfl
  · exact h.directories l mem there

/-- Files elsewhere are the same before and after. -/
theorem file_iff (h : Confined dir fs fs') (outside : ¬ fs'.isBelow dir l) :
    fs'.get? l = some (.file bytes) ↔ fs.get? l = some (.file bytes) := by
  rw [← fileAt?_eq_some, ← fileAt?_eq_some]
  by_cases mem : l ∈ fs.locations ++ fs'.locations
  · rw [(h.files l mem).resolve_left outside]
  · rw [List.mem_append, not_or] at mem
    have none (g : FileSystem) (other : l ∉ g.locations) : g.fileAt? l = none := by
      refine Option.eq_none_iff_forall_ne_some.mpr fun data there => ?_
      have entry : g.get? l = some (.file ⟨data⟩) := fileAt?_eq_some.mp there
      obtain rfl | mem := mem_locations_of_get? entry
      · cases entry
      · exact other mem
    rw [none fs mem.1, none fs' mem.2]

theorem not_directory (h : Confined dir fs fs') (below : fs'.isBelow dir l) (other : ¬ fs.holdsDirectory l) :
    ¬ fs'.holdsDirectory l := by
  intro there
  obtain rfl | mem := mem_locations_of_get? (holdsDirectory_iff.mp there)
  · exact other rfl
  · exact other (h.plain l mem below there)

end Confined

/-! ## Files that are removed -/

/-- Whether there are no files directly inside a directory. -/
def HasNoFileIn (fs : FileSystem) (dir : Path) : Prop :=
  ∀ place, fs.locate dir = .ok place → fs.holdsDirectory place → ∀ name bytes,
    fs.get? (place ++ [name]) ≠ some (.file bytes)

/-- The file system without the files directly inside a location. -/
def withoutFiles (fs : FileSystem) (place : Location) : FileSystem :=
  { fs with entries := fs.entries.filter fun (k, e) => k.dropLast != place || e.isDirectory }

/-- An item that is kept is found as before. -/
theorem find?_filter_of_find? {α : Type} {p q : α → Bool} {xs : List α} {a : α} (found : xs.find? q = some a)
    (kept : p a) : (xs.filter p).find? q = some a := by
  obtain ⟨here, front, back, rfl, before⟩ := List.find?_eq_some_iff_append.mp found
  exact List.find?_eq_some_iff_append.mpr
    ⟨here, front.filter p, back.filter p, by simp [kept], fun x mem => before x (List.mem_filter.mp mem).1⟩

section WithoutFiles

variable {place : Location}

theorem exists_withoutFiles_of_removeFilesIn (removed : fs.removeFilesIn p = .ok fs') :
    ∃ place, fs.locate p = .ok place ∧ fs' = fs.withoutFiles place := by
  unfold removeFilesIn at removed
  cases leads : fs.locate p with
  | error fault => simp [leads, bind, Except.bind] at removed
  | ok place =>
    rw [leads] at removed
    rcases entry : fs.get? place with _ | _ | _
    · simp [bind, Except.bind, entry] at removed
    · simp [bind, Except.bind, entry] at removed
    · simp only [bind, Except.bind, entry] at removed
      exact ⟨place, rfl, (Except.ok.inj removed).symm⟩

theorem get?_withoutFiles_of_ne (other : l.dropLast ≠ place) : (fs.withoutFiles place).get? l = fs.get? l := by
  by_cases root : l = []
  · rw [root]
    rfl
  · rw [get?_of_ne_nil root, get?_of_ne_nil root, withoutFiles, List.find?_filter]
    congr 2
    funext x
    by_cases here : x.1 = l
    · simp [here, other]
    · simp [here]

theorem holdsDirectory_withoutFiles (there : fs.holdsDirectory l) : (fs.withoutFiles place).holdsDirectory l := by
  by_cases root : l = []
  · rw [root]
    rfl
  · rw [holdsDirectory_iff, get?_of_ne_nil root, Option.map_eq_some_iff] at there ⊢
    obtain ⟨x, found, directory⟩ := there
    exact ⟨x, find?_filter_of_find? found (by simp [directory, Entry.isDirectory]), directory⟩

theorem get?_withoutFiles_ne_file (name : String) (bytes : ByteArray) :
    (fs.withoutFiles place).get? (place ++ [name]) ≠ some (.file bytes) := by
  intro there
  rw [get?_of_ne_nil (by simp), Option.map_eq_some_iff] at there
  obtain ⟨x, found, file⟩ := there
  have here : x.1 = place ++ [name] := by simpa using List.find?_some found
  have kept := (List.mem_filter.mp (List.mem_of_find?_eq_some found)).2
  simp [here, file, Entry.isDirectory] at kept

end WithoutFiles

/-- Removing the files of a directory concerns no others, and none of them is left. -/
theorem left_of_removeFilesIn (removed : fs.removeFilesIn dir = .ok fs') :
    KeepsWays fs fs' ∧ (∀ l, ¬ fs'.isBelow dir l → fs'.get? l = fs.get? l) ∧ fs'.HasNoFileIn dir := by
  obtain ⟨place, leads, rfl⟩ := exists_withoutFiles_of_removeFilesIn removed
  have ways : KeepsWays fs (fs.withoutFiles place) := .of_directories rfl fun l => holdsDirectory_withoutFiles
  refine ⟨ways, fun l outside => ?_, fun place' leads' _ name bytes => ?_⟩
  · by_cases root : l = []
    · rw [root]
      rfl
    · refine get?_withoutFiles_of_ne fun here => outside ?_
      rw [← List.dropLast_append_getLast root, here]
      exact isBelow_child (ways.locate leads)
  · cases leads'.symm.trans (ways.locate leads)
    exact get?_withoutFiles_ne_file name bytes

end RenderFarm.FileSystem
