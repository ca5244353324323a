import RenderFarm.FileSystem

/-!
What is stored where, before and after a change. One file system keeps another one when directories stay
directories and files stay files, save for the files at some locations; every path then leads where it led.
-/

namespace RenderFarm.FileSystem

variable {fs fs' fs'' : FileSystem} {k l : Location} {p : Path}

/-! ## Single entries -/

/-- Whether a location holds a file. -/
def holdsFile (fs : FileSystem) (l : Location) : Bool :=
  (fs.get? l).any fun e => !e.isDirectory

theorem holdsDirectory_iff : fs.holdsDirectory l ↔ fs.get? l = some .directory := by
  unfold holdsDirectory
  rcases fs.get? l with _ | _ | _ <;> simp [Entry.isDirectory]

theorem holdsFile_iff : fs.holdsFile l ↔ ∃ bytes, fs.get? l = some (.file bytes) := by
  unfold holdsFile
  rcases fs.get? l with _ | _ | _ <;> simp [Entry.isDirectory]

theorem not_holdsDirectory_of_holdsFile (file : fs.holdsFile l) : ¬ fs.holdsDirectory l := by
  obtain ⟨bytes, entry⟩ := holdsFile_iff.mp file
  rw [holdsDirectory_iff, entry]
  simp

/-- The root is a directory. -/
theorem ne_nil_of_not_holdsDirectory (other : ¬ fs.holdsDirectory l) : l ≠ [] := by
  rintro rfl
  exact other rfl

theorem get?_of_ne_nil (nonroot : l ≠ []) : fs.get? l = (fs.entries.find? (·.1 == l)).map (·.2) := by
  rw [get?, if_neg (by simpa using nonroot)]

/-- An entry that is replaced is found as the new one. -/
theorem find?_replace_self {xs : List (Location × Entry)} (taken : xs.any (·.1 == l)) (e : Entry) :
    (xs.map fun x => if x.1 == l then (l, e) else x).find? (·.1 == l) = some (l, e) := by
  induction xs with
  | nil => cases taken
  | cons x xs ih =>
    rw [List.map_cons]
    by_cases first : x.1 = l
    · rw [List.find?_cons_of_pos] <;> simp [first]
    · rw [List.find?_cons_of_neg (by simp [first])]
      exact ih (by simpa [first] using taken)

/-- Replacing an entry does not change what is found elsewhere. -/
theorem find?_replace_of_ne (other : k ≠ l) (xs : List (Location × Entry)) (e : Entry) :
    (xs.map fun x => if x.1 == l then (l, e) else x).find? (·.1 == k) = xs.find? (·.1 == k) := by
  induction xs with
  | nil => rfl
  | cons x xs ih =>
    rw [List.map_cons]
    by_cases replaced : x.1 = l
    · have apart : (l == k) = false := by simpa using Ne.symm other
      have passed : (x.1 == k) = false := by rw [replaced, apart]
      rw [if_pos (by simpa using replaced), List.find?_cons, List.find?_cons, ih]
      simp only [apart, passed]
    · rw [if_neg (by simpa using replaced), List.find?_cons, List.find?_cons, ih]

theorem get?_set_self (nonroot : l ≠ []) (e : Entry) : (fs.set l e).get? l = some e := by
  rw [get?_of_ne_nil nonroot, set]
  split
  · rename_i taken
    rw [find?_replace_self taken, Option.map_some]
  · rename_i free
    have nothing : fs.entries.find? (·.1 == l) = none := by
      rw [List.find?_eq_none]
      exact fun x mem here => free (List.any_eq_true.mpr ⟨x, mem, here⟩)
    rw [List.find?_append, nothing]
    simp

theorem get?_set_of_ne (other : k ≠ l) (e : Entry) : (fs.set l e).get? k = fs.get? k := by
  by_cases root : k = []
  · rw [root]
    rfl
  · rw [get?_of_ne_nil root, get?_of_ne_nil root, set]
    split
    · rw [find?_replace_of_ne other]
    · rw [List.find?_append]
      simp [Ne.symm other]

theorem holdsFile_setFile (other : ¬ fs.holdsDirectory l) (bytes : ByteArray) :
    (fs.set l (.file bytes)).holdsFile l :=
  holdsFile_iff.mpr ⟨bytes, get?_set_self (ne_nil_of_not_holdsDirectory other) _⟩

theorem get?_erase_self (nonroot : l ≠ []) : (fs.erase l).get? l = none := by
  rw [get?_of_ne_nil nonroot, erase, Option.map_eq_none_iff, List.find?_eq_none]
  intro x mem here
  have kept : x.1 ≠ l := by simpa using (List.mem_filter.mp mem).2
  exact kept (by simpa using here)

theorem get?_erase_of_ne (other : k ≠ l) : (fs.erase l).get? k = fs.get? k := by
  by_cases root : k = []
  · rw [root]
    rfl
  · rw [get?_of_ne_nil root, get?_of_ne_nil root, erase, List.find?_filter]
    congr 2
    funext x
    by_cases here : x.1 = k
    · simp [here, other]
    · simp [here]

/-! ## What a change keeps -/

/-- What a file system keeps of another one: directories stay directories, and files stay files unless they
are at one of the locations. -/
structure Keeps (fs fs' : FileSystem) (lost : List Location) : Prop where
  workingDirectory : fs'.workingDirectory = fs.workingDirectory
  directory : ∀ l, fs.holdsDirectory l → fs'.holdsDirectory l
  file : ∀ l ∉ lost, fs.holdsFile l → fs'.holdsFile l

/-- Whether all directories of a file system are there before. -/
def MakesNoDirectory (fs fs' : FileSystem) : Prop :=
  ∀ l, fs'.holdsDirectory l → fs.holdsDirectory l

namespace Keeps

variable {lost lost' : List Location}

theorem refl (fs : FileSystem) : Keeps fs fs [] :=
  ⟨rfl, fun _ there => there, fun _ _ there => there⟩

theorem mono (kept : Keeps fs fs' lost) (more : lost ⊆ lost') : Keeps fs fs' lost' :=
  ⟨kept.workingDirectory, kept.directory, fun l outside => kept.file l fun mem => outside (more mem)⟩

theorem trans (first : Keeps fs fs' lost) (second : Keeps fs' fs'' lost') : Keeps fs fs'' (lost ++ lost') where
  workingDirectory := second.workingDirectory.trans first.workingDirectory
  directory l there := second.directory l (first.directory l there)
  file l outside there := by
    rw [List.mem_append, not_or] at outside
    exact second.file l outside.2 (first.file l outside.1 there)

/-- A file is put where no directory is. -/
theorem setFile (other : ¬ fs.holdsDirectory l) (bytes : ByteArray) : Keeps fs (fs.set l (.file bytes)) [] where
  workingDirectory := by
    unfold set
    split <;> rfl
  directory k there := by
    have apart : k ≠ l := fun same => other (same ▸ there)
    rwa [holdsDirectory, get?_set_of_ne apart]
  file k _ there := by
    by_cases here : k = l
    · rw [here]
      exact holdsFile_setFile other bytes
    · rwa [holdsFile, get?_set_of_ne here]

/-- A directory is put where nothing is. -/
theorem setDirectory (free : fs.get? l = none) : Keeps fs (fs.set l .directory) [] where
  workingDirectory := by
    unfold set
    split <;> rfl
  directory k there := by
    have apart : k ≠ l := by
      rintro rfl
      simp [holdsDirectory, free] at there
    rwa [holdsDirectory, get?_set_of_ne apart]
  file k _ there := by
    have apart : k ≠ l := by
      rintro rfl
      simp [holdsFile, free] at there
    rwa [holdsFile, get?_set_of_ne apart]

/-- A file is removed. -/
theorem eraseFile (file : fs.holdsFile l) : Keeps fs (fs.erase l) [l] where
  workingDirectory := rfl
  directory k there := by
    have apart : k ≠ l := by
      rintro rfl
      exact not_holdsDirectory_of_holdsFile file there
    rwa [holdsDirectory, get?_erase_of_ne apart]
  file k outside there := by
    have apart : k ≠ l := by simpa using outside
    rwa [holdsFile, get?_erase_of_ne apart]

end Keeps

theorem makesNoDirectory_setFile (other : ¬ fs.holdsDirectory l) (bytes : ByteArray) :
    MakesNoDirectory fs (fs.set l (.file bytes)) := by
  intro k there
  by_cases here : k = l
  · rw [here, holdsDirectory_iff, get?_set_self (ne_nil_of_not_holdsDirectory other)] at there
    cases there
  · rwa [holdsDirectory, get?_set_of_ne here] at there

theorem makesNoDirectory_erase (nonroot : l ≠ []) : MakesNoDirectory fs (fs.erase l) := by
  intro k there
  by_cases here : k = l
  · rw [here, holdsDirectory_iff, get?_erase_self nonroot] at there
    cases there
  · rwa [holdsDirectory, get?_erase_of_ne here] at there

end RenderFarm.FileSystem
