import RenderFarm.Proofs.Files.Contents
import RenderFarm.Proofs.Files.Walk

/-!
Files that are added or written over, while directories stay as they are: paths lead where they led, before and after,
and what could be written can still be written. A text that was written is read back.
-/

namespace RenderFarm.FileSystem

variable {fs fs' fs'' : FileSystem} {k l : Location} {p q : Path} {s : String}

/-- A path leads to a directory, or to a file if it does not ask for a directory. -/
theorem exists?_iff : fs.exists? p ↔
    ∃ l, fs.locate p = .ok l ∧ (fs.holdsDirectory l ∨ fs.holdsFile l ∧ p.asksForDirectory = false) := by
  unfold FileSystem.exists? entryAt? holdsDirectory holdsFile
  cases fs.locate p with
  | error fault => simp
  | ok l =>
    rcases entry : fs.get? l with _ | _ | _
    all_goals simp [entry, Entry.isDirectory]

/-- The same directories, and at least the same files. -/
structure Adds (fs fs' : FileSystem) : Prop where
  keeps : Keeps fs fs' []
  plain : MakesNoDirectory fs fs'

namespace Adds

theorem refl (fs : FileSystem) : Adds fs fs :=
  ⟨.refl fs, fun _ there => there⟩

theorem trans (first : Adds fs fs') (second : Adds fs' fs'') : Adds fs fs'' :=
  ⟨first.keeps.trans second.keeps, fun l there => first.plain l (second.plain l there)⟩

theorem setFile (other : ¬ fs.holdsDirectory l) (bytes : ByteArray) : Adds fs (fs.set l (.file bytes)) :=
  ⟨.setFile other bytes, makesNoDirectory_setFile other bytes⟩

/-- A file that is written over was there before. -/
theorem of_setFile (file : fs.holdsFile l) (bytes : ByteArray) : Adds (fs.set l (.file bytes)) fs where
  keeps :=
    { workingDirectory := (Keeps.setFile (not_holdsDirectory_of_holdsFile file) bytes).workingDirectory.symm
      directory := makesNoDirectory_setFile (not_holdsDirectory_of_holdsFile file) bytes
      file := by
        intro k _ there
        by_cases here : k = l
        · rwa [here]
        · rwa [holdsFile, get?_set_of_ne here] at there }
  plain := (Keeps.setFile (not_holdsDirectory_of_holdsFile file) bytes).directory

/-- A path leads where it leads afterwards. -/
theorem locate_back (h : Adds fs fs') (leads : fs'.locate p = .ok l) : fs.locate p = .ok l :=
  (KeepsWays.of_directories h.keeps.workingDirectory.symm h.plain).locate leads

/-- What is there stays there. -/
theorem exists? (h : Adds fs fs') (there : fs.exists? p) : fs'.exists? p := by
  obtain ⟨l, leads, entry⟩ := exists?_iff.mp there
  refine exists?_iff.mpr ⟨l, h.keeps.locate leads, entry.imp (h.keeps.directory l) fun ⟨file, plain⟩ => ?_⟩
  exact ⟨h.keeps.file l List.not_mem_nil file, plain⟩

/-- What could be written can be written. -/
theorem exists_write {bytes : ByteArray} (h : Adds fs fs') (written : fs.write p bytes = .ok fs'')
    (bytes' : ByteArray) : ∃ after, fs'.write p bytes' = .ok after := by
  obtain ⟨l, leads, other, ends, parent, -⟩ := exists_set_of_write written
  have other' : ¬ fs'.holdsDirectory l := fun there => other (h.plain l there)
  unfold write
  rw [h.keeps.locate leads]
  rcases entry : fs'.get? l with _ | old | _
  · -- Nothing was there before either.
    have free : fs.get? l = none := by
      rcases entry' : fs.get? l with _ | old | _
      · rfl
      · have file := h.keeps.file l List.not_mem_nil (holdsFile_iff.mpr ⟨old, entry'⟩)
        simp [holdsFile, entry] at file
      · exact absurd (holdsDirectory_iff.mpr entry') other
    have directory := h.keeps.directory _ (parent free)
    simp [bind, Except.bind, entry, directory, ends]
  · simp [bind, Except.bind, entry, ends]
  · exact absurd (holdsDirectory_iff.mpr entry) other'

end Adds

/-- A file that is written is there afterwards, beside all that was there. -/
theorem adds_write {bytes : ByteArray} (written : fs.write p bytes = .ok fs') : Adds fs fs' ∧ fs'.exists? p := by
  obtain ⟨l, leads, other, plain, -, rfl⟩ := exists_set_of_write written
  have adds := Adds.setFile other bytes
  have file : (fs.set l (.file bytes)).holdsFile l :=
    holdsFile_iff.mpr ⟨bytes, get?_set_self (ne_nil_of_not_holdsDirectory other) _⟩
  exact ⟨adds, exists?_iff.mpr ⟨l, adds.keeps.locate leads, .inr ⟨file, plain⟩⟩⟩

/-! ## Texts -/

theorem readText_of_write (written : fs.writeText p s = .ok fs') : fs'.readText p = .ok s := by
  unfold readText
  rw [read_of_write written]
  simp only [bind, Except.bind, fromUTF8?_toUTF8]

/-- A text that is read is in a file. -/
theorem exists_locate_of_readText (text : fs.readText p = .ok s) :
    ∃ l, fs.locate p = .ok l ∧ fs.holdsFile l ∧ p.asksForDirectory = false := by
  unfold readText at text
  cases bytes : fs.read p with
  | error fault => simp [bytes, bind, Except.bind] at text
  | ok b =>
    obtain ⟨l, leads, entry, plain⟩ := read_eq_ok_iff.mp bytes
    exact ⟨l, leads, holdsFile_iff.mpr ⟨b, entry⟩, plain⟩

/-- A file is read as before when another one is written. -/
theorem readText_set_of_ne (leads : fs.locate p = .ok l) (other : l ≠ k) (file : ¬ fs.holdsDirectory k)
    (bytes : ByteArray) : (fs.set k (.file bytes)).readText p = fs.readText p := by
  unfold readText read
  rw [leads, (Keeps.setFile file bytes).locate leads]
  simp only [bind, Except.bind, get?_set_of_ne other]

/-- A text file can be written over. -/
theorem writeText_of_holdsFile (leads : fs.locate p = .ok l) (file : fs.holdsFile l)
    (plain : p.asksForDirectory = false) (s : String) :
    fs.writeText p s = .ok (fs.set l (.file s.toUTF8)) := by
  obtain ⟨bytes, entry⟩ := holdsFile_iff.mp file
  unfold writeText write
  rw [leads]
  simp [bind, Except.bind, entry, plain]

end RenderFarm.FileSystem
