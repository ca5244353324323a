import RenderFarm.Proofs.Files.Operations

/-!
The exact effect of operations on files that have succeeded: which location they have changed, and what every
other location holds.
-/

namespace RenderFarm.FileSystem

variable {fs fs' : FileSystem} {k l : Location} {p source target : Path} {bytes : ByteArray}

/-- Making directories changes nothing that is there. -/
theorem get?_makeDirectories {cs : List Component} (made : fs.makeDirectories k cs = .ok fs') (l : Location) :
    fs'.get? l = fs.get? l ∨ fs.get? l = none ∧ fs'.get? l = some .directory := by
  induction cs generalizing fs k with
  | nil =>
    cases made
    exact .inl rfl
  | cons c cs ih =>
    cases c with
    | root => exact ih made
    | here => exact ih made
    | up => exact ih made
    | name s =>
      rw [makeDirectories] at made
      split at made
      · exact ih made
      · cases made
      · rename_i free
        split at made
        · cases made
        · -- The new directory is the only one of the two that was not there before.
          have later := ih made
          by_cases here : l = k ++ [s]
          · rw [here, get?_set_self (by simp)] at later
            rw [here]
            refine .inr ⟨free, ?_⟩
            obtain same | ⟨nothing, _⟩ := later
            · exact same
            · cases nothing
          · rwa [get?_set_of_ne here] at later

theorem get?_createDirectories (made : fs.createDirectories p = .ok fs') (l : Location) :
    fs'.get? l = fs.get? l ∨ fs.get? l = none ∧ fs'.get? l = some .directory := by
  unfold createDirectories at made
  split at made
  · cases made
  · exact get?_makeDirectories made l

/-- Making directories changes no files. -/
theorem file_createDirectories (made : fs.createDirectories p = .ok fs') (l : Location) (bytes : ByteArray) :
    fs'.get? l = some (.file bytes) ↔ fs.get? l = some (.file bytes) := by
  obtain same | ⟨nothing, directory⟩ := get?_createDirectories made l
  · rw [same]
  · simp [nothing, directory]

/-- A file is read from the location that its path leads to. -/
theorem read_eq_ok_iff : fs.read p = .ok bytes ↔
    ∃ l, fs.locate p = .ok l ∧ fs.get? l = some (.file bytes) ∧ p.asksForDirectory = false := by
  unfold read
  cases leads : fs.locate p with
  | error fault => simp [bind, Except.bind]
  | ok l =>
    rcases entry : fs.get? l with _ | old | _
    · simp [bind, Except.bind, entry]
    · cases asks : p.asksForDirectory <;> simp [bind, Except.bind, entry]
    · simp [bind, Except.bind, entry]

/-- Where nothing exists, nothing is stored. -/
theorem get?_of_not_exists? (free : ¬ fs.exists? p) (leads : fs.locate p = .ok l)
    (plain : p.asksForDirectory = false) : fs.get? l = none := by
  unfold exists? entryAt? at free
  rw [leads] at free
  rcases entry : fs.get? l with _ | old | _
  · rfl
  · simp [entry, plain] at free
  · simp [entry] at free

/-- A file that was written is at the location that its path leads to, and nothing else has changed. -/
theorem exists_set_of_write (written : fs.write p bytes = .ok fs') :
    ∃ l, fs.locate p = .ok l ∧ ¬ fs.holdsDirectory l ∧ p.asksForDirectory = false ∧
      (fs.get? l = none → fs.holdsDirectory l.dropLast) ∧ fs' = fs.set l (.file bytes) := by
  unfold write at written
  cases leads : fs.locate p with
  | error fault => simp [leads, bind, Except.bind] at written
  | ok l =>
    rw [leads] at written
    rcases entry : fs.get? l with _ | old | _
    · simp only [bind, Except.bind, entry] at written
      split at written
      · cases written
      · rename_i parent
        split at written
        · cases written
        · rename_i plain
          refine ⟨l, rfl, by simp [holdsDirectory, entry], by simpa using plain, fun _ => by simpa using parent, ?_⟩
          exact (Except.ok.inj written).symm
    · simp only [bind, Except.bind, entry] at written
      split at written
      · cases written
      · rename_i plain
        refine ⟨l, rfl, by simp [holdsDirectory, entry, Entry.isDirectory], by simpa using plain, ?_, ?_⟩
        · intro none
          simp [entry] at none
        · exact (Except.ok.inj written).symm
    · simp [bind, Except.bind, entry] at written

/-- What was written is read. -/
theorem read_of_write (written : fs.write p bytes = .ok fs') : fs'.read p = .ok bytes := by
  obtain ⟨l, leads, file, plain, -, rfl⟩ := exists_set_of_write written
  exact read_eq_ok_iff.mpr ⟨l, (Keeps.setFile file bytes).locate leads,
    get?_set_self (ne_nil_of_not_holdsDirectory file) _, plain⟩

theorem fromUTF8?_toUTF8 (s : String) : String.fromUTF8? s.toUTF8 = some s := by
  simp only [String.fromUTF8?, String.toUTF8_eq_toByteArray, dif_pos s.isValidUTF8]
  rfl

/-- A file that was renamed is at its target, and nothing else has changed but that it is gone from where it was. -/
theorem exists_set_of_rename (renamed : fs.rename source target = .ok fs') (read : fs.read source = .ok bytes) :
    ∃ k l, fs.locate source = .ok k ∧ fs.get? k = some (.file bytes) ∧ fs.locate target = .ok l ∧
      ¬ fs.holdsDirectory l ∧ fs' = (fs.erase k).set l (.file bytes) := by
  obtain ⟨k, leads, there, _⟩ := read_eq_ok_iff.mp read
  unfold rename at renamed
  cases leads' : fs.locate target with
  | error fault => simp [leads, leads', bind, Except.bind] at renamed
  | ok l =>
    rw [leads, leads'] at renamed
    rcases entry : fs.get? l with _ | old | _
    · simp only [bind, Except.bind, there, entry] at renamed
      split at renamed
      · cases renamed
      · split at renamed
        · cases renamed
        · exact ⟨k, l, leads, there, rfl, by simp [holdsDirectory, entry], (Except.ok.inj renamed).symm⟩
    · simp only [bind, Except.bind, there, entry] at renamed
      split at renamed
      · cases renamed
      · split at renamed
        · cases renamed
        · exact ⟨k, l, leads, there, rfl, by simp [holdsDirectory, entry, Entry.isDirectory],
            (Except.ok.inj renamed).symm⟩
    · simp [bind, Except.bind, there, entry] at renamed

/-- A copy is written with the bytes of the original. -/
theorem write_of_copy (copied : fs.copy source target = .ok fs') (read : fs.read source = .ok bytes) :
    fs.write target bytes = .ok fs' := by
  rwa [copy, read] at copied

theorem exists_read_of_copy (copied : fs.copy source target = .ok fs') : ∃ bytes, fs.read source = .ok bytes := by
  unfold copy at copied
  split at copied
  · rename_i bytes read
    exact ⟨bytes, read⟩
  · cases copied
  · cases copied

/-- The place that a file is copied to. -/
theorem exists_locate_of_copy (copied : fs.copy source target = .ok fs') : ∃ l, fs.locate target = .ok l := by
  obtain ⟨bytes, read⟩ := exists_read_of_copy copied
  obtain ⟨l, leads, _⟩ := exists_set_of_write (write_of_copy copied read)
  exact ⟨l, leads⟩

/-- The place that a file or a directory is renamed to. -/
theorem exists_locate_of_rename (renamed : fs.rename source target = .ok fs') : ∃ l, fs.locate target = .ok l := by
  unfold rename at renamed
  cases leads : fs.locate source with
  | error fault => simp [leads, bind, Except.bind] at renamed
  | ok k =>
    cases leads' : fs.locate target with
    | error fault => simp [leads, leads', bind, Except.bind] at renamed
    | ok l => exact ⟨l, rfl⟩

/-- What was renamed and is no directory can be read. -/
theorem exists_read_of_rename (renamed : fs.rename source target = .ok fs') (leads : fs.locate source = .ok k)
    (other : ¬ fs.holdsDirectory k) : ∃ bytes, fs.read source = .ok bytes := by
  rcases entry : fs.get? k with _ | bytes | _
  · unfold rename at renamed
    rw [leads] at renamed
    cases leads' : fs.locate target <;> simp [leads', bind, Except.bind, entry] at renamed
  · refine ⟨bytes, read_eq_ok_iff.mpr ⟨k, leads, entry, ?_⟩⟩
    unfold rename at renamed
    rw [leads] at renamed
    cases leads' : fs.locate target with
    | error fault => simp [leads', bind, Except.bind] at renamed
    | ok l =>
      cases asks : source.asksForDirectory with
      | false => rfl
      | true =>
        rcases entry' : fs.get? l with _ | _ | _ <;>
          simp [leads', bind, Except.bind, entry, entry', asks] at renamed
  · exact absurd (holdsDirectory_iff.mpr entry) other

/-- What can be copied to a free place can be moved there. -/
theorem exists_rename_of_copy (copied : fs.copy source target = .ok fs') (read : fs.read source = .ok bytes)
    (free : ¬ fs.exists? target) : ∃ fs'', fs.rename source target = .ok fs'' := by
  obtain ⟨k, leads, there, open'⟩ := read_eq_ok_iff.mp read
  obtain ⟨l, leads', notDirectory, plain, parent, _⟩ := exists_set_of_write (write_of_copy copied read)
  have empty := get?_of_not_exists? free leads' plain
  have able : fs.canHold target := (canHold_of_locate leads').mpr ⟨parent empty, notDirectory, by simp [plain]⟩
  have file : fs.isFile source := (isFile_of_locate leads).mpr ⟨holdsFile_iff.mpr ⟨bytes, there⟩, by simp [open']⟩
  obtain ⟨_, moved⟩ := rename_of_canHold leads leads' file able
  exact ⟨_, moved⟩

end RenderFarm.FileSystem
