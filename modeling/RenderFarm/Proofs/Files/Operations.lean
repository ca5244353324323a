import RenderFarm.Proofs.Files.Entries

/-!
What the operations on files do where they succeed, and when they do. A path leads to the same place as long as
directories stay; a file can be put where its directory is and no directory is in its way.
-/

namespace RenderFarm.FileSystem

variable {fs fs' : FileSystem} {k l : Location} {lost : List Location} {p source target : Path}

/-- A result whose fault is worded anew. -/
theorem mapError_eq_ok {ε ε' α : Type} {f : ε → ε'} {r : Except ε α} {a : α} :
    r.mapError f = .ok a ↔ r = .ok a := by
  cases r with
  | error fault => exact ⟨nofun, nofun⟩
  | ok b => exact ⟨fun | rfl => rfl, fun | rfl => rfl⟩

/-! ## Paths -/

theorem walk_of_keeps (kept : Keeps fs fs' lost) {cs : List Component} (leads : fs.walk k cs = .ok l) :
    fs'.walk k cs = .ok l := by
  induction cs generalizing k with
  | nil => exact leads
  | cons c cs ih =>
    unfold walk at leads ⊢
    split at leads
    · cases leads
    · cases leads
    · rename_i directory
      have still : fs'.get? k = some .directory :=
        holdsDirectory_iff.mp (kept.directory k (holdsDirectory_iff.mpr directory))
      rw [still]
      cases c with
      | root => exact ih leads
      | here => exact ih leads
      | up => exact ih leads
      | name s =>
        dsimp only at leads ⊢
        split at leads
        · cases leads
        · rename_i short
          rw [if_neg short]
          exact ih leads

/-- A path leads where it led. -/
theorem Keeps.locate (kept : Keeps fs fs' lost) (leads : fs.locate p = .ok l) : fs'.locate p = .ok l := by
  unfold FileSystem.locate at leads ⊢
  split at leads
  · cases leads
  · rename_i nonempty
    split at leads
    · cases leads
    · rename_i whole
      rw [if_neg nonempty, if_neg whole, kept.workingDirectory]
      exact walk_of_keeps kept leads

/-- The location that a path leads to, if it leads to one. -/
def place? (fs : FileSystem) (p : Path) : Option Location :=
  (fs.locate p).toOption

theorem place?_eq_some : fs.place? p = some l ↔ fs.locate p = .ok l := by
  unfold place?
  cases fs.locate p <;> simp [Except.toOption]

theorem isFile_of_locate (leads : fs.locate p = .ok l) : fs.isFile p ↔ fs.holdsFile l ∧ ¬ p.asksForDirectory := by
  unfold isFile entryAt? holdsFile
  rw [leads]
  dsimp only
  rcases fs.get? l with _ | bytes | _
  · simp
  · by_cases asks : p.asksForDirectory <;> simp [asks, Entry.isDirectory]
  · simp [Entry.isDirectory]

theorem isFile_iff : fs.isFile p ↔ ∃ l, fs.locate p = .ok l ∧ fs.holdsFile l ∧ ¬ p.asksForDirectory := by
  constructor
  · intro file
    cases leads : fs.locate p with
    | error fault => simp [isFile, entryAt?, leads] at file
    | ok l => exact ⟨l, rfl, (isFile_of_locate leads).mp file⟩
  · rintro ⟨l, leads, there⟩
    exact (isFile_of_locate leads).mpr there

/-- A file stays one, unless it is lost. -/
theorem Keeps.isFile (kept : Keeps fs fs' lost) (file : fs.isFile p)
    (outside : ∀ l, fs.locate p = .ok l → l ∉ lost) : fs'.isFile p := by
  obtain ⟨l, leads, there, plain⟩ := isFile_iff.mp file
  exact isFile_iff.mpr ⟨l, kept.locate leads, kept.file l (outside l leads) there, plain⟩

/-! ## Reading and writing -/

theorem read_of_isFile (file : fs.isFile p) : ∃ bytes, fs.read p = .ok bytes := by
  obtain ⟨l, leads, there, plain⟩ := isFile_iff.mp file
  obtain ⟨bytes, entry⟩ := holdsFile_iff.mp there
  refine ⟨bytes, ?_⟩
  unfold read
  rw [leads]
  simp [bind, Except.bind, entry, plain]

/-- Where nothing is, nothing is read. -/
theorem read_of_free (leads : fs.locate p = .ok l) (free : fs.get? l = none) : fs.read p = .error .notFound := by
  unfold read
  rw [leads]
  simp [bind, Except.bind, free]

/-- Whether a file can be put where a path leads to. -/
def canHold (fs : FileSystem) (p : Path) : Bool :=
  match fs.locate p with
  | .ok l => fs.holdsDirectory l.dropLast && !fs.holdsDirectory l && !p.asksForDirectory
  | .error _ => false

theorem canHold_of_locate (leads : fs.locate p = .ok l) :
    fs.canHold p ↔ fs.holdsDirectory l.dropLast ∧ ¬ fs.holdsDirectory l ∧ ¬ p.asksForDirectory := by
  unfold canHold
  rw [leads]
  simp [and_assoc]

theorem exists_locate_of_canHold (able : fs.canHold p) : ∃ l, fs.locate p = .ok l := by
  unfold canHold at able
  split at able
  · rename_i l leads
    exact ⟨l, leads⟩
  · cases able

/-- What can be written can be written after a change that makes no directories. -/
theorem Keeps.canHold (kept : Keeps fs fs' lost) (plain : MakesNoDirectory fs fs') (able : fs.canHold p) :
    fs'.canHold p := by
  obtain ⟨l, leads⟩ := exists_locate_of_canHold able
  obtain ⟨parent, other, ends⟩ := (canHold_of_locate leads).mp able
  rw [canHold_of_locate (kept.locate leads)]
  exact ⟨kept.directory _ parent, fun there => other (plain l there), ends⟩

theorem write_of_canHold (leads : fs.locate p = .ok l) (able : fs.canHold p) (bytes : ByteArray) :
    fs.write p bytes = .ok (fs.set l (.file bytes)) := by
  obtain ⟨parent, other, ends⟩ := (canHold_of_locate leads).mp able
  rw [holdsDirectory_iff] at other
  unfold write
  rw [leads]
  rcases entry : fs.get? l with _ | old | _
  · simp [bind, Except.bind, entry, parent, ends]
  · simp [bind, Except.bind, entry, ends]
  · exact absurd entry other

/-- A file that can be put to its target is moved there. -/
theorem rename_of_canHold (leads : fs.locate source = .ok k) (leads' : fs.locate target = .ok l)
    (file : fs.isFile source) (able : fs.canHold target) :
    ∃ bytes, fs.rename source target = .ok ((fs.erase k).set l (.file bytes)) := by
  obtain ⟨there, plain⟩ := (isFile_of_locate leads).mp file
  obtain ⟨parent, other, ends⟩ := (canHold_of_locate leads').mp able
  obtain ⟨bytes, entry⟩ := holdsFile_iff.mp there
  rw [holdsDirectory_iff] at other
  refine ⟨bytes, ?_⟩
  unfold rename
  rw [leads, leads']
  rcases entry' : fs.get? l with _ | old | _
  · simp [bind, Except.bind, entry, entry', plain, parent, ends]
  · simp [bind, Except.bind, entry, entry', plain, parent, ends]
  · exact absurd entry' other

/-! ## Making directories -/

theorem makeDirectories_keeps {cs : List Component} (made : fs.makeDirectories k cs = .ok fs') :
    Keeps fs fs' [] := by
  induction cs generalizing fs k with
  | nil =>
    cases made
    exact .refl _
  | cons c cs ih =>
    cases c with
    | root => exact ih made
    | here => exact ih made
    | up => exact ih made
    | name s =>
      rw [makeDirectories] at made
      split at made
      · exact ih made
      · cases made
      · rename_i free
        split at made
        · cases made
        · exact (Keeps.setDirectory free).trans (ih made)

theorem createDirectories_keeps (made : fs.createDirectories p = .ok fs') : Keeps fs fs' [] := by
  unfold createDirectories at made
  split at made
  · cases made
  · exact makeDirectories_keeps made

end RenderFarm.FileSystem
