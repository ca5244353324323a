import RenderFarm.Proofs.Files.Confinement
import RenderFarm.Proofs.Output.Deposit

/-!
What is left when an image was to be put into the output tree, whether or not that succeeds. Its folder may be made,
the image may get there, and its record may be written beside it; a failure leaves what was done until then.
-/

namespace RenderFarm.Output

open FileSystem (Keeps KeepsWays MakesNoDirectory mapError_eq_ok)

variable {job : Job} {image : RenderedImage} {facts : Facts} {root : Path} {now : Instant}
  {before fs fs' : FileSystem} {k l : Location} {bytes : ByteArray}

/-- Whether an image is the input of its job. It is copied then. -/
def Copied (job : Job) (image : RenderedImage) : Prop :=
  job.inputImage.any (·.sameAs image.path)

/-- Whether a file is an image in the output tree or its record. They are at one spot of the folder that the image
goes to; the bytes of the image are those that were at its path before. -/
def Puts (job : Job) (image : RenderedImage) (facts : Facts) (root : Path) (now : Instant)
    (before after : FileSystem) (l : Location) (bytes : ByteArray) : Prop :=
  ∃ spot : Spot, after.locate (folder job facts.upscaled root now) = .ok spot.folder ∧
    ((l = spot.file (extension image.path) ∧
        ∃ k, after.locate image.path = .ok k ∧ before.get? k = some (.file bytes)) ∨
      (l = spot.file "json" ∧ bytes = (record job image facts now).text.toUTF8))

theorem Puts.keeps (puts : Puts job image facts root now before fs l bytes) (kept : KeepsWays fs fs') :
    Puts job image facts root now before fs' l bytes := by
  obtain ⟨spot, leads, here⟩ := puts
  refine ⟨spot, kept.locate leads, here.imp_left fun stored => ?_⟩
  obtain ⟨place, k, source, there⟩ := stored
  exact ⟨place, k, kept.locate source, there⟩

/-- What is left of the files when an image was to be put into the output tree. -/
structure Leaves (job : Job) (image : RenderedImage) (facts : Facts) (root : Path) (now : Instant)
    (before after : FileSystem) : Prop where
  ways : KeepsWays before after
  new : ∀ l bytes, after.get? l = some (.file bytes) →
    before.get? l = some (.file bytes) ∨ Puts job image facts root now before after l bytes
  /-- A file is gone only if a record has taken its place, or if it is the image and was moved. -/
  old : ∀ l bytes, before.get? l = some (.file bytes) →
    after.get? l = some (.file bytes) ∨ (∃ spot : Spot, l = spot.file "json") ∨
      ¬ Copied job image ∧ before.locate image.path = .ok l
  /-- No file makes place for a directory. -/
  solid : ∀ l, before.holdsFile l → ¬ after.holdsDirectory l
  plain : before.HasFolder (folder job facts.upscaled root now) → MakesNoDirectory before after

namespace Leaves

theorem refl (before : FileSystem) : Leaves job image facts root now before before where
  ways := .refl before
  new _ _ there := .inl there
  old _ _ there := .inl there
  solid _ there := FileSystem.not_holdsDirectory_of_holdsFile there
  plain _ _ there := there

/-- The folder is made. -/
theorem of_createDirectories {made : FileSystem}
    (created : before.createDirectories (folder job facts.upscaled root now) = .ok made) :
    Leaves job image facts root now before made where
  ways := (FileSystem.createDirectories_keeps created).ways
  new l bytes there := .inl ((FileSystem.file_createDirectories created l bytes).mp there)
  old l bytes there := .inl ((FileSystem.file_createDirectories created l bytes).mpr there)
  solid l there := FileSystem.not_holdsDirectory_of_holdsFile
    ((FileSystem.createDirectories_keeps created).file l List.not_mem_nil there)
  plain there := by
    cases created.symm.trans there
    exact fun _ directory => directory

/-- A file of the output tree is written. -/
theorem setFile (h : Leaves job image facts root now before fs) (other : ¬ fs.holdsDirectory l)
    (puts : Puts job image facts root now before fs l bytes)
    (spare : ∀ old, fs.get? l = some (.file old) → ∃ spot : Spot, l = spot.file "json") :
    Leaves job image facts root now before (fs.set l (.file bytes)) := by
  have nonroot := FileSystem.ne_nil_of_not_holdsDirectory other
  have kept : KeepsWays fs (fs.set l (.file bytes)) := (Keeps.setFile other bytes).ways
  have noNew := FileSystem.makesNoDirectory_setFile other bytes
  refine ⟨h.ways.trans kept, fun k new there => ?_, fun k old there => ?_, fun k file directory => ?_,
    fun folder k directory => ?_⟩
  · by_cases here : k = l
    · rw [here, FileSystem.get?_set_self nonroot] at there
      cases there
      exact .inr (here ▸ puts.keeps kept)
    · rw [FileSystem.get?_set_of_ne here] at there
      exact (h.new k new there).imp_right fun puts => puts.keeps kept
  · obtain still | gone := h.old k old there
    · by_cases here : k = l
      · exact .inr (.inl (here ▸ spare old (here ▸ still)))
      · exact .inl (by rwa [FileSystem.get?_set_of_ne here])
    · exact .inr gone
  · exact h.solid k file (noNew k directory)
  · exact h.plain folder k (noNew k directory)

/-- The image is taken away from where it was. -/
theorem eraseImage (h : Leaves job image facts root now before fs) (file : fs.holdsFile k)
    (moved : ¬ Copied job image) (source : before.locate image.path = .ok k) :
    Leaves job image facts root now before (fs.erase k) := by
  have nonroot := FileSystem.ne_nil_of_not_holdsDirectory (FileSystem.not_holdsDirectory_of_holdsFile file)
  have kept : KeepsWays fs (fs.erase k) := (Keeps.eraseFile file).ways
  have noNew : MakesNoDirectory fs (fs.erase k) := FileSystem.makesNoDirectory_erase nonroot
  refine ⟨h.ways.trans kept, fun l new there => ?_, fun l old there => ?_, fun l file directory => ?_,
    fun folder l directory => ?_⟩
  · by_cases here : l = k
    · rw [here, FileSystem.get?_erase_self nonroot] at there
      cases there
    · rw [FileSystem.get?_erase_of_ne here] at there
      exact (h.new l new there).imp_right fun puts => puts.keeps kept
  · by_cases here : l = k
    · exact .inr (.inr ⟨moved, here ▸ source⟩)
    · rw [FileSystem.get?_erase_of_ne here]
      exact h.old l old there
  · exact h.solid l file (noNew l directory)
  · exact h.plain folder l (noNew l directory)

/-- An image gets to its spot, where nothing was. -/
theorem deposited {d : Deposit} {made : FileSystem} {origin : Location} {spot : Spot}
    (h : Leaves d.job d.image d.facts root d.now d.before made)
    (puts : Puts d.job d.image d.facts root d.now d.before made (spot.file d.extension) d.bytes)
    (there : made.get? origin = some (.file d.bytes)) (free : made.get? (spot.file d.extension) = none)
    (source : Copied d.job d.image ∨ d.before.locate d.image.path = .ok origin) :
    Leaves d.job d.image d.facts root d.now d.before (d.placed made origin spot) := by
  unfold Deposit.placed
  by_cases input : Copied d.job d.image
  · rw [if_pos (show d.copied from input)]
    refine h.setFile (by simp [FileSystem.holdsDirectory, free]) puts fun old here => ?_
    cases free.symm.trans here
  · rw [if_neg (show ¬ d.copied from input)]
    have file : made.holdsFile origin := FileSystem.holdsFile_iff.mpr ⟨d.bytes, there⟩
    have apart : spot.file d.extension ≠ origin := by
      intro here
      cases (here ▸ free).symm.trans there
    have empty : (made.erase origin).get? (spot.file d.extension) = none := by
      rw [FileSystem.get?_erase_of_ne apart, free]
    refine (h.eraseImage file input (source.resolve_left input)).setFile
      (by simp [FileSystem.holdsDirectory, empty]) (puts.keeps (Keeps.eraseFile file).ways) fun old here => ?_
    cases empty.symm.trans here

end Leaves

/-! ## Images that can only be files -/

/-- Whether what is at the path of an image is no directory once a folder is made. -/
def Movable (fs : FileSystem) (job : Job) (image : RenderedImage) (dir : Path) : Prop :=
  Copied job image ∨ ∃ k, fs.locate image.path = .ok k ∧ (fs.holdsFile k ∨ ¬ fs.holdsDirectory k ∧ fs.HasFolder dir)

theorem Movable.of_createDirectories {dir : Path} {made : FileSystem} (movable : Movable fs job image dir)
    (created : fs.createDirectories dir = .ok made) :
    Copied job image ∨ ∃ k, fs.locate image.path = .ok k ∧ ¬ made.holdsDirectory k := by
  refine movable.imp_right fun ⟨k, leads, here⟩ => ⟨k, leads, ?_⟩
  obtain file | ⟨other, folder⟩ := here
  · exact FileSystem.not_holdsDirectory_of_holdsFile
      ((FileSystem.createDirectories_keeps created).file k List.not_mem_nil file)
  · cases created.symm.trans folder
    exact other

/-- What is moved and is no directory can be read. -/
theorem exists_read_of_move {source target : Path} (moved : move fs source target = .ok fs')
    (leads : fs.locate source = .ok k) (other : ¬ fs.holdsDirectory k) : ∃ bytes, fs.read source = .ok bytes := by
  unfold move at moved
  cases renamed : fs.rename source target with
  | ok _ => exact FileSystem.exists_read_of_rename renamed leads other
  | error _ =>
    cases copied : fs.copy source target with
    | ok _ => exact FileSystem.exists_read_of_copy copied
    | error _ => simp [renamed, copied, Except.mapError, bind, Except.bind] at moved

/-- What gets to its place can be read, unless a directory is moved. -/
theorem exists_read_of_place {target : Path} (put : place fs job image.path target = .ok fs')
    (source : Copied job image ∨ ∃ k, fs.locate image.path = .ok k ∧ ¬ fs.holdsDirectory k) :
    ∃ bytes, fs.read image.path = .ok bytes := by
  unfold place at put
  split at put
  · exact FileSystem.exists_read_of_copy (mapError_eq_ok.mp put)
  · rename_i output
    obtain ⟨k, leads, other⟩ := source.resolve_left output
    exact exists_read_of_move put leads other

/-! ## The attempt -/

/-- An image in its place, and what is left when its record is written as well. -/
theorem Deposit.leaves_placed {d : Deposit} {made placed : FileSystem}
    (created : d.before.createDirectories (folder d.job d.facts.upscaled root d.now) = .ok made)
    (target : d.path =
      Naming.uniquePath made (folder d.job d.facts.upscaled root d.now) (stem d.job d.record) d.extension)
    (source : Copied d.job d.image ∨ ∃ k, d.before.locate d.image.path = .ok k)
    (put : place made d.job d.image.path d.path = .ok placed) (read : made.read d.image.path = .ok d.bytes) :
    Leaves d.job d.image d.facts root d.now d.before placed ∧ KeepsWays made placed ∧
      ∀ after, placed.write (ImageRecord.sidecarPath d.path) d.record.text.toUTF8 = .ok after →
        Leaves d.job d.image d.facts root d.now d.before after ∧ KeepsWays placed after := by
  have kept := FileSystem.createDirectories_keeps created
  have left : Leaves d.job d.image d.facts root d.now d.before made := .of_createDirectories created
  obtain ⟨front, last, named⟩ := components_folder d.job d.facts.upscaled root d.now
  obtain ⟨origin, spot, leads, there, walked, _, _, free, rfl, recorded⟩ := exists_spot named target put read
  have folderThere : made.locate (folder d.job d.facts.upscaled root d.now) = .ok spot.folder :=
    FileSystem.locate_of_walk (FileSystem.text_ne_empty_of_name named)
      (FileSystem.whole_of_createDirectories created) walked
  have puts : Puts d.job d.image d.facts root d.now d.before made (spot.file d.extension) d.bytes :=
    ⟨spot, folderThere, .inl ⟨rfl, origin, leads, (FileSystem.file_createDirectories created _ _).mp there⟩⟩
  have keptPlaced : KeepsWays made (d.placed made origin spot) := (keeps_placed d.copied there free).ways
  have leftPlaced : Leaves d.job d.image d.facts root d.now d.before (d.placed made origin spot) := by
    refine left.deposited puts there free (source.imp_right ?_)
    rintro ⟨k, leads'⟩
    cases leads.symm.trans (kept.locate leads')
    exact leads'
  refine ⟨leftPlaced, keptPlaced, fun after written => ?_⟩
  obtain ⟨_, _, other, rfl⟩ := recorded _ _ written
  exact ⟨leftPlaced.setFile other ⟨spot, keptPlaced.locate folderThere, .inr ⟨rfl, rfl⟩⟩ fun _ _ => ⟨spot, rfl⟩,
    (Keeps.setFile other _).ways⟩

/-- **What is left of the files, however putting an image into the output tree ends.** The folder is there when it
ends well. -/
theorem leaves_persist (movable : Movable before job image (folder job facts.upscaled root now)) :
    Leaves job image facts root now before (persist before job image facts root now).2 ∧
      ∀ path, (persist before job image facts root now).1 = .ok path →
        (persist before job image facts root now).2.HasFolder (folder job facts.upscaled root now) := by
  unfold persist
  dsimp only
  cases created : before.createDirectories (folder job facts.upscaled root now) with
  | error fault => exact ⟨.refl before, nofun⟩
  | ok made =>
    dsimp only
    split
    · exact ⟨.of_createDirectories created, nofun⟩
    · rename_i placed put
      have source := movable.of_createDirectories created
      have kept := (FileSystem.createDirectories_keeps created).ways
      obtain ⟨bytes, read⟩ := exists_read_of_place put
        (source.imp_right fun ⟨k, leads, other⟩ => ⟨k, kept.locate leads, other⟩)
      obtain ⟨d, rfl, rfl, rfl, rfl, rfl, rfl, target⟩ :=
        Deposit.exists_attempt before job image facts now bytes (Naming.uniquePath made
          (folder job facts.upscaled root now) (stem job (record job image facts now)) (extension image.path))
      rw [← target] at put
      obtain ⟨left, kept, recorded⟩ := Deposit.leaves_placed created target
        (source.imp_right fun ⟨k, leads, _⟩ => ⟨k, leads⟩) put read
      split
      · exact ⟨left, nofun⟩
      · rename_i after written
        rw [← target] at written
        obtain ⟨left', kept'⟩ := recorded after (mapError_eq_ok.mp written)
        exact ⟨left', fun _ _ => FileSystem.hasFolder_of_createDirectories created (kept.trans kept')⟩

end RenderFarm.Output
