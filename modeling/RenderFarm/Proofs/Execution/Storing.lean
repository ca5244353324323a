import RenderFarm.Output
import RenderFarm.Proofs.Files.Operations

/-!
When an image gets into the output tree. Its folder has to be there or to be made, and the image and its record
have to fit in; nothing else that is stored gets lost then but the image itself in the place that it comes from.
-/

namespace RenderFarm.Output

open FileSystem (Keeps MakesNoDirectory)

variable {fs fs' : FileSystem} {job : Job} {image : RenderedImage} {facts : Facts} {root : Path}
  {now : Instant} {a b : Location}

/-- The path that an image of a job is put to, in a file system with its folder. -/
def target (fs : FileSystem) (job : Job) (image : RenderedImage) (facts : Facts) (root : Path) (now : Instant) :
    Path :=
  Naming.uniquePath fs (folder job facts.upscaled root now) (stem job (record job image facts now))
    (extension image.path)

/-- Whether the output tree is writable for an image of a job: its folder can be made, and both the image and
its record can be put there. -/
def Writable (fs : FileSystem) (job : Job) (image : RenderedImage) (facts : Facts) (root : Path)
    (now : Instant) : Prop :=
  match fs.createDirectories (folder job facts.upscaled root now) with
  | .error _ => False
  | .ok fs =>
    fs.canHold (target fs job image facts root now) ∧
      fs.canHold (ImageRecord.sidecarPath (target fs job image facts root now))

instance : Decidable (Writable fs job image facts root now) := by
  unfold Writable
  split <;> infer_instance

theorem writable_iff : Writable fs job image facts root now ↔
    ∃ made, fs.createDirectories (folder job facts.upscaled root now) = .ok made ∧
      made.canHold (target made job image facts root now) ∧
        made.canHold (ImageRecord.sidecarPath (target made job image facts root now)) := by
  unfold Writable
  cases fs.createDirectories (folder job facts.upscaled root now) with
  | error fault => simp
  | ok made => simp

/-- Whether neither an image of a job nor its record is put directly into a directory. -/
def Avoids (fs : FileSystem) (job : Job) (image : RenderedImage) (facts : Facts) (root : Path)
    (now : Instant) (dir : Path) : Prop :=
  match fs.createDirectories (folder job facts.upscaled root now) with
  | .error _ => True
  | .ok fs =>
    (fs.place? (target fs job image facts root now)).map List.dropLast ≠ fs.place? dir ∧
      (fs.place? (ImageRecord.sidecarPath (target fs job image facts root now))).map List.dropLast ≠
        fs.place? dir

instance {dir : Path} : Decidable (Avoids fs job image facts root now dir) := by
  unfold Avoids
  split <;> infer_instance

/-- A file that can be put to its target is moved there, without a copy. -/
theorem move_of_canHold {source dest : Path} (leads : fs.locate source = .ok a) (leads' : fs.locate dest = .ok b)
    (file : fs.isFile source) (able : fs.canHold dest) :
    ∃ bytes, move fs source dest = .ok ((fs.erase a).set b (.file bytes)) := by
  obtain ⟨bytes, moved⟩ := FileSystem.rename_of_canHold leads leads' file able
  refine ⟨bytes, ?_⟩
  rw [move, moved]

/-- A file that can be put to its target gets there, and it is gone from its place unless it is the input. -/
theorem place_of_canHold (job : Job) {path dest : Path} (leads : fs.locate path = .ok a)
    (leads' : fs.locate dest = .ok b) (file : fs.isFile path) (able : fs.canHold dest) :
    ∃ fs', place fs job path dest = .ok fs' ∧ Keeps fs fs' [a] ∧ MakesNoDirectory fs fs' ∧ fs'.holdsFile b ∧
      (¬ job.inputImage.any (·.sameAs path) → a ≠ b → fs'.get? a = none) := by
  obtain ⟨_, other, _⟩ := (FileSystem.canHold_of_locate leads').mp able
  unfold place
  by_cases input : job.inputImage.any (·.sameAs path)
  · obtain ⟨bytes, read⟩ := FileSystem.read_of_isFile file
    refine ⟨fs.set b (.file bytes), ?_, ?_, ?_, ?_, fun output => absurd input output⟩
    · rw [if_pos input, FileSystem.copy, read]
      dsimp only
      rw [FileSystem.write_of_canHold leads' able]
      rfl
    · exact (Keeps.setFile other bytes).mono (List.nil_subset _)
    · exact FileSystem.makesNoDirectory_setFile other bytes
    · exact FileSystem.holdsFile_setFile other bytes
  · obtain ⟨bytes, moved⟩ := move_of_canHold leads leads' file able
    obtain ⟨there, _⟩ := (FileSystem.isFile_of_locate leads).mp file
    have nonroot : a ≠ [] :=
      FileSystem.ne_nil_of_not_holdsDirectory (FileSystem.not_holdsDirectory_of_holdsFile there)
    have erased : MakesNoDirectory fs (fs.erase a) := FileSystem.makesNoDirectory_erase nonroot
    have other' : ¬ (fs.erase a).holdsDirectory b := fun directory => other (erased b directory)
    refine ⟨(fs.erase a).set b (.file bytes), ?_, ?_, ?_, ?_, fun _ apart => ?_⟩
    · rw [if_neg input, moved]
    · exact (Keeps.eraseFile there).trans (Keeps.setFile other' bytes)
    · exact fun l directory => erased l (FileSystem.makesNoDirectory_setFile other' bytes l directory)
    · exact FileSystem.holdsFile_setFile other' bytes
    · rw [FileSystem.get?_set_of_ne apart, FileSystem.get?_erase_self nonroot]

/-- An image gets into a tree that is writable for it. Nothing else is lost but the image in its place; and an
image that is not the input is lost there, when nothing is put into the same directory. -/
theorem persist_of_writable (leads : fs.locate image.path = .ok a) (file : fs.isFile image.path)
    (able : Writable fs job image facts root now) :
    ∃ path fs', persist fs job image facts root now = (.ok path, fs') ∧ fs'.isFile path ∧ Keeps fs fs' [a] ∧
      ∀ dir, ¬ job.inputImage.any (·.sameAs image.path) → Avoids fs job image facts root now dir →
        fs.locate dir = .ok a.dropLast → fs'.get? a = none := by
  obtain ⟨made, folderMade, able, able'⟩ := writable_iff.mp able
  unfold Avoids persist
  dsimp only
  rw [folderMade]
  dsimp only
  have kept : Keeps fs made [] := FileSystem.createDirectories_keeps folderMade
  have still : made.isFile image.path := kept.isFile file fun _ _ => List.not_mem_nil
  obtain ⟨b, leads'⟩ := FileSystem.exists_locate_of_canHold able
  obtain ⟨_, _, plain⟩ := (FileSystem.canHold_of_locate leads').mp able
  obtain ⟨placed, put, kept', noNew, there, gone⟩ := place_of_canHold job (kept.locate leads) leads' still able
  -- The record is written beside the image, so it is the last change.
  have able'' := kept'.canHold noNew able'
  obtain ⟨c, leads''⟩ := FileSystem.exists_locate_of_canHold able'
  obtain ⟨_, other, _⟩ := (FileSystem.canHold_of_locate (kept'.locate leads'')).mp able''
  let bytes := (record job image facts now).text.toUTF8
  have written := FileSystem.write_of_canHold (kept'.locate leads'') able'' bytes
  have kept'' : Keeps placed (placed.set c (.file bytes)) [] := Keeps.setFile other bytes
  refine ⟨target made job image facts root now, placed.set c (.file bytes), ?_, ?_,
    (kept.trans kept').trans kept'', fun dir output avoids inside => ?_⟩
  · rw [target] at put written
    rw [put]
    dsimp only
    rw [ImageRecord.write, FileSystem.writeText, written]
    rfl
  · rw [FileSystem.isFile_of_locate ((kept'.trans kept'').locate leads')]
    exact ⟨kept''.file b List.not_mem_nil there, plain⟩
  · obtain ⟨apart, apart'⟩ := avoids
    have scratch := FileSystem.place?_eq_some.mpr (kept.locate inside)
    rw [scratch, FileSystem.place?_eq_some.mpr leads', Option.map_some] at apart
    rw [scratch, FileSystem.place?_eq_some.mpr leads'', Option.map_some] at apart'
    have apart : a ≠ b := fun same => apart (by rw [same])
    have apart' : a ≠ c := fun same => apart' (by rw [same])
    rw [FileSystem.get?_set_of_ne apart', gone output apart]

end RenderFarm.Output
