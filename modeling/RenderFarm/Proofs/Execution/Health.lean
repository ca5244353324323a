import Mathlib.Data.List.Forall2
import RenderFarm.Execution.Site
import RenderFarm.Proofs.Execution.Storing

/-!
When a device and the output tree are in order. A device in order switches its checkpoint whenever it is asked
to, and answers every request with new images in its scratch folder, without doing away with other files.
-/

namespace RenderFarm

open FileSystem (Keeps)

/-! ## Images in files -/

namespace FileSystem

variable {fs fs' : FileSystem} {images : List RenderedImage} {places lost : List Location}

/-- Whether images are in files, at these locations. -/
def Holds (fs : FileSystem) (images : List RenderedImage) (places : List Location) : Prop :=
  List.Forall₂ (fun image l => fs.isFile image.path ∧ fs.locate image.path = .ok l) images places

theorem Holds.exists_image {l : Location} (holds : fs.Holds images places) (mem : l ∈ places) :
    ∃ image ∈ images, fs.isFile image.path ∧ fs.locate image.path = .ok l := by
  induction holds with
  | nil => cases mem
  | cons first _ ih =>
    obtain rfl | mem := List.mem_cons.mp mem
    · exact ⟨_, List.mem_cons_self, first⟩
    · obtain ⟨image, among, there⟩ := ih mem
      exact ⟨image, List.mem_cons_of_mem _ among, there⟩

theorem Holds.file {l : Location} (holds : fs.Holds images places) (mem : l ∈ places) : fs.holdsFile l := by
  obtain ⟨image, _, file, leads⟩ := holds.exists_image mem
  exact ((isFile_of_locate leads).mp file).1

/-- Images stay in their files as long as none of them is lost. -/
theorem Holds.keeps (holds : fs.Holds images places) (kept : Keeps fs fs' lost)
    (apart : ∀ l ∈ places, l ∉ lost) : fs'.Holds images places := by
  induction holds with
  | nil => exact .nil
  | cons first rest ih =>
    obtain ⟨file, leads⟩ := first
    refine .cons ⟨kept.isFile file fun l there => ?_, kept.locate leads⟩
      (ih fun l mem => apart l (List.mem_cons_of_mem _ mem))
    rw [leads] at there
    injection there with same
    exact same ▸ apart _ List.mem_cons_self

/-- Losing files that were not there before is no loss. -/
theorem Keeps.of_new (kept : Keeps fs fs' lost) (new : ∀ l ∈ lost, ¬ fs.holdsFile l) : Keeps fs fs' [] :=
  ⟨kept.workingDirectory, kept.directory, fun l _ there => kept.file l (fun mem => new l mem there) there⟩

/-- Whether all files and directories stay what they are. What is in a file may change. -/
def Stays (fs fs' : FileSystem) : Prop :=
  fs'.workingDirectory = fs.workingDirectory ∧
    ∀ x ∈ fs.entries, (fs'.get? x.1).map Entry.isDirectory = (fs.get? x.1).map Entry.isDirectory

instance : Decidable (Stays fs fs') :=
  inferInstanceAs (Decidable (_ ∧ _))

theorem Stays.map_isDirectory (stays : Stays fs fs') {l : Location} {e : Entry} (there : fs.get? l = some e) :
    (fs'.get? l).map Entry.isDirectory = some e.isDirectory := by
  by_cases root : l = []
  · rw [root] at there ⊢
    cases there
    rfl
  · have found := there
    rw [get?_of_ne_nil root, Option.map_eq_some_iff] at found
    obtain ⟨x, found, _⟩ := found
    have here : x.1 = l := by simpa using List.find?_some found
    rw [← here, stays.2 x (List.mem_of_find?_eq_some found), here, there]
    rfl

theorem Stays.keeps (stays : Stays fs fs') : Keeps fs fs' [] where
  workingDirectory := stays.1
  directory l there := by
    have same := stays.map_isDirectory (holdsDirectory_iff.mp there)
    rcases entry : fs'.get? l with _ | _ | _
    · simp [entry] at same
    · simp [entry, Entry.isDirectory] at same
    · exact holdsDirectory_iff.mpr entry
  file l _ there := by
    obtain ⟨bytes, entry⟩ := holdsFile_iff.mp there
    have same := stays.map_isDirectory entry
    rcases entry' : fs'.get? l with _ | bytes' | _
    · simp [entry'] at same
    · exact holdsFile_iff.mpr ⟨bytes', entry'⟩
    · simp [entry', Entry.isDirectory] at same

end FileSystem

/-! ## Deeds in order -/

/-- What is expected of the images of an answer: there are some, each in a file of its own in the scratch folder
that was not there before, and all else stays. -/
structure FreshImages (scratch : Path) (before after : FileSystem) (images : List RenderedImage) : Prop where
  stays : FileSystem.Stays before after
  nonempty : images ≠ []
  distinct : (images.map fun image => after.place? image.path).Nodup
  new : ∀ image ∈ images, after.isFile image.path ∧
    ∀ l ∈ after.place? image.path, (before.get? l).isNone ∧ after.place? scratch = some l.dropLast

instance {scratch : Path} {before after : FileSystem} {images : List RenderedImage} :
    Decidable (FreshImages scratch before after images) :=
  decidable_of_iff (_ ∧ _ ∧ _ ∧ _)
    ⟨fun ⟨stays, nonempty, distinct, new⟩ => ⟨stays, nonempty, distinct, new⟩,
      fun fresh => ⟨fresh.stays, fresh.nonempty, fresh.distinct, fresh.new⟩⟩

theorem FreshImages.holds {scratch : Path} {before after : FileSystem} {images : List RenderedImage}
    (fresh : FreshImages scratch before after images) :
    ∃ places, after.Holds images places ∧ places.Nodup ∧
      ∀ l ∈ places, before.get? l = none ∧ after.locate scratch = .ok l.dropLast := by
  have distinct := fresh.distinct
  have new := fresh.new
  clear fresh
  induction images with
  | nil => exact ⟨[], .nil, .nil, fun l mem => by cases mem⟩
  | cons image images ih =>
    rw [List.map_cons, List.nodup_cons] at distinct
    obtain ⟨places, holds, nodup, outside⟩ :=
      ih distinct.2 fun other mem => new other (List.mem_cons_of_mem _ mem)
    obtain ⟨file, unheard⟩ := new image List.mem_cons_self
    obtain ⟨l, leads, _⟩ := FileSystem.isFile_iff.mp file
    have place := FileSystem.place?_eq_some.mpr leads
    -- Another image at this location would have the same place.
    have apart : l ∉ places := by
      intro mem
      obtain ⟨other, among, _, leads'⟩ := holds.exists_image mem
      refine distinct.1 (List.mem_map.mpr ⟨other, among, ?_⟩)
      rw [place, FileSystem.place?_eq_some.mpr leads']
    refine ⟨l :: places, .cons ⟨file, leads⟩ holds, List.nodup_cons.mpr ⟨apart, nodup⟩, fun k mem => ?_⟩
    obtain rfl | mem := List.mem_cons.mp mem
    · obtain ⟨free, scratch⟩ := unheard k place
      exact ⟨Option.isNone_iff_eq_none.mp free, FileSystem.place?_eq_some.mp scratch⟩
    · exact outside k mem

namespace Deed

/-- Whether a deed went as it should: a checkpoint was switched, a request answered with new images, or the
output tree was writable for an image. -/
def Healthy (scratch : Path) : Deed → Prop
  | .load _ answer => answer.isOk
  | .dispatch _ before (.ok images) after => FreshImages scratch before after images
  | .dispatch _ _ (.error _) _ => False
  | .persist job image facts root now before _ _ => Output.Writable before job image facts root now

instance {scratch : Path} (deed : Deed) : Decidable (deed.Healthy scratch) := by
  unfold Healthy
  split <;> infer_instance

/-- Whether a deed put nothing directly into a directory of the output tree. -/
def Avoids (dir : Path) : Deed → Prop
  | .persist job image facts root now before _ _ => Output.Avoids before job image facts root now dir
  | _ => True

instance {dir : Path} (deed : Deed) : Decidable (deed.Avoids dir) := by
  unfold Avoids
  split <;> infer_instance

/-- Whether a deed went as it should and put nothing into the scratch folder. -/
def HealthyOutside (scratch : Path) (deed : Deed) : Prop :=
  deed.Healthy scratch ∧ deed.Avoids scratch

/-- Whether a deed switched the checkpoint. -/
def Loads : Deed → Prop
  | .load _ _ => True
  | _ => False

end Deed

end RenderFarm
