import RenderFarm.Proofs.Execution.Delivery
import RenderFarm.Proofs.Output.Attempt

/-!
What a job leaves behind, however it ends, on a device that writes into its scratch folder only. Outside that folder
the job adds images and records to the output tree and nothing else, and it takes nothing away but what a record
takes the place of.

Only files are moved out of the scratch folder. What is at the path of an image that the device has answered with is
a file at first; once it was moved a directory could be made there, but the folder that the image goes to is there by
then, so none is.
-/

namespace RenderFarm

open FileSystem (Keeps KeepsWays MakesNoDirectory)
open Output (Movable Copied)

/-! ## Devices that keep to their scratch folder -/

/-- Whether a deed of a device concerns only files below its scratch folder. Images that it answers with are there. -/
def Deed.Confined (scratch : Path) : Deed → Prop
  | .load _ _ => True
  | .dispatch _ before (.ok images) after =>
    FileSystem.Confined scratch before after ∧
      ∀ image ∈ images, (after.place? image.path).any fun l => after.isBelow scratch l && after.holdsFile l
  | .dispatch _ before (.error _) after => FileSystem.Confined scratch before after
  | .persist _ _ _ _ _ _ _ _ => True

instance {scratch : Path} : (deed : Deed) → Decidable (deed.Confined scratch)
  | .load _ _ => instDecidableTrue
  | .dispatch _ _ (.ok _) _ => inferInstanceAs (Decidable (_ ∧ ∀ _ ∈ _, _))
  | .dispatch _ before (.error _) after => inferInstanceAs (Decidable (FileSystem.Confined scratch before after))
  | .persist _ _ _ _ _ _ _ _ => instDecidableTrue

/-- A job that is carried out: the scratch folder of its device, what it is executed with and when, and all that is
done for it. -/
structure Commission where
  scratch : Path
  ctx : ExecutionContext
  job : Job
  now : Instant
  deeds : List Deed

namespace Commission

variable {c : Commission} {fs fs' fs'' : FileSystem} {l : Location} {bytes : ByteArray} {image : RenderedImage}
  {model : Option String} {dir : Path}

/-- The job with the trigger phrase of a checkpoint. -/
def triggered (c : Commission) (model : Option String) : Job :=
  Execution.insertTriggers c.ctx.triggers model c.job

/-- Whether an image is the input of the job or one that the device has answered with. -/
def Given (c : Commission) (image : RenderedImage) : Prop :=
  c.job.inputImage = some image.path ∨
    ∃ r before images after, Deed.dispatch r before (.ok images) after ∈ c.deeds ∧ image ∈ images

/-- Whether a file is an image that the job has put into the output tree, or its record. -/
def Puts (c : Commission) (fs : FileSystem) (l : Location) (bytes : ByteArray) : Prop :=
  ∃ model image facts before answer after,
    Deed.persist (c.triggered model) image facts c.ctx.outputRoot c.now before answer after ∈ c.deeds ∧
      c.Given image ∧ Output.Puts (c.triggered model) image facts c.ctx.outputRoot c.now before fs l bytes

theorem Puts.keeps (puts : c.Puts fs l bytes) (kept : KeepsWays fs fs') : c.Puts fs' l bytes := by
  obtain ⟨model, image, facts, before, answer, after, done, given, puts⟩ := puts
  exact ⟨model, image, facts, before, answer, after, done, given, puts.keeps kept⟩

/-- What the job leaves of the files. -/
structure Leaves (c : Commission) (before after : FileSystem) : Prop where
  ways : KeepsWays before after
  new : ∀ l bytes, ¬ after.isBelow c.scratch l → after.get? l = some (.file bytes) →
    before.get? l = some (.file bytes) ∨ c.Puts after l bytes
  old : ∀ l bytes, ¬ after.isBelow c.scratch l → before.get? l = some (.file bytes) →
    after.get? l = some (.file bytes) ∨ ∃ spot : Output.Spot, l = spot.file "json"

namespace Leaves

theorem refl (c : Commission) (fs : FileSystem) : c.Leaves fs fs :=
  ⟨.refl fs, fun _ _ _ there => .inl there, fun _ _ _ there => .inl there⟩

theorem of_eq (same : fs' = fs) : c.Leaves fs fs' :=
  same ▸ refl c fs

theorem trans (first : c.Leaves fs fs') (second : c.Leaves fs' fs'') : c.Leaves fs fs'' where
  ways := first.ways.trans second.ways
  new l bytes outside there := by
    obtain earlier | puts := second.new l bytes outside there
    · have outside' : ¬ fs'.isBelow c.scratch l := fun below => outside (second.ways.isBelow below)
      exact (first.new l bytes outside' earlier).imp_right fun puts => puts.keeps second.ways
    · exact .inr puts
  old l bytes outside there := by
    have outside' : ¬ fs'.isBelow c.scratch l := fun below => outside (second.ways.isBelow below)
    obtain still | gone := first.old l bytes outside' there
    · exact second.old l bytes outside still
    · exact .inr gone

/-- Only files below the scratch folder change. -/
theorem of_outside (ways : KeepsWays fs fs')
    (same : ∀ l bytes, ¬ fs'.isBelow c.scratch l →
      (fs'.get? l = some (.file bytes) ↔ fs.get? l = some (.file bytes))) : c.Leaves fs fs' where
  ways := ways
  new l bytes outside there := .inl ((same l bytes outside).mp there)
  old l bytes outside there := .inl ((same l bytes outside).mpr there)

theorem of_confined (confined : FileSystem.Confined c.scratch fs fs') : c.Leaves fs fs' :=
  .of_outside confined.ways fun _ _ => confined.file_iff

end Leaves

/-! ## Images that wait -/

/-- The folder that the images of the job go to, beside their enlargements or as such. -/
def folder (c : Commission) (upscaled : Bool) : Path :=
  Output.folder c.job upscaled c.ctx.outputRoot c.now

/-- Whether an image can be put into a folder: it is the input of the job, or else it is below the scratch folder and
no directory, and it will be none once the folder is there. -/
structure Ready (c : Commission) (dir : Path) (fs : FileSystem) (image : RenderedImage) : Prop where
  given : c.Given image
  waits : Copied c.job image ∨ ∃ k, fs.locate image.path = .ok k ∧ fs.isBelow c.scratch k ∧
    (fs.holdsFile k ∨ ¬ fs.holdsDirectory k ∧ fs.HasFolder dir)

namespace Ready

theorem movable (ready : c.Ready dir fs image) : Movable fs c.job image dir :=
  ready.waits.imp_right fun ⟨k, leads, _, here⟩ => ⟨k, leads, here⟩

/-- An image goes on waiting when its folder is there, unless a directory is made in its place. -/
theorem keeps (ready : c.Ready dir fs image) (ways : KeepsWays fs fs') (folder : fs'.HasFolder dir)
    (plain : ∀ k, fs'.isBelow c.scratch k → (fs.holdsFile k ∨ ¬ fs.holdsDirectory k ∧ fs.HasFolder dir) →
      ¬ fs'.holdsDirectory k) : c.Ready dir fs' image := by
  refine ⟨ready.given, ready.waits.imp_right fun ⟨k, leads, below, here⟩ => ?_⟩
  exact ⟨k, ways.locate leads, ways.isBelow below, .inr ⟨plain k (ways.isBelow below) here, folder⟩⟩

theorem of_input (input : c.job.inputImage = some image.path) : c.Ready dir fs image :=
  ⟨.inl input, .inl (by simp [Copied, input, Path.sameAs])⟩

end Ready

section Triggers

variable (c) (model)

@[simp] theorem inputImage_triggered : (c.triggered model).inputImage = c.job.inputImage :=
  Execution.inputImage_insertTriggers _ _

@[simp] theorem rendersPrimary_triggered : (c.triggered model).rendersPrimary = c.job.rendersPrimary :=
  Execution.rendersPrimary_insertTriggers _ _

@[simp] theorem upscale?_triggered : (c.triggered model).upscale? = c.job.upscale? := by
  simp [triggered, Job.upscale?]

@[simp] theorem copied_triggered : Copied (c.triggered model) image ↔ Copied c.job image := by
  simp [Copied]

@[simp] theorem folder_triggered (upscaled : Bool) :
    Output.folder (c.triggered model) upscaled c.ctx.outputRoot c.now = c.folder upscaled := by
  obtain ⟨prompt, highres, same⟩ := Execution.insertTriggers_eq c.ctx.triggers model c.job
  rw [triggered, same]
  rfl

end Triggers

/-- The folder of enlargements is there when that of the images beside them is. -/
theorem hasFolder_true (there : fs.HasFolder (c.folder false)) : fs.HasFolder (c.folder true) := by
  unfold folder Output.folder at there ⊢
  dsimp only at there ⊢
  split at there
  · have name : Path.IsName Output.sourcesFolder := ⟨by decide, by decide, by decide, by decide⟩
    obtain ⟨front, last, named⟩ := Output.components_folder c.job true c.ctx.outputRoot c.now
    have nonempty := FileSystem.text_ne_empty_of_name named
    simp only [Output.folder, Bool.not_true, Bool.and_false] at nonempty ⊢
    exact there.of_join name nonempty
  · simpa using there

section Persist

variable {facts : Output.Facts} {answer : Except StorageError Path} {after : FileSystem} {other : RenderedImage}

theorem Leaves.of_persist
    (done : Deed.persist (c.triggered model) image facts c.ctx.outputRoot c.now fs answer after ∈ c.deeds)
    (ready : c.Ready dir fs image)
    (left : Output.Leaves (c.triggered model) image facts c.ctx.outputRoot c.now fs fs') : c.Leaves fs fs' where
  ways := left.ways
  new l bytes _ there :=
    (left.new l bytes there).imp_right fun puts => ⟨model, image, facts, fs, answer, after, done, ready.given, puts⟩
  old l bytes outside there := by
    obtain still | record | ⟨moved, source⟩ := left.old l bytes there
    · exact .inl still
    · exact .inr record
    · -- What is moved was below the scratch folder.
      rw [copied_triggered] at moved
      obtain ⟨k, leads, below, _⟩ := ready.waits.resolve_left moved
      cases source.symm.trans leads
      exact absurd (left.ways.isBelow below) outside

/-- Other images go on waiting for the same folder. -/
theorem Ready.persisted (ready : c.Ready (c.folder facts.upscaled) fs other)
    (left : Output.Leaves (c.triggered model) image facts c.ctx.outputRoot c.now fs fs')
    (there : fs'.HasFolder (c.folder facts.upscaled)) : c.Ready (c.folder facts.upscaled) fs' other := by
  refine ready.keeps left.ways there fun k _ here => ?_
  obtain file | ⟨plain, folder⟩ := here
  · exact left.solid k file
  · rw [← folder_triggered c model] at folder
    exact fun directory => plain (left.plain folder k directory)

end Persist

end Commission

/-! ## Steps that leave nothing else behind -/

namespace Work

open Commission (Ready)

variable {σ α β : Type} {c : Commission} {w : Work σ α} {f : α → Work σ β} {s : Site σ}
  {P P' : α → FileSystem → Prop} {R : β → FileSystem → Prop}

/-- What a step leaves when it is part of a job on a device that keeps to its scratch folder, and what can be said of
its result and the files when it succeeds. -/
def Leaves (c : Commission) (w : Work σ α) (s : Site σ) (P : α → FileSystem → Prop) : Prop :=
  Ends (fun deed => deed ∈ c.deeds ∧ deed.Confined c.scratch) w s fun r _ s' =>
    c.Leaves s.files s'.files ∧ ∀ a, r = .ok a → P a s'.files

namespace Leaves

theorem imp (left : Leaves c w s P) (weaker : ∀ a fs, P a fs → P' a fs) : Leaves c w s P' :=
  Ends.imp left fun _ _ _ ⟨left, post⟩ => ⟨left, fun a ok => weaker a _ (post a ok)⟩

theorem bind (first : Leaves c w s P) (grows : Grows w) (grows' : ∀ a, Grows (f a))
    (next : ∀ a s', c.Leaves s.files s'.files → P a s'.files → Leaves c (f a) s' R) : Leaves c (w >>= f) s R := by
  refine Ends.bind first grows grows' (fun e ds s' post => ⟨post.1, nofun⟩) fun a ds s' post => ?_
  obtain ⟨left, post⟩ := post
  refine Ends.imp (next a s' left (post a rfl)) fun r ds' s'' ended => ?_
  exact ⟨left.trans ended.1, ended.2⟩

theorem pure {a : α} (post : P a s.files) : Leaves c (Pure.pure a) s P := by
  intro ds done good
  refine ⟨.refl c s.files, fun b same => ?_⟩
  cases same
  exact post

theorem of_onlyLogs (quiet : OnlyLogs w) : Leaves c w s fun _ fs => fs = s.files := by
  intro ds done good
  obtain ⟨log, same⟩ := quiet s
  have files : (w.perform s).2.files = s.files := by rw [same]
  exact ⟨.of_eq files, fun _ _ => files⟩

/-- A step that only logs is followed by another one. -/
theorem after_onlyLogs (quiet : OnlyLogs w) (next : ∀ a s', s'.files = s.files → Leaves c (f a) s' R) :
    Leaves c (w >>= f) s R := by
  intro ds done good
  obtain ⟨log, same⟩ := quiet s
  rcases result : w.perform s with ⟨e | a, s'⟩
  all_goals
    rw [result] at same
    dsimp only at same
    subst same
  · rw [perform_bind_of_error result]
    exact ⟨.refl c s.files, nofun⟩
  · rw [perform_bind_of_ok result] at done ⊢
    exact next a { s with log } rfl ds done good

theorem loadModel (d : Renderer σ) (title : String) :
    Leaves c (loadModel d title) s fun _ fs => fs = s.files := by
  intro ds done good
  rw [perform_loadModel]
  exact ⟨.refl c s.files, fun _ _ => rfl⟩

/-- A request leaves its images in the scratch folder. -/
theorem dispatch (d : Renderer σ) (r : Backend.Request) :
    Leaves c (dispatch d r) s fun images fs => FileSystem.Confined c.scratch s.files fs ∧
      ∀ image ∈ images, ∀ dir, c.Ready dir fs image := by
  intro ds done good
  rw [perform_dispatch] at done ⊢
  rcases answer : d.dispatch r s.device s.files with ⟨e | images, device, files⟩
  all_goals
    rw [answer] at done
    obtain rfl := List.append_cancel_left done
    have allowed := good _ List.mem_cons_self
  · exact ⟨.of_confined allowed.2, nofun⟩
  · obtain ⟨among, confined, fresh⟩ := allowed
    refine ⟨.of_confined confined, fun images' same => ?_⟩
    cases same
    refine ⟨confined, fun image mem dir => ⟨.inr ⟨r, s.files, images, files, among, mem⟩, .inr ?_⟩⟩
    obtain ⟨k, leads, here⟩ := (Option.any_eq_true _ _).mp (fresh image mem)
    obtain ⟨below, file⟩ := (Bool.and_eq_true _ _).mp here
    exact ⟨k, FileSystem.place?_eq_some.mp leads, below, .inl file⟩

theorem fail (e : JobError) : Leaves c (fail e) s P := by
  intro ds done good
  exact ⟨.refl c s.files, nofun⟩

/-- An image that can be put into its folder leaves it there. -/
theorem persist {image : RenderedImage} {facts : Output.Facts} (model : Option String)
    (ready : c.Ready (c.folder facts.upscaled) s.files image) :
    Leaves c (persist (c.triggered model) image facts c.ctx.outputRoot c.now) s fun _ fs =>
      fs.HasFolder (c.folder facts.upscaled) ∧
        Output.Leaves (c.triggered model) image facts c.ctx.outputRoot c.now s.files fs := by
  intro ds done good
  rw [perform_persist] at done ⊢
  obtain rfl := List.append_cancel_left done
  have movable : Movable s.files (c.triggered model) image (c.folder facts.upscaled) :=
    ready.movable.imp_left (Commission.copied_triggered c model).mpr
  rw [← Commission.folder_triggered c model] at movable ⊢
  obtain ⟨left, folder⟩ := Output.leaves_persist movable
  refine ⟨.of_persist (good _ List.mem_cons_self).1 ready left, fun path ok => ⟨?_, left⟩⟩
  exact folder path (FileSystem.mapError_eq_ok.mp ok)

end Leaves

end Work

/-! ## The course of a job -/

namespace Commission

/-- Whether the images of the job are themselves put into the output tree. -/
def stows (c : Commission) : Bool :=
  c.job.upscale?.all fun settings => settings.keepSource && c.job.rendersPrimary

end Commission

namespace Execution

open Work (Grows Leaves OnlyLogs)

variable {σ : Type} {d : Renderer σ} {c : Commission} {s : Site σ} {model : Option String}

theorem leaves_ensureModel (wanted : Option String) :
    Leaves c (ensureModel d wanted) s fun _ fs => fs = s.files := by
  unfold ensureModel
  split
  · exact .pure rfl
  · refine .after_onlyLogs (.loadedModel d) fun loaded s' same => ?_
    split
    · exact .pure same
    · exact (Leaves.loadModel d _).imp fun _ fs same' => same'.trans same

theorem leaves_sources : Leaves c (sources d c.ctx (c.triggered model)) s fun images fs =>
    ∀ image ∈ images, ∀ dir, c.Ready dir fs image := by
  unfold sources
  split
  · refine .after_onlyLogs (onlyLogs_primaryRequest _) fun r s' _ => ?_
    exact (Leaves.dispatch d r).imp fun images fs post => post.2
  · split
    · exact .fail _
    · rename_i path input
      rw [Commission.inputImage_triggered] at input
      refine .after_onlyLogs .files fun fs s' _ => .pure fun image mem dir => ?_
      obtain rfl := List.mem_singleton.mp mem
      exact .of_input input

/-- An enlargement concerns only files below the scratch folder. -/
theorem leaves_enlarge (job : Job) (model : Option String) (settings : Upscale) (image : RenderedImage)
    (size : Image.Size) :
    Leaves c (enlarge d c.ctx job model settings image size) s fun images fs =>
      FileSystem.Confined c.scratch s.files fs ∧ ∀ image ∈ images, ∀ dir, c.Ready dir fs image := by
  refine .after_onlyLogs (.encodeFile _) fun encoded s₁ same₁ =>
    .after_onlyLogs (onlyLogs_usableMethod _ _) fun method s₂ same₂ => ?_
  rw [← same₁, ← same₂]
  split
  · exact .dispatch d _
  · refine (leaves_ensureModel _).bind (grows_ensureModel _) (fun _ => ?_) fun _ s₃ _ same₃ => ?_
    · exact .bind (onlyLogs_attachDetailer _ _).grows fun _ => .bind (OnlyLogs.note d _ _ _).grows fun _ =>
        .dispatch _
    · refine .after_onlyLogs (onlyLogs_attachDetailer _ _) fun r s₄ same₄ =>
        .after_onlyLogs (.note d _ _ _) fun _ s₅ same₅ => ?_
      rw [← same₃, ← same₄, ← same₅]
      exact .dispatch d _

/-- Images that can be put into the output tree leave nothing else behind. -/
theorem leaves_persistEnlarged (model' : Option String) (size : Image.Size) (images : List RenderedImage)
    (ready : ∀ image ∈ images, c.Ready (c.folder true) s.files image) :
    Leaves c (persistEnlarged c.ctx (c.triggered model) model' c.now size images) s fun _ fs =>
      s.files.HasFolder (c.folder true) → MakesNoDirectory s.files fs := by
  induction images generalizing s with
  | nil => exact .pure fun _ _ there => there
  | cons image images ih =>
    refine .after_onlyLogs (onlyLogs_sizeOr _ _) fun shown s₁ same => ?_
    rw [← same] at ready ⊢
    refine (Leaves.persist model (ready image List.mem_cons_self)).bind (.persist _ _ _ _ _)
      (fun _ => .bind (grows_persistEnlarged _ _ _ _) fun _ => .pure _) fun path s₂ _ post => ?_
    obtain ⟨there, left⟩ := post
    refine (ih fun other mem => (ready other (List.mem_cons_of_mem _ mem)).persisted left there).bind
      (grows_persistEnlarged _ _ _ _) (fun _ => .pure _) fun paths s₃ _ plain => .pure fun folder k directory => ?_
    rw [← Commission.folder_triggered c model] at folder
    exact left.plain folder k (plain there k directory)

/-- An image that is kept beside its enlargements can be put into the output tree, and the others go on waiting. -/
theorem leaves_keepSource (settings : Upscale) {image : RenderedImage} {facts : Output.Facts}
    (off : facts.upscaled = false)
    (ready : settings.keepSource && c.job.rendersPrimary → c.Ready (c.folder false) s.files image) :
    Leaves c (keepSource c.ctx (c.triggered model) settings image facts c.now) s fun _ fs =>
      settings.keepSource && c.job.rendersPrimary → fs.HasFolder (c.folder false) ∧
        ∀ other, c.Ready (c.folder false) s.files other → c.Ready (c.folder false) fs other := by
  unfold keepSource
  rw [Commission.rendersPrimary_triggered]
  split
  · rename_i keeps
    have ready' : c.Ready (c.folder facts.upscaled) s.files image := off ▸ ready keeps
    refine (Leaves.persist model ready').bind (.persist _ _ _ _ _) (fun _ => .pure _) fun path s' _ post => ?_
    obtain ⟨there, left⟩ := post
    refine .pure fun _ => ⟨off ▸ there, fun other waits => ?_⟩
    rw [← off] at waits ⊢
    exact waits.persisted left there
  · rename_i drops
    exact .pure fun keeps => absurd keeps drops

/-- An image is finished, and the others go on waiting. -/
theorem leaves_finishImage (model' : Option String) {image : RenderedImage}
    (ready : c.stows → c.Ready (c.folder false) s.files image) :
    Leaves c (finishImage d c.ctx (c.triggered model) model' c.now image) s fun _ fs =>
      c.stows → ∀ other, c.Ready (c.folder false) s.files other → c.Ready (c.folder false) fs other := by
  refine .after_onlyLogs (onlyLogs_sizeOr _ _) fun size s₁ same₁ => ?_
  rw [← same₁] at ready ⊢
  rw [Commission.upscale?_triggered]
  unfold Commission.stows at ready ⊢
  cases upscale : c.job.upscale? with
  | none =>
    rw [upscale] at ready
    refine (Leaves.persist model (ready rfl)).bind (.persist _ _ _ _ _) (fun _ => .pure _) fun path s₂ _ post => ?_
    exact .pure fun _ other waits => waits.persisted post.2 post.1
  | some settings =>
    rw [upscale, Option.all_some] at ready
    refine (leaves_keepSource settings rfl ready).bind (grows_keepSource _ _ _ _)
      (fun _ => .bind (grows_enlarge _ _ _ _) fun _ => .bind (grows_persistEnlarged _ _ _ _) fun _ => .pure _)
      fun kept s₂ _ keeps => ?_
    refine (leaves_enlarge _ _ settings image size).bind (grows_enlarge _ _ _ _)
      (fun _ => .bind (grows_persistEnlarged _ _ _ _) fun _ => .pure _) fun enlarged s₃ _ post => ?_
    obtain ⟨confined, fresh⟩ := post
    refine (leaves_persistEnlarged model' size enlarged fun image mem => fresh image mem _).bind
      (grows_persistEnlarged _ _ _ _) (fun _ => .pure _) fun paths s₄ left plain => .pure fun stows other waits => ?_
    obtain ⟨there, others⟩ := keeps stows
    -- The folder is there by now, so no directory is made where an image waits.
    have there' := there.keeps confined.ways
    refine ((others other waits).keeps confined.ways there' fun k below here => ?_).keeps left.ways
      (there'.keeps left.ways) fun k below here => ?_
    · exact confined.not_directory below
        (here.elim FileSystem.not_holdsDirectory_of_holdsFile And.left)
    · exact fun directory => here.elim FileSystem.not_holdsDirectory_of_holdsFile And.left
        (plain (Commission.hasFolder_true there') k directory)

theorem leaves_finishImages (model' : Option String) (images : List RenderedImage)
    (ready : c.stows → ∀ image ∈ images, c.Ready (c.folder false) s.files image) :
    Leaves c (finishImages d c.ctx (c.triggered model) model' c.now images) s fun _ _ => True := by
  induction images generalizing s with
  | nil => exact .pure trivial
  | cons image images ih =>
    refine (leaves_finishImage model' fun stows => ready stows image List.mem_cons_self).bind
      (grows_finishImage _ _ _) (fun _ => .bind (grows_finishImages _ _ _) fun _ => .pure _)
      fun paths s₁ _ others => ?_
    refine (ih fun stows other mem => ?_).bind (grows_finishImages _ _ _) (fun _ => .pure _)
      fun paths' s₂ _ _ => .pure trivial
    exact others stows other (ready stows other (List.mem_cons_of_mem _ mem))

/-- **What the course of a job leaves behind, however it ends.** -/
theorem leaves_course : Leaves c (course d c.ctx c.now c.job) s fun _ _ => True := by
  refine .after_onlyLogs onlyLogs_noteMissingInput fun _ s₁ _ => ?_
  refine (leaves_ensureModel _).bind (grows_ensureModel _) (fun _ => grows_produce _ _) fun _ s₂ _ _ => ?_
  refine .after_onlyLogs (.loadedModel d) fun loaded s₃ _ => ?_
  refine leaves_sources.bind grows_sources (fun _ => grows_finishImages _ _ _) fun images s₄ _ ready => ?_
  exact leaves_finishImages _ images fun _ image mem => ready image mem _

end Execution

end RenderFarm
