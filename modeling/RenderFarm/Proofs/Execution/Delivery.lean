import RenderFarm.Proofs.Execution.Course
import RenderFarm.Proofs.Files.Spelling

/-!
What a job comes to on a device in order. Its images are finished one after the other: each is put into the
output tree, or else all of its enlargements are. A job that keeps the images that it renders beside their
enlargements puts the first of them away before it can be enlarged.
-/

namespace RenderFarm

/-- What it takes to put images into the output tree one after the other, with the paths that they get. -/
inductive Stored (upscaled : Bool) (root : Path) (now : Instant) :
    List RenderedImage → List Deed → List Path → Prop where
  | nil : Stored upscaled root now [] [] []
  | cons {job : Job} {image : RenderedImage} {facts : Output.Facts} {before after : FileSystem} {path : Path}
      {images : List RenderedImage} {deeds : List Deed} {paths : List Path} (kind : facts.upscaled = upscaled)
      (put : Output.persist before job image facts root now = (.ok path, after)) (there : after.isFile path)
      (rest : Stored upscaled root now images deeds paths) :
      Stored upscaled root now (image :: images)
        (.persist job image facts root now before (.ok path) after :: deeds) (path :: paths)

/-- What it takes to finish an image. Without enlargement it gets into the output tree itself; otherwise it is
enlarged with one request, and all images of the answer get there. -/
inductive Finished (enlarges : Bool) (root : Path) (now : Instant) :
    RenderedImage → List Deed → List Path → Prop where
  | plain {image : RenderedImage} {deeds : List Deed} {paths : List Path} (off : enlarges = false)
      (stored : Stored false root now [image] deeds paths) : Finished enlarges root now image deeds paths
  | enlarged {image : RenderedImage} {images : List RenderedImage} {loads deeds : List Deed}
      {r : Backend.Request} {before after : FileSystem} {paths : List Path} (on : enlarges = true)
      (switched : ∀ deed ∈ loads, deed.Loads) (nonempty : images ≠ [])
      (stored : Stored true root now images deeds paths) :
      Finished enlarges root now image (loads ++ .dispatch r before (.ok images) after :: deeds) paths

/-- What it takes to finish images one after the other. -/
inductive AllFinished (enlarges : Bool) (root : Path) (now : Instant) :
    List RenderedImage → List Deed → List Path → Prop where
  | nil : AllFinished enlarges root now [] [] []
  | cons {image : RenderedImage} {images : List RenderedImage} {deeds deeds' : List Deed}
      {paths paths' : List Path} (first : Finished enlarges root now image deeds paths)
      (rest : AllFinished enlarges root now images deeds' paths') :
      AllFinished enlarges root now (image :: images) (deeds ++ deeds') (paths ++ paths')

/-- What it takes to carry out a job. The images that are finished are those of its primary render, or else the
one that it has as its input. -/
inductive Delivered (job : Job) (root : Path) (now : Instant) : List Deed → List Path → Prop where
  | rendered {images : List RenderedImage} {loads deeds : List Deed} {r : Backend.Request}
      {before after : FileSystem} {paths : List Path} (renders : job.rendersPrimary)
      (switched : ∀ deed ∈ loads, deed.Loads) (nonempty : images ≠ [])
      (finished : AllFinished job.upscale.enabled root now images deeds paths) :
      Delivered job root now (loads ++ .dispatch r before (.ok images) after :: deeds) paths
  | existing {image : RenderedImage} {deeds : List Deed} {paths : List Path} (other : ¬ job.rendersPrimary)
      (input : job.inputImage = some image.path)
      (finished : AllFinished job.upscale.enabled root now [image] deeds paths) :
      Delivered job root now deeds paths

/-- Whether a job keeps the images that it renders beside their enlargements. It puts them away first. -/
def Job.losesSource (j : Job) : Bool :=
  j.rendersPrimary && j.upscale.enabled && j.upscale.keepSource

theorem Job.losesSource_iff {j : Job} :
    j.losesSource ↔ j.rendersPrimary ∧ j.upscale.enabled ∧ j.upscale.keepSource := by
  rw [losesSource, Bool.and_eq_true, Bool.and_eq_true, and_assoc]

namespace Execution

open FileSystem (Keeps)
open Work (Grows OnlyLogs Succeeds Fails Yields)

variable {σ : Type} {d : Renderer σ} {ctx : ExecutionContext} {job : Job} {s : Site σ}

/-- Images that are there get into the output tree, and nothing else gets lost. -/
theorem succeeds_persistEnlarged {scratch : Path} {images : List RenderedImage} {places : List Location}
    (holds : s.files.Holds images places) (distinct : places.Nodup) (model : Option String) (now : Instant)
    (size : Image.Size) :
    Succeeds (Deed.Healthy scratch) (persistEnlarged ctx job model now size images) s fun paths ds s' =>
      Stored true ctx.outputRoot now images ds paths ∧ Keeps s.files s'.files places := by
  induction images generalizing s places with
  | nil =>
    cases holds
    exact .pure ⟨.nil, .refl _⟩
  | cons image images ih =>
    obtain _ | ⟨first, rest⟩ := holds
    obtain ⟨file, leads⟩ := first
    obtain ⟨apart, distinct⟩ := List.nodup_cons.mp distinct
    rw [persistEnlarged]
    refine (yields_sizeOr image.path size).bind fun shown log _ => ?_
    refine Succeeds.bind (Work.succeeds_persist leads file) (.persist _ _ _ _ _)
      (fun _ => .bind (grows_persistEnlarged _ _ _ _) fun _ => .pure _) fun path ds s' post => ?_
    obtain ⟨rfl, put, there, kept, _⟩ := post
    -- Only the image that was put away is lost, and the others have other locations.
    have holds := FileSystem.Holds.keeps rest kept fun l mem same =>
      apart (List.mem_singleton.mp same ▸ mem)
    refine (ih holds distinct).bind (grows_persistEnlarged _ _ _ _) (fun _ => .pure _) fun paths ds s'' post => ?_
    obtain ⟨stored, kept'⟩ := post
    refine Succeeds.pure ⟨?_, kept.trans kept'⟩
    rw [List.append_nil]
    exact .cons rfl put there stored

theorem yields_keepSource (settings : Upscale) (image : RenderedImage)
    (notKept : ¬ (settings.keepSource && job.rendersPrimary)) (facts : Output.Facts) (now : Instant) :
    Yields (keepSource ctx job settings image facts now : Work σ (List Path)) s (· = []) := by
  rw [keepSource, if_neg notKept]
  exact .pure rfl

/-- An image that is to be kept is moved out of the scratch folder. -/
theorem succeeds_keepSource {settings : Upscale} {image : RenderedImage} {l : Location}
    (leads : s.files.locate image.path = .ok l) (file : s.files.isFile image.path)
    (inside : s.files.locate d.scratchDir = .ok l.dropLast) (kept : settings.keepSource && job.rendersPrimary)
    (output : ¬ job.inputImage.any (·.sameAs image.path)) (facts : Output.Facts) (now : Instant) :
    Succeeds (Deed.HealthyOutside d.scratchDir) (keepSource ctx job settings image facts now) s fun _ _ s' =>
      s'.files.locate image.path = .ok l ∧ s'.files.get? l = none := by
  rw [keepSource, if_pos kept]
  refine Succeeds.bind (Succeeds.good ((Work.succeeds_persist leads file).strict fun _ => And.left))
    (.persist _ _ _ _ _) (fun _ => .pure _) fun path ds s' post => ?_
  obtain ⟨⟨rfl, _, _, still, gone⟩, good⟩ := post
  have avoids := (good _ List.mem_cons_self).2
  exact Succeeds.pure ⟨still.locate leads, gone d.scratchDir output avoids inside⟩

/-- An image that is there is finished, unless it is put away first. -/
theorem succeeds_finishImage {image : RenderedImage} {l : Location} (leads : s.files.locate image.path = .ok l)
    (file : s.files.isFile image.path) (stays : ¬ job.losesSource) (model : Option String) (now : Instant) :
    Succeeds (Deed.Healthy d.scratchDir) (finishImage d ctx job model now image) s fun paths ds s' =>
      Finished job.upscale.enabled ctx.outputRoot now image ds paths ∧ Keeps s.files s'.files [l] := by
  unfold finishImage Job.upscale?
  refine (yields_sizeOr _ _).bind fun size log _ => ?_
  cases enlarges : job.upscale.enabled with
  | false =>
    refine Succeeds.bind (Work.succeeds_persist leads file) (.persist _ _ _ _ _) (fun _ => .pure _)
      fun path ds s' post => ?_
    obtain ⟨rfl, put, there, kept, _⟩ := post
    refine Succeeds.pure ⟨.plain rfl ?_, kept⟩
    exact .cons rfl put there .nil
  | true =>
    have notKept : ¬ (job.upscale.keepSource && job.rendersPrimary) := by
      intro kept
      obtain ⟨keeps, renders⟩ := (Bool.and_eq_true _ _).mp kept
      exact stays (Job.losesSource_iff.mpr ⟨renders, enlarges, keeps⟩)
    rw [if_pos rfl]
    dsimp only
    refine (yields_keepSource _ _ notKept _ _).bind fun kept log' none => ?_
    refine Succeeds.bind (succeeds_enlarge (by exact file) model _ size) (grows_enlarge _ _ _ _)
      (fun _ => .bind (grows_persistEnlarged _ _ _ _) fun _ => .pure _) fun images ds s' post => ?_
    obtain ⟨loads, r, rfl, switched, fresh⟩ := post
    obtain ⟨places, holds, distinct, new⟩ := fresh.holds
    refine Succeeds.bind (succeeds_persistEnlarged holds distinct model now size) (grows_persistEnlarged _ _ _ _)
      (fun _ => .pure _) fun paths ds s'' post => ?_
    obtain ⟨stored, kept'⟩ := post
    refine Succeeds.pure ⟨?_, ?_⟩
    · rw [none, List.nil_append, List.append_nil, List.append_assoc]
      exact .enlarged rfl switched fresh.nonempty stored
    -- The images of the answer are lost when they are put away, but they were not there before.
    · refine ((fresh.stays.keeps.trans kept').of_new fun k mem there => ?_).mono (List.nil_subset _)
      obtain ⟨bytes, entry⟩ := FileSystem.holdsFile_iff.mp there
      have free := (new k mem).1
      rw [entry] at free
      cases free

/-- An image that is put away first cannot be enlarged. -/
theorem fails_finishImage {image : RenderedImage} {l : Location} (leads : s.files.locate image.path = .ok l)
    (file : s.files.isFile image.path) (inside : s.files.locate d.scratchDir = .ok l.dropLast)
    (loses : job.losesSource) (output : ¬ job.inputImage.any (·.sameAs image.path)) (model : Option String)
    (now : Instant) :
    Fails (Deed.HealthyOutside d.scratchDir) (finishImage d ctx job model now image) s fun e _ =>
      e = .unreadable image.path .notFound := by
  obtain ⟨renders, enlarges, keeps⟩ := Job.losesSource_iff.mp loses
  unfold finishImage Job.upscale?
  rw [if_pos enlarges]
  refine (yields_sizeOr _ _).bind fun size log _ => ?_
  refine Succeeds.bind
    (succeeds_keepSource (by exact leads) (by exact file) (by exact inside) (by rw [keeps, renders]; rfl) output _
      now)
    (grows_keepSource _ _ _ _)
    (fun _ => .bind (grows_enlarge _ _ _ _) fun _ => .bind (grows_persistEnlarged _ _ _ _) fun _ => .pure _)
    fun kept ds s' post => ?_
  obtain ⟨leads', gone⟩ := post
  refine ((fails_enlarge _ leads' gone _ _ _).imp fun e ds post => post.1).bind (grows_enlarge _ _ _ _)
    fun _ => .bind (grows_persistEnlarged _ _ _ _) fun _ => .pure _

/-- Images that are there are finished one after the other. -/
theorem succeeds_finishImages {images : List RenderedImage} {places : List Location}
    (holds : s.files.Holds images places) (distinct : places.Nodup) (stays : ¬ job.losesSource)
    (model : Option String) (now : Instant) :
    Succeeds (Deed.Healthy d.scratchDir) (finishImages d ctx job model now images) s fun paths ds _ =>
      AllFinished job.upscale.enabled ctx.outputRoot now images ds paths := by
  induction images generalizing s places with
  | nil => exact .pure .nil
  | cons image images ih =>
    obtain _ | ⟨first, rest⟩ := holds
    obtain ⟨file, leads⟩ := first
    obtain ⟨apart, distinct⟩ := List.nodup_cons.mp distinct
    rw [finishImages]
    refine Succeeds.bind (succeeds_finishImage leads file stays model now) (grows_finishImage _ _ _)
      (fun _ => .bind (grows_finishImages _ _ _) fun _ => .pure _) fun paths ds s' post => ?_
    obtain ⟨finished, kept⟩ := post
    have holds := FileSystem.Holds.keeps rest kept fun l mem same =>
      apart (List.mem_singleton.mp same ▸ mem)
    refine Succeeds.bind (ih holds distinct) (grows_finishImages _ _ _) (fun _ => .pure _)
      fun paths' ds' s'' post => ?_
    refine Succeeds.pure ?_
    rw [List.append_nil]
    exact .cons finished post

/-! ## The whole course -/

/-- Trigger phrases change the prompts of a job and nothing else. -/
theorem insertTriggers_eq (triggers : TriggerRegistry) (model : Option String) (job : Job) :
    ∃ prompt highres, insertTriggers triggers model job = { job with prompt, highres } := by
  unfold insertTriggers
  split
  · exact ⟨job.prompt, job.highres, rfl⟩
  · split
    · exact ⟨job.prompt, job.highres, rfl⟩
    · exact ⟨_, _, rfl⟩

section Triggers

variable (triggers : TriggerRegistry) (model : Option String)

@[simp] theorem rendersPrimary_insertTriggers :
    (insertTriggers triggers model job).rendersPrimary = job.rendersPrimary := by
  obtain ⟨prompt, highres, same⟩ := insertTriggers_eq triggers model job
  rw [same]
  rfl

@[simp] theorem inputImage_insertTriggers :
    (insertTriggers triggers model job).inputImage = job.inputImage := by
  obtain ⟨prompt, highres, same⟩ := insertTriggers_eq triggers model job
  rw [same]

@[simp] theorem inputFiles_insertTriggers :
    (insertTriggers triggers model job).inputFiles = job.inputFiles := by
  obtain ⟨prompt, highres, same⟩ := insertTriggers_eq triggers model job
  rw [same]
  rfl

@[simp] theorem upscale_insertTriggers : (insertTriggers triggers model job).upscale = job.upscale := by
  obtain ⟨prompt, highres, same⟩ := insertTriggers_eq triggers model job
  rw [same]

@[simp] theorem losesSource_insertTriggers :
    (insertTriggers triggers model job).losesSource = job.losesSource := by
  simp [Job.losesSource]

end Triggers

theorem yields_noteMissingInput : Yields (noteMissingInput d job) s fun _ => True := by
  unfold noteMissingInput
  split
  · exact Work.yields_note _ _ _
  · exact .done _

/-- Before the images of a job are made there is at most a switch of the checkpoint, for a primary render. -/
theorem succeeds_ensureModel_of_job (wanted : Option String) :
    Succeeds (Deed.Healthy d.scratchDir) (ensureModel d (if job.rendersPrimary then wanted else none)) s
      fun _ ds s' => (∀ deed ∈ ds, deed.Loads) ∧ (¬ job.rendersPrimary → ds = []) ∧ s'.files = s.files := by
  by_cases renders : job.rendersPrimary
  · exact (succeeds_ensureModel _).imp fun _ ds s' post => ⟨post.1, absurd renders, post.2⟩
  · rw [if_neg renders]
    exact .pure ⟨by simp, fun _ => rfl, rfl⟩

/-- The images of a primary render are made and finished, unless they are put away first. -/
theorem succeeds_produce_of_renders (renders : job.rendersPrimary)
    (named : ∀ path ∈ job.inputFiles, s.files.isFile path) (stays : ¬ job.losesSource) (now : Instant)
    (wanted : Option String) :
    Succeeds (Deed.Healthy d.scratchDir) (produce d ctx now wanted job) s fun paths ds _ =>
      ∃ images r before after rest, images ≠ [] ∧ ds = .dispatch r before (.ok images) after :: rest ∧
        AllFinished job.upscale.enabled ctx.outputRoot now images rest paths := by
  unfold produce
  refine Work.yields_loadedModel.bind fun loaded log _ => ?_
  rw [← upscale_insertTriggers ctx.triggers (wanted.or loaded)]
  rw [← losesSource_insertTriggers ctx.triggers (wanted.or loaded)] at stays
  rw [← rendersPrimary_insertTriggers ctx.triggers (wanted.or loaded)] at renders
  rw [← inputFiles_insertTriggers ctx.triggers (wanted.or loaded)] at named
  refine Succeeds.bind (succeeds_sources renders named) grows_sources (fun _ => grows_finishImages _ _ _)
    fun images ds s' post => ?_
  obtain ⟨r, rfl, fresh⟩ := post
  obtain ⟨places, holds, distinct, _⟩ := fresh.holds
  refine Succeeds.imp (succeeds_finishImages holds distinct stays _ now) fun paths ds s'' finished => ?_
  exact ⟨images, r, _, _, ds, fresh.nonempty, rfl, finished⟩

/-- The input image of another job is finished. -/
theorem succeeds_produce_of_input {path : Path} (renders : ¬ job.rendersPrimary)
    (input : job.inputImage = some path) (file : s.files.isFile path) (now : Instant) (wanted : Option String) :
    Succeeds (Deed.Healthy d.scratchDir) (produce d ctx now wanted job) s fun paths ds _ =>
      ∃ image : RenderedImage, image.path = path ∧
        AllFinished job.upscale.enabled ctx.outputRoot now [image] ds paths := by
  have stays : ¬ job.losesSource := fun loses => renders (Job.losesSource_iff.mp loses).1
  unfold produce
  refine Work.yields_loadedModel.bind fun loaded log _ => ?_
  rw [← upscale_insertTriggers ctx.triggers (wanted.or loaded)]
  rw [← losesSource_insertTriggers ctx.triggers (wanted.or loaded)] at stays
  rw [← rendersPrimary_insertTriggers ctx.triggers (wanted.or loaded)] at renders
  rw [← inputImage_insertTriggers ctx.triggers (wanted.or loaded)] at input
  refine (yields_sources renders input).bind fun images log' post => ?_
  obtain ⟨image, rfl, rfl⟩ := post
  obtain ⟨l, leads, _⟩ := FileSystem.isFile_iff.mp file
  have holds : s.files.Holds [image] [l] := .cons ⟨file, leads⟩ .nil
  refine Succeeds.imp (succeeds_finishImages (by exact holds) (by simp) stays _ now)
    fun paths ds s'' finished => ?_
  exact ⟨image, rfl, finished⟩

/-- A job on a device in order succeeds, unless it puts images away before they are enlarged. -/
theorem succeeds_course (named : ∀ path ∈ job.inputFiles, s.files.isFile path)
    (sourced : job.rendersPrimary ∨ job.inputImage.isSome) (stays : ¬ job.losesSource) (now : Instant) :
    Succeeds (Deed.Healthy d.scratchDir) (course d ctx now job) s fun paths ds _ =>
      Delivered job ctx.outputRoot now ds paths := by
  unfold course
  refine yields_noteMissingInput.bind fun _ log _ => ?_
  refine Succeeds.bind (succeeds_ensureModel_of_job _) (grows_ensureModel _) (fun _ => grows_produce _ _)
    fun _ loads s' post => ?_
  obtain ⟨switched, none, same⟩ := post
  by_cases renders : job.rendersPrimary
  · refine (succeeds_produce_of_renders renders (by rwa [same]) stays now _).imp fun paths ds s'' post => ?_
    obtain ⟨images, r, before, after, rest, nonempty, rfl, finished⟩ := post
    exact .rendered renders switched nonempty finished
  · obtain ⟨path, input⟩ := Option.isSome_iff_exists.mp (sourced.resolve_left renders)
    have file : s'.files.isFile path := by
      rw [same]
      exact named path (by simp [Job.inputFiles, input])
    refine (succeeds_produce_of_input renders input file now _).imp fun paths ds s'' post => ?_
    obtain ⟨image, rfl, finished⟩ := post
    rw [none renders]
    exact .existing renders input finished

/-- A new image is not the input of a job. -/
theorem not_input_of_new {before after : FileSystem} {image : RenderedImage} {l : Location}
    (kept : Keeps before after []) (named : ∀ path ∈ job.inputFiles, before.isFile path)
    (leads : after.locate image.path = .ok l) (new : before.get? l = none) :
    ¬ job.inputImage.any (·.sameAs image.path) := by
  intro input
  obtain ⟨path, given, same⟩ := (Option.any_eq_true _ _).mp input
  obtain ⟨k, leads', there, _⟩ := FileSystem.isFile_iff.mp (named path (by simp [Job.inputFiles, given]))
  have place := kept.locate leads'
  rw [FileSystem.locate_congr after (Path.sameAs_iff.mp same), leads] at place
  cases place
  obtain ⟨bytes, entry⟩ := FileSystem.holdsFile_iff.mp there
  rw [new] at entry
  cases entry

/-- The first image of a primary render is put away before it can be enlarged. -/
theorem fails_produce (loses : job.losesSource) (named : ∀ path ∈ job.inputFiles, s.files.isFile path)
    (now : Instant) (wanted : Option String) :
    Fails (Deed.HealthyOutside d.scratchDir) (produce d ctx now wanted job) s fun e ds =>
      ∃ image images r before after, .dispatch r before (.ok (image :: images)) after ∈ ds ∧
        e = .unreadable image.path .notFound := by
  unfold produce
  refine Work.yields_loadedModel.bind fun loaded log _ => ?_
  rw [← losesSource_insertTriggers ctx.triggers (wanted.or loaded)] at loses
  rw [← inputFiles_insertTriggers ctx.triggers (wanted.or loaded)] at named
  have renders := (Job.losesSource_iff.mp loses).1
  refine Succeeds.bind ((succeeds_sources renders (by exact named)).strict fun _ => And.left) grows_sources
    (fun _ => grows_finishImages _ _ _) fun images ds s' post => ?_
  obtain ⟨r, rfl, fresh⟩ := post
  obtain ⟨places, holds, _, new⟩ := fresh.holds
  cases holds with
  | nil => exact absurd rfl fresh.nonempty
  | @cons image l images places first rest =>
    obtain ⟨file, leads⟩ := first
    obtain ⟨free, inside⟩ := new l List.mem_cons_self
    -- The image is new and so not the input: it is moved and not copied.
    have output := not_input_of_new fresh.stays.keeps named leads free
    rw [finishImages]
    refine Fails.bind ?_ (grows_finishImage _ _ _) fun _ => .bind (grows_finishImages _ _ _) fun _ => .pure _
    refine (fails_finishImage leads file inside loses output _ now).imp fun e ds post => ?_
    exact ⟨image, images, r, _, _, List.mem_cons_self, post⟩

/-- A job that keeps its images beside their enlargements fails when its first image is to be enlarged. -/
theorem fails_course (loses : job.losesSource) (named : ∀ path ∈ job.inputFiles, s.files.isFile path)
    (now : Instant) :
    Fails (Deed.HealthyOutside d.scratchDir) (course d ctx now job) s fun e ds =>
      ∃ image images r before after, .dispatch r before (.ok (image :: images)) after ∈ ds ∧
        e = .unreadable image.path .notFound := by
  unfold course
  refine yields_noteMissingInput.bind fun _ log _ => ?_
  refine Succeeds.bind ((succeeds_ensureModel_of_job _).strict fun _ => And.left) (grows_ensureModel _)
    (fun _ => grows_produce _ _) fun _ loads s' post => ?_
  obtain ⟨_, _, same⟩ := post
  refine (fails_produce loses (by rwa [same]) now _).imp fun e ds post => ?_
  obtain ⟨image, images, r, before, after, sent, reason⟩ := post
  exact ⟨image, images, r, before, after, List.mem_append_right _ sent, reason⟩

end Execution

end RenderFarm
