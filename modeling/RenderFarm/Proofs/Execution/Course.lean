import RenderFarm.Proofs.Execution.Growth

/-!
The course of a job on a device in order. Every step up to the primary render succeeds when the files that the
job names are there; from then on images are finished one after the other, each as long as it is where the
device put it.
-/

namespace RenderFarm

/-- The files that a job names as its input. -/
def Job.inputFiles (j : Job) : List Path :=
  j.inputImage.toList ++ j.controlNet.inputImage.toList

namespace Execution

open FileSystem (Keeps)
open Work (Grows OnlyLogs Succeeds Fails Yields)

variable {σ : Type} {d : Renderer σ} {ctx : ExecutionContext} {job : Job} {s : Site σ}

/-! ## Up to the images -/

theorem succeeds_ensureModel (wanted : Option String) :
    Succeeds (Deed.Healthy d.scratchDir) (ensureModel d wanted) s fun _ ds s' =>
      (∀ deed ∈ ds, deed.Loads) ∧ s'.files = s.files := by
  unfold ensureModel
  split
  · exact .pure ⟨by simp, rfl⟩
  · refine Work.yields_loadedModel.bind fun loaded log _ => ?_
    split
    · exact Succeeds.pure ⟨by simp, rfl⟩
    · refine (Work.succeeds_loadModel _).imp fun _ ds s' post => ?_
      obtain ⟨rfl, same⟩ := post
      refine ⟨fun deed mem => ?_, same⟩
      obtain rfl := List.mem_singleton.mp mem
      trivial

theorem yields_attachControlNet (named : ∀ path ∈ job.inputFiles, s.files.isFile path) (caps : Capabilities)
    (r : Backend.Generation) : Yields (attachControlNet d caps job r) s fun _ => True := by
  unfold attachControlNet
  split
  · exact .done _
  · rename_i c active
    split
    · dsimp only
      split
      · rename_i path image
        have mem : path ∈ job.inputFiles := by
          unfold Job.controlNet? at active
          split at active
          · cases active
            simp [Job.inputFiles, image]
          · cases active
        exact (Work.yields_encodeFile (named path mem)).trans fun _ _ _ => .done _
      · exact (Yields.done _).trans fun _ _ _ => .done _
    · exact (Work.yields_note _ _ _).trans fun _ _ _ => .done _

theorem yields_attachDetailer (caps : Capabilities) (r : Backend.Generation) :
    Yields (attachDetailer d caps job r) s fun _ => True := by
  unfold attachDetailer
  split
  · exact .done _
  · split
    · exact .done _
    · exact (Work.yields_note _ _ _).trans fun _ _ _ => .done _

/-- The request of the first render can be made when the files that the job names are there. -/
theorem yields_primaryRequest (named : ∀ path ∈ job.inputFiles, s.files.isFile path) (caps : Capabilities) :
    Yields (primaryRequest d caps job) s fun _ => True := by
  unfold primaryRequest
  refine (yields_attachControlNet named caps _).trans fun r log _ =>
    (yields_attachDetailer caps r).trans fun r' log' _ => ?_
  split
  · rename_i path image
    have mem : path ∈ job.inputFiles := by simp [Job.inputFiles, image]
    refine (Work.yields_encodeFile ?_).trans fun _ _ _ => .done _
    exact named path mem
  · exact .done _

theorem succeeds_sources (renders : job.rendersPrimary) (named : ∀ path ∈ job.inputFiles, s.files.isFile path) :
    Succeeds (Deed.Healthy d.scratchDir) (sources d ctx job) s fun images ds s' =>
      ∃ r, ds = [.dispatch r s.files (.ok images) s'.files] ∧
        FreshImages d.scratchDir s.files s'.files images := by
  unfold sources
  rw [if_pos renders]
  exact (yields_primaryRequest named _).bind fun r log _ =>
    (Work.succeeds_dispatch r).imp fun images ds s' post => ⟨r, post⟩

/-- A job without a primary render starts with its input image. -/
theorem yields_sources {path : Path} (renders : ¬ job.rendersPrimary) (input : job.inputImage = some path) :
    Yields (sources d ctx job) s fun images => ∃ image, images = [image] ∧ image.path = path := by
  unfold sources
  rw [if_neg renders, input]
  exact Work.yields_files.trans fun fs log _ => .pure ⟨existingImage fs path job.seed, rfl, rfl⟩

/-! ## Images -/

theorem yields_sizeOr (image : Path) (size : Image.Size) :
    Yields (sizeOr image size : Work σ Image.Size) s fun _ => True :=
  Work.yields_files.trans fun _ _ _ => .done _

theorem yields_usableMethod (caps : Capabilities) (method : UpscaleMethod) :
    Yields (usableMethod d caps method) s fun _ => True := by
  unfold usableMethod
  split
  · exact (Work.yields_note _ _ _).trans fun _ _ _ => .done _
  · exact .done _

/-- An image that is there is enlarged with one request, after switches of the checkpoint. -/
theorem succeeds_enlarge {image : RenderedImage} (file : s.files.isFile image.path) (model : Option String)
    (settings : Upscale) (size : Image.Size) :
    Succeeds (Deed.Healthy d.scratchDir) (enlarge d ctx job model settings image size) s fun images ds s' =>
      ∃ loads r, ds = loads ++ [.dispatch r s.files (.ok images) s'.files] ∧ (∀ deed ∈ loads, deed.Loads) ∧
        FreshImages d.scratchDir s.files s'.files images := by
  refine (Work.yields_encodeFile file).bind fun encoded _ _ =>
    (yields_usableMethod _ _).bind fun method _ _ => ?_
  split
  · refine (Work.succeeds_dispatch _).imp fun images ds s' post => ?_
    exact ⟨[], _, post.1, by simp, post.2⟩
  · refine (succeeds_ensureModel _).bind (grows_ensureModel _) (fun _ => ?_) fun _ loads s' post => ?_
    · exact .bind (onlyLogs_attachDetailer _ _).grows fun _ => .bind (OnlyLogs.note d _ _ _).grows fun _ =>
        .dispatch _
    · obtain ⟨switched, same⟩ := post
      refine (yields_attachDetailer _ _).bind fun r _ _ => (Work.yields_note _ _ _).bind fun _ _ _ => ?_
      refine (Work.succeeds_dispatch _).imp fun images ds s'' post => ?_
      obtain ⟨rfl, fresh⟩ := post
      dsimp only at fresh ⊢
      rw [same] at fresh ⊢
      exact ⟨loads, _, rfl, switched, fresh⟩

/-- An image that is gone cannot be enlarged. -/
theorem fails_enlarge (Good : Deed → Prop) {image : RenderedImage} {l : Location}
    (leads : s.files.locate image.path = .ok l) (gone : s.files.get? l = none) (model : Option String)
    (settings : Upscale) (size : Image.Size) :
    Fails Good (enlarge d ctx job model settings image size) s fun e ds =>
      e = .unreadable image.path .notFound ∧ ds = [] := by
  refine (Work.fails_encodeFile Good leads gone).bind (OnlyLogs.encodeFile _).grows fun encoded =>
    .bind (onlyLogs_usableMethod _ _).grows fun method => ?_
  split
  · exact .dispatch _
  · exact .bind (grows_ensureModel _) fun _ => .bind (onlyLogs_attachDetailer _ _).grows fun _ =>
      .bind (OnlyLogs.note d _ _ _).grows fun _ => .dispatch _

end Execution

end RenderFarm
