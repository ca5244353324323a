import RenderFarm.Execution.Run
import RenderFarm.Proofs.Execution.Work

/-!
What is done in the course of a job is never undone. Steps that prepare a request only log; all others add to
what was done before them.
-/

namespace RenderFarm.Execution

open Work (Grows OnlyLogs)

variable {σ : Type} {d : Renderer σ} {ctx : ExecutionContext} {job : Job}

/-! ## Steps that only log -/

theorem onlyLogs_attachControlNet (caps : Capabilities) (r : Backend.Generation) :
    OnlyLogs (attachControlNet d caps job r) := by
  unfold attachControlNet
  split
  · exact .pure r
  · split
    · dsimp only
      split
      · exact .bind (.encodeFile _) fun _ => .pure _
      · exact .bind (.pure _) fun _ => .pure _
    · exact .bind (.warn d _ _) fun _ => .pure r

theorem onlyLogs_attachDetailer (caps : Capabilities) (r : Backend.Generation) :
    OnlyLogs (attachDetailer d caps job r) := by
  unfold attachDetailer
  split
  · exact .pure r
  · split
    · exact .pure _
    · exact .bind (.warn d _ _) fun _ => .pure r

theorem onlyLogs_primaryRequest (caps : Capabilities) : OnlyLogs (primaryRequest d caps job) := by
  refine .bind (onlyLogs_attachControlNet caps _) fun r => .bind (onlyLogs_attachDetailer caps r) fun r' => ?_
  split
  · exact .bind (.encodeFile _) fun _ => .pure _
  · exact .pure _

theorem onlyLogs_sizeOr (image : Path) (size : Image.Size) : OnlyLogs (sizeOr image size : Work σ Image.Size) :=
  .bind .files fun _ => .pure _

theorem onlyLogs_usableMethod (caps : Capabilities) (method : UpscaleMethod) :
    OnlyLogs (usableMethod d caps method) := by
  unfold usableMethod
  split
  · exact .bind (.warn d _ _) fun _ => .pure _
  · exact .pure _

theorem onlyLogs_noteMissingInput : OnlyLogs (noteMissingInput d job) := by
  unfold noteMissingInput
  split
  · exact .warn d _ _
  · exact .pure ()

/-! ## Steps that only add to what was done -/

theorem grows_ensureModel (wanted : Option String) : Grows (ensureModel d wanted) := by
  unfold ensureModel
  split
  · exact .pure ()
  · refine .bind (OnlyLogs.loadedModel d).grows fun loaded => ?_
    split
    · exact .pure ()
    · exact .loadModel _

theorem grows_sources : Grows (sources d ctx job) := by
  unfold sources
  split
  · exact .bind (onlyLogs_primaryRequest _).grows fun r => .dispatch r
  · split
    · exact (OnlyLogs.fail _).grows
    · exact .bind OnlyLogs.files.grows fun _ => .pure _

theorem grows_enlarge (model : Option String) (settings : Upscale) (image : RenderedImage) (size : Image.Size) :
    Grows (enlarge d ctx job model settings image size) := by
  refine .bind (OnlyLogs.encodeFile _).grows fun encoded =>
    .bind (onlyLogs_usableMethod _ _).grows fun method => ?_
  split
  · exact .dispatch _
  · exact .bind (grows_ensureModel _) fun _ => .bind (onlyLogs_attachDetailer _ _).grows fun _ =>
      .bind (OnlyLogs.note d _ _ _).grows fun _ => .dispatch _

theorem grows_persistEnlarged (model : Option String) (now : Instant) (size : Image.Size)
    (images : List RenderedImage) : Grows (persistEnlarged ctx job model now size images : Work σ (List Path)) := by
  induction images with
  | nil => exact .pure []
  | cons image images ih =>
    exact .bind (onlyLogs_sizeOr _ _).grows fun _ => .bind (.persist _ _ _ _ _) fun _ => .bind ih fun _ => .pure _

theorem grows_keepSource (settings : Upscale) (image : RenderedImage) (facts : Output.Facts) (now : Instant) :
    Grows (keepSource ctx job settings image facts now : Work σ (List Path)) := by
  unfold keepSource
  split
  · exact .bind (.persist _ _ _ _ _) fun _ => .pure _
  · exact .pure []

theorem grows_finishImage (model : Option String) (now : Instant) (image : RenderedImage) :
    Grows (finishImage d ctx job model now image) := by
  refine .bind (onlyLogs_sizeOr _ _).grows fun size => ?_
  split
  · exact .bind (.persist _ _ _ _ _) fun _ => .pure _
  · exact .bind (grows_keepSource _ _ _ _) fun _ => .bind (grows_enlarge _ _ _ _) fun _ =>
      .bind (grows_persistEnlarged _ _ _ _) fun _ => .pure _

theorem grows_finishImages (model : Option String) (now : Instant) (images : List RenderedImage) :
    Grows (finishImages d ctx job model now images) := by
  induction images with
  | nil => exact .pure []
  | cons image images ih => exact .bind (grows_finishImage _ _ _) fun _ => .bind ih fun _ => .pure _

theorem grows_produce (now : Instant) (wanted : Option String) : Grows (produce d ctx now wanted job) :=
  .bind (OnlyLogs.loadedModel d).grows fun _ => .bind grows_sources fun _ => grows_finishImages _ _ _

end RenderFarm.Execution
