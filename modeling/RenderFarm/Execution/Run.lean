import RenderFarm.Execution.Primary

/-!
The course of a job on a device: the checkpoint is switched if need be, trigger phrases are put in, the first
render is made or an existing image taken, each image is enlarged if the job asks for it, and everything goes
into the output tree. A failure ends the job; in any case the device's scratch folder is cleared.
-/

namespace RenderFarm.Execution

open Backend

variable {σ : Type}

/-- Whether two titles name the same checkpoint. -/
def sameModel (a b : String) : Bool :=
  Text.eqIgnoringCase (Title.stripHash a) (Title.stripHash b)

/-- Switches the checkpoint, unless none is wanted or it is loaded. -/
def ensureModel (d : Renderer σ) (wanted : Option String) : Work σ Unit := do
  match wanted with
  | none => return ()
  | some title =>
    if (← Work.loadedModel d).any fun loaded => sameModel loaded title then return ()
    else Work.loadModel d title

/-- The job with the trigger phrase of its checkpoint in its prompts. -/
def insertTriggers (triggers : TriggerRegistry) (model : Option String) (job : Job) : Job :=
  if job.triggerPlacement = .off then job
  else
    match model.bind triggers.lookup? with
    | none => job
    | some phrase =>
      let insert (prompt : String) := Placement.insert prompt phrase job.triggerPlacement
      { job with
        prompt := insert job.prompt
        highres := { job.highres with prompt := job.highres.prompt.map insert } }

/-- An existing image, as if the device had just made it. -/
def existingImage (fs : FileSystem) (path : Path) (seed : Int64) : RenderedImage where
  path
  infotext := ((ImageRecord.read fs path).toOption.map (·.infotext)).getD ""
  seed := if 0 ≤ seed then some seed else none

/-- The images that a job starts with. -/
def sources (d : Renderer σ) (ctx : ExecutionContext) (job : Job) : Work σ (List RenderedImage) := do
  if job.rendersPrimary then
    let request ← primaryRequest d ctx.capabilities job
    Work.dispatch d request
  else
    match job.inputImage with
    | none => Work.fail .missingInput
    | some path => return [existingImage (← Work.files) path job.seed]

/-- The size of an image, or another one when it cannot be read. -/
def sizeOr (image : Path) (size : Image.Size) : Work σ Image.Size :=
  return ((Image.dimensions (← Work.files) image).toOption).getD size

/-- The place in the backend's list of the upscaler that tiles are enlarged with. -/
def tileUpscaler (caps : Capabilities) : Nat :=
  (caps.upscalers.findIdx? fun u => Text.contains (Text.lowerAscii u) "esrgan_4x").getD 0

/-- The request of an enlargement by a second render, before extensions. -/
def enlargingRequest (ctx : ExecutionContext) (job : Job) (settings : Upscale) (image : RenderedImage)
    (encoded : String) (size : Image.Size) (tiled : Bool) : Generation where
  prompt := settings.prompt.getD job.prompt
  negativePrompt := settings.negativePrompt.getD job.negativePrompt
  seed := image.seed.getD job.seed
  width := size.width
  height := size.height
  steps := settings.steps.getD job.steps.min
  scale := job.scale.min
  sampler := settings.sampler.getD job.sampler
  iterations := 1
  batchSize := 1
  initImages := [encoded]
  denoisingStrength := some settings.sdStrength
  scriptName := if tiled then some Capabilities.ultimateScript else none
  scriptArgs := if tiled then ultimateArgs (tileUpscaler ctx.capabilities) size.width size.height else []

/-- The method that an enlargement comes down to on the backend. -/
def usableMethod (d : Renderer σ) (caps : Capabilities) (method : UpscaleMethod) : Work σ UpscaleMethod := do
  if method = .ultimate && !allowsUltimate caps then
    Work.warn d "Ultimate SD upscale script is not installed; using sd upscale" []
    return .sd
  else return method

/-- Enlarges an image of a given size. -/
def enlarge (d : Renderer σ) (ctx : ExecutionContext) (job : Job) (model : Option String)
    (settings : Upscale) (image : RenderedImage) (size : Image.Size) : Work σ (List RenderedImage) := do
  let encoded ← Work.encodeFile image.path
  match ← usableMethod d ctx.capabilities settings.method with
  | .upscaler name =>
    Work.dispatch d (.extra
      { image := encoded, resizeMode := 0, amount := settings.amount, upscaler := name
        codeformerVisibility := settings.codeformerVisibility
        gfpganVisibility := settings.gfpganVisibility })
  | method =>
    ensureModel d (settings.checkpoint.or model)
    let target := Upscale.fit size settings.amount ctx.maxPixels
    let r := enlargingRequest ctx job settings image encoded target (method = .ultimate)
    let r ← attachDetailer d ctx.capabilities job r
    Work.note d .info "Upscaling"
      [("width", .number target.width.toNat), ("height", .number target.height.toNat)]
    Work.dispatch d (.img2img r)

/-- Puts enlarged images into the output tree. -/
def persistEnlarged (ctx : ExecutionContext) (job : Job) (model : Option String) (now : Instant)
    (size : Image.Size) : List RenderedImage → Work σ (List Path)
  | [] => return []
  | image :: images => do
    let shown ← sizeOr image.path size
    let path ← Work.persist job image ⟨shown.width, shown.height, model, true⟩ ctx.outputRoot now
    return path :: (← persistEnlarged ctx job model now size images)

/-- Puts an image into the output tree before it is enlarged, if the job renders it and it is to be kept. -/
def keepSource (ctx : ExecutionContext) (job : Job) (settings : Upscale) (image : RenderedImage)
    (facts : Output.Facts) (now : Instant) : Work σ (List Path) := do
  if settings.keepSource && job.rendersPrimary then
    return [← Work.persist job image facts ctx.outputRoot now]
  else return []

/-- Finishes one image: it is put into the output tree, or its enlargements are, after the image itself when
it is kept. -/
def finishImage (d : Renderer σ) (ctx : ExecutionContext) (job : Job) (model : Option String) (now : Instant)
    (image : RenderedImage) : Work σ (List Path) := do
  let size ← sizeOr image.path ⟨job.width, job.height⟩
  let facts : Output.Facts := ⟨size.width, size.height, model, false⟩
  match job.upscale? with
  | none => return [← Work.persist job image facts ctx.outputRoot now]
  | some settings =>
    let kept ← keepSource ctx job settings image facts now
    let enlarged ← enlarge d ctx job model settings image size
    return kept ++ (← persistEnlarged ctx job model now size enlarged)

/-- Finishes one image after the other. -/
def finishImages (d : Renderer σ) (ctx : ExecutionContext) (job : Job) (model : Option String)
    (now : Instant) : List RenderedImage → Work σ (List Path)
  | [] => return []
  | image :: images => do
    let paths ← finishImage d ctx job model now image
    return paths ++ (← finishImages d ctx job model now images)

/-- Warns when there was no image to be picked from the directory of a job. -/
def noteMissingInput (d : Renderer σ) (job : Job) : Work σ Unit :=
  match job.randomInputDir, job.inputImage with
  | some dir, none => Work.warn d "No images found in random input directory" [("dir", .shown dir.text)]
  | _, _ => return ()

/-- Makes the images of a job and finishes them, with the checkpoint that is wanted or else with the one that
is loaded. -/
def produce (d : Renderer σ) (ctx : ExecutionContext) (now : Instant) (wanted : Option String) (job : Job) :
    Work σ (List Path) := do
  let model := wanted.or (← Work.loadedModel d)
  let job := insertTriggers ctx.triggers model job
  let images ← sources d ctx job
  finishImages d ctx job model now images

/-- The course of a job, up to its images. The checkpoint is switched for a primary render only. -/
def course (d : Renderer σ) (ctx : ExecutionContext) (now : Instant) (job : Job) : Work σ (List Path) := do
  noteMissingInput d job
  let wanted := job.checkpoint.or ctx.defaultCheckpoint
  ensureModel d (if job.rendersPrimary then wanted else none)
  produce d ctx now wanted job

/-- Clears the scratch folder of a device. A failure is only logged. -/
def tidy (d : Renderer σ) : Work σ Unit := do
  let s ← get
  match Output.clearScratch s.files d.scratchDir with
  | .ok files => set { s with files }
  | .error e => Work.warn d "Failed to clear scratch directory" [("error", .shown e.message)]

/-- The text of a number of milliseconds in seconds. -/
def secondsText (ms : Nat) : String :=
  toString (ms / 1000) ++ "." ++ padded 3 (ms % 1000)

/-- Executes a job whose choices are settled, from a moment on and for some milliseconds. -/
def run (d : Renderer σ) (ctx : ExecutionContext) (now : Instant) (elapsed : Nat) (job : Job) (s : Site σ) :
    JobReport × Site σ :=
  let sequence := ("job", LogValue.number job.sequence)
  let (_, s) := (Work.note d .info "Starting job" [sequence, ("prompt", .shown job.prompt)]).perform s
  let (result, s) := (course d ctx now job).perform s
  let (_, s) := (tidy d).perform s
  let (_, s) :=
    (match result with
      | .ok paths =>
        Work.note d .info "Job complete"
          [sequence, ("images", .number paths.length), ("elapsed_secs", .shown (secondsText elapsed))]
      | .error e => Work.note d .error "Job failed" [sequence, ("error", .shown e.message)]).perform s
  (⟨d.id, job.sequence, job.origin, result.mapError JobError.message⟩, s)

end RenderFarm.Execution

namespace RenderFarm

/-- Settles what a job leaves to chance and executes it. There is no result for a job that cannot be
settled. -/
def execute {σ γ : Type} [Generator γ] (d : Renderer σ) (ctx : ExecutionContext) (now : Instant)
    (elapsed : Nat) (job : Job) (s : Site σ) (g : γ) : Option ((JobReport × Site σ) × γ) := do
  let (job, g) ← job.settle s.files g
  pure (Execution.run d ctx now elapsed job s, g)

end RenderFarm
