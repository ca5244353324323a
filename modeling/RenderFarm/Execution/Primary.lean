import RenderFarm.Execution.Site

/-!
The first render of a job. What the backend does not offer is left out of the request with a warning; when
nothing is known of the backend, everything is asked for.
-/

namespace RenderFarm.Execution

open Backend

variable {σ : Type}

/-- The name that the backend knows the guidance extension by. -/
def controlNetExtension : String := "controlnet"

/-- The name that the backend knows the refinement extension by. -/
def detailerExtension : String := "ADetailer"

/-- The request for a job's text and sizes. -/
def baseRequest (job : Job) : Generation where
  prompt := job.prompt
  negativePrompt := job.negativePrompt
  seed := job.seed
  width := job.width
  height := job.height
  steps := job.steps.min
  scale := job.scale.min
  sampler := job.sampler
  iterations := max job.samples 1
  batchSize := max job.batchSize 1
  styles := job.styles
  overrides :=
    (job.vae.map fun vae => ("sd_vae", toJson vae)).toList ++
      (job.clipSkip.map fun n => ("CLIP_stop_at_last_layers", toJson n)).toList

/-- The request with a second pass at a higher resolution. -/
def withHighres (h : Highres) (r : Generation) : Generation :=
  { r with
    highresEnabled := true
    highresScale := some h.scaleFactor
    highresSteps := some h.steps
    highresUpscaler := some h.upscaler
    denoisingStrength := some h.denoisingStrength
    highresCheckpoint := h.checkpoint
    highresSampler := h.sampler
    highresPrompt := h.prompt
    highresNegativePrompt := h.negativePrompt }

/-- The request that starts from an image. -/
def withInitImage (image : String) (strength : Float) (r : Generation) : Generation :=
  { r with initImages := [image], denoisingStrength := some strength }

/-- What the guidance extension is given, with its reference image in base64. -/
def controlUnit (c : ControlNet) (image : String) : ControlUnit where
  image
  module := c.preprocessor
  model := c.model.getD ""
  weight := c.weight
  guidanceStart := c.guidanceStart
  guidanceEnd := c.guidanceEnd
  pixelPerfect := c.pixelPerfect
  lowVram := c.lowVram
  controlMode := c.controlMode.label

/-- What the refinement extension is given. -/
def detailerUnit (d : Detailer) : DetailerUnit where
  model := d.model.getD ""
  prompt := d.prompt.getD ""
  negativePrompt := d.negativePrompt.getD ""
  confidence := d.confidence
  denoisingStrength := d.denoisingStrength

/-- Whether guidance may be asked for. -/
def allowsControlNet (caps : Capabilities) : Bool :=
  caps.isEmpty || caps.controlNetAvailable

/-- Whether refinement may be asked for. -/
def allowsDetailer (caps : Capabilities) : Bool :=
  caps.isEmpty || caps.detailerAvailable

/-- Whether the tiled upscale script may be asked for. -/
def allowsUltimate (caps : Capabilities) : Bool :=
  caps.isEmpty || caps.ultimateAvailable

/-- Adds guidance to a request, if the job asks for it and the backend offers it. -/
def attachControlNet (d : Renderer σ) (caps : Capabilities) (job : Job) (r : Generation) :
    Work σ Generation := do
  match job.controlNet? with
  | none => return r
  | some c =>
    if allowsControlNet caps then
      let image ← match c.inputImage with
        | some path => Work.encodeFile path
        | none => pure ""
      return r.addExtension controlNetExtension [(controlUnit c image).encode]
    else
      Work.warn d "ControlNet is not available; rendering without it" []
      return r

/-- Adds refinement to a request, if the job asks for it and the backend offers it. -/
def attachDetailer (d : Renderer σ) (caps : Capabilities) (job : Job) (r : Generation) :
    Work σ Generation := do
  match job.detailer? with
  | none => return r
  | some s =>
    if allowsDetailer caps then
      return r.addExtension detailerExtension (detailerUnit s).args
    else
      Work.warn d "ADetailer is not available; skipping detail pass" []
      return r

/-- The request of a job's first render. A job with an input image starts from it and has no second pass. -/
def primaryRequest (d : Renderer σ) (caps : Capabilities) (job : Job) : Work σ Request := do
  let r ← attachControlNet d caps job (baseRequest job)
  let r ← attachDetailer d caps job r
  match job.inputImage with
  | some path =>
    let image ← Work.encodeFile path
    return .img2img (withInitImage image job.strength.min r)
  | none =>
    return .txt2img (match job.highres? with
      | some h => withHighres h r
      | none => r)

end RenderFarm.Execution
