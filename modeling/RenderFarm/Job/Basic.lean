import RenderFarm.Image.Folder
import RenderFarm.Job.Stage
import RenderFarm.Trigger.Placement

/-!
Jobs: one request to render an image and to work on the result. A job leaves the compiler with ranges and
a directory of input images where the template left them open; both are settled when it is started.
-/

namespace RenderFarm

/-- One request to render and post-process an image. A seed of -1 lets the backend choose. -/
structure Job where
  origin : Origin := .template
  mode : Mode := .standard
  templatePath : Option Path := none
  /-- Place in the queue, from one on. -/
  sequence : Nat := 0
  /-- The loop of the run in which the job was compiled. -/
  loopIndex : UInt32 := 0
  prompt : String := ""
  negativePrompt : String := ""
  seed : Int64 := -1
  width : UInt32 := 512
  height : UInt32 := 512
  steps : Range UInt32 := .fixed 20
  scale : Range Float := .fixed 7.5
  strength : Range Float := .fixed 0.75
  samples : UInt32 := 1
  batchSize : UInt32 := 1
  sampler : String := "Euler a"
  checkpoint : Option String := none
  vae : Option String := none
  styles : List String := []
  clipSkip : Option UInt32 := none
  inputImage : Option Path := none
  randomInputDir : Option Path := none
  highres : Highres := {}
  controlNet : ControlNet := {}
  detailer : Detailer := {}
  upscale : Upscale := {}
  /-- The file name template; without one the default naming applies. -/
  filename : Option String := none
  triggerPlacement : Placement := .off
  iptc : Iptc := {}
deriving Repr

namespace Job

/-- A request to enlarge an existing image. -/
def upscaleRequest (image : Path) (settings : Upscale) (defaults : Job) : Job :=
  { defaults with
    origin := .upscale, mode := .process, inputImage := some image
    upscale := { settings with enabled := true } }

/-- Whether the job has a primary render. Other jobs start from an image that exists. -/
def rendersPrimary (j : Job) : Bool :=
  j.mode != .process && j.origin != .upscale

/-- The second pass, when it is switched on. -/
def highres? (j : Job) : Option Highres :=
  if j.highres.enabled then some j.highres else none

/-- The enlargement, when it is switched on. -/
def upscale? (j : Job) : Option Upscale :=
  if j.upscale.enabled then some j.upscale else none

/-- The guidance, when it takes place. -/
def controlNet? (j : Job) : Option ControlNet :=
  if j.controlNet.isActive then some j.controlNet else none

/-- The refinement, when it takes place. -/
def detailer? (j : Job) : Option Detailer :=
  if j.detailer.isActive then some j.detailer else none

/-- The file stem of the job's template. -/
def templateStem (j : Job) : String :=
  (j.templatePath.bind Path.stem?).getD "adhoc"

/-- Settles what the template left to chance: steps, scale to one place and strength to two, and the input
image from its directory. There is no result when the bounds of a range are infinitely far apart. -/
def settle {γ : Type} [Generator γ] (fs : FileSystem) (j : Job) (g : γ) : Option (Job × γ) := do
  let (steps, g) := j.steps.settle g
  let (scale, g) ← j.scale.settle? g
  let (strength, g) ← j.strength.settle? g
  let (image, g) :=
    match j.randomInputDir with
    | some dir => Image.pick fs dir g
    | none => (none, g)
  pure
    ({ j with
        steps := .fixed steps, scale := .fixed (roundTo scale 1)
        strength := .fixed (roundTo strength 2), inputImage := image.or j.inputImage },
      g)

end Job

end RenderFarm
