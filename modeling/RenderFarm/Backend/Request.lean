import RenderFarm.Json.Codec
import RenderFarm.Text.Search

/-!
Requests to a render backend, in the form that its interface takes: fields that are not set are left out, so
that the backend's own defaults hold.
-/

namespace RenderFarm.Backend

/-- A member that is left out when the list is empty. -/
def unlessEmpty {α : Type} [JsonForm α] (name : String) (as : List α) : String × Option Json :=
  (name, if as.isEmpty then none else some (toJson as))

/-- A member that is left out when there is no value. -/
def ifPresent {α : Type} [JsonForm α] (name : String) (a : Option α) : String × Option Json :=
  (name, a.map toJson)

/-- A member that is always there. -/
def always {α : Type} [JsonForm α] (name : String) (a : α) : String × Option Json :=
  (name, some (toJson a))

/-- A request for images, from text alone or from images to start with. -/
structure Generation where
  prompt : String := ""
  negativePrompt : String := ""
  seed : Int64 := 0
  width : UInt32 := 0
  height : UInt32 := 0
  steps : UInt32 := 0
  scale : Float := 0
  sampler : String := ""
  iterations : UInt32 := 0
  batchSize : UInt32 := 0
  styles : List String := []
  /-- Source images in base64. -/
  initImages : List String := []
  denoisingStrength : Option Float := none
  highresEnabled : Bool := false
  highresScale : Option Float := none
  highresSteps : Option UInt32 := none
  highresUpscaler : Option String := none
  highresCheckpoint : Option String := none
  highresSampler : Option String := none
  highresPrompt : Option String := none
  highresNegativePrompt : Option String := none
  /-- Settings that hold for this request only. -/
  overrides : List (String × Json) := []
  scriptName : Option String := none
  scriptArgs : List Json := []
  /-- What extensions are given, by the name of their script. -/
  extensions : List (String × Json) := []

namespace Generation

/-- Puts a member into an object; one of the same name is replaced. -/
def setMember (members : List (String × Json)) (name : String) (v : Json) : List (String × Json) :=
  if members.any (·.1 == name) then members.map fun m => if m.1 == name then (name, v) else m
  else members ++ [(name, v)]

/-- The request with arguments for an extension. -/
def addExtension (r : Generation) (script : String) (args : List Json) : Generation :=
  { r with extensions := setMember r.extensions script (.object [("args", .array args)]) }

/-- An object that is left out when it has no members. -/
def unlessBare (name : String) (members : List (String × Json)) : String × Option Json :=
  (name, if members.isEmpty then none else some (.object members))

/-- The body of the request. -/
def body (r : Generation) : Json :=
  Json.objectOf
    [always "prompt" r.prompt, always "negative_prompt" r.negativePrompt, always "seed" r.seed,
      always "width" r.width, always "height" r.height, always "steps" r.steps,
      always "cfg_scale" r.scale, always "sampler_name" r.sampler, always "n_iter" r.iterations,
      always "batch_size" r.batchSize, unlessEmpty "styles" r.styles,
      unlessEmpty "init_images" r.initImages, ifPresent "denoising_strength" r.denoisingStrength,
      ("enable_hr", if r.highresEnabled then some (.bool true) else none),
      ifPresent "hr_scale" r.highresScale, ifPresent "hr_second_pass_steps" r.highresSteps,
      ifPresent "hr_upscaler" r.highresUpscaler, ifPresent "hr_checkpoint_name" r.highresCheckpoint,
      ifPresent "hr_sampler_name" r.highresSampler, ifPresent "hr_prompt" r.highresPrompt,
      ifPresent "hr_negative_prompt" r.highresNegativePrompt,
      unlessBare "override_settings" r.overrides, ifPresent "script_name" r.scriptName,
      unlessEmpty "script_args" r.scriptArgs, unlessBare "alwayson_scripts" r.extensions]

/-- Reads a request back from its body. -/
def ofBody? (v : Json) : Option Generation := do
  let members (name : String) : List (String × Json) :=
    match v.member? name with
    | some (.object ms) => ms
    | _ => []
  pure
    { prompt := ← v.fieldD? "prompt" "", negativePrompt := ← v.fieldD? "negative_prompt" ""
      seed := ← v.fieldD? "seed" 0, width := ← v.fieldD? "width" 0, height := ← v.fieldD? "height" 0
      steps := ← v.fieldD? "steps" 0, scale := ← v.fieldD? "cfg_scale" 0
      sampler := ← v.fieldD? "sampler_name" "", iterations := ← v.fieldD? "n_iter" 0
      batchSize := ← v.fieldD? "batch_size" 0, styles := ← v.fieldD? "styles" []
      initImages := ← v.fieldD? "init_images" [], denoisingStrength := ← v.field? "denoising_strength"
      highresEnabled := ← v.fieldD? "enable_hr" false, highresScale := ← v.field? "hr_scale"
      highresSteps := ← v.field? "hr_second_pass_steps", highresUpscaler := ← v.field? "hr_upscaler"
      highresCheckpoint := ← v.field? "hr_checkpoint_name"
      highresSampler := ← v.field? "hr_sampler_name", highresPrompt := ← v.field? "hr_prompt"
      highresNegativePrompt := ← v.field? "hr_negative_prompt"
      overrides := members "override_settings", scriptName := ← v.field? "script_name"
      scriptArgs := ← v.fieldD? "script_args" [], extensions := members "alwayson_scripts" }

end Generation

/-- A request to enlarge a single image. -/
structure Enlargement where
  /-- The image in base64. -/
  image : String := ""
  /-- Zero scales by the amount. -/
  resizeMode : Nat := 0
  amount : Float := 2
  upscaler : String := ""
  codeformerVisibility : Float := 0
  gfpganVisibility : Float := 0

/-- The body of the request. -/
def Enlargement.body (r : Enlargement) : Json :=
  .object
    [("image", toJson r.image), ("resize_mode", toJson r.resizeMode),
      ("upscaling_resize", toJson r.amount), ("upscaler_1", toJson r.upscaler),
      ("codeformer_visibility", toJson r.codeformerVisibility),
      ("gfpgan_visibility", toJson r.gfpganVisibility)]

/-- Reads a request back from its body. -/
def Enlargement.ofBody? (v : Json) : Option Enlargement := do
  pure
    { image := ← v.fieldD? "image" "", resizeMode := ← v.fieldD? "resize_mode" 0
      amount := ← v.fieldD? "upscaling_resize" 2, upscaler := ← v.fieldD? "upscaler_1" ""
      codeformerVisibility := ← v.fieldD? "codeformer_visibility" 0
      gfpganVisibility := ← v.fieldD? "gfpgan_visibility" 0 }

/-- The kinds of request. -/
inductive Kind where
  | txt2img
  | img2img
  | extra
deriving DecidableEq, Repr

namespace Kind

/-- Where a request of a kind is sent. -/
def path : Kind → String
  | .txt2img => "/sdapi/v1/txt2img"
  | .img2img => "/sdapi/v1/img2img"
  | .extra => "/sdapi/v1/extra-single-image"

/-- Whether the images that come back are enlargements. -/
def isUpscale : Kind → Bool
  | .extra => true
  | _ => false

/-- The short name of a kind. -/
def name : Kind → String
  | .txt2img => "txt2img"
  | .img2img => "img2img"
  | .extra => "extra"

end Kind

/-- A request to render or enlarge. -/
inductive Request where
  | txt2img (r : Generation)
  | img2img (r : Generation)
  | extra (r : Enlargement)

namespace Request

/-- The kind of a request. -/
def kind : Request → Kind
  | .txt2img _ => .txt2img
  | .img2img _ => .img2img
  | .extra _ => .extra

/-- The body of a request. -/
def body : Request → Json
  | .txt2img r => r.body
  | .img2img r => r.body
  | .extra r => r.body

/-- Reads a request of a kind back from its body. -/
def ofBody? (kind : Kind) (v : Json) : Option Request :=
  match kind with
  | .txt2img => (Generation.ofBody? v).map .txt2img
  | .img2img => (Generation.ofBody? v).map .img2img
  | .extra => (Enlargement.ofBody? v).map .extra

end Request

/-- What the guidance extension is given for one reference image. -/
structure ControlUnit where
  image : String
  module : String
  model : String
  weight : Float
  guidanceStart : Float
  guidanceEnd : Float
  pixelPerfect : Bool
  lowVram : Bool
  controlMode : String

/-- The JSON form of a unit; a unit that is given is enabled. -/
def ControlUnit.encode (u : ControlUnit) : Json :=
  .object
    [("enabled", .bool true), ("image", toJson u.image), ("module", toJson u.module),
      ("model", toJson u.model), ("weight", toJson u.weight),
      ("guidance_start", toJson u.guidanceStart), ("guidance_end", toJson u.guidanceEnd),
      ("pixel_perfect", toJson u.pixelPerfect), ("low_vram", toJson u.lowVram),
      ("control_mode", toJson u.controlMode)]

/-- What the refinement extension is given. -/
structure DetailerUnit where
  model : String
  prompt : String := ""
  negativePrompt : String := ""
  confidence : Float
  denoisingStrength : Float

/-- The arguments of the refinement extension: it is switched on, also where a render starts from an image,
and set up by the unit. -/
def DetailerUnit.args (u : DetailerUnit) : List Json :=
  [.bool true, .bool false,
    Json.objectOf
      [always "ad_model" u.model, ("ad_prompt", if u.prompt.isEmpty then none else some (toJson u.prompt)),
        ("ad_negative_prompt",
          if u.negativePrompt.isEmpty then none else some (toJson u.negativePrompt)),
        always "ad_confidence" u.confidence, always "ad_denoising_strength" u.denoisingStrength]]

/-- The arguments of the tiled upscale script for a target size: no info, tiles of 512 by 512, a mask blur of
8, padding 32, seams of width 64, denoise 0.35 and padding 32, the upscaler, redrawing in a chess pattern,
seams blurred by 4 and not fixed, and a custom size, for which the scale of two at the end has no effect. -/
def ultimateArgs (upscalerIndex : Nat) (width height : UInt32) : List Json :=
  [.null, .int 512, .int 512, .int 8, .int 32, .int 64, .float 0.35, .int 32, .int upscalerIndex,
    .bool false, .int 1, .bool false, .int 4, .int 0, .int 1, .int width.toNat, .int height.toNat, .int 2]

/-- Image data without the header of a data URL. -/
def stripDataUrl (image : String) : String :=
  match Text.cut? "," image with
  | some (header, data) => if Text.startsWith header "data:" then data else image
  | none => image

/-- Image data behind the header of a PNG data URL. -/
def pngDataUrl (image : String) : String :=
  "data:image/png;base64," ++ stripDataUrl image

end RenderFarm.Backend
