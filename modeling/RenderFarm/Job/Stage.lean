import RenderFarm.Job.Range
import RenderFarm.Text.Case

/-!
The parts of a job beyond its primary render: the mode that made it, the second high-resolution pass,
guidance by a reference image, refinement of regions, enlargement, and the descriptive fields.
-/

namespace RenderFarm

/-- How the sections of a template turn into jobs. -/
inductive Mode where
  /-- Every combination of the sections' picks. -/
  | standard
  /-- Independent samples, drawn anew whenever they are used up. -/
  | random
  /-- Work on images that exist already. -/
  | process
deriving DecidableEq, Repr

namespace Mode

/-- The name of a mode. -/
def name : Mode → String
  | .standard => "standard"
  | .random => "random"
  | .process => "process"

/-- Reads a mode; a text that names none is given back in lower case. -/
def read (s : String) : Except String Mode :=
  let word := Text.lowerAscii (Text.trim s)
  if word = "standard" ∨ word = "combination" then .ok .standard
  else if word = "random" then .ok .random
  else if word = "process" then .ok .process
  else .error word

/-- The wording for a text that names no mode. -/
def unknownMessage (word : String) : String :=
  "unknown mode '" ++ word ++ "'"

instance : JsonForm Mode where
  toJson m := .string m.name
  ofJson?
    | .string "standard" => some .standard
    | .string "random" => some .random
    | .string "process" => some .process
    | _ => none

end Mode

/-- Where a job came from. -/
inductive Origin where
  | template
  /-- A request to enlarge an existing image. -/
  | upscale
deriving DecidableEq, Repr

/-- The name of an origin. -/
def Origin.name : Origin → String
  | .template => "template"
  | .upscale => "upscale"

instance : JsonForm Origin where
  toJson o := .string o.name
  ofJson?
    | .string "template" => some .template
    | .string "upscale" => some .upscale
    | _ => none

/-- A second pass at a higher resolution within the primary request. Zero steps stand for the steps of the
first pass. -/
structure Highres where
  enabled : Bool := false
  scaleFactor : Float := 2.0
  steps : UInt32 := 0
  denoisingStrength : Float := 0.5
  upscaler : String := "Latent"
  checkpoint : Option String := none
  sampler : Option String := none
  prompt : Option String := none
  negativePrompt : Option String := none
deriving Repr

/-- How the prompt and the reference image are weighed against each other. -/
inductive ControlMode where
  | balanced
  | promptImportant
  | controlImportant
deriving DecidableEq, Repr

namespace ControlMode

/-- The name of a weighting in records. -/
def name : ControlMode → String
  | .balanced => "Balanced"
  | .promptImportant => "PromptImportant"
  | .controlImportant => "ControlImportant"

/-- The label that the backend's extension expects. -/
def label : ControlMode → String
  | .balanced => "Balanced"
  | .promptImportant => "My prompt is more important"
  | .controlImportant => "ControlNet is more important"

/-- Reads a weighting by its word or its number. -/
def read? (s : String) : Option ControlMode :=
  let word := Text.lowerAscii (Text.trim s)
  if word = "balanced" ∨ word = "0" then some .balanced
  else if word = "prompt" ∨ word = "1" then some .promptImportant
  else if word = "controlnet" ∨ word = "2" then some .controlImportant
  else none

instance : JsonForm ControlMode where
  toJson m := .string m.name
  ofJson?
    | .string "Balanced" => some .balanced
    | .string "PromptImportant" => some .promptImportant
    | .string "ControlImportant" => some .controlImportant
    | _ => none

end ControlMode

/-- Guidance by a reference image. -/
structure ControlNet where
  inputImage : Option Path := none
  model : Option String := none
  preprocessor : String := "none"
  weight : Float := 1.0
  guidanceStart : Float := 0.0
  guidanceEnd : Float := 1.0
  pixelPerfect : Bool := false
  lowVram : Bool := false
  controlMode : ControlMode := .balanced
deriving Repr

/-- Guidance takes place only with both a reference image and a model. -/
def ControlNet.isActive (c : ControlNet) : Bool :=
  c.inputImage.isSome && c.model.isSome

/-- Automatic refinement of regions. -/
structure Detailer where
  model : Option String := none
  prompt : Option String := none
  negativePrompt : Option String := none
  confidence : Float := 0.3
  denoisingStrength : Float := 0.4
deriving Repr

/-- Refinement takes place only with a model. -/
def Detailer.isActive (d : Detailer) : Bool :=
  d.model.isSome

/-- How an image is enlarged. -/
inductive UpscaleMethod where
  /-- A named upscaler on the single image. -/
  | upscaler (name : String)
  /-- A second render from the image at the larger size. -/
  | sd
  /-- A second render in tiles by a script. -/
  | ultimate
deriving DecidableEq, Repr

/-- Whether a method renders the image again. -/
def UpscaleMethod.isGenerative : UpscaleMethod → Bool
  | .upscaler _ => false
  | .sd => true
  | .ultimate => true

instance : JsonForm UpscaleMethod where
  toJson
    | .upscaler name => .object [("kind", .string "upscaler"), ("name", .string name)]
    | .sd => .object [("kind", .string "sd")]
    | .ultimate => .object [("kind", .string "ultimate")]
  ofJson? v := do
    let kind : String ← v.field? "kind"
    if kind = "upscaler" then (v.field? "name").map .upscaler
    else if kind = "sd" then some .sd
    else if kind = "ultimate" then some .ultimate
    else none

/-- Enlargement after the primary render. -/
structure Upscale where
  enabled : Bool := false
  method : UpscaleMethod := .upscaler "ESRGAN_4x"
  amount : Float := 2.0
  codeformerVisibility : Float := 0.0
  gfpganVisibility : Float := 0.0
  keepSource : Bool := false
  sdStrength : Float := 0.3
  checkpoint : Option String := none
  sampler : Option String := none
  steps : Option UInt32 := none
  prompt : Option String := none
  negativePrompt : Option String := none
deriving Repr

/-- Descriptive fields of an image. Keywords are a list with commas between them. -/
structure Iptc where
  title : String := ""
  description : String := ""
  keywords : String := ""
  copyright : String := ""
deriving DecidableEq, Repr

/-- Whether every field is empty. -/
def Iptc.isEmpty (i : Iptc) : Bool :=
  i.title.isEmpty && i.description.isEmpty && i.keywords.isEmpty && i.copyright.isEmpty

/-- The keywords, trimmed, with empty ones left out. -/
def Iptc.keywordList (i : Iptc) : List String :=
  Text.listItems ',' i.keywords

instance : JsonForm Iptc where
  toJson i := .object
    [("title", toJson i.title), ("description", toJson i.description),
      ("keywords", toJson i.keywords), ("copyright", toJson i.copyright)]
  ofJson? v := do
    let v ← v.asStruct? ["title", "description", "keywords", "copyright"]
    pure
      { title := ← v.field? "title", description := ← v.field? "description"
        keywords := ← v.field? "keywords", copyright := ← v.field? "copyright" }

end RenderFarm
