import RenderFarm.Text.Case
import RenderFarm.Json.Codec

/-!
What a render backend offers. Names that a user writes are matched against the backend's lists: an equal
name wins wherever it stands, otherwise the first name that contains the text.
-/

namespace RenderFarm

/-- A checkpoint of the backend. -/
structure Model where
  title : String
  filename : Option String := none
deriving DecidableEq, Repr

/-- A saved prompt style. -/
structure Style where
  name : String
  prompt : String
  negativePrompt : String
deriving DecidableEq, Repr

/-- Everything that a backend reported when it was asked for its lists. -/
structure Capabilities where
  samplers : List String := []
  models : List Model := []
  hypernetworks : List String := []
  loras : List String := []
  vaes : List String := []
  styles : List Style := []
  upscalers : List String := []
  txt2imgScripts : List String := []
  img2imgScripts : List String := []
  controlNetModels : List String := []
  controlNetPreprocessors : List String := []
deriving DecidableEq, Repr

/-- The first candidate equal to the trimmed value, else the first that contains it, with letter case
ignored in both. A blank value matches nothing. -/
def matchName? (value : String) (candidates : List String) : Option String :=
  let needle := Text.lower (Text.trim value)
  if needle.isEmpty then none
  else
    match candidates.find? fun c => Text.lower c == needle with
    | some c => some c
    | none => candidates.find? fun c => Text.contains (Text.lower c) needle

namespace Capabilities

/-- Names under which the backend's extensions register their scripts. -/
def ultimateScript : String := "ultimate sd upscale"

@[inherit_doc ultimateScript]
def detailerScript : String := "adetailer"

@[inherit_doc ultimateScript]
def controlNetScript : String := "controlnet"

/-- Whether nothing has been reported yet. -/
def isEmpty (c : Capabilities) : Bool :=
  c.samplers.isEmpty && c.models.isEmpty

/-- The checkpoint titles. -/
def modelTitles (c : Capabilities) : List String :=
  c.models.map (·.title)

/-- The style names. -/
def styleNames (c : Capabilities) : List String :=
  c.styles.map (·.name)

/-- Whether a list holds a name, with the case of ASCII letters ignored. -/
def lists (names : List String) (name : String) : Bool :=
  names.any fun s => Text.eqIgnoringCase s name

/-- Whether the ControlNet extension is installed. -/
def hasControlNetExtension (c : Capabilities) : Bool :=
  lists c.txt2imgScripts controlNetScript || lists c.img2imgScripts controlNetScript

/-- Whether ControlNet can be used: at least one of its models is installed. -/
def controlNetAvailable (c : Capabilities) : Bool :=
  !c.controlNetModels.isEmpty

/-- Whether the tiled upscale script is installed. -/
def ultimateAvailable (c : Capabilities) : Bool :=
  lists c.img2imgScripts ultimateScript

/-- Whether the detailer extension is installed. -/
def detailerAvailable (c : Capabilities) : Bool :=
  lists c.txt2imgScripts detailerScript || lists c.img2imgScripts detailerScript

end Capabilities

open Json in
instance : JsonForm Model where
  toJson m := .object [("title", toJson m.title), ("filename", toJson m.filename)]
  ofJson? v := do
    let v ← v.asStruct? ["title", "filename"]
    pure { title := ← v.field? "title", filename := ← v.field? "filename" }

open Json in
instance : JsonForm Style where
  toJson s := .object
    [("name", toJson s.name), ("prompt", toJson s.prompt),
      ("negative_prompt", toJson s.negativePrompt)]
  ofJson? v := do
    let v ← v.asStruct? ["name", "prompt", "negative_prompt"]
    pure
      { name := ← v.field? "name", prompt := ← v.field? "prompt"
        negativePrompt := ← v.field? "negative_prompt" }

namespace Capabilities

/-- The lists in their JSON form. -/
def encode (c : Capabilities) : Json :=
  .object
    [("samplers", toJson c.samplers), ("models", toJson c.models),
      ("hypernetworks", toJson c.hypernetworks), ("loras", toJson c.loras), ("vaes", toJson c.vaes),
      ("styles", toJson c.styles), ("upscalers", toJson c.upscalers),
      ("txt2img_scripts", toJson c.txt2imgScripts), ("img2img_scripts", toJson c.img2imgScripts),
      ("controlnet_models", toJson c.controlNetModels),
      ("controlnet_preprocessors", toJson c.controlNetPreprocessors)]

/-- Reads the lists from their JSON form; a list that is missing is empty. -/
def decode? (v : Json) : Option Capabilities := do
  pure
    { samplers := ← v.fieldD? "samplers" [], models := ← v.fieldD? "models" []
      hypernetworks := ← v.fieldD? "hypernetworks" [], loras := ← v.fieldD? "loras" []
      vaes := ← v.fieldD? "vaes" [], styles := ← v.fieldD? "styles" []
      upscalers := ← v.fieldD? "upscalers" [], txt2imgScripts := ← v.fieldD? "txt2img_scripts" []
      img2imgScripts := ← v.fieldD? "img2img_scripts" []
      controlNetModels := ← v.fieldD? "controlnet_models" []
      controlNetPreprocessors := ← v.fieldD? "controlnet_preprocessors" [] }

instance : JsonForm Capabilities := ⟨encode, decode?⟩

end Capabilities

end RenderFarm
