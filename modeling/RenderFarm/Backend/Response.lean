import RenderFarm.Json.Codec

/-!
Answers of a render backend. Members that are not known are passed over; those marked as optional may be
missing.
-/

namespace RenderFarm.Backend

open Json

/-- Images of a render, in base64, with the backend's description of them. -/
structure GenerationAnswer where
  images : List String := []
  info : Option String := none

instance : JsonForm GenerationAnswer where
  toJson a := .object [("images", toJson a.images), ("info", toJson a.info)]
  ofJson? v := do
    let v ← v.asRecord? ["images", "info"] 0
    pure { images := ← v.fieldD? "images" [], info := ← v.field? "info" }

/-- An enlarged image in base64. -/
structure EnlargementAnswer where
  image : String

instance : JsonForm EnlargementAnswer where
  toJson a := .object [("image", toJson a.image)]
  ofJson? v := do
    let v ← v.asRecord? ["image"] 1
    pure { image := ← v.field? "image" }

/-- The text attached to an image. -/
structure PngInfo where
  info : String := ""

instance : JsonForm PngInfo where
  toJson a := .object [("info", toJson a.info)]
  ofJson? v := do
    let v ← v.asRecord? ["info"] 0
    pure { info := ← v.fieldD? "info" "" }

/-- An entry known by its name, such as a sampler or an upscaler. -/
structure Named where
  name : String

instance : JsonForm Named where
  toJson a := .object [("name", toJson a.name)]
  ofJson? v := do
    let v ← v.asRecord? ["name"] 1
    pure { name := ← v.field? "name" }

/-- A checkpoint. -/
structure ListedModel where
  title : String
  filename : Option String

instance : JsonForm ListedModel where
  toJson a := .object [("title", toJson a.title), ("filename", toJson a.filename)]
  ofJson? v := do
    let v ← v.asRecord? ["title", "filename"] 1
    pure { title := ← v.field? "title", filename := ← v.field? "filename" }

/-- A file known by its name. -/
structure NamedFile where
  name : String
  path : Option String

instance : JsonForm NamedFile where
  toJson a := .object [("name", toJson a.name), ("path", toJson a.path)]
  ofJson? v := do
    let v ← v.asRecord? ["name", "path"] 1
    pure { name := ← v.field? "name", path := ← v.field? "path" }

/-- A prompt style. -/
structure ListedStyle where
  name : String
  prompt : Option String
  negativePrompt : Option String

instance : JsonForm ListedStyle where
  toJson a := .object
    [("name", toJson a.name), ("prompt", toJson a.prompt), ("negative_prompt", toJson a.negativePrompt)]
  ofJson? v := do
    let v ← v.asRecord? ["name", "prompt", "negative_prompt"] 1
    pure
      { name := ← v.field? "name", prompt := ← v.field? "prompt"
        negativePrompt := ← v.field? "negative_prompt" }

/-- A VAE. -/
structure ListedVae where
  modelName : String
  filename : Option String

instance : JsonForm ListedVae where
  toJson a := .object [("model_name", toJson a.modelName), ("filename", toJson a.filename)]
  ofJson? v := do
    let v ← v.asRecord? ["model_name", "filename"] 1
    pure { modelName := ← v.field? "model_name", filename := ← v.field? "filename" }

/-- The scripts for the two kinds of render. -/
structure Scripts where
  txt2img : List String := []
  img2img : List String := []

instance : JsonForm Scripts where
  toJson a := .object [("txt2img", toJson a.txt2img), ("img2img", toJson a.img2img)]
  ofJson? v := do
    let v ← v.asRecord? ["txt2img", "img2img"] 0
    pure { txt2img := ← v.fieldD? "txt2img" [], img2img := ← v.fieldD? "img2img" [] }

/-- The models of the guidance extension. -/
structure ControlModels where
  models : List String := []

instance : JsonForm ControlModels where
  toJson a := .object [("model_list", toJson a.models)]
  ofJson? v := do
    let v ← v.asRecord? ["model_list"] 0
    pure { models := ← v.fieldD? "model_list" [] }

/-- The preprocessors of the guidance extension. -/
structure ControlModules where
  modules : List String := []

instance : JsonForm ControlModules where
  toJson a := .object [("module_list", toJson a.modules)]
  ofJson? v := do
    let v ← v.asRecord? ["module_list"] 0
    pure { modules := ← v.fieldD? "module_list" [] }

end RenderFarm.Backend
