import RenderFarm.Job.Form
import RenderFarm.Json.Printer
import RenderFarm.Record.Infotext
import RenderFarm.Time.Instant

/-!
Records kept beside images. What an image was made from is written to a JSON file of the same name, and read
back when the image is worked on again.
-/

namespace RenderFarm

/-- What an image was made from. -/
structure ImageRecord where
  prompt : String := ""
  negativePrompt : String := ""
  model : Option String := none
  seed : Int64 := 0
  width : UInt32 := 0
  height : UInt32 := 0
  steps : UInt32 := 0
  scale : Float := 0
  sampler : String := ""
  infotext : String := ""
  iptc : Iptc := {}
  template : Option String := none
  sourceImage : Option Path := none
  upscaled : Bool := false
  createdAt : Instant := ⟨0, 0⟩
deriving Repr

namespace ImageRecord

/-- The checkpoint that the record names, or else the one in the backend's text. -/
def modelName? (r : ImageRecord) : Option String :=
  (r.model.filter fun m => !m.isEmpty).or (Infotext.model? r.infotext)

/-- The fields in order. Descriptive fields that are all empty are left out. -/
def fields (r : ImageRecord) : List (String × Option Json) :=
  [("prompt", some (toJson r.prompt)), ("negative_prompt", some (toJson r.negativePrompt)),
    ("model", some (toJson r.model)), ("seed", some (toJson r.seed)),
    ("width", some (toJson r.width)), ("height", some (toJson r.height)),
    ("steps", some (toJson r.steps)), ("scale", some (toJson r.scale)),
    ("sampler", some (toJson r.sampler)), ("infotext", some (toJson r.infotext)),
    ("iptc", if r.iptc.isEmpty then none else some (toJson r.iptc)),
    ("template", some (toJson r.template)), ("source_image", some (toJson r.sourceImage)),
    ("upscaled", some (toJson r.upscaled)), ("created_at", some (toJson r.createdAt))]

/-- The JSON form. -/
def encode (r : ImageRecord) : Json :=
  Json.objectOf r.fields

/-- The names of the fields in order. -/
def fieldNames : List String :=
  ["prompt", "negative_prompt", "model", "seed", "width", "height", "steps", "scale", "sampler",
    "infotext", "iptc", "template", "source_image", "upscaled", "created_at"]

/-- Reads the fields. Descriptive fields that are left out are empty. -/
def decode? (v : Json) : Option ImageRecord := do
  let v ← v.asStruct? fieldNames
  pure
    { prompt := ← v.field? "prompt", negativePrompt := ← v.field? "negative_prompt"
      model := ← v.field? "model", seed := ← v.field? "seed", width := ← v.field? "width"
      height := ← v.field? "height", steps := ← v.field? "steps", scale := ← v.field? "scale"
      sampler := ← v.field? "sampler", infotext := ← v.field? "infotext"
      iptc := ← v.fieldD? "iptc" {}, template := ← v.field? "template"
      sourceImage := ← v.field? "source_image", upscaled := ← v.field? "upscaled"
      createdAt := ← v.field? "created_at" }

instance : JsonForm ImageRecord := ⟨encode, decode?⟩

/-- The file that holds the record of an image. -/
def sidecarPath (image : Path) : Path :=
  image.withExtension "json"

/-- The text of a record. -/
def text (r : ImageRecord) : String :=
  r.encode.pretty

/-- Reads a record from text. -/
def ofText? (s : String) : Option ImageRecord :=
  (Json.parse? s).bind decode?

/-- Writes the record of an image. -/
def write (fs : FileSystem) (image : Path) (r : ImageRecord) : Except StorageError FileSystem :=
  (fs.writeText (sidecarPath image) r.text).mapError (StorageError.ofFault (sidecarPath image))

/-- Reads the record of an image. -/
def read (fs : FileSystem) (image : Path) : Except StorageError ImageRecord :=
  let path := sidecarPath image
  match fs.read path with
  | .error fault => .error (.ofFault path fault)
  | .ok bytes =>
    match (String.fromUTF8? bytes).bind ofText? with
    | some r => .ok r
    | none => .error (.malformedRecord path)

end ImageRecord

end RenderFarm
