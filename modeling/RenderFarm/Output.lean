import RenderFarm.Image.Rendered
import RenderFarm.Naming.Filename
import RenderFarm.Record.Sidecar

/-!
The output tree. A finished image gets a name that is not taken, in the folder of its template and day, and
a record beside it. Images that are kept beside their enlargements go into a folder of their own.
-/

namespace RenderFarm.Output

/-- The folder of images that are kept beside their enlargements. -/
def sourcesFolder : String := "original"

/-- The extension of an image without one. -/
def defaultExtension : String := "png"

/-- Size and checkpoint of an image as they are recorded, and whether it is an enlargement. -/
structure Facts where
  width : UInt32
  height : UInt32
  model : Option String := none
  upscaled : Bool := false
deriving Repr

/-- The folder that an image of a job goes to. -/
def folder (job : Job) (upscaled : Bool) (root : Path) (now : Instant) : Path :=
  let dir := Naming.folder root job.templateStem now
  if job.upscale.keepSource && job.upscale.enabled && !upscaled then dir.join sourcesFolder else dir

/-- The record of an image. The seed and the checkpoint that the backend reports come first. -/
def record (job : Job) (image : RenderedImage) (facts : Facts) (now : Instant) : ImageRecord where
  prompt := job.prompt
  negativePrompt := job.negativePrompt
  model := (Infotext.model? image.infotext).or facts.model
  seed := image.seed.getD job.seed
  width := facts.width
  height := facts.height
  steps := job.steps.min
  scale := job.scale.min
  sampler := job.sampler
  infotext := image.infotext
  iptc := job.iptc
  template := job.templatePath.map Path.text
  sourceImage := job.inputImage
  upscaled := facts.upscaled
  createdAt := now

/-- The file name of an image, without its extension. -/
def stem (job : Job) (r : ImageRecord) : String :=
  Naming.render (job.filename.getD Naming.defaultTemplate)
    { prompt := r.prompt, model := r.model, seed := r.seed, width := r.width, height := r.height
      steps := r.steps, scale := r.scale, sampler := r.sampler, inputImage := job.inputImage
      time := r.createdAt }

/-- The extension of an image, in lower case. -/
def extension (image : Path) : String :=
  (image.extension?.map Text.lower).getD defaultExtension

/-- Moves a file; where it cannot be moved it is copied and then removed. -/
def move (fs : FileSystem) (source target : Path) : Except StorageError FileSystem :=
  match fs.rename source target with
  | .ok fs => .ok fs
  | .error _ => do
    let fs ← (fs.copy source target).mapError (StorageError.ofFault target)
    (fs.removeFile source).mapError (StorageError.ofFault source)

/-- Puts an image to its place: the input of a job is copied, any other image is moved. -/
def place (fs : FileSystem) (job : Job) (image target : Path) : Except StorageError FileSystem :=
  if job.inputImage.any (·.sameAs image) then
    (fs.copy image target).mapError (StorageError.ofFault target)
  else move fs image target

/-- Puts an image of a job into the output tree, with its record. The result is its path, or the failure;
what was done before a failure stays done. -/
def persist (fs : FileSystem) (job : Job) (image : RenderedImage) (facts : Facts) (root : Path)
    (now : Instant) : Except StorageError Path × FileSystem :=
  let dir := folder job facts.upscaled root now
  match fs.createDirectories dir with
  | .error fault => (.error (.ofFault dir fault), fs)
  | .ok fs =>
    let r := record job image facts now
    let target := Naming.uniquePath fs dir (stem job r) (extension image.path)
    match place fs job image.path target with
    | .error e => (.error e, fs)
    | .ok fs =>
      match ImageRecord.write fs target r with
      | .error e => (.error e, fs)
      | .ok fs => (.ok target, fs)

/-- Removes the files of a scratch directory. There may be no such directory. -/
def clearScratch (fs : FileSystem) (dir : Path) : Except StorageError FileSystem :=
  match fs.removeFilesIn dir with
  | .ok fs => .ok fs
  | .error .notFound => .ok fs
  | .error fault => .error (.io dir fault)

end RenderFarm.Output
