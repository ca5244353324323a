import RenderFarm.Execution.Context
import RenderFarm.Log.Event
import RenderFarm.Output
import RenderFarm.Text.Base64
import RenderFarm.Backend.Request

/-!
Where a job is executed: a device, the files and the log. The steps of a job are actions there, which go on
with what earlier steps left behind even when a later one fails.
-/

namespace RenderFarm

/-- A device that jobs are executed on, as operations on its state. -/
structure Renderer (σ : Type) where
  id : String
  /-- The folder that the device puts fresh images in. -/
  scratchDir : Path
  /-- The checkpoint that is loaded. -/
  loadedModel : σ → Option String
  /-- Sends a request and stores its images. -/
  dispatch : Backend.Request → σ → FileSystem → Except DeviceError (List RenderedImage) × σ × FileSystem
  /-- Switches the checkpoint. -/
  loadModel : String → σ → Except DeviceError Unit × σ

/-- What a job has its device and the output tree do, with the answer. -/
inductive Deed where
  /-- The checkpoint was to be switched. -/
  | load (title : String) (answer : Except DeviceError Unit)
  /-- A request was sent, and the files changed. -/
  | dispatch (request : Backend.Request) (before : FileSystem)
    (answer : Except DeviceError (List RenderedImage)) (after : FileSystem)
  /-- An image was to be put into the output tree, and the files changed. -/
  | persist (job : Job) (image : RenderedImage) (facts : Output.Facts) (root : Path) (now : Instant)
    (before : FileSystem) (answer : Except StorageError Path) (after : FileSystem)

/-- The surroundings of a job. -/
structure Site (σ : Type) where
  device : σ
  files : FileSystem
  /-- What was logged, oldest first. -/
  log : List LogEvent := []
  /-- What was done, oldest first. -/
  deeds : List Deed := []

/-- A step of a job. -/
abbrev Work (σ : Type) := ExceptT JobError (StateM (Site σ))

namespace Work

variable {σ : Type}

/-- Carries out a step. -/
def perform {α : Type} (w : Work σ α) (s : Site σ) : Except JobError α × Site σ :=
  w.run.run s

/-- Ends the job. -/
def fail {α : Type} (e : JobError) : Work σ α :=
  throw e

/-- Logs an event of a device. -/
def note (d : Renderer σ) (level : LogLevel) (message : String) (fields : List (String × LogValue)) :
    Work σ Unit :=
  modify fun s => { s with log := s.log ++ [⟨level, message, (LogEvent.deviceField, .text d.id) :: fields⟩] }

/-- Logs a warning. -/
def warn (d : Renderer σ) (message : String) (fields : List (String × LogValue)) : Work σ Unit :=
  note d .warning message fields

/-- The files as they are. -/
def files : Work σ FileSystem :=
  return (← get).files

/-- The checkpoint that is loaded. -/
def loadedModel (d : Renderer σ) : Work σ (Option String) :=
  return d.loadedModel (← get).device

/-- Has the device carry out a request. -/
def dispatch (d : Renderer σ) (r : Backend.Request) : Work σ (List RenderedImage) := do
  let s ← get
  let (answer, device, files) := d.dispatch r s.device s.files
  set { s with device, files, deeds := s.deeds ++ [Deed.dispatch r s.files answer files] }
  match answer with
  | .ok images => return images
  | .error e => fail (.device e)

/-- Has the device switch its checkpoint. -/
def loadModel (d : Renderer σ) (title : String) : Work σ Unit := do
  let s ← get
  let (answer, device) := d.loadModel title s.device
  set { s with device, deeds := s.deeds ++ [Deed.load title answer] }
  match answer with
  | .ok () => return ()
  | .error e => fail (.device e)

/-- The bytes of a file in base64. -/
def encodeFile (path : Path) : Work σ String := do
  match (← files).read path with
  | .ok bytes => return Base64.encode bytes
  | .error fault => fail (.unreadable path fault)

/-- Puts an image into the output tree. -/
def persist (job : Job) (image : RenderedImage) (facts : Output.Facts) (root : Path) (now : Instant) :
    Work σ Path := do
  let s ← get
  let (answer, files) := Output.persist s.files job image facts root now
  set { s with files, deeds := s.deeds ++ [Deed.persist job image facts root now s.files answer files] }
  match answer with
  | .ok path => return path
  | .error e => fail (.output e)

end Work

end RenderFarm
