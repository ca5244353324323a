import RenderFarm.Backend.Client
import RenderFarm.Device.Error
import RenderFarm.Device.Setup
import RenderFarm.Device.Shell
import RenderFarm.Execution.Site
import RenderFarm.Naming.Filename
import RenderFarm.Record.Infotext
import RenderFarm.Text.Base64

/-!
The supervisor of a render process. It writes the launch script, starts the process, waits until the
interface answers, and then passes on one request at a time. Once shut down it refuses every request.
-/

namespace RenderFarm

open Backend

/-- A device with its process and its connection to the backend. -/
structure Supervisor where
  setup : DeviceSetup
  link : Link
  state : DeviceState := .uninitialized
  /-- Whether a request is under way. -/
  busy : Bool := false
  /-- The checkpoint that is loaded. -/
  loadedModel : Option String := none
  /-- The checkpoint that is being loaded. -/
  pendingModel : Option String := none
  /-- Requests that gave images. -/
  requestCount : Nat := 0
  /-- Whether the device is, or is about to be, shut down. -/
  cancelled : Bool := false
  process : Option Process := none

/-- The images that a request gave. -/
structure Rendering where
  kind : Kind
  images : List RenderedImage
deriving DecidableEq, Repr

namespace Supervisor

/-! ## Startup -/

/-- Milliseconds that a probe takes. -/
def probeTime : Nat := 1

/-- What the wait for a process is told. -/
def startup (s : Supervisor) (p : Process) : Startup Link where
  exited? time link := (p.exitedAt? time, link)
  probe _ link :=
    let (answer, link) := probe link
    (answer.toOption.getD false, probeTime, link)
  cancelledAt? := if s.cancelled then some 0 else none

/-- Makes the log files of a device, both empty. -/
def openLogs (d : DeviceSetup) (fs : FileSystem) : Except DeviceError FileSystem := do
  let at_ {α : Type} (path : Path) (r : Except IoFault α) : Except DeviceError α := r.mapError (.io path)
  let fs ← at_ d.logDir (fs.createDirectories d.logDir)
  let fs ← at_ d.logPath (fs.writeText d.logPath "")
  at_ d.errorLogPath (fs.writeText d.errorLogPath "")

/-- Puts into the log files what a process has written. -/
def writeLogs (d : DeviceSetup) (written : String × String) (fs : FileSystem) : FileSystem :=
  let fs := (fs.writeText d.logPath written.1).toOption.getD fs
  (fs.writeText d.errorLogPath written.2).toOption.getD fs

/-- Starts a process with a launch script. Only scripts of the system's own kind can be run. -/
def spawn (d : DeviceSetup) (script : Path) (fs : FileSystem) : Except DeviceError Process :=
  match d.platform with
  | .windows => .error (.spawn .notFound)
  | .unix => .ok (Shell.spawn fs d.backendDir script)

/-- Prepares a device whose interface answers: its scratch folder is made, the backend is set up, and it is
asked for its checkpoint. The backend may fail both. -/
def afterReady (s : Supervisor) (fs : FileSystem) : Except DeviceError Unit × Supervisor × FileSystem :=
  match fs.createDirectories s.setup.scratchDir with
  | .error fault => (.error (.io s.setup.scratchDir fault), s, fs)
  | .ok fs =>
    let options := .object [("use_old_hires_fix_width_height", .bool s.setup.oldSizing)]
    let (_, link) := setOptions options s.link
    let (model, link) := currentModel link
    let loadedModel := match model with
      | .ok model => model
      | .error _ => s.loadedModel
    (.ok (), { s with link, loadedModel }, fs)

/-- Waits for a process and goes on with what came of it. A process that is not ready is stopped. -/
def awaitReady (p : Process) (s : Supervisor) (fs : FileSystem) :
    Except DeviceError Unit × Supervisor × FileSystem :=
  let waited := (s.startup p).wait s.setup.patience s.link
  let s := { s with link := waited.state }
  let stopped := writeLogs s.setup (p.writtenAt waited.time) fs
  match waited.outcome with
  | .exited code => (.error (.exited code), s, stopped)
  | .timedOut => (.error (.startupTimeout (s.setup.patience.timeout / 1000)), s, stopped)
  | .cancelled => (.error .shuttingDown, s, stopped)
  | .ready => { s with process := some p }.afterReady (writeLogs s.setup (p.output, p.errors) fs)

/-- Launches the process of a device and waits until it is ready. -/
def launch (s : Supervisor) (fs : FileSystem) : Except DeviceError Unit × Supervisor × FileSystem :=
  let d := s.setup
  let s := { s with state := .launching }
  match Launch.write fs d.backendDir d.platform d.port d.id with
  | (.error e, fs) => (.error (.launch e), s, fs)
  | (.ok script, fs) =>
    match openLogs d fs with
    | .error e => (.error e, s, fs)
    | .ok fs =>
      match spawn d script fs with
      | .error e => (.error e, s, fs)
      | .ok p => { s with state := .pollingReady }.awaitReady p fs

/-- Brings a device up. One that does not come up is not used any more. -/
def bringUp (s : Supervisor) (fs : FileSystem) : Except DeviceError Unit × Supervisor × FileSystem :=
  match s.launch fs with
  | (.ok (), s, fs) => (.ok (), { s with state := .ready }, fs)
  | (.error e, s, fs) => (.error e, { s with state := .failed }, fs)

/-! ## Requests -/

/-- Takes the device for a request. -/
def beginRequest (s : Supervisor) : Except DeviceError Supervisor :=
  if s.cancelled then .error .shuttingDown
  else if s.state ≠ .ready then .error (.notReady s.state)
  else if s.busy then .error .busy
  else .ok { s with busy := true }

/-- Lets go of the device after a request. -/
def endRequest (s : Supervisor) : Supervisor :=
  { s with busy := false }

/-- The name of a fresh image, without its extension. -/
def scratchStem (seed : Option Int64) (kind : Kind) : String :=
  "seed_" ++ toString (seed.getD 0).toInt ++ (if kind.isUpscale then "_u" else "")

/-- The description of an image that the backend gives; it may give none. -/
def describe (data : String) (link : Link) : String × Link :=
  let (info, link) := pngInfo (pngDataUrl data) link
  (info.toOption.getD "", link)

/-- Stores one image. -/
def storeImage (kind : Kind) (image : String) (s : Supervisor) (fs : FileSystem) :
    Except DeviceError RenderedImage × Supervisor × FileSystem :=
  let data := stripDataUrl image
  match Base64.decode? data with
  | none => (.error .decode, s, fs)
  | some bytes =>
    let (infotext, link) := describe data s.link
    let s := { s with link }
    let seed := Infotext.seed? infotext
    let path := Naming.uniquePath fs s.setup.scratchDir (scratchStem seed kind) "png"
    match fs.write path bytes with
    | .error fault => (.error (.io path fault), s, fs)
    | .ok fs => (.ok { path, infotext, seed }, s, fs)

/-- Stores one image after the other; the first that cannot be stored ends it. -/
def storeEach (kind : Kind) :
    List String → Supervisor → FileSystem → Except DeviceError (List RenderedImage) × Supervisor × FileSystem
  | [], s, fs => (.ok [], s, fs)
  | image :: images, s, fs =>
    match s.storeImage kind image fs with
    | (.error e, s, fs) => (.error e, s, fs)
    | (.ok stored, s, fs) =>
      match storeEach kind images s fs with
      | (.error e, s, fs) => (.error e, s, fs)
      | (.ok rest, s, fs) => (.ok (stored :: rest), s, fs)

/-- Stores the images of a request in the scratch folder. There has to be one. -/
def storeImages (kind : Kind) (images : List String) (s : Supervisor) (fs : FileSystem) :
    Except DeviceError (List RenderedImage) × Supervisor × FileSystem :=
  if images.isEmpty then (.error .emptyResponse, s, fs)
  else
    match fs.createDirectories s.setup.scratchDir with
    | .error fault => (.error (.io s.setup.scratchDir fault), s, fs)
    | .ok fs => storeEach kind images s fs

/-- Sends a request and stores its images. -/
def dispatch (r : Request) (s : Supervisor) (fs : FileSystem) :
    Except DeviceError Rendering × Supervisor × FileSystem :=
  match s.beginRequest with
  | .error e => (.error e, s, fs)
  | .ok s =>
    match render r s.link with
    | (.error e, link) => (.error (.api e), { s with link }.endRequest, fs)
    | (.ok images, link) =>
      match { s with link }.storeImages r.kind images fs with
      | (.error e, s, fs) => (.error e, s.endRequest, fs)
      | (.ok images, s, fs) =>
        (.ok ⟨r.kind, images⟩, { s with requestCount := s.requestCount + 1 }.endRequest, fs)

/-- Switches the checkpoint. While the backend is at it, the checkpoint is pending. -/
def loadModel (title : String) (s : Supervisor) : Except DeviceError Unit × Supervisor :=
  match s.beginRequest with
  | .error e => (.error e, s)
  | .ok s =>
    let s := { s with pendingModel := some title }
    let (answer, link) := setModel title s.link
    let s := { s with link, pendingModel := none }
    match answer with
    | .ok () => (.ok (), { s with loadedModel := some title }.endRequest)
    | .error e => (.error (.api e), s.endRequest)

/-- Asks the backend for everything that it offers. -/
def discover (s : Supervisor) : Except DeviceError Capabilities × Supervisor :=
  match s.beginRequest with
  | .error e => (.error e, s)
  | .ok s =>
    let (answer, link) := Backend.discover s.link
    (answer.mapError .api, { s with link }.endRequest)

/-- Asks the backend to give up what it renders. -/
def interrupt (s : Supervisor) : Except DeviceError Unit × Supervisor :=
  let (answer, link) := Backend.interrupt s.link
  (answer.mapError .api, { s with link })

/-- Calls off what is under way and what is yet to come. -/
def cancel (s : Supervisor) : Supervisor :=
  { s with cancelled := true }

/-- Shuts a device down: a request under way is interrupted, the process is stopped, and the scratch folder
is removed. -/
def shutdown (s : Supervisor) (fs : FileSystem) : Supervisor × FileSystem :=
  let s := if s.busy then s.interrupt.2 else s
  ({ s.cancel with process := none, state := .stopped },
    (fs.removeTree s.setup.scratchDir).toOption.getD fs)

/-- The device as jobs see it. -/
def renderer (d : DeviceSetup) : Renderer Supervisor where
  id := d.id
  scratchDir := d.scratchDir
  loadedModel := Supervisor.loadedModel
  dispatch r s fs :=
    let (answer, s, fs) := s.dispatch r fs
    (answer.map Rendering.images, s, fs)
  loadModel title s := s.loadModel title

end Supervisor

end RenderFarm
