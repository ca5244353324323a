import RenderFarm.Device.Supervisor
import RenderFarm.Execution.Run
import RenderFarm.Schedule.Run

/-!
A farm at work: its devices are brought up, what the run orders is carried out by them, one order after the
other, and what they report goes back to the run. At the end every device is shut down.
-/

namespace RenderFarm

/-- A run with its devices. -/
structure Farm (γ : Type) where
  run : Run γ
  devices : List Supervisor
  /-- What jobs leave to chance. -/
  random : γ
  /-- How many orders of the run were carried out. -/
  carriedOut : Nat := 0

namespace Farm

variable {γ : Type}

/-- The files of a farm. -/
def files (f : Farm γ) : FileSystem :=
  f.run.scheduler.files

/-- The farm with other files. -/
def setFiles (fs : FileSystem) (f : Farm γ) : Farm γ :=
  { f with run := { f.run with scheduler := { f.run.scheduler with files := fs } } }

/-- The farm with a device changed. -/
def setDevice (slot : Nat) (d : Supervisor) (f : Farm γ) : Farm γ :=
  { f with devices := f.devices.set slot d }

/-- Logs events. -/
def addLog (events : List LogEvent) (f : Farm γ) : Farm γ :=
  { f with run := { f.run with scheduler := { f.run.scheduler with log := f.run.scheduler.log ++ events } } }

/-- The report on a job that broke off. -/
def abortedReport (d : DeviceSetup) (job : Job) : JobReport :=
  ⟨d.id, job.sequence, job.origin, .error "job broke off"⟩

variable [Generator γ]

/-- Sends a message to the run. -/
def send (c : Command) (f : Farm γ) : Farm γ :=
  { f with run := f.run.pass (some c) }

/-- Brings a device up and tells the run what came of it. -/
def bringUp (slot : Nat) (d : Supervisor) (f : Farm γ) : Farm γ :=
  let (answer, d, fs) := d.bringUp f.files
  ((f.setFiles fs).setDevice slot d).send
    (match answer with
      | .ok () => .deviceReady slot
      | .error e => .deviceFailed slot e.message)

/-- Brings up one device after the other. -/
def bringUpAll : Nat → List Supervisor → Farm γ → Farm γ
  | _, [], f => f
  | slot, d :: ds, f => bringUpAll (slot + 1) ds (f.bringUp slot d)

/-- Has a device tell what the backend offers. -/
def discover (slot : Nat) (d : Supervisor) (f : Farm γ) : Farm γ :=
  let (answer, d) := d.discover
  (f.setDevice slot d).send (.capabilitiesDiscovered slot (answer.mapError DeviceError.message))

/-- Has a device execute a job. -/
def executeJob (slot : Nat) (d : Supervisor) (job : Job) (ctx : ExecutionContext) (now : Instant)
    (f : Farm γ) : Farm γ :=
  match execute (Supervisor.renderer d.setup) ctx now 0 job { device := d, files := f.files } f.random with
  | none => f.send (.jobFinished slot (abortedReport d.setup job))
  | some ((report, site), g) =>
    ({ (((f.setFiles site.files).setDevice slot site.device).addLog site.log) with random := g }).send
      (.jobFinished slot report)

/-- Carries out an order. -/
def carryOut (now : Instant) (f : Farm γ) : Order → Farm γ
  | .discover slot =>
    match f.devices[slot]? with
    | some d => f.discover slot d
    | none => f
  | .execute slot job ctx =>
    match f.devices[slot]? with
    | some d => f.executeJob slot d job ctx now
    | none => f

/-- Goes on with the next order, or with a pass when there is none. -/
def step (now : Instant) (f : Farm γ) : Farm γ :=
  match f.run.scheduler.orders[f.carriedOut]? with
  | some order => { f with carriedOut := f.carriedOut + 1 }.carryOut now order
  | none => { f with run := f.run.pass none }

/-- Goes on until the run ends, at most for a number of steps. -/
def work (now : Instant) : Nat → Farm γ → Farm γ
  | 0, f => f
  | steps + 1, f => if f.run.ended.isSome then f else work now steps (f.step now)

/-- Shuts down one device after the other. -/
def shutdownAll : List Supervisor → FileSystem → List Supervisor × FileSystem
  | [], fs => ([], fs)
  | d :: ds, fs =>
    let (d, fs) := d.shutdown fs
    let (ds, fs) := shutdownAll ds fs
    (d :: ds, fs)

/-- Shuts down all devices. -/
def close (f : Farm γ) : Farm γ :=
  let (devices, fs) := shutdownAll f.devices f.files
  { f with devices }.setFiles fs

/-- The devices of a farm before they are brought up. A backend is reached through `reach`. -/
def devicesOf (c : Config) (reach : DeviceSetup → Backend.Server) : List Supervisor :=
  (DeviceSetup.all c).map fun setup => { setup, link := { server := reach setup } }

/-- A run over the jobs of the settings' template and the enlargements of some images, up to its end or for a
number of steps. -/
def complete (c : Config) (reach : DeviceSetup → Backend.Server) (images : List Path) (fs : FileSystem)
    (now : Instant) (g jobs : γ) (steps : Nat) : Farm γ :=
  let settings := { RunSettings.ofConfig c with exitWhenIdle := true }
  let run := (Run.start settings c.devices fs g).passes (images.map .enqueueUpscale)
  let devices := devicesOf c reach
  ((bringUpAll 0 devices { run, devices, random := jobs }).work now steps).close

end Farm

end RenderFarm
