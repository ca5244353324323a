import RenderFarm.Compile.Pass
import RenderFarm.Execution.Context
import RenderFarm.Log.Event
import RenderFarm.Queue
import RenderFarm.Schedule.Settings
import RenderFarm.Schedule.Status

/-!
The state of a run: its devices, its queues, the template with its sweep, and what it has learnt of the
backend. The files and the log go along, and so do the orders that were given to devices and the jobs that
came into the queues or were thrown out of them.
-/

namespace RenderFarm

/-- Whether the backend was asked what it offers. -/
inductive Bootstrap where
  | pending
  | requested
  | done
deriving DecidableEq, Repr

/-- What a device is told to do. -/
inductive Order where
  /-- Tell what the backend offers. -/
  | discover (slot : Nat)
  | execute (slot : Nat) (job : Job) (context : ExecutionContext)

/-- The state of a run. -/
structure Scheduler (γ : Type) where
  settings : RunSettings
  slots : List Slot
  queue : WorkQueue Job := {}
  template : Option Template := none
  /-- The template to load once it is known what the backend offers. -/
  pendingTemplate : Option Path := none
  control : RunControl := {}
  sweep : Sweep := {}
  /-- The number of jobs of the last pass over the template. -/
  lastPassJobs : Nat := 0
  wildcards : WildcardTable := {}
  triggers : TriggerRegistry := ⟨⟨""⟩, []⟩
  capabilities : Capabilities := {}
  /-- What jobs are executed with. -/
  context : ExecutionContext := {}
  bootstrap : Bootstrap := .pending
  phase : RunPhase := .bootstrapping
  paused : Bool := false
  jobsDone : Nat := 0
  jobsFailed : Nat := 0
  upscaleRequests : Nat := 0
  random : γ
  files : FileSystem
  /-- What was logged, oldest first. -/
  log : List LogEvent := []
  /-- What devices were told, oldest first. -/
  orders : List Order := []
  /-- Every job that was put into the main queue, oldest first. -/
  supplied : List Job := []
  /-- Every job that was put into the priority queue, oldest first. -/
  requested : List Job := []
  /-- Every job that was thrown out of the main queue before its turn, oldest first. -/
  discarded : List Job := []

namespace Scheduler

variable {γ : Type}

/-- Logs an event. -/
def note (e : LogEvent) (s : Scheduler γ) : Scheduler γ :=
  { s with log := s.log ++ [e] }

/-- The identity of a device. -/
def deviceId (s : Scheduler γ) (slot : Nat) : String :=
  ((s.slots[slot]?).map Slot.id).getD ""

/-- The field of an event that names a device. -/
def deviceField (s : Scheduler γ) (slot : Nat) : String × LogValue :=
  (LogEvent.deviceField, .shown (s.deviceId slot))

/-- Changes a device. -/
def updateSlot (slot : Nat) (f : Slot → Slot) (s : Scheduler γ) : Scheduler γ :=
  { s with slots := s.slots.modify slot f }

/-- Changes what a device is doing. -/
def setState (slot : Nat) (state : SlotState) (s : Scheduler γ) : Scheduler γ :=
  s.updateSlot slot fun d => { d with state }

/-- The first device that has nothing to do. -/
def idleSlot? (s : Scheduler γ) : Option Nat :=
  s.slots.findIdx? fun d => d.state == .idle

/-- Whether a device has been told something that it has not finished. -/
def anyBusy (s : Scheduler γ) : Bool :=
  s.slots.any fun d => d.state == .busy || d.state == .discovering

/-- Whether no device can be used any more. -/
def allFailed (s : Scheduler γ) : Bool :=
  s.slots.all fun d => d.state == .failed

/-- Takes up what is known of the backend into the context of later jobs. -/
def rebuildContext (s : Scheduler γ) : Scheduler γ :=
  { s with
    context :=
      { capabilities := s.capabilities, triggers := s.triggers, outputRoot := s.settings.outputRoot
        defaultCheckpoint := s.settings.defaultCheckpoint, maxPixels := s.settings.maxPixels } }

/-- A run at its start, with its devices starting up. -/
def start (settings : RunSettings) (devices : List String) (files : FileSystem) (g : γ) : Scheduler γ :=
  let fresh : Scheduler γ :=
    { settings, slots := devices.map fun id => { id }, pendingTemplate := settings.initialTemplate
      random := g, files }
  let loaded :=
    match TriggerRegistry.load files settings.triggerFile with
    | .ok triggers => { fresh with triggers }
    | .error e => fresh.note (.warning "Failed to read model trigger file" [("error", .shown e.message)])
  loaded.rebuildContext.note (.info "Scheduler started" [("devices", .number devices.length)])

/-- The totals of the run. -/
def summary (s : Scheduler γ) : RunSummary :=
  ⟨s.jobsDone, s.jobsFailed, s.sweep.loops⟩

/-- What the run shows of itself. -/
def status (s : Scheduler γ) : RunStatus where
  phase := if s.paused && s.phase != .shuttingDown then .paused else .phase s.phase
  mainQueue := s.queue.main.length
  priorityQueue := s.queue.priority.length
  slots := s.slots
  jobsDone := s.jobsDone
  jobsFailed := s.jobsFailed
  template := s.template.bind Template.path
  model := s.sweep.model?
  loops := s.sweep.loops

end Scheduler

end RenderFarm
