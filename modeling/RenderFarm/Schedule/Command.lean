import RenderFarm.Schedule.Dispatch

/-!
What a run reacts to: reports of its devices, and wishes of its user.
-/

namespace RenderFarm

/-- A message to a run. -/
inductive Command where
  | deviceReady (slot : Nat)
  | deviceFailed (slot : Nat) (error : String)
  /-- What the backend offers, or why that is not known. -/
  | capabilitiesDiscovered (slot : Nat) (result : Except String Capabilities)
  | jobFinished (slot : Nat) (report : JobReport)
  /-- Put the jobs of a template in place of those that wait. -/
  | loadTemplate (path : Path)
  /-- Enlarge an existing image before anything else. -/
  | enqueueUpscale (image : Path)
  | pause
  | resume
  | shutdown

namespace Scheduler

variable {γ : Type}

/-- Takes in a request to enlarge an image. -/
def enqueueUpscale (image : Path) (s : Scheduler γ) : Scheduler γ :=
  let shown : List (String × LogValue) := [("image", .shown image.text)]
  if !s.files.isFile image then s.note (.warning "Upscale source not found" shown)
  else
    let sequence := s.upscaleRequests + 1
    let job :=
      { Job.upscaleRequest image s.settings.jobDefaults.upscale s.settings.jobDefaults with sequence }
    { s with
      upscaleRequests := sequence, queue := s.queue.pushPriority job
      requested := s.requested ++ [job] }.note
      (.info "Upscale request queued" shown)

/-- Logs what the backend offers, and gives it back; where that is not known, it is nothing. -/
def learnCapabilities (slot : Nat) (result : Except String Capabilities) (s : Scheduler γ) :
    Capabilities × Scheduler γ :=
  match result with
  | .ok caps =>
    (caps, s.note (.info "Capabilities discovered"
      [s.deviceField slot, ("models", .number caps.models.length),
        ("samplers", .number caps.samplers.length), ("upscalers", .number caps.upscalers.length)]))
  | .error error =>
    ({}, s.note (.warning "Capability discovery failed; templates will not be validated"
      [s.deviceField slot, ("error", .shown error)]))

/-- Brings the trigger phrases in line with the backend's checkpoints, if it has any, and saves them when
they have changed. -/
def syncTriggers (caps : Capabilities) (s : Scheduler γ) : Scheduler γ :=
  if caps.models.isEmpty then s
  else
    match s.triggers.sync caps.models with
    | (triggers, false) => { s with triggers }
    | (triggers, true) =>
      let s := { s with triggers }
      match triggers.save s.files with
      | .ok files =>
        { s with files }.note
          (.info "Model trigger file updated" [("entries", .number triggers.entries.length)])
      | .error e => s.note (.warning "Failed to write model trigger file" [("error", .shown e.message)])

/-- Counts a job that has ended and frees its device. -/
def finishJob (slot : Nat) (report : JobReport) (s : Scheduler γ) : Scheduler γ :=
  { s.updateSlot slot fun d => { d with state := .idle, currentJob := none, jobsDone := d.jobsDone + 1 } with
    jobsDone := if report.success then s.jobsDone + 1 else s.jobsDone
    jobsFailed := if report.success then s.jobsFailed else s.jobsFailed + 1 }

variable [Generator γ]

/-- Loads the template that waits for the bootstrap. -/
def loadPending (s : Scheduler γ) : Scheduler γ :=
  match s.pendingTemplate with
  | some path => { s with pendingTemplate := none }.loadTemplate path
  | none => s

/-- Ends the bootstrap: from here on jobs are given out. -/
def finishBootstrap (slot : Nat) (result : Except String Capabilities) (s : Scheduler γ) : Scheduler γ :=
  let (capabilities, s) := s.learnCapabilities slot result
  let s : Scheduler γ := { s.syncTriggers capabilities with capabilities }
  let s := s.rebuildContext.setState slot .idle
  let phase := if s.phase = .bootstrapping then .dispatching else s.phase
  { s with bootstrap := .done, phase }.loadPending

/-- Reacts to a message. -/
def handle (s : Scheduler γ) : Command → Scheduler γ
  | .deviceReady slot => (s.setState slot .idle).note (.info "Device ready" [s.deviceField slot])
  | .deviceFailed slot error =>
    (s.setState slot .failed).note
      (.error "Device failed to start" [s.deviceField slot, ("error", .shown error)])
  | .capabilitiesDiscovered slot result => s.finishBootstrap slot result
  | .jobFinished slot report => s.finishJob slot report
  | .loadTemplate path =>
    if s.bootstrap = .done then s.loadTemplate path else { s with pendingTemplate := some path }
  | .enqueueUpscale image => s.enqueueUpscale image
  | .pause => { s with paused := true }.note (.info "Paused" [])
  | .resume => { s with paused := false }.note (.info "Resumed" [])
  | .shutdown => { s with phase := .shuttingDown }.note (.info "Shutdown requested" [])

end Scheduler

end RenderFarm
