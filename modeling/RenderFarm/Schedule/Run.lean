import RenderFarm.Schedule.Command

/-!
The course of a run: a pass reacts to a message, if there is one, gives out work and shows the status, until
the run is shut down, has nothing left to do, or has no device left.
-/

namespace RenderFarm

/-- A run with the status it has shown last. -/
structure Run (γ : Type) where
  scheduler : Scheduler γ
  status : RunStatus := {}
  /-- How the run has ended. -/
  ended : Option (Except RunError RunSummary) := none

namespace Run

variable {γ : Type} [Generator γ]

/-- Ends the run. -/
def finish (r : Run γ) (outcome : Except RunError RunSummary) : Run γ :=
  let s := r.scheduler
  { r with
    ended := some outcome
    scheduler := s.note (.info "Scheduler stopped"
      [("jobs_done", .number s.jobsDone), ("jobs_failed", .number s.jobsFailed)]) }

/-- One pass over a run that goes on. -/
def proceed (r : Run γ) (command : Option Command) : Run γ :=
  let s := match command with
    | some c => r.scheduler.handle c
    | none => r.scheduler
  if s.allFailed then
    { r with scheduler := s.note (.error "Every render device failed to start" []) }.finish (.error .noDevices)
  else
    let s := s.dispatch
    let r := { r with scheduler := s, status := s.status }
    if s.phase = .shuttingDown then r.finish (.ok s.summary)
    else if s.phase = .idle && s.settings.exitWhenIdle then
      { r with scheduler := s.note (.info "All work finished" []) }.finish (.ok s.summary)
    else r

/-- One pass. A run that has ended stays as it is. -/
def pass (r : Run γ) (command : Option Command) : Run γ :=
  if r.ended.isSome then r else r.proceed command

/-- A run at its start, after a first pass. -/
def start (settings : RunSettings) (devices : List String) (files : FileSystem) (g : γ) : Run γ :=
  { scheduler := .start settings devices files g : Run γ }.pass none

/-- A pass over each of some messages. -/
def passes (r : Run γ) (commands : List Command) : Run γ :=
  commands.foldl (fun r c => r.pass (some c)) r

/-- Whether the run still takes messages. -/
def accepts (r : Run γ) : Except RunError Unit :=
  if r.ended.isSome then .error .closed else .ok ()

end Run

end RenderFarm
