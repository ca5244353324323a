import RenderFarm.Schedule.Pass

/-!
How work gets to devices. The first device that is ready is asked what the backend offers; from then on every
idle device gets a job, requests for enlargements first.
-/

namespace RenderFarm.Scheduler

variable {γ : Type} [Generator γ]

/-- Takes the job that is next in line. The main queue is touched only while the run dispatches and is not
held; when it is empty, it is first decided what comes next. -/
def nextJob (s : Scheduler γ) : Option Job × Scheduler γ :=
  match s.queue.popPriority? with
  | some (job, queue) => (some job, { s with queue })
  | none =>
    if s.paused || s.phase != .dispatching then (none, s)
    else
      let s := if s.queue.main.isEmpty then s.advanceRun else s
      match s.queue.pop? with
      | some (job, _, queue) => (some job, { s with queue })
      | none => (none, s)

/-- Gives a job to a device. -/
def startJob (slot : Nat) (job : Job) (s : Scheduler γ) : Scheduler γ :=
  { s.updateSlot slot fun d => { d with state := .busy, currentJob := some job.sequence } with
    orders := s.orders ++ [.execute slot job s.context] }

/-- Gives jobs to idle devices, at most a number of times. -/
def startJobs : Nat → Scheduler γ → Scheduler γ
  | 0, s => s
  | bound + 1, s =>
    match s.idleSlot? with
    | none => s
    | some slot =>
      match s.nextJob with
      | (none, s) => s
      | (some job, s) => startJobs bound (s.startJob slot job)

/-- Asks a device what the backend offers. -/
def requestDiscovery (slot : Nat) (s : Scheduler γ) : Scheduler γ :=
  let s := s.note (.info "Querying backend capabilities" [s.deviceField slot])
  { s.setState slot .discovering with bootstrap := .requested, orders := s.orders ++ [.discover slot] }

/-- Ends a run that is short of work once its last job has ended. -/
def settle (s : Scheduler γ) : Scheduler γ :=
  if s.phase = .draining && s.queue.isEmpty && !s.anyBusy then
    { s.note (.info "Queue finished"
        [("jobs_done", .number s.jobsDone), ("jobs_failed", .number s.jobsFailed)]) with phase := .idle }
  else s

/-- Gives out work. Every device that is idle gets a job as long as there are any. -/
def dispatch (s : Scheduler γ) : Scheduler γ :=
  if s.phase = .shuttingDown then s
  else
    match s.bootstrap with
    | .done => (s.startJobs s.slots.length).settle
    | .requested => s
    | .pending =>
      match s.idleSlot? with
      | some slot => s.requestDiscovery slot
      | none => s

end RenderFarm.Scheduler
