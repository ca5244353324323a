import RenderFarm.Schedule.Scheduler

/-!
Where the work of a run comes from: a template is loaded and compiled into the main queue, and whenever that
queue runs dry, it is decided what comes next.
-/

namespace RenderFarm.Scheduler

open Compile (Compiled)

variable {γ : Type}

/-- Ends the supply of work; jobs under way go on. -/
def beginDraining (s : Scheduler γ) : Scheduler γ :=
  if s.phase = .dispatching then
    { s.note (.info "No more queued work; waiting for running jobs" []) with phase := .draining }
  else s

variable [Generator γ]

/-- Compiles a template with the checkpoints of the sweep. -/
def compile (template : Template) (s : Scheduler γ) : Compiled × γ :=
  Compile.compile
    { template, defaults := s.settings.jobDefaults, capabilities := s.capabilities
      wildcards := s.wildcards, overrides := s.sweep.overrides, loopIndex := s.sweep.loops
      seedOffset := s.sweep.seedOffset, queueDepth := s.settings.queueDepth, files := s.files }
    s.random

/-- Whether a template asks for a sweep. -/
def asksForSweep (control : RunControl) : Bool :=
  !control.modelSweep.isEmpty || !control.highresSweep.isEmpty

/-- Starts the sweep that a template asks for. -/
def startSweep (control : RunControl) (s : Scheduler γ) : Scheduler γ :=
  { s with sweep := .ofLists control.modelSweep control.highresSweep }.note
    (.info "Model sweep started"
      [("models", .number control.modelSweep.length),
        ("highres_models", .number control.highresSweep.length)])

/-- Takes over what a template was compiled to. -/
def takeCompiled (template : Template) (compiled : Compiled) (s : Scheduler γ) : Scheduler γ :=
  let name := (template.path.map Path.text).getD ""
  let warnings := compiled.warnings.map fun w => LogEvent.warning w [("template", .shown name)]
  { s with
    lastPassJobs := compiled.jobs.length
    queue := s.queue.extendMain compiled.jobs
    supplied := s.supplied ++ compiled.jobs
    control := compiled.control
    log := s.log ++ warnings ++
      [.info "Queue compiled"
        [("jobs", .number compiled.jobs.length), ("loop_index", .number s.sweep.loops.toNat),
          ("model", .text (s.sweep.model?.getD "-"))]] }

/-- Compiles a template into the main queue. A template that asks for a sweep is first compiled to learn of
it, and then again with the first checkpoints of the sweep. -/
def compilePass (template : Template) (s : Scheduler γ) : Scheduler γ :=
  let (compiled, g) := s.compile template
  let s := { s with random := g }
  if asksForSweep compiled.control && !s.sweep.isActive then
    let s := s.startSweep compiled.control
    let (compiled, g) := s.compile template
    { s with random := g }.takeCompiled template compiled
  else s.takeCompiled template compiled

/-- Reads the wildcard files again. -/
def reloadWildcards (s : Scheduler γ) : Scheduler γ :=
  match WildcardTable.load s.files s.settings.wildcardDir with
  | .ok wildcards => { s with wildcards }
  | .error e =>
    { s with wildcards := {} }.note (.warning "Failed to read wildcard files" [("error", .shown e.message)])

/-- Empties the main queue. -/
def discardPending (s : Scheduler γ) : Scheduler γ :=
  let dropped := s.queue.main.length
  let s := { s with queue := s.queue.clearMain, discarded := s.discarded ++ s.queue.main }
  if dropped = 0 then s else s.note (.info "Discarded pending jobs" [("dropped", .number dropped)])

/-- Loads a template in place of the one before, and compiles it. One that cannot be read ends the supply of
work. -/
def loadTemplate (path : Path) (s : Scheduler γ) : Scheduler γ :=
  let shown : String × LogValue := ("template", .shown path.text)
  match Template.load s.files path with
  | .error e =>
    (s.note (.error "Failed to load template" [shown, ("error", .shown e.message)])).beginDraining
  | .ok template =>
    let s := s.reloadWildcards.discardPending
    let s := { s with template := some template, control := {}, sweep := {} }
    let s := s.note (.info "Template loaded" [shown, ("wildcards", .number s.wildcards.size)])
    let s :=
      match s.phase with
      | .bootstrapping | .draining | .idle => { s with phase := .dispatching }
      | .dispatching | .shuttingDown => s
    s.compilePass template

/-- Where the template that comes next is: at its path as it is given, or else beside the current one. -/
def resolveNext (template : Template) (next : Path) (s : Scheduler γ) : Path :=
  if next.isAbsolute || s.files.exists? next then next
  else
    match template.path.bind Path.parent? with
    | some dir => dir.join next.text
    | none => next

/-- Decides what comes after the last job of a pass: more random jobs, the next checkpoints of the sweep, the
template once more, the template that follows it, or nothing. After a pass without jobs nothing comes. -/
def advanceRun (s : Scheduler γ) : Scheduler γ :=
  match s.template with
  | none => s.beginDraining
  | some template =>
    if s.lastPassJobs = 0 then s.beginDraining
    else if s.control.mode = .random then s.compilePass template
    else
      match s.sweep.advance with
      | (sweep, .highres) | (sweep, .model) => { s with sweep := sweep.recordLoop }.compilePass template
      | (_, .complete) =>
        if s.control.repeats then
          let s := { s with sweep := s.sweep.restart.recordLoop }
          (s.note (.info "Repeating template" [("loop_index", .number s.sweep.loops.toNat)])).compilePass
            template
        else
          match s.control.nextTemplate with
          | some next =>
            let next := s.resolveNext template next
            (s.note (.info "Continuing with next template" [("template", .shown next.text)])).loadTemplate
              next
          | none => s.beginDraining

end RenderFarm.Scheduler
