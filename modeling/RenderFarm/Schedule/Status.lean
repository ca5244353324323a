import RenderFarm.Sweep
import RenderFarm.Path

/-!
What a run shows of itself: the phase it is in, its devices, what waits and what is done.
-/

namespace RenderFarm

/-- What the device of a slot is doing. -/
inductive SlotState where
  | starting
  | idle
  /-- It tells what the backend offers. -/
  | discovering
  | busy
  | failed
deriving DecidableEq, Repr

/-- The name of a state. -/
def SlotState.name : SlotState → String
  | .starting => "Starting"
  | .idle => "Idle"
  | .discovering => "Discovering"
  | .busy => "Busy"
  | .failed => "Failed"

/-- A device of a run. -/
structure Slot where
  id : String
  state : SlotState := .starting
  /-- The place in the queue of the job that is under way. -/
  currentJob : Option Nat := none
  /-- Jobs that have ended on the device, well or not. -/
  jobsDone : Nat := 0
deriving DecidableEq, Repr

/-- How far a run has come. -/
inductive RunPhase where
  /-- No device has told yet what the backend offers. -/
  | bootstrapping
  | dispatching
  /-- The template has no more work; jobs may still be under way. -/
  | draining
  | idle
  | shuttingDown
deriving DecidableEq, Repr

/-- The phase as it is shown: a run that is held is shown as paused, whatever else it is doing. -/
inductive ShownPhase where
  | paused
  | phase (p : RunPhase)
deriving DecidableEq, Repr

/-- The name of a phase. -/
def RunPhase.name : RunPhase → String
  | .bootstrapping => "Bootstrapping"
  | .dispatching => "Dispatching"
  | .draining => "Draining"
  | .idle => "Idle"
  | .shuttingDown => "ShuttingDown"

/-- The name of a phase as it is shown. -/
def ShownPhase.name : ShownPhase → String
  | .paused => "Paused"
  | .phase p => p.name

/-- What a run shows after each pass. -/
structure RunStatus where
  phase : ShownPhase := .phase .bootstrapping
  /-- Jobs of the template that wait. -/
  mainQueue : Nat := 0
  /-- Enlargements of existing images that wait. -/
  priorityQueue : Nat := 0
  slots : List Slot := []
  jobsDone : Nat := 0
  jobsFailed : Nat := 0
  template : Option Path := none
  model : Option String := none
  loops : UInt32 := 0
deriving DecidableEq, Repr

/-- The totals of a run. -/
structure RunSummary where
  jobsDone : Nat
  jobsFailed : Nat
  loops : UInt32
deriving DecidableEq, Repr

/-- Why a run fails or cannot be talked to. -/
inductive RunError where
  | noDevices
  | closed
deriving DecidableEq, Repr

/-- The wording of an error. -/
def RunError.message : RunError → String
  | .noDevices => "no render device could be started"
  | .closed => "scheduler has stopped"

end RenderFarm
