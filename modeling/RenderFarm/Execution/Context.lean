import RenderFarm.Device.Error
import RenderFarm.Job.Basic
import RenderFarm.Trigger.Registry
import RenderFarm.Upscale

/-!
What a job is executed with, and how its execution ends.
-/

namespace RenderFarm

/-- What all jobs of a run share. -/
structure ExecutionContext where
  capabilities : Capabilities := {}
  triggers : TriggerRegistry := ⟨⟨""⟩, []⟩
  outputRoot : Path := ⟨"output"⟩
  /-- The checkpoint of jobs that name none. -/
  defaultCheckpoint : Option String := none
  /-- The most pixels of an image that a second render may have. -/
  maxPixels : Nat := Upscale.defaultMaxPixels

/-- Why a job fails. -/
inductive JobError where
  | device (error : DeviceError)
  | output (error : StorageError)
  | missingInput
  | unreadable (path : Path) (fault : IoFault)
deriving DecidableEq, Repr

/-- The wording of a failure. -/
def JobError.message : JobError → String
  | .device error => error.message
  | .output error => error.message
  | .missingInput => "job has no input image"
  | .unreadable path fault => "failed to read " ++ path.text ++ ": " ++ fault.message

/-- How a job ended: with the paths of its images, or with the reason why it failed. -/
structure JobReport where
  device : String
  sequence : Nat
  origin : Origin
  result : Except String (List Path)

namespace JobReport

/-- Whether the job succeeded. -/
def success (r : JobReport) : Bool :=
  r.result.isOk

/-- The images of the job; a job that failed has none. -/
def outputs (r : JobReport) : List Path :=
  r.result.toOption.getD []

/-- The reason why the job failed. -/
def error? (r : JobReport) : Option String :=
  match r.result with
  | .ok _ => none
  | .error message => some message

end JobReport

end RenderFarm
