import RenderFarm.Backend.Http
import RenderFarm.Launch.Script

/-!
The states that a render device goes through, and why it refuses or fails a request.
-/

namespace RenderFarm

/-- Where a device is in its life. -/
inductive DeviceState where
  | uninitialized
  | launching
  | pollingReady
  | ready
  | failed
  | stopped
deriving DecidableEq, Repr

/-- The name of a state. -/
def DeviceState.name : DeviceState → String
  | .uninitialized => "Uninitialized"
  | .launching => "Launching"
  | .pollingReady => "PollingReady"
  | .ready => "Ready"
  | .failed => "Failed"
  | .stopped => "Stopped"

/-- Why a device refuses or fails a request. -/
inductive DeviceError where
  | busy
  | notReady (state : DeviceState)
  | shuttingDown
  | launch (error : Launch.Error)
  /-- The render process cannot be started. -/
  | spawn (fault : IoFault)
  /-- The render process has ended before it was ready. -/
  | exited (code : Option Int)
  | startupTimeout (seconds : Nat)
  | api (error : Backend.ApiError)
  /-- An image is not in base64. -/
  | decode
  /-- The backend has returned no image. -/
  | emptyResponse
  | io (path : Path) (fault : IoFault)
deriving DecidableEq, Repr

/-- The text of an exit code. -/
def exitCodeText : Option Int → String
  | some code => "Some(" ++ toString code ++ ")"
  | none => "None"

/-- The wording of an error. -/
def DeviceError.message : DeviceError → String
  | .busy => "device is busy with another request"
  | .notReady state => "device is not ready (state " ++ state.name ++ ")"
  | .shuttingDown => "shutdown in progress"
  | .launch error => error.message
  | .spawn fault => "failed to spawn render process: " ++ fault.message
  | .exited code => "render process exited during startup (exit code " ++ exitCodeText code ++ ")"
  | .startupTimeout seconds => "render process not ready after " ++ toString seconds ++ " seconds"
  | .api error => error.message
  | .decode => "invalid image payload"
  | .emptyResponse => "render backend returned no images"
  | .io path fault => "I/O error on " ++ path.text ++ ": " ++ fault.message

end RenderFarm
