import RenderFarm.Config
import RenderFarm.Device.Readiness
import RenderFarm.Launch.Script

/-!
What a render device is set up with. The devices of a farm get ports that are counted up from the first one, and
folders for fresh images and log files that are named after their ids.
-/

namespace RenderFarm

/-- The settings of one device. -/
structure DeviceSetup where
  id : String
  port : UInt16
  /-- Where the render backend is installed. -/
  backendDir : Path
  logDir : Path := ⟨"logs"⟩
  /-- The folder that holds the scratch folders of all devices. -/
  scratchRoot : Path := ⟨"output/.scratch"⟩
  platform : Launch.Platform := .unix
  patience : Patience := {}
  /-- Whether the backend sizes a second pass in its old way. -/
  oldSizing : Bool := false

namespace DeviceSetup

/-- The name of the folder that holds the scratch folders of all devices. -/
def scratchFolder : String := ".scratch"

/-- The address of the device's interface. -/
def url (d : DeviceSetup) : String :=
  "http://127.0.0.1:" ++ toString d.port.toNat

/-- The name that the device's folder and files start with. -/
def label (d : DeviceSetup) : String :=
  "gpu-" ++ d.id

/-- The folder for fresh images. -/
def scratchDir (d : DeviceSetup) : Path :=
  d.scratchRoot.join d.label

/-- The file that takes the output of the render process. -/
def logPath (d : DeviceSetup) : Path :=
  d.logDir.join (d.label ++ "-log.txt")

/-- The file that takes what the render process reports as errors. -/
def errorLogPath (d : DeviceSetup) : Path :=
  d.logDir.join (d.label ++ "-errors.txt")

/-- The device at a position of a farm. -/
def ofConfig (c : Config) (index : Nat) (id : String) : DeviceSetup where
  id
  port := c.port index
  backendDir := c.backendDir
  logDir := c.logDir
  scratchRoot := c.outputRoot.join scratchFolder
  patience := { interval := 1000 * c.pollInterval, timeout := 1000 * c.startupTimeout }

/-- The devices of a farm, in the order of its settings. -/
def all (c : Config) : List DeviceSetup :=
  c.devices.mapIdx (ofConfig c)

end DeviceSetup

end RenderFarm
