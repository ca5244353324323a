import RenderFarm.Directive.Apply
import RenderFarm.FileSystem
import RenderFarm.Number.Reading
import RenderFarm.Upscale

/-!
Settings of a farm. They are read from lines of the form `KEY = VALUE`; a line that is refused is reported
and changes nothing, so the value that was there before it holds.
-/

namespace RenderFarm

/-- Why the value of a setting is refused. -/
inductive SettingFault where
  | number (fault : NumberFault)
  | noDevices
  | placement (fault : Placement.Fault)
  | directive (error : DirectiveError)
deriving Repr

/-- The wording of a fault. -/
def SettingFault.message : SettingFault → String
  | .number fault => fault.message
  | .noDevices => "no device ids"
  | .placement fault => fault.message
  | .directive error => error.message

/-- What is wrong with a file of settings or with one of its lines. -/
inductive ConfigError where
  | unreadable (path : Path) (fault : IoFault)
  | missing (path : Path)
  | malformed (line : String)
  | unknownKey (key : String)
  | invalid (key value : String) (fault : SettingFault)
deriving Repr

/-- The wording of an error. -/
def ConfigError.message : ConfigError → String
  | .unreadable path fault => "failed to read config file " ++ path.text ++ ": " ++ fault.message
  | .missing path => "config file " ++ path.text ++ " not found, using defaults"
  | .malformed line => "config line is not KEY = VALUE: " ++ line
  | .unknownKey key => "unknown config key " ++ key ++ " (ignored)"
  | .invalid key value fault => "invalid value for " ++ key ++ ": '" ++ value ++ "' (" ++ fault.message ++ ")"

/-- The settings of a farm. Times are in seconds. -/
structure Config where
  /-- Where the render backend is installed. -/
  backendDir : Path := ⟨"."⟩
  /-- The port of the first device; the others follow. -/
  startPort : UInt16 := 7861
  devices : List String := ["0"]
  promptsDir : Path := ⟨"prompts"⟩
  outputRoot : Path := ⟨"output"⟩
  wildcardDir : Path := ⟨"prompts/wildcards"⟩
  triggerFile : Path := ⟨"cache/model-triggers.txt"⟩
  logDir : Path := ⟨"logs"⟩
  logCapacity : Nat := 300
  /-- How many jobs a pass in random mode makes. -/
  queueDepth : Nat := 50
  startupTimeout : Nat := 300
  pollInterval : Nat := 5
  defaultCheckpoint : Option String := none
  triggerPlacement : Placement := .off
  maxPixels : Nat := Upscale.defaultMaxPixels
  /-- What every template starts from. -/
  jobDefaults : Job := {}
  /-- The template to begin with. -/
  promptFile : Option Path := none

namespace Config

/-- The file that is read when no other is named. -/
def defaultFile : Path := ⟨"config.txt"⟩

/-- The keys that preset a job; their values are read like those of directives. -/
def jobKeys : List String :=
  ["WIDTH", "HEIGHT", "STEPS", "SCALE", "SAMPLER", "NEG_PROMPT", "SAMPLES"]

/-- The port of the device at a position. It does not go beyond the last port. -/
def port (c : Config) (index : Nat) : UInt16 :=
  UInt16.ofNat (min (c.startPort.toNat + index % 65536) 65535)

/-- Reads a number up to a limit. -/
def number (limit : Nat) (key value : String) : Except ConfigError Nat :=
  (Chars.readNat limit value.toList).mapError fun fault => .invalid key value (.number fault)

/-- The largest number of 64 bits. -/
def maxWord : Nat := twoTo 64 - 1

/-- Sets a value that presets a job. -/
def presetJob (key value : String) (c : Config) : Except ConfigError Config :=
  match Directive.apply {} key value (.ofDefaults c.jobDefaults) with
  | (draft, none) => .ok { c with jobDefaults := draft.job }
  | (_, some e) => .error (.invalid key value (.directive e))

/-- Sets a value of the farm itself. -/
def set (key value : String) (c : Config) : Except ConfigError Config :=
  match key with
  | "SD_LOCATION" => .ok { c with backendDir := ⟨value⟩ }
  | "SD_START_PORT" =>
    (number 65535 key value).map fun n => { c with startPort := UInt16.ofNat n }
  | "GPU_DEVICES" =>
    match Text.listItems ',' value with
    | [] => .error (.invalid key value .noDevices)
    | devices => .ok { c with devices }
  | "PROMPTS_LOCATION" => .ok { c with promptsDir := ⟨value⟩ }
  | "OUTPUT_LOCATION" => .ok { c with outputRoot := ⟨value⟩ }
  | "WILDCARD_LOCATION" => .ok { c with wildcardDir := ⟨value⟩ }
  | "MODEL_TRIGGER_FILE" => .ok { c with triggerFile := ⟨value⟩ }
  | "LOG_LOCATION" => .ok { c with logDir := ⟨value⟩ }
  | "LOG_BUFFER_SIZE" => (number maxWord key value).map fun n => { c with logCapacity := n }
  | "RANDOM_QUEUE_SIZE" => (number maxWord key value).map fun n => { c with queueDepth := n }
  | "STARTUP_TIMEOUT" => (number maxWord key value).map fun n => { c with startupTimeout := n }
  | "READINESS_POLL_INTERVAL" => (number maxWord key value).map fun n => { c with pollInterval := n }
  | "DEFAULT_CKPT_FILE" =>
    .ok { c with defaultCheckpoint := if value.isEmpty then none else some value }
  | "AUTO_INSERT_MODEL_TRIGGER" =>
    match Placement.parse value with
    | .ok p => .ok { c with triggerPlacement := p }
    | .error fault => .error (.invalid key value (.placement fault))
  | "UPSCALE_MAX_PIXELS" => (number maxWord key value).map fun n => { c with maxPixels := n }
  | _ => .error (.unknownKey key)

/-- The settings with a line taken over. -/
def applyLine (line : String) (c : Config) : Except ConfigError Config :=
  match Text.cut? "=" line with
  | none => .error (.malformed line)
  | some (key, value) =>
    let key := Text.upperAscii (Text.trim key)
    let value := Text.trim value
    if key ∈ jobKeys then c.presetJob key value else c.set key value

/-- Takes over one line after the other. A refused line adds its error. -/
def applyLines : List String → Config → Config × List ConfigError
  | [], c => (c, [])
  | line :: lines, c =>
    match c.applyLine line with
    | .ok c => applyLines lines c
    | .error e =>
      let (c, errors) := applyLines lines c
      (c, e :: errors)

/-- Reads settings. Whatever is refused is reported; jobs get the trigger placement of the settings. -/
def parse (contents : String) : Config × List ConfigError :=
  let (c, errors) := applyLines (Text.contentLines contents) {}
  ({ c with jobDefaults := { c.jobDefaults with triggerPlacement := c.triggerPlacement } }, errors)

/-- Reads settings from a file. -/
def load (fs : FileSystem) (path : Path) : Except ConfigError (Config × List ConfigError) :=
  match fs.readText path with
  | .ok contents => .ok (parse contents)
  | .error .notFound => .error (.missing path)
  | .error fault => .error (.unreadable path fault)

/-- The settings of a process, from the file and the template that its environment names. Without the file
the defaults hold. -/
def ofEnvironment (fs : FileSystem) (file prompt : Option String) :
    Except ConfigError (Config × List ConfigError) := do
  let (c, errors) ←
    match load fs ((file.map Path.mk).getD defaultFile) with
    | .error (.missing path) => .ok ({}, [.missing path])
    | r => r
  match prompt.map Text.trim with
  | none => .ok (c, errors)
  | some prompt =>
    .ok (if prompt.isEmpty then c else { c with promptFile := some ⟨prompt⟩ }, errors)

end Config

end RenderFarm
