import RenderFarm.Config

/-!
What a run needs to know of the settings of a farm.
-/

namespace RenderFarm

/-- The settings of a run. -/
structure RunSettings where
  jobDefaults : Job := {}
  outputRoot : Path
  wildcardDir : Path
  triggerFile : Path
  defaultCheckpoint : Option String := none
  maxPixels : Nat := Upscale.defaultMaxPixels
  /-- How many jobs a pass in random mode makes. -/
  queueDepth : Nat := 50
  /-- The template that is loaded once the first device is ready. -/
  initialTemplate : Option Path := none
  /-- Milliseconds between two looks at the queue when nothing happens. -/
  tick : Nat := 100
  /-- Whether the run ends when all work is done. -/
  exitWhenIdle : Bool := false

/-- The settings of a run on a farm. -/
def RunSettings.ofConfig (c : Config) : RunSettings where
  jobDefaults := c.jobDefaults
  outputRoot := c.outputRoot
  wildcardDir := c.wildcardDir
  triggerFile := c.triggerFile
  defaultCheckpoint := c.defaultCheckpoint
  maxPixels := c.maxPixels
  queueDepth := c.queueDepth
  initialTemplate := c.promptFile

end RenderFarm
