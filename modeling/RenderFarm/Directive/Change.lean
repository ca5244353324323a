import RenderFarm.Job.Basic
import RenderFarm.Template

/-!
The state that directives act on, and the changes that they make to it. A directive is first read into a
change, which does not depend on the state, and the change is then made; so what a directive is refused for
never depends on what was set before.
-/

namespace RenderFarm

/-- Settings of a run rather than of its jobs. -/
structure RunControl where
  mode : Mode := .standard
  /-- Whether the run starts over after its last pass. -/
  repeats : Bool := false
  nextTemplate : Option Path := none
  /-- Joins the fragments of different sections. -/
  delimiter : String := Section.defaultDelimiter
  /-- Checkpoints to go through; empty without a sweep. -/
  modelSweep : List String := []
  /-- Checkpoints of the second pass to go through, for each of the first. -/
  highresSweep : List String := []
deriving DecidableEq, Repr

/-- The job that the next one is copied from, and the settings of the run. -/
structure Draft where
  job : Job
  control : RunControl
deriving Repr

/-- The draft that a template starts from. -/
def Draft.ofDefaults (job : Job) : Draft :=
  { job, control := { mode := job.mode } }

/-- A change to the second high-resolution pass. -/
inductive HighresChange where
  | enabled (b : Bool)
  | scaleFactor (x : Float)
  | steps (n : UInt32)
  | denoisingStrength (x : Float)
  | upscaler (name : String)
  | sampler (name : Option String)
  | prompt (s : Option String)
  | negativePrompt (s : Option String)

/-- Makes a change to the second pass. -/
def HighresChange.make (h : Highres) : HighresChange → Highres
  | .enabled b => { h with enabled := b }
  | .scaleFactor x => { h with scaleFactor := x }
  | .steps n => { h with steps := n }
  | .denoisingStrength x => { h with denoisingStrength := x }
  | .upscaler name => { h with upscaler := name }
  | .sampler name => { h with sampler := name }
  | .prompt s => { h with prompt := s }
  | .negativePrompt s => { h with negativePrompt := s }

/-- A change to the enlargement. -/
inductive UpscaleChange where
  | enabled (b : Bool)
  | amount (x : Float)
  | method (m : UpscaleMethod)
  | codeformer (x : Float)
  | gfpgan (x : Float)
  | keepSource (b : Bool)
  | sdStrength (x : Float)
  | checkpoint (title : Option String)
  | sampler (name : Option String)
  | steps (n : Option UInt32)
  | prompt (s : Option String)
  | negativePrompt (s : Option String)

/-- Makes a change to the enlargement. -/
def UpscaleChange.make (u : Upscale) : UpscaleChange → Upscale
  | .enabled b => { u with enabled := b }
  | .amount x => { u with amount := x }
  | .method m => { u with method := m }
  | .codeformer x => { u with codeformerVisibility := x }
  | .gfpgan x => { u with gfpganVisibility := x }
  | .keepSource b => { u with keepSource := b }
  | .sdStrength x => { u with sdStrength := x }
  | .checkpoint title => { u with checkpoint := title }
  | .sampler name => { u with sampler := name }
  | .steps n => { u with steps := n }
  | .prompt s => { u with prompt := s }
  | .negativePrompt s => { u with negativePrompt := s }

/-- A change to the guidance by a reference image. -/
inductive ControlNetChange where
  | inputImage (p : Option Path)
  | model (name : Option String)
  | preprocessor (name : String)
  | weight (x : Float)
  | guidanceStart (x : Float)
  | guidanceEnd (x : Float)
  | pixelPerfect (b : Bool)
  | lowVram (b : Bool)
  | controlMode (m : ControlMode)

/-- Makes a change to the guidance. -/
def ControlNetChange.make (c : ControlNet) : ControlNetChange → ControlNet
  | .inputImage p => { c with inputImage := p }
  | .model name => { c with model := name }
  | .preprocessor name => { c with preprocessor := name }
  | .weight x => { c with weight := x }
  | .guidanceStart x => { c with guidanceStart := x }
  | .guidanceEnd x => { c with guidanceEnd := x }
  | .pixelPerfect b => { c with pixelPerfect := b }
  | .lowVram b => { c with lowVram := b }
  | .controlMode m => { c with controlMode := m }

/-- A change to the refinement of regions. -/
inductive DetailerChange where
  | model (name : Option String)
  | prompt (s : Option String)
  | negativePrompt (s : Option String)
  | strength (x : Float)
  | confidence (x : Float)

/-- Makes a change to the refinement. -/
def DetailerChange.make (d : Detailer) : DetailerChange → Detailer
  | .model name => { d with model := name }
  | .prompt s => { d with prompt := s }
  | .negativePrompt s => { d with negativePrompt := s }
  | .strength x => { d with denoisingStrength := x }
  | .confidence x => { d with confidence := x }

/-- A change to the descriptive fields. -/
inductive IptcChange where
  | title (s : String)
  | description (s : String)
  | keywords (s : String)
  | copyright (s : String)

/-- Makes a change to the descriptive fields. -/
def IptcChange.make (i : Iptc) : IptcChange → Iptc
  | .title s => { i with title := s }
  | .description s => { i with description := s }
  | .keywords s => { i with keywords := s }
  | .copyright s => { i with copyright := s }

/-- A change to a field of the job itself. -/
inductive JobChange where
  | width (n : UInt32)
  | height (n : UInt32)
  | seed (n : Int64)
  | steps (r : Range UInt32)
  | scale (r : Range Float)
  | minScale (x : Float)
  | maxScale (x : Float)
  | strength (r : Range Float)
  | minStrength (x : Float)
  | maxStrength (x : Float)
  | samples (n : UInt32)
  | batchSize (n : UInt32)
  | clipSkip (n : Option UInt32)
  | negativePrompt (s : String)
  | sampler (name : String)
  | vae (name : Option String)
  | styles (names : List String)
  | inputImage (p : Option Path)
  | randomInputDir (p : Option Path)
  | filename (s : Option String)
  | triggerPlacement (p : Placement)

/-- Makes a change to a field of the job. -/
def JobChange.make (j : Job) : JobChange → Job
  | .width n => { j with width := n }
  | .height n => { j with height := n }
  | .seed n => { j with seed := n }
  | .steps r => { j with steps := r }
  | .scale r => { j with scale := r }
  | .minScale x => { j with scale := j.scale.setMin x }
  | .maxScale x => { j with scale := j.scale.setMax x }
  | .strength r => { j with strength := r }
  | .minStrength x => { j with strength := j.strength.setMin x }
  | .maxStrength x => { j with strength := j.strength.setMax x }
  | .samples n => { j with samples := n }
  | .batchSize n => { j with batchSize := n }
  | .clipSkip n => { j with clipSkip := n }
  | .negativePrompt s => { j with negativePrompt := s }
  | .sampler name => { j with sampler := name }
  | .vae name => { j with vae := name }
  | .styles names => { j with styles := names }
  | .inputImage p => { j with inputImage := p }
  | .randomInputDir p => { j with randomInputDir := p }
  | .filename s => { j with filename := s }
  | .triggerPlacement p => { j with triggerPlacement := p }

/-- A change to a draft. A mode and a choice of checkpoints concern both the job and the run. -/
inductive Change where
  | job (c : JobChange)
  | iptc (c : IptcChange)
  | highres (c : HighresChange)
  | upscale (c : UpscaleChange)
  | controlNet (c : ControlNetChange)
  | detailer (c : DetailerChange)
  | mode (m : Mode)
  | checkpoint (first : Option String) (sweep : List String)
  | highresCheckpoint (first : Option String) (sweep : List String)
  | repeats (b : Bool)
  | nextTemplate (p : Option Path)
  | delimiter (s : String)

/-- Makes a change to a draft. -/
def Change.make (d : Draft) : Change → Draft
  | .job c => { d with job := c.make d.job }
  | .iptc c => { d with job := { d.job with iptc := c.make d.job.iptc } }
  | .highres c => { d with job := { d.job with highres := c.make d.job.highres } }
  | .upscale c => { d with job := { d.job with upscale := c.make d.job.upscale } }
  | .controlNet c => { d with job := { d.job with controlNet := c.make d.job.controlNet } }
  | .detailer c => { d with job := { d.job with detailer := c.make d.job.detailer } }
  | .mode m => { job := { d.job with mode := m }, control := { d.control with mode := m } }
  | .checkpoint first sweep =>
    { job := { d.job with checkpoint := first }, control := { d.control with modelSweep := sweep } }
  | .highresCheckpoint first sweep =>
    { job := { d.job with highres := { d.job.highres with checkpoint := first } }
      control := { d.control with highresSweep := sweep } }
  | .repeats b => { d with control := { d.control with repeats := b } }
  | .nextTemplate p => { d with control := { d.control with nextTemplate := p } }
  | .delimiter s => { d with control := { d.control with delimiter := s } }

end RenderFarm
