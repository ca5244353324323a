import RenderFarm.Compile.Odometer
import RenderFarm.Compile.Picks
import RenderFarm.Directive.Apply
import RenderFarm.Prompt.Fragment
import RenderFarm.Record.Sidecar
import RenderFarm.Sweep
import RenderFarm.Wildcard.Expand

/-!
Compiling a template into jobs. A pass applies the `[config]` directives, turns the sections into jobs by the
rules of the mode, and finishes every job: wildcards and descriptive placeholders are filled in, the seed is
moved on and the jobs are numbered. Problems never end a pass; they are collected as warnings.
-/

namespace RenderFarm.Compile

/-- What a pass is compiled from. -/
structure Context where
  template : Template
  defaults : Job
  capabilities : Capabilities := {}
  wildcards : WildcardTable := {}
  overrides : SweepOverrides := {}
  loopIndex : UInt32 := 0
  seedOffset : Int64 := 0
  /-- The number of jobs that a pass in random mode makes. -/
  queueDepth : Nat
  files : FileSystem

/-- What a pass results in. -/
structure Compiled where
  jobs : List Job
  warnings : List String
  control : RunControl

/-- A pass under way. Directories that have been looked into are remembered with their images. -/
structure Pass where
  draft : Draft
  jobs : List Job := []
  warnings : List String := []
  imageDirs : List (Path × List Path) := []

namespace Pass

/-- The pass with one more warning. -/
def warn (p : Pass) (message : String) : Pass :=
  { p with warnings := p.warnings ++ [message] }

/-- The pass with more jobs. -/
def emit (p : Pass) (jobs : List Job) : Pass :=
  { p with jobs := p.jobs ++ jobs }

/-- Applies a directive; what it is refused for is a warning. -/
def direct (p : Pass) (caps : Capabilities) (d : Directive) : Pass :=
  let (draft, report) := Directive.apply caps d.key d.value p.draft
  let p := { p with draft }
  match report with
  | none => p
  | some e => p.warn e.message

/-- Applies a `[config]` line. -/
def configure (p : Pass) (caps : Capabilities) (line : String) : Pass :=
  match Directive.parse? line with
  | some d => p.direct caps d
  | none => p.warn ("[config] line is not a directive: " ++ line)

/-- Puts the checkpoints of a sweep in the place of the draft's. -/
def override (p : Pass) (o : SweepOverrides) : Pass :=
  let job := p.draft.job
  let job := { job with checkpoint := o.checkpoint.or job.checkpoint }
  let job :=
    { job with
      highres := { job.highres with checkpoint := o.highresCheckpoint.or job.highres.checkpoint } }
  { p with draft := { p.draft with job } }

/-- The images of a directory. A directory is looked into once; one without images is a warning then. -/
def images (p : Pass) (fs : FileSystem) (dir : Path) : List Path × Pass :=
  match p.imageDirs.find? fun (d, _) => d.sameAs dir with
  | some (_, found) => (found, p)
  | none =>
    let (found, p) :=
      match Image.list fs dir with
      | .ok found => (found, p)
      | .error e => ([], p.warn e.message)
    let p := if found.isEmpty then p.warn ("no images found in " ++ dir.text) else p
    (found, { p with imageDirs := (dir, found) :: p.imageDirs })

/-- The images that a setting stands for: those of a directory, or the setting itself. -/
def imageChoices (p : Pass) (fs : FileSystem) (setting : Option Path) : List (Option Path) × Pass :=
  match setting.filter fs.isDirectory with
  | some dir =>
    let (found, p) := p.images fs dir
    (found.map some, p)
  | none => ([setting], p)

/-- The state before the sections are expanded. -/
def start (ctx : Context) : Pass :=
  let draft := Draft.ofDefaults ctx.defaults
  let draft := { draft with job := { draft.job with templatePath := ctx.template.path } }
  let p : Pass := { draft, warnings := ctx.template.warnings }
  (ctx.template.config.foldl (fun p line => p.configure ctx.capabilities line) p).override ctx.overrides

end Pass

/-- The prompt of picked tokens: those of a section joined by its delimiter, the sections joined by the one
of the run, and the result tidied up. -/
def promptOf (control : RunControl) (sections : List Section) (picks : List (List String)) : String :=
  let fragments := (picks.zip sections).map fun (words, s) => Prompt.join words s.delimiter
  Prompt.clean (Prompt.join fragments control.delimiter)

/-- One job for every pair of an input image and a reference image, where a directory stands for each of its
images. -/
def expandImages (fs : FileSystem) (job : Job) (p : Pass) : List Job × Pass :=
  let (inputs, p) := p.imageChoices fs job.inputImage
  let (references, p) := p.imageChoices fs job.controlNet.inputImage
  (inputs.flatMap fun input =>
      references.map fun reference =>
        { job with inputImage := input, controlNet := { job.controlNet with inputImage := reference } },
    p)

/-- Takes in one combination. Directives among its tokens are applied and the combination makes no job. -/
def standardStep (ctx : Context) (p : Pass) (picks : List (List String)) : Pass :=
  let directives := picks.flatten.filterMap Directive.parseEmbedded?
  if directives.isEmpty then
    let job := { p.draft.job with prompt := promptOf p.draft.control ctx.template.sections picks }
    let (jobs, p) := expandImages ctx.files job p
    p.emit jobs
  else directives.foldl (fun p d => p.direct ctx.capabilities d) p

variable {γ : Type} [Generator γ]

/-- What is said about a template without sections. -/
def noSections : String :=
  "template has no [prompts] sections; nothing to queue"

/-- Every combination of the sections' picks. -/
def standard (ctx : Context) (p : Pass) (g : γ) : Pass × γ :=
  if ctx.template.sections.isEmpty then (p.warn noSections, g)
  else
    let drawn := drawsOf ctx.template.sections g
    let first := Odometer.first drawn.1 (drawsOf_ne_nil ctx.template.sections g)
    (first.run (fun p o => standardStep ctx p o.choice) p, drawn.2)

/-- Takes in the tokens drawn from a section: directives are applied, the others are its words. -/
def takeTokens (ctx : Context) : List String → Pass → List String × Pass
  | [], p => ([], p)
  | token :: rest, p =>
    match Directive.parseEmbedded? token with
    | some d => takeTokens ctx rest (p.direct ctx.capabilities d)
    | none =>
      let (words, p) := takeTokens ctx rest p
      (token :: words, p)

/-- Draws from every section in order. -/
def sampleSections (ctx : Context) : List Section → Pass → γ → List (List String) × Pass × γ
  | [], p, g => ([], p, g)
  | s :: rest, p, g =>
    let (k, g) := pickCount s g
    let (picked, g) := Random.sample s.tokens.length (min k s.tokens.length) g
    let (words, p) := takeTokens ctx (picked.map fun i => s.tokens.getD i "") p
    let (others, p, g) := sampleSections ctx rest p g
    (words :: others, p, g)

/-- A job without a directory as its input image; one that is named is drawn from when the job starts. -/
def deferDirectory (fs : FileSystem) (job : Job) : Job :=
  match job.inputImage.filter fs.isDirectory with
  | some dir => { job with inputImage := none, randomInputDir := some dir }
  | none => job

/-- A number of independent samples. -/
def sampleJobs (ctx : Context) : Nat → Pass → γ → Pass × γ
  | 0, p, g => (p, g)
  | n + 1, p, g =>
    let (picks, p, g) := sampleSections ctx ctx.template.sections p g
    let job := { p.draft.job with prompt := promptOf p.draft.control ctx.template.sections picks }
    sampleJobs ctx n (p.emit [deferDirectory ctx.files job]) g

/-- Independent samples of the sections. -/
def random (ctx : Context) (p : Pass) (g : γ) : Pass × γ :=
  if ctx.template.sections.isEmpty then (p.warn noSections, g)
  else sampleJobs ctx ctx.queueDepth p g

/-- The token that asks for one job per source image. -/
def rowMarker : String := "go"

/-- The job for a source image, with the checkpoint that the image was made with, if its record names one.
Prompts and seed come from the record. -/
def jobOfSource (fs : FileSystem) (job : Job) (source : Path) : Job × Option String :=
  match ImageRecord.read fs source with
  | .ok r =>
    ({ job with
        prompt := r.prompt, negativePrompt := r.negativePrompt, seed := r.seed
        inputImage := some source },
      r.modelName?)
  | .error _ => ({ job with inputImage := some source }, none)

/-- The jobs of one row. -/
def processRow (ctx : Context) (p : Pass) : List (Job × Option String) × Pass :=
  match p.draft.job.inputImage with
  | none => ([], p.warn "'go' row without INPUT_IMAGE; set it to an image or directory")
  | some input =>
    if ctx.files.isDirectory input then
      let (sources, p) := p.images ctx.files input
      (sources.map (jobOfSource ctx.files p.draft.job), p)
    else if ctx.files.isFile input then ([jobOfSource ctx.files p.draft.job input], p)
    else ([], p.warn ("input image not found: " ++ input.text))

/-- The jobs of all rows. Directives between rows hold from there on; any other token is a warning. -/
def processRows (ctx : Context) : List String → Pass → List (Job × Option String) × Pass
  | [], p => ([], p)
  | token :: rest, p =>
    match Directive.parseEmbedded? token with
    | some d => processRows ctx rest (p.direct ctx.capabilities d)
    | none =>
      if token = rowMarker then
        let (jobs, p) := processRow ctx p
        let (others, p) := processRows ctx rest p
        (jobs ++ others, p)
      else
        processRows ctx rest
          (p.warn ("process mode only accepts '" ++ rowMarker ++ "' rows; '" ++ token ++ "' ignored"))

/-- Whether jobs are grouped by the checkpoint of their source image: they are to be rendered again, and no
checkpoint is set for that. -/
def groupsByModel (u : Upscale) : Bool :=
  u.enabled && u.method.isGenerative && u.checkpoint.isNone

/-- The order of jobs by the checkpoint of their source image; those without one come last. -/
def sourceLe (a b : Job × Option String) : Bool :=
  match a.2, b.2 with
  | some m, some n => !decide (n < m)
  | some _, none => true
  | none, some _ => false
  | none, none => true

/-- Gives a job the checkpoint of its source image. -/
def adoptModel (s : Job × Option String) : Job :=
  { s.1 with checkpoint := s.2.or s.1.checkpoint }

/-- Work on images that exist. Only the first section is read. -/
def process (ctx : Context) (p : Pass) : Pass :=
  match ctx.template.sections with
  | [] => p.warn "process mode needs a [prompts] section with 'go' rows"
  | s :: _ =>
    let (sourced, p) := processRows ctx s.tokens p
    if groupsByModel p.draft.job.upscale then p.emit ((sourced.mergeSort sourceLe).map adoptModel)
    else p.emit (sourced.map (·.1))

/-- The texts of a job, in the order in which they are filled in. -/
def textsOf (job : Job) : List String :=
  [job.iptc.title, job.iptc.description, job.iptc.keywords, job.iptc.copyright, job.prompt, job.negativePrompt] ++
    job.highres.prompt.toList ++ job.highres.negativePrompt.toList

/-- The job with texts in the place of its own, and with the descriptive placeholders in them filled in. -/
def withTexts (job : Job) : List String → Job
  | title :: description :: keywords :: copyright :: prompt :: negativePrompt :: rest =>
    let iptc : Iptc := { title, description, keywords, copyright }
    let fill := Wildcard.fillReserved iptc
    let highresPrompt := job.highres.prompt.bind fun _ => rest.head?
    let highresNegative := job.highres.negativePrompt.bind fun _ => rest.getLast?
    { job with
      iptc, prompt := fill prompt, negativePrompt := fill negativePrompt
      highres :=
        { job.highres with prompt := highresPrompt.map fill, negativePrompt := highresNegative.map fill } }
  | _ => job

/-- Fills in wildcards, in lock-step over all text fields, and then the descriptive placeholders. -/
def expandTexts (t : WildcardTable) (job : Job) (g : γ) : Job × γ :=
  let (texts, g) := Wildcard.expandFields t (textsOf job) g
  (withTexts job texts, g)

/-- Finishes jobs: their texts are filled in, their seeds are moved on unless they come from existing images,
and they are numbered. -/
def finishJobs (ctx : Context) (movesSeeds : Bool) : Nat → List Job → γ → List Job × γ
  | _, [], g => ([], g)
  | n, job :: rest, g =>
    let (job, g) := expandTexts ctx.wildcards job g
    let job :=
      { job with
        seed := if movesSeeds then seedForLoop job.seed ctx.seedOffset else job.seed
        sequence := n, loopIndex := ctx.loopIndex }
    let (rest, g) := finishJobs ctx movesSeeds (n + 1) rest g
    (job :: rest, g)

/-- Expands the sections by the rules of the mode that the `[config]` block selects. -/
def expandSections (ctx : Context) (p : Pass) (g : γ) : Pass × γ :=
  match p.draft.control.mode with
  | .standard => standard ctx p g
  | .random => random ctx p g
  | .process => (process ctx p, g)

/-- Compiles one pass. -/
def compile (ctx : Context) (g : γ) : Compiled × γ :=
  let (p, g) := expandSections ctx (Pass.start ctx) g
  let (jobs, g) := finishJobs ctx (p.draft.control.mode != .process) 1 p.jobs g
  ({ jobs, warnings := p.warnings, control := p.draft.control }, g)

end RenderFarm.Compile
