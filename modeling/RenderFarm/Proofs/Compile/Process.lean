import RenderFarm.Proofs.Compile.Mode
import RenderFarm.Proofs.Files.Names

/-!
What compiling in process mode comes to. Every row makes one job for each of its source images, from the draft as the
directives before the row leave it and from the record beside the image; the jobs stay in this order, or they are
sorted by the checkpoints that the records name. What is warned about on the way decides nothing.
-/

namespace RenderFarm

/-! ## Records -/

namespace Compile

variable {γ : Type} [Generator γ] {ctx : Context} {fs : FileSystem}

/-! ## Sources -/

/-- The source images that an input image stands for: those of a directory, or the image itself, if there is any. -/
def sourcesOf (fs : FileSystem) (input : Option Path) : List Path :=
  match input with
  | none => []
  | some path => if fs.isDirectory path then Image.found fs path else if fs.isFile path then [path] else []

/-- The copy of a job for a source image, with the checkpoint that the image was made with. Where the record of the
image reads, the prompts and the seed are those of the record. -/
def copyFor (fs : FileSystem) (job : Job) (source : Path) : Job × Option String :=
  let record? := (ImageRecord.read fs source).toOption
  ({ job with
      prompt := (record?.map ImageRecord.prompt).getD job.prompt
      negativePrompt := (record?.map ImageRecord.negativePrompt).getD job.negativePrompt
      seed := (record?.map ImageRecord.seed).getD job.seed
      inputImage := some source },
    record?.bind ImageRecord.modelName?)

/-- The drafts that the rows are made from: each is the one after all directives before its row. -/
def rowsOf (caps : Capabilities) (d : Draft) (tokens : List String) : List Draft :=
  (List.range tokens.length).filterMap fun i =>
    if tokens[i]? = some rowMarker then
      some (draftAfter caps d ((tokens.take i).filterMap Directive.parseEmbedded?))
    else none

/-- The jobs of all rows, each with the checkpoint that its source image was made with. -/
def sourced (ctx : Context) (d : Draft) (tokens : List String) : List (Job × Option String) :=
  (rowsOf ctx.capabilities d tokens).flatMap fun d =>
    (sourcesOf ctx.files d.job.inputImage).map (copyFor ctx.files d.job)

/-- The jobs for the sources in the order in which they are made: sorted by the checkpoints of the sources, which they
take then, or as they come. -/
def inOrder (u : Upscale) (sourced : List (Job × Option String)) : List Job :=
  if groupsByModel u then (sourced.mergeSort sourceLe).map adoptModel else sourced.map Prod.fst

end Compile

end RenderFarm
