import RenderFarm.Proofs.Execution.Delivery
import RenderFarm.Proofs.Number

/-!
A job on a device in order succeeds, with the one exception of a job that keeps the images that it renders beside
their enlargements: it puts each image away before it reads it again.
-/

namespace RenderFarm

/-- What was done between two moments. -/
def Site.since {σ : Type} (s s' : Site σ) : List Deed :=
  s'.deeds.drop s.deeds.length

/-! ## Settled jobs -/

section Settle

variable {γ : Type} [Generator γ] {fs : FileSystem} {job settled : Job} {g g' : γ}

theorem Random.mem_of_choose {α : Type} {xs : List α} {x : α} (chosen : Random.choose xs g = (some x, g')) :
    x ∈ xs := by
  unfold Random.choose at chosen
  split at chosen
  · cases chosen
  · injection chosen with here _
    exact List.mem_of_getElem? here

/-- An image that is picked is a file. -/
theorem Image.isFile_of_pick {dir path : Path} (picked : Image.pick fs dir g = (some path, g')) :
    fs.isFile path := by
  unfold Image.pick at picked
  split at picked
  · rename_i images listed
    have mem := Random.mem_of_choose picked
    unfold Image.list at listed
    split at listed
    · split at listed
      · cases listed
      · cases listed
        rw [List.mem_mergeSort, List.mem_filter, Bool.and_eq_true] at mem
        exact mem.2.1
    · cases listed
  · cases picked

/-- Settling a job fixes its ranges, and its input image may be one from its directory. -/
theorem Job.settle_eq (done : job.settle fs g = some (settled, g')) :
    ∃ steps scale strength, ∃ image : Option Path, (∀ path ∈ image, fs.isFile path) ∧
      (job.randomInputDir = none → image = none) ∧
      settled = { job with steps, scale, strength, inputImage := image.or job.inputImage } := by
  unfold Job.settle at done
  generalize job.steps.settle g = drawn at done
  obtain ⟨⟨scale, g₂⟩, _, done⟩ := Option.bind_eq_some_iff.mp done
  obtain ⟨⟨strength, g₃⟩, _, done⟩ := Option.bind_eq_some_iff.mp done
  dsimp only at done
  cases done
  -- The path comes from a directory, if the job names one.
  refine ⟨_, _, _, _, fun path chosen => ?_, fun none => ?_, rfl⟩
  · split at chosen
    · exact Image.isFile_of_pick (Prod.ext chosen rfl)
    · cases chosen
  · rw [none]

/-- A job that leaves neither its scale nor its strength to chance can be settled. -/
theorem Job.exists_settle {x y : Float} (scale : job.scale = .fixed x) (strength : job.strength = .fixed y) :
    ∃ r, job.settle fs g = some r := by
  have fixed : ∀ z : Float, (Range.fixed z).isFixed := fun z => by
    simp [Range.isFixed, Range.fixed, Quantity.less, Double.lt_irrefl]
  simp [Job.settle, Range.settle?, scale, strength, fixed]

/-- A job names no other files once it is settled, but perhaps one that was picked. -/
theorem Job.isFile_of_settle (done : job.settle fs g = some (settled, g'))
    (named : ∀ path ∈ job.inputFiles, fs.isFile path) : ∀ path ∈ settled.inputFiles, fs.isFile path := by
  obtain ⟨steps, scale, strength, image, picked, _, rfl⟩ := Job.settle_eq done
  intro path mem
  unfold Job.inputFiles at mem
  rw [List.mem_append, Option.mem_toList, Option.mem_toList] at mem
  obtain input | control := mem
  · cases image with
    | none =>
      have input : job.inputImage = some path := input
      exact named path (by simp [Job.inputFiles, input])
    | some chosen => exact picked path input
  · have control : job.controlNet.inputImage = some path := control
    exact named path (by simp [Job.inputFiles, control])

theorem Job.losesSource_of_settle (done : job.settle fs g = some (settled, g')) :
    settled.losesSource = job.losesSource := by
  obtain ⟨steps, scale, strength, image, _, _, rfl⟩ := Job.settle_eq done
  rfl

end Settle

namespace Execution

open Work (Grows OnlyLogs)

variable {σ : Type} {d : Renderer σ} {ctx : ExecutionContext} {now : Instant} {elapsed : Nat} {job : Job}
  {s : Site σ}

theorem grows_course : Grows (course d ctx now job) :=
  .bind onlyLogs_noteMissingInput.grows fun _ => .bind (grows_ensureModel _) fun _ => grows_produce _ _

/-- Clearing the scratch folder concerns the files and the log only. -/
theorem site_tidy (d : Renderer σ) (s : Site σ) :
    ∃ files log, ((tidy d).perform s).2 = { s with files, log } := by
  unfold tidy
  rw [Work.perform_bind_of_ok (Work.perform_get s)]
  split
  · exact ⟨_, s.log, rfl⟩
  · exact ⟨s.files, _, rfl⟩

/-- The site at which the course of a job begins. -/
def begun (d : Renderer σ) (job : Job) (s : Site σ) : Site σ :=
  ((Work.note d .info "Starting job" [("job", .number job.sequence), ("prompt", .shown job.prompt)]).perform s).2

theorem result_run : (run d ctx now elapsed job s).1.result =
    ((course d ctx now job).perform (begun d job s)).1.mapError JobError.message := rfl

/-- What comes after the course of a job concerns the files and the log only. -/
theorem site_run (d : Renderer σ) (ctx : ExecutionContext) (now : Instant) (elapsed : Nat) (job : Job)
    (s : Site σ) : ∃ files log, (run d ctx now elapsed job s).2 =
    { ((course d ctx now job).perform (begun d job s)).2 with files, log } := by
  obtain ⟨files, log, tidied⟩ := site_tidy d ((course d ctx now job).perform (begun d job s)).2
  unfold run
  dsimp only
  split
  all_goals
    change ∃ files log, ((Work.note d _ _ _).perform
      ((tidy d).perform ((course d ctx now job).perform (begun d job s)).2).2).2 = _
    rw [tidied]
    exact ⟨files, _, rfl⟩

theorem deeds_course : ((course d ctx now job).perform (begun d job s)).2.deeds =
    (begun d job s).deeds ++ s.since (run d ctx now elapsed job s).2 := by
  obtain ⟨files, log, same⟩ := site_run d ctx now elapsed job s
  unfold Site.since
  rw [same]
  exact (List.prefix_iff_eq_append.mp (grows_course (begun d job s))).symm

/-- A settled job on a device in order succeeds, unless it puts images away before they are enlarged. -/
theorem run_delivers (named : ∀ path ∈ job.inputFiles, s.files.isFile path)
    (sourced : job.rendersPrimary ∨ job.inputImage.isSome) (stays : ¬ job.losesSource)
    (healthy : ∀ deed ∈ s.since (run d ctx now elapsed job s).2, deed.Healthy d.scratchDir) :
    ∃ paths, (run d ctx now elapsed job s).1.result = .ok paths ∧
      Delivered job ctx.outputRoot now (s.since (run d ctx now elapsed job s).2) paths := by
  obtain ⟨paths, result, delivered⟩ :=
    succeeds_course (s := begun d job s) named sourced stays now _ deeds_course healthy
  refine ⟨paths, ?_, delivered⟩
  rw [result_run, result]
  rfl

/-- A settled job that keeps its images beside their enlargements fails on a device in order. -/
theorem run_loses (named : ∀ path ∈ job.inputFiles, s.files.isFile path) (loses : job.losesSource)
    (healthy : ∀ deed ∈ s.since (run d ctx now elapsed job s).2, deed.HealthyOutside d.scratchDir) :
    ∃ image images r before after,
      .dispatch r before (.ok (image :: images)) after ∈ s.since (run d ctx now elapsed job s).2 ∧
        (run d ctx now elapsed job s).1.result =
          .error (JobError.unreadable image.path .notFound).message := by
  obtain ⟨e, result, image, images, r, before, after, sent, rfl⟩ :=
    fails_course (s := begun d job s) loses named now _ deeds_course healthy
  refine ⟨image, images, r, before, after, sent, ?_⟩
  rw [result_run, result]
  rfl

end Execution

open Execution (run)

/-- A job that names files that are there, and that has an input image unless it renders, is executed on a device
in order. It is executed as soon as it can be settled. It succeeds unless it puts images away before they are
enlarged, and its images are then those that are put into the output tree, for one image after the other; and
otherwise it fails, as long as the output tree keeps out of the scratch folder. -/
theorem execute_of_healthy {σ γ : Type} [Generator γ] (d : Renderer σ) (ctx : ExecutionContext) (now : Instant)
    (elapsed : Nat) (job : Job) (s : Site σ) (g : γ) (named : ∀ path ∈ job.inputFiles, s.files.isFile path)
    (sourced : ∀ r ∈ job.settle s.files g, r.1.rendersPrimary ∨ r.1.inputImage.isSome)
    (healthy : ∀ r ∈ execute d ctx now elapsed job s g, ∀ deed ∈ s.since r.1.2, deed.Healthy d.scratchDir) :
    (job.settle s.files g = none → execute d ctx now elapsed job s g = none) ∧
      ∀ settled g', job.settle s.files g = some (settled, g') →
        ∃ report s', execute d ctx now elapsed job s g = some ((report, s'), g') ∧
          (¬ job.losesSource →
            report.success ∧ Delivered settled ctx.outputRoot now (s.since s') report.outputs) ∧
          (job.losesSource → (∀ deed ∈ s.since s', deed.Avoids d.scratchDir) →
            ∃ image images r before after, .dispatch r before (.ok (image :: images)) after ∈ s.since s' ∧
              report.result = .error (JobError.unreadable image.path .notFound).message) := by
  constructor
  · intro unsettled
    rw [execute, unsettled]
    rfl
  · intro settled g' done
    have executed : execute d ctx now elapsed job s g = some (run d ctx now elapsed settled s, g') := by
      rw [execute, done]
      rfl
    have named' := Job.isFile_of_settle done named
    have healthy' := healthy _ executed
    refine ⟨(run d ctx now elapsed settled s).1, (run d ctx now elapsed settled s).2, executed,
      fun stays => ?_, fun loses outside => ?_⟩
    · rw [← Job.losesSource_of_settle done] at stays
      obtain ⟨paths, result, delivered⟩ := Execution.run_delivers named' (sourced _ done) stays healthy'
      rw [JobReport.success, JobReport.outputs, result]
      exact ⟨rfl, delivered⟩
    · rw [← Job.losesSource_of_settle done] at loses
      exact Execution.run_loses named' loses fun deed mem => ⟨healthy' deed mem, outside deed mem⟩

/-! ## A device that numbers its images -/

namespace Execution

/-- A device that puts an empty image into its scratch folder, whatever it is asked for. -/
def studio : Renderer Nat where
  id := "0"
  scratchDir := ⟨"scratch"⟩
  loadedModel _ := none
  dispatch _ n fs :=
    let path : Path := ⟨"scratch/" ++ toString n ++ ".png"⟩
    match fs.write path ⟨#[]⟩ with
    | .ok fs => (.ok [{ path }], n + 1, fs)
    | .error _ => (.error .emptyResponse, n, fs)
  loadModel _ n := (.ok (), n)

/-- The device before its first image. -/
def emptyStudio : Site Nat where
  device := 0
  files := ⟨[(["scratch"], .directory)], []⟩

/-- A job that renders an image and enlarges it, and that may keep the image. -/
def enlargingJob (keeps : Bool) : Job where
  upscale := { enabled := true, keepSource := keeps }
  filename := some "castle"

/-- What is drawn for a job when it is settled. -/
def drawn (job : Job) : Job :=
  ((job.settle emptyStudio.files (⟨0⟩ : SplitMix)).map (·.1)).getD job

/-- Settling a job that picks no image fixes its ranges and nothing else. -/
theorem settle_eq_drawn {job settled : Job} {g' : SplitMix} (plain : job.randomInputDir = none)
    (done : job.settle emptyStudio.files (⟨0⟩ : SplitMix) = some (settled, g')) :
    settled =
      { job with steps := (drawn job).steps, scale := (drawn job).scale, strength := (drawn job).strength } := by
  have drew : drawn job = settled := by
    rw [drawn, done]
    rfl
  obtain ⟨steps, scale, strength, image, _, none, same⟩ := Job.settle_eq done
  rw [drew, same, none plain]
  rfl

theorem healthy_enlargingJob : ∀ r ∈ execute studio {} ⟨0, 0⟩ 0 (enlargingJob false) emptyStudio (⟨0⟩ : SplitMix),
    ∀ deed ∈ emptyStudio.since r.1.2, deed.Healthy studio.scratchDir := by
  intro r executed
  rw [Option.mem_def, execute] at executed
  obtain ⟨⟨settled, g'⟩, done, executed⟩ := Option.bind_eq_some_iff.mp executed
  cases executed
  rw [settle_eq_drawn rfl done]
  dsimp only
  decide +kernel

end Execution

open Execution (studio emptyStudio enlargingJob)

/-- An image that is enlarged and not kept is delivered. -/
theorem studio_delivers :
    (∀ path ∈ (enlargingJob false).inputFiles, emptyStudio.files.isFile path) ∧
      (∀ r ∈ (enlargingJob false).settle emptyStudio.files (⟨0⟩ : SplitMix),
        r.1.rendersPrimary ∨ r.1.inputImage.isSome) ∧
      (∀ r ∈ execute studio {} ⟨0, 0⟩ 0 (enlargingJob false) emptyStudio (⟨0⟩ : SplitMix),
        ∀ deed ∈ emptyStudio.since r.1.2, deed.Healthy studio.scratchDir) ∧
      ∀ settled g', (enlargingJob false).settle emptyStudio.files (⟨0⟩ : SplitMix) = some (settled, g') →
        ∃ report s',
          execute studio {} ⟨0, 0⟩ 0 (enlargingJob false) emptyStudio (⟨0⟩ : SplitMix) = some ((report, s'), g') ∧
            report.success ∧ Delivered settled ⟨"output"⟩ ⟨0, 0⟩ (emptyStudio.since s') report.outputs := by
  have named : ∀ path ∈ (enlargingJob false).inputFiles, emptyStudio.files.isFile path := by decide
  have sourced : ∀ r ∈ (enlargingJob false).settle emptyStudio.files (⟨0⟩ : SplitMix),
      r.1.rendersPrimary ∨ r.1.inputImage.isSome := by
    rintro ⟨settled, g'⟩ done
    rw [Execution.settle_eq_drawn rfl done]
    exact .inl rfl
  refine ⟨named, sourced, Execution.healthy_enlargingJob, fun settled g' done => ?_⟩
  obtain ⟨report, s', executed, delivered, _⟩ := (execute_of_healthy studio {} ⟨0, 0⟩ 0 (enlargingJob false)
    emptyStudio (⟨0⟩ : SplitMix) named sourced Execution.healthy_enlargingJob).2 settled g' done
  exact ⟨report, s', executed, delivered (by decide)⟩

/-- An image that is kept is gone when it is to be enlarged, although all went well until then. -/
theorem studio_loses_kept_image :
    let r := Execution.run studio {} ⟨0, 0⟩ 0 (enlargingJob true) emptyStudio
    (∀ deed ∈ emptyStudio.since r.2, deed.Healthy studio.scratchDir ∧ deed.Avoids studio.scratchDir) ∧
      r.1.success = false ∧
      r.1.error? = some "failed to read scratch/0.png: No such file or directory (os error 2)" := by
  decide +kernel

end RenderFarm
