import RenderFarm.Proofs.Execution.Remains
import RenderFarm.Proofs.Execution.Success

/-!
Every job that can be settled ends cleanly, whatever its device answers. Its scratch folder is left without files,
its input image is still there, and what it has added outside the scratch folder are its images and their records in
the output tree. A job whose ranges cannot be settled does not end at all.
-/

namespace RenderFarm

/-! ## Records are no images -/

/-- What is at the place of a record is no image. -/
theorem Output.Spot.not_isImage {fs : FileSystem} {path : Path} {spot : Spot}
    (leads : fs.locate path = .ok (spot.file "json")) : ¬ Image.isImage path := by
  unfold Image.isImage Path.extension? Path.fileName?
  cases last : path.components.getLast? with
  | none => simp
  | some c =>
    cases c with
    | root | here | up => simp
    | name s =>
      obtain ⟨front, components⟩ := List.getLast?_eq_some_iff.mp last
      have walked := FileSystem.walk_of_locate leads
      rw [components] at walked
      obtain ⟨dir, _, _, steps⟩ := FileSystem.walk_concat walked
      have name : s = spot.name ++ "." ++ "json" := by
        have ends := congrArg List.getLast? (FileSystem.stepFrom_name steps)
        simpa only [file, List.getLast?_concat, Option.some.injEq] using ends.symm
      dsimp only [Option.bind_some]
      by_cases empty : spot.name = ""
      · rw [name, empty]
        decide
      · rw [name, Path.splitName_of_dot empty (by decide)]
        dsimp only
        decide

namespace Commission

variable {c : Commission} {fs fs' : FileSystem}

/-- An image outside the scratch folder is read as before. -/
theorem Leaves.read {path : Path} {l : Location} {bytes : ByteArray} (left : c.Leaves fs fs')
    (image : Image.isImage path) (leads : fs.locate path = .ok l) (outside : ¬ fs'.isBelow c.scratch l)
    (read : fs.read path = .ok bytes) : fs'.read path = .ok bytes := by
  obtain ⟨k, leads', there, plain⟩ := FileSystem.read_eq_ok_iff.mp read
  cases leads.symm.trans leads'
  obtain still | ⟨spot, rfl⟩ := left.old l bytes outside there
  · exact FileSystem.read_eq_ok_iff.mpr ⟨l, left.ways.locate leads, still, plain⟩
  · exact absurd image (Output.Spot.not_isImage leads)

end Commission

/-! ## Reports -/

namespace JobReport

theorem success_iff (r : JobReport) : r.success ↔ r.error? = none := by
  unfold success error?
  cases r.result <;> simp [Except.isOk, Except.toBool]

theorem outputs_of_not_success {r : JobReport} (failed : ¬ r.success) : r.outputs = [] := by
  unfold success at failed
  unfold outputs
  cases result : r.result with
  | ok paths => simp [result, Except.isOk, Except.toBool] at failed
  | error e => rfl

end JobReport

/-! ## The end of a job -/

namespace Execution

variable {σ : Type} {d : Renderer σ} {ctx : ExecutionContext} {now : Instant} {elapsed : Nat} {job : Job}
  {s : Site σ} {c : Commission}

/-- Clearing the scratch folder leaves no files in it and all else as it is. -/
theorem leaves_tidy (d : Renderer σ) (s : Site σ) (scratch : c.scratch = d.scratchDir) :
    c.Leaves s.files ((tidy d).perform s).2.files ∧ ((tidy d).perform s).2.files.HasNoFileIn d.scratchDir := by
  unfold tidy
  rw [Work.perform_bind_of_ok (Work.perform_get s)]
  unfold Output.clearScratch
  cases removed : s.files.removeFilesIn d.scratchDir with
  | ok fs =>
    obtain ⟨ways, same, none⟩ := FileSystem.left_of_removeFilesIn removed
    refine ⟨.of_outside ways fun l bytes outside => ?_, none⟩
    rw [scratch] at outside
    exact Iff.of_eq (congrArg (· = _) (same l outside))
  | error fault =>
    -- There is no such directory, so there is nothing to clear.
    have none : s.files.HasNoFileIn d.scratchDir := by
      intro place leads there
      rw [FileSystem.holdsDirectory_iff] at there
      simp [FileSystem.removeFilesIn, leads, there, bind, Except.bind] at removed
    cases fault <;> exact ⟨.refl c _, none⟩

/-- What is logged at the end leaves the files as they are. -/
theorem files_run : (run d ctx now elapsed job s).2.files =
    ((tidy d).perform ((course d ctx now job).perform (begun d job s)).2).2.files := by
  unfold run
  dsimp only
  split <;> rfl

/-- What a settled job leaves behind on a device that keeps to its scratch folder. -/
theorem leaves_run
    (confined : ∀ deed ∈ s.since (run d ctx now elapsed job s).2, deed.Confined d.scratchDir) :
    (⟨d.scratchDir, ctx, job, now, s.since (run d ctx now elapsed job s).2⟩ : Commission).Leaves s.files
        (run d ctx now elapsed job s).2.files ∧
      (run d ctx now elapsed job s).2.files.HasNoFileIn d.scratchDir := by
  let c : Commission := ⟨d.scratchDir, ctx, job, now, s.since (run d ctx now elapsed job s).2⟩
  obtain ⟨left, -⟩ := leaves_course (d := d) (c := c) (s := begun d job s) _ deeds_course
    fun deed mem => ⟨mem, confined deed mem⟩
  obtain ⟨tidied, none⟩ :=
    leaves_tidy (c := c) d ((course d ctx now job).perform (begun d job s)).2 rfl
  rw [files_run]
  exact ⟨left.trans tidied, none⟩

end Execution

open Execution (run)

/-- **Jobs end cleanly.** A job is executed on a device that writes into its scratch folder only. Unless it cannot be
settled, it ends, however the device answers: there are no files in the scratch folder then; an input image outside
of it is read as before; what the job has added outside of it are its images, in the folder of the output tree that
they belong to, and their records beside them; and it has outputs only if it has succeeded, which is when it reports
no error. -/
theorem execute_ends_cleanly {σ γ : Type} [Generator γ] (d : Renderer σ) (ctx : ExecutionContext) (now : Instant)
    (elapsed : Nat) (job : Job) (s : Site σ) (g : γ)
    (confined : ∀ r ∈ execute d ctx now elapsed job s g, ∀ deed ∈ s.since r.1.2, deed.Confined d.scratchDir) :
    (job.settle s.files g = none → execute d ctx now elapsed job s g = none) ∧
      ∀ settled g', job.settle s.files g = some (settled, g') →
        ∃ report s', execute d ctx now elapsed job s g = some ((report, s'), g') ∧
          s'.files.HasNoFileIn d.scratchDir ∧
          (∀ path ∈ settled.inputImage, Image.isImage path → ∀ l, s.files.locate path = .ok l →
            ¬ s'.files.isBelow d.scratchDir l → ∀ bytes, s.files.read path = .ok bytes →
              s'.files.read path = .ok bytes) ∧
          (∀ l bytes, ¬ s'.files.isBelow d.scratchDir l → s'.files.get? l = some (.file bytes) →
            s.files.get? l = some (.file bytes) ∨
              (⟨d.scratchDir, ctx, settled, now, s.since s'⟩ : Commission).Puts s'.files l bytes) ∧
          (report.success ↔ report.error? = none) ∧ (¬ report.success → report.outputs = []) := by
  constructor
  · intro unsettled
    rw [execute, unsettled]
    rfl
  · intro settled g' done
    have executed : execute d ctx now elapsed job s g = some (run d ctx now elapsed settled s, g') := by
      rw [execute, done]
      rfl
    obtain ⟨left, none⟩ := Execution.leaves_run (confined _ executed)
    refine ⟨_, _, executed, none, fun path _ image l leads outside bytes read => ?_, left.new,
      JobReport.success_iff _, JobReport.outputs_of_not_success⟩
    exact left.read image leads outside read

/-! ## A scratch folder with a file left over -/

namespace Execution

/-- The device, with an old file in its scratch folder and an image elsewhere. -/
def litteredStudio : Site Nat where
  device := 0
  files := ⟨[(["scratch"], .directory), (["scratch", "left.png"], .file "left".toUTF8),
    (["scratch", "sub"], .directory), (["castle.png"], .file "castle".toUTF8)], []⟩

/-- A job that renders from an image, keeps what it renders and enlarges it. -/
def repaintingJob : Job :=
  { enlargingJob true with inputImage := some ⟨"castle.png"⟩ }

/-- A job without an input image, with a scale that was given bounds which are infinitely far apart. -/
def unsettledJob : Job where
  mode := .process
  scale := ((Range.fixed (7.5 : Float)).setMin (-1e308)).setMax 1e308

end Execution

open Execution (studio litteredStudio repaintingJob unsettledJob)

/-- The job fails when an image is put away already. It ends cleanly all the same. -/
theorem studio_fails_cleanly :
    (∀ r ∈ execute studio {} ⟨0, 0⟩ 0 repaintingJob litteredStudio (⟨0⟩ : SplitMix),
      ∀ deed ∈ litteredStudio.since r.1.2, deed.Confined studio.scratchDir) ∧
    ∃ settled report s' g',
      execute studio {} ⟨0, 0⟩ 0 repaintingJob litteredStudio (⟨0⟩ : SplitMix) = some ((report, s'), g') ∧
        s'.files.isFile ⟨"output/1970-01-01-adhoc/original/castle.png"⟩ ∧ ¬ report.success ∧ report.outputs = [] ∧
        s'.files.HasNoFileIn studio.scratchDir ∧ s'.files.read ⟨"castle.png"⟩ = .ok "castle".toUTF8 ∧
        ∀ l bytes, ¬ s'.files.isBelow studio.scratchDir l → s'.files.get? l = some (.file bytes) →
          litteredStudio.files.get? l = some (.file bytes) ∨
            (⟨studio.scratchDir, {}, settled, ⟨0, 0⟩, litteredStudio.since s'⟩ : Commission).Puts s'.files l bytes := by
  have confined : ∀ r ∈ execute studio {} ⟨0, 0⟩ 0 repaintingJob litteredStudio (⟨0⟩ : SplitMix),
      ∀ deed ∈ litteredStudio.since r.1.2, deed.Confined studio.scratchDir := by
    decide +kernel
  have stopped : ∀ r ∈ execute studio {} ⟨0, 0⟩ 0 repaintingJob litteredStudio (⟨0⟩ : SplitMix),
      r.1.2.files.isFile ⟨"output/1970-01-01-adhoc/original/castle.png"⟩ ∧ ¬ r.1.1.success ∧
        ¬ r.1.2.files.isBelow studio.scratchDir ["castle.png"] := by
    decide +kernel
  have settles : ∃ r, repaintingJob.settle litteredStudio.files (⟨0⟩ : SplitMix) = some r :=
    Job.exists_settle rfl rfl
  obtain ⟨⟨settled, g'⟩, done⟩ := settles
  obtain ⟨report, s', executed, clean, input, new, -, outputs⟩ := (execute_ends_cleanly studio {} ⟨0, 0⟩ 0
    repaintingJob litteredStudio (⟨0⟩ : SplitMix) confined).2 settled g' done
  obtain ⟨put, failed, outside⟩ := stopped _ executed
  have named : settled.inputImage = some ⟨"castle.png"⟩ := by
    obtain ⟨_, _, _, image, _, none, rfl⟩ := Job.settle_eq done
    rw [none rfl]
    rfl
  refine ⟨confined, settled, report, s', g', executed, put, failed, outputs failed, clean, ?_, new⟩
  exact input _ named (by decide) ["castle.png"] (by decide +kernel) outside _ (by decide +kernel)

/-- A job that cannot be settled never ends, and the scratch folder keeps its file. -/
theorem studio_abandons_unsettled_job :
    execute studio {} ⟨0, 0⟩ 0 unsettledJob litteredStudio (⟨0⟩ : SplitMix) = none ∧
      litteredStudio.files.read ⟨"scratch/left.png"⟩ = .ok "left".toUTF8 := by
  refine ⟨?_, by decide +kernel⟩
  rw [← Option.isNone_iff_eq_none]
  decide +kernel

end RenderFarm
