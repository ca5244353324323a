import RenderFarm.Proofs.Compile.Reads
import RenderFarm.Proofs.Directive.Independence

/-!
What depends on the checkpoints of jobs: nothing else. Two passes that differ in the checkpoints of their jobs only
go on to do so, and a relation between the checkpoints of the one and of the other holds on as long as the
directives among the tokens keep it. No pass looks at a checkpoint to decide anything, so the checkpoints of a sweep
show in the jobs and nowhere else, and they stay there unless a directive puts others in their place.
-/

namespace RenderFarm

/-- The checkpoint of a job, and the one of its second pass. -/
abbrev Checkpoints := Option String × Option String

namespace Job

/-- The checkpoints of a job. -/
def checkpoints (job : Job) : Checkpoints :=
  (job.checkpoint, job.highres.checkpoint)

/-- The job with other checkpoints. -/
def withCheckpoints (job : Job) (c : Checkpoints) : Job :=
  { job with checkpoint := c.1, highres := { job.highres with checkpoint := c.2 } }

/-- A job without its checkpoints: all that is left when they are put aside. -/
def bare (job : Job) : Job :=
  job.withCheckpoints (none, none)

/-- The same job with checkpoints that are related to its own. -/
inductive Kin (S : Checkpoints → Checkpoints → Prop) (job : Job) : Job → Prop where
  | mk (c : Checkpoints) (related : S job.checkpoints c) : Kin S job (job.withCheckpoints c)

theorem Kin.bare {S : Checkpoints → Checkpoints → Prop} {a b : Job} (h : Kin S a b) : a.bare = b.bare := by
  obtain ⟨c, related⟩ := h
  rfl

theorem Kin.related {S : Checkpoints → Checkpoints → Prop} {a b : Job} (h : Kin S a b) :
    S a.checkpoints b.checkpoints := by
  obtain ⟨c, related⟩ := h
  exact related

/-- Related in any way at all, jobs are the same but for their checkpoints. -/
theorem kin_iff_bare {a b : Job} : Kin (fun _ _ => True) a b ↔ a.bare = b.bare := by
  refine ⟨Kin.bare, fun same => ?_⟩
  have restored : b = a.withCheckpoints b.checkpoints :=
    congrArg (fun job => job.withCheckpoints b.checkpoints) same.symm
  rw [restored]
  exact ⟨_, trivial⟩

end Job

/-- The checkpoints of a sweep in the place of others, where it has them. -/
def SweepOverrides.over (o : SweepOverrides) (c : Checkpoints) : Checkpoints :=
  (o.checkpoint.or c.1, o.highresCheckpoint.or c.2)

/-- The same draft with checkpoints of its job that are related to its own. -/
inductive Draft.Kin (S : Checkpoints → Checkpoints → Prop) (d : Draft) : Draft → Prop where
  | mk (c : Checkpoints) (related : S d.job.checkpoints c) : Kin S d { d with job := d.job.withCheckpoints c }

variable {S : Checkpoints → Checkpoints → Prop}

theorem Draft.Kin.job {a b : Draft} (h : Kin S a b) : Job.Kin S a.job b.job := by
  obtain ⟨c, related⟩ := h
  exact ⟨c, related⟩

theorem Draft.Kin.control {a b : Draft} (h : Kin S a b) : a.control = b.control := by
  obtain ⟨c, related⟩ := h
  rfl

/-! ## Directives -/

/-- What a change makes of the checkpoints of the draft's job. -/
def Change.renew : Change → Checkpoints → Checkpoints
  | .checkpoint first _, c => (first, c.2)
  | .highresCheckpoint first _, c => (c.1, first)
  | _, c => c

theorem checkpoints_make (m : Change) (d : Draft) : (m.make d).job.checkpoints = m.renew d.job.checkpoints := by
  cases m with
  | job c => cases c <;> rfl
  | highres c => cases c <;> rfl
  | _ => rfl

/-- A change does to a job what it does, whatever the checkpoints are. -/
theorem make_withCheckpoints (m : Change) (d : Draft) (c : Checkpoints) :
    m.make { d with job := d.job.withCheckpoints c } =
      { m.make d with job := (m.make d).job.withCheckpoints (m.renew c) } := by
  cases m with
  | job m => cases m <;> rfl
  | highres m => cases m <;> rfl
  | _ => rfl

/-- A directive keeps a relation between checkpoints: it holds still when the directive is given on both sides. -/
def Directive.Keeps (S : Checkpoints → Checkpoints → Prop) (caps : Capabilities) (d : Directive) : Prop :=
  ∀ m report, change caps d.key d.value = .ok (m, report) → ∀ a b, S a b → S (m.renew a) (m.renew b)

theorem apply_kin {caps : Capabilities} {d : Directive} (keeps : d.Keeps S caps) {a b : Draft} (h : a.Kin S b) :
    (Directive.apply caps d.key d.value a).1.Kin S (Directive.apply caps d.key d.value b).1 := by
  obtain ⟨c, related⟩ := h
  cases read : Directive.change caps d.key d.value with
  | error e =>
    rw [Directive.apply_of_error _ read, Directive.apply_of_error _ read]
    exact ⟨c, related⟩
  | ok p =>
    rw [Directive.apply_of_change _ read, Directive.apply_of_change _ read]
    dsimp only
    rw [make_withCheckpoints]
    refine ⟨_, ?_⟩
    rw [checkpoints_make]
    exact keeps p.1 p.2 read _ _ related

namespace Compile

/-- A round of a sweep: its checkpoints, its loop and its seed offset. -/
structure Round where
  overrides : SweepOverrides
  loopIndex : UInt32
  seedOffset : Int64

/-- The context of a round. -/
abbrev Context.round (ctx : Context) (r : Round) : Context :=
  { ctx with overrides := r.overrides, loopIndex := r.loopIndex, seedOffset := r.seedOffset }

/-- The round of a context with other checkpoints. -/
abbrev Context.resweep (ctx : Context) (o : SweepOverrides) : Round :=
  ⟨o, ctx.loopIndex, ctx.seedOffset⟩

/-- The same pass with related checkpoints in its draft and its jobs. -/
structure Pass.Kin (S : Checkpoints → Checkpoints → Prop) (p q : Pass) : Prop where
  draft : p.draft.Kin S q.draft
  jobs : List.Forall₂ (Job.Kin S) p.jobs q.jobs
  warnings : p.warnings = q.warnings
  imageDirs : p.imageDirs = q.imageDirs

variable {p q : Pass} {ctx : Context} {r : Round}

theorem Pass.Kin.warn (h : p.Kin S q) (message : String) : (p.warn message).Kin S (q.warn message) :=
  ⟨h.draft, h.jobs, congrArg (· ++ [message]) h.warnings, h.imageDirs⟩

theorem Pass.Kin.emit (h : p.Kin S q) {jobs jobs' : List Job} (kin : List.Forall₂ (Job.Kin S) jobs jobs') :
    (p.emit jobs).Kin S (q.emit jobs') :=
  ⟨h.draft, List.rel_append h.jobs kin, h.warnings, h.imageDirs⟩

theorem Pass.Kin.direct {caps : Capabilities} {d : Directive} (h : p.Kin S q) (keeps : d.Keeps S caps) :
    (p.direct caps d).Kin S (q.direct caps d) := by
  have draft := apply_kin keeps h.draft
  have report := @Directive.report_apply caps d.key d.value p.draft q.draft
  unfold Pass.direct
  generalize Directive.apply caps d.key d.value p.draft = applied at draft report ⊢
  generalize Directive.apply caps d.key d.value q.draft = applied' at draft report ⊢
  obtain ⟨a, e⟩ := applied
  obtain ⟨b, e'⟩ := applied'
  obtain rfl : e = e' := report
  have directed : ({ p with draft := a } : Pass).Kin S { q with draft := b } :=
    ⟨draft, h.jobs, h.warnings, h.imageDirs⟩
  cases e with
  | none => exact directed
  | some e => exact directed.warn e.message

theorem Pass.Kin.directs {caps : Capabilities} {directives : List Directive} (h : p.Kin S q)
    (keeps : ∀ d ∈ directives, d.Keeps S caps) :
    (directives.foldl (fun p d => p.direct caps d) p).Kin S (directives.foldl (fun p d => p.direct caps d) q) := by
  induction directives generalizing p q with
  | nil => exact h
  | cons d rest ih =>
    obtain ⟨first, later⟩ := List.forall_mem_cons.mp keeps
    rw [List.foldl_cons, List.foldl_cons]
    exact ih (h.direct first) later

/-! ## Images -/

theorem images_kin (h : p.Kin S q) (fs : FileSystem) (dir : Path) :
    (p.images fs dir).1 = (q.images fs dir).1 ∧ (p.images fs dir).2.Kin S (q.images fs dir).2 := by
  obtain ⟨draft, jobs, warnings, dirs⟩ := p
  obtain ⟨draft', jobs', warnings', dirs'⟩ := q
  obtain rfl : warnings = warnings' := h.warnings
  obtain rfl : dirs = dirs' := h.imageDirs
  unfold Pass.images
  dsimp only
  split
  · exact ⟨rfl, h.draft, h.jobs, rfl, rfl⟩
  · cases Image.list fs dir with
    | ok found =>
      dsimp only
      split <;> exact ⟨rfl, h.draft, h.jobs, rfl, rfl⟩
    | error e => exact ⟨rfl, h.draft, h.jobs, rfl, rfl⟩

theorem imageChoices_kin (h : p.Kin S q) (fs : FileSystem) (setting : Option Path) :
    (p.imageChoices fs setting).1 = (q.imageChoices fs setting).1 ∧
      (p.imageChoices fs setting).2.Kin S (q.imageChoices fs setting).2 := by
  unfold Pass.imageChoices
  cases setting.filter fs.isDirectory with
  | none => exact ⟨rfl, h⟩
  | some dir =>
    obtain ⟨same, kin⟩ := images_kin h fs dir
    exact ⟨congrArg (List.map some) same, kin⟩

theorem expandImages_kin {job job' : Job} (kin : job.Kin S job') (h : p.Kin S q) (fs : FileSystem) :
    List.Forall₂ (Job.Kin S) (expandImages fs job p).1 (expandImages fs job' q).1 ∧
      (expandImages fs job p).2.Kin S (expandImages fs job' q).2 := by
  obtain ⟨c, related⟩ := kin
  obtain ⟨inputs, h'⟩ := imageChoices_kin h fs job.inputImage
  obtain ⟨references, h''⟩ := imageChoices_kin h' fs job.controlNet.inputImage
  refine ⟨?_, h''⟩
  refine List.rel_flatMap (List.forall₂_eq_eq_eq ▸ inputs) fun input _ same => ?_
  refine List.rel_map (fun reference _ same' => ?_) (List.forall₂_eq_eq_eq ▸ references)
  subst same same'
  exact ⟨c, related⟩

/-! ## Standard mode -/

/-- The directives among the tokens of the sections keep a relation between checkpoints. -/
def Context.Keeps (ctx : Context) (S : Checkpoints → Checkpoints → Prop) : Prop :=
  ∀ s ∈ ctx.template.sections, ∀ token ∈ s.tokens, ∀ d, Directive.parseEmbedded? token = some d →
    d.Keeps S ctx.capabilities

theorem job_kin {d d' : Draft} (h : d.Kin S d') (prompt : RunControl → String) :
    Job.Kin S { d.job with prompt := prompt d.control } { d'.job with prompt := prompt d'.control } := by
  obtain ⟨c, related⟩ := h
  exact ⟨c, related⟩

theorem standardStep_kin (h : p.Kin S q) {picks : List (List String)}
    (keeps : ∀ d ∈ picks.flatten.filterMap Directive.parseEmbedded?, d.Keeps S ctx.capabilities) :
    (standardStep ctx p picks).Kin S (standardStep (ctx.round r) q picks) := by
  unfold standardStep
  dsimp only
  split
  · have job := job_kin h.draft fun control => promptOf control ctx.template.sections picks
    obtain ⟨jobs, h'⟩ := expandImages_kin job h ctx.files
    exact h'.emit jobs
  · exact h.directs keeps

theorem foldl_standardStep_kin (h : p.Kin S q) {combinations : List (List (List String))}
    (keeps : ∀ picks ∈ combinations, ∀ d ∈ picks.flatten.filterMap Directive.parseEmbedded?,
      d.Keeps S ctx.capabilities) :
    (combinations.foldl (standardStep ctx) p).Kin S (combinations.foldl (standardStep (ctx.round r)) q) := by
  induction combinations generalizing p q with
  | nil => exact h
  | cons picks rest ih =>
    obtain ⟨first, later⟩ := List.forall_mem_cons.mp keeps
    exact ih (standardStep_kin h first) later

variable {γ : Type} [Generator γ]

theorem standard_kin (keeps : ctx.Keeps S) (h : p.Kin S q) (g : γ) :
    (standard ctx p g).1.Kin S (standard (ctx.round r) q g).1 ∧
      (standard ctx p g).2 = (standard (ctx.round r) q g).2 := by
  unfold standard
  dsimp only
  split
  · exact ⟨h.warn _, rfl⟩
  · rw [Odometer.run_choice, Odometer.run_choice]
    refine ⟨foldl_standardStep_kin h fun picks mem d directive => ?_, rfl⟩
    obtain ⟨token, picked, parsed⟩ := List.mem_filterMap.mp directive
    obtain ⟨s, mem, within⟩ := exists_section_of_mem_product mem picked
    exact keeps s mem token within d parsed

/-! ## Random mode -/

theorem takeTokens_kin (h : p.Kin S q) (tokens : List String)
    (keeps : ∀ token ∈ tokens, ∀ d, Directive.parseEmbedded? token = some d → d.Keeps S ctx.capabilities) :
    (takeTokens ctx tokens p).1 = (takeTokens (ctx.round r) tokens q).1 ∧
      (takeTokens ctx tokens p).2.Kin S (takeTokens (ctx.round r) tokens q).2 := by
  induction tokens generalizing p q with
  | nil => exact ⟨rfl, h⟩
  | cons token rest ih =>
    obtain ⟨first, later⟩ := List.forall_mem_cons.mp keeps
    unfold takeTokens
    cases parsed : Directive.parseEmbedded? token with
    | some d => exact ih (h.direct (first d parsed)) later
    | none =>
      obtain ⟨same, kin⟩ := ih h later
      exact ⟨congrArg (token :: ·) same, kin⟩

theorem sampleSections_kin (h : p.Kin S q) {sections : List Section}
    (keeps : ∀ s ∈ sections, ∀ token ∈ s.tokens, ∀ d, Directive.parseEmbedded? token = some d →
      d.Keeps S ctx.capabilities) (g : γ) :
    (sampleSections ctx sections p g).1 = (sampleSections (ctx.round r) sections q g).1 ∧
      (sampleSections ctx sections p g).2.1.Kin S (sampleSections (ctx.round r) sections q g).2.1 ∧
      (sampleSections ctx sections p g).2.2 = (sampleSections (ctx.round r) sections q g).2.2 := by
  induction sections generalizing p q g with
  | nil => exact ⟨rfl, h, rfl⟩
  | cons s rest ih =>
    obtain ⟨first, later⟩ := List.forall_mem_cons.mp keeps
    unfold sampleSections
    dsimp only
    obtain ⟨words, kin⟩ := takeTokens_kin (r := r) h
      ((Random.sample s.tokens.length (min (pickCount s g).1 s.tokens.length) (pickCount s g).2).1.map
        fun i => s.tokens.getD i "")
      fun token drawn d parsed => first token (mem_tokens_of_drawn drawn parsed) d parsed
    obtain ⟨others, kin', drawn⟩ := ih kin later
      (Random.sample s.tokens.length (min (pickCount s g).1 s.tokens.length) (pickCount s g).2).2
    exact ⟨congrArg₂ List.cons words others, kin', drawn⟩

theorem deferDirectory_kin {job job' : Job} (kin : job.Kin S job') (fs : FileSystem) :
    (deferDirectory fs job).Kin S (deferDirectory fs job') := by
  obtain ⟨c, related⟩ := kin
  have input : (job.withCheckpoints c).inputImage = job.inputImage := rfl
  unfold deferDirectory
  rw [input]
  cases job.inputImage.filter fs.isDirectory <;> exact ⟨c, related⟩

theorem sampleJobs_kin (keeps : ctx.Keeps S) (h : p.Kin S q) (n : Nat) (g : γ) :
    (sampleJobs ctx n p g).1.Kin S (sampleJobs (ctx.round r) n q g).1 ∧
      (sampleJobs ctx n p g).2 = (sampleJobs (ctx.round r) n q g).2 := by
  induction n generalizing p q g with
  | zero => exact ⟨h, rfl⟩
  | succ n ih =>
    obtain ⟨picks, kin, drawn⟩ := sampleSections_kin (r := r) h keeps g
    unfold sampleJobs
    dsimp only at picks kin drawn ⊢
    rw [← picks, ← drawn]
    have job := deferDirectory_kin (job_kin kin.draft fun control => promptOf control ctx.template.sections
      (sampleSections ctx ctx.template.sections p g).1) ctx.files
    exact ih (kin.emit (.cons job .nil)) _

theorem random_kin (keeps : ctx.Keeps S) (h : p.Kin S q) (g : γ) :
    (random ctx p g).1.Kin S (random (ctx.round r) q g).1 ∧
      (random ctx p g).2 = (random (ctx.round r) q g).2 := by
  unfold random
  dsimp only
  split
  · exact ⟨h.warn _, rfl⟩
  · exact sampleJobs_kin keeps h _ g

/-! ## Process mode -/

/-- Related in any way at all. -/
abbrev anyhow : Checkpoints → Checkpoints → Prop := fun _ _ => True

/-- What a job for a source image is without its checkpoints; the one of the image is kept. -/
def bareSource (s : Job × Option String) : Job × Option String :=
  (s.1.bare, s.2)

theorem jobOfSource_bare {job job' : Job} (kin : job.Kin anyhow job') (fs : FileSystem) (source : Path) :
    bareSource (jobOfSource fs job source) = bareSource (jobOfSource fs job' source) := by
  obtain ⟨c, -⟩ := kin
  unfold jobOfSource
  cases ImageRecord.read fs source <;> rfl

theorem processRow_kin (ctx : Context) (h : p.Kin anyhow q) :
    (processRow ctx p).1.map bareSource = (processRow (ctx.round r) q).1.map bareSource ∧
      (processRow ctx p).2.Kin anyhow (processRow (ctx.round r) q).2 := by
  have input : p.draft.job.inputImage = q.draft.job.inputImage := (congrArg Job.inputImage h.draft.job.bare :)
  unfold processRow
  rw [← input]
  cases p.draft.job.inputImage with
  | none => exact ⟨rfl, h.warn _⟩
  | some source =>
    dsimp only
    split
    · obtain ⟨same, kin⟩ := images_kin h ctx.files source
      refine ⟨?_, kin⟩
      rw [← same, List.map_map, List.map_map]
      exact List.map_congr_left fun source _ => jobOfSource_bare kin.draft.job ctx.files source
    · split
      · exact ⟨congrArg (fun s => [s]) (jobOfSource_bare h.draft.job ctx.files source), h⟩
      · exact ⟨rfl, h.warn _⟩

theorem keeps_anyhow (d : Directive) (caps : Capabilities) : d.Keeps anyhow caps :=
  fun _ _ _ _ _ _ => trivial

theorem processRows_kin (ctx : Context) (h : p.Kin anyhow q) (tokens : List String) :
    (processRows ctx tokens p).1.map bareSource = (processRows (ctx.round r) tokens q).1.map bareSource ∧
      (processRows ctx tokens p).2.Kin anyhow (processRows (ctx.round r) tokens q).2 := by
  induction tokens generalizing p q with
  | nil => exact ⟨rfl, h⟩
  | cons token rest ih =>
    unfold processRows
    cases Directive.parseEmbedded? token with
    | some d => exact ih (h.direct (keeps_anyhow d ctx.capabilities))
    | none =>
      dsimp only
      split
      · obtain ⟨same, kin⟩ := processRow_kin ctx (r := r) h
        obtain ⟨same', kin'⟩ := ih kin
        refine ⟨?_, kin'⟩
        rw [List.map_append, List.map_append, same, same']
      · exact ih (h.warn _)

/-- Sorting by the checkpoints of the source images looks at no other. -/
theorem sort_bare {sourced sourced' : List (Job × Option String)}
    (same : sourced.map bareSource = sourced'.map bareSource) :
    ((sourced.mergeSort sourceLe).map adoptModel).map Job.bare =
      ((sourced'.mergeSort sourceLe).map adoptModel).map Job.bare := by
  have sorted : ∀ l : List (Job × Option String),
      ((l.mergeSort sourceLe).map adoptModel).map Job.bare =
        ((l.map bareSource).mergeSort sourceLe).map Prod.fst := by
    intro l
    have moved : (l.mergeSort sourceLe).map bareSource = (l.map bareSource).mergeSort sourceLe :=
      List.map_mergeSort fun _ _ _ _ => rfl
    rw [← moved, List.map_map, List.map_map]
    rfl
  rw [sorted, sorted, same]

theorem forall₂_kin_iff {jobs jobs' : List Job} :
    List.Forall₂ (Job.Kin anyhow) jobs jobs' ↔ jobs.map Job.bare = jobs'.map Job.bare := by
  have same : Job.Kin anyhow = fun job job' => job.bare = job'.bare := by
    funext job job'
    exact propext Job.kin_iff_bare
  rw [← List.forall₂_eq_eq_eq, List.forall₂_map_left_iff, List.forall₂_map_right_iff, same]

theorem process_kin (h : p.Kin anyhow q) : (process ctx p).Kin anyhow (process (ctx.round r) q) := by
  unfold process
  dsimp only
  cases ctx.template.sections with
  | nil => exact h.warn _
  | cons s rest =>
    obtain ⟨same, kin⟩ := processRows_kin ctx (r := r) h s.tokens
    dsimp only
    generalize processRows ctx s.tokens p = rows at same kin ⊢
    generalize processRows (ctx.round r) s.tokens q = rows' at same kin ⊢
    have upscale : rows.2.draft.job.upscale = rows'.2.draft.job.upscale :=
      (congrArg Job.upscale kin.draft.job.bare :)
    rw [← upscale]
    split
    · exact kin.emit (forall₂_kin_iff.mpr (sort_bare same))
    · refine kin.emit (forall₂_kin_iff.mpr ?_)
      have bare := congrArg (List.map Prod.fst) same
      rwa [List.map_map, List.map_map] at bare ⊢

/-! ## Whole passes -/

theorem override_kin {o o' : SweepOverrides} (put : ∀ c, S (o.over c) (o'.over c)) (p : Pass) :
    (p.override o).draft.Kin S (p.override o').draft := by
  have same : (p.override o').draft = { (p.override o).draft with
      job := (p.override o).draft.job.withCheckpoints (o'.over p.draft.job.checkpoints) } := rfl
  rw [same]
  exact ⟨_, put p.draft.job.checkpoints⟩

theorem start_kin (put : ∀ c, S (ctx.overrides.over c) (r.overrides.over c)) :
    (Pass.start ctx).Kin S (Pass.start (ctx.round r)) := by
  unfold Pass.start
  dsimp only
  have fresh := (configure_spec ctx.capabilities ctx.template.config
    { draft := { Draft.ofDefaults ctx.defaults with
        job := { (Draft.ofDefaults ctx.defaults).job with templatePath := ctx.template.path } }
      warnings := ctx.template.warnings }).1
  generalize List.foldl _ _ _ = configured at fresh ⊢
  obtain ⟨draft, jobs, warnings, dirs⟩ := configured
  obtain rfl : jobs = [] := fresh
  exact ⟨override_kin put _, .nil, rfl, rfl⟩

/-- The modes expand the sections alike, whatever the checkpoints are; only process mode puts in others. -/
theorem expandSections_kin (keeps : ctx.Keeps S) (h : p.Kin S q)
    (suited : p.draft.control.mode = .process → S = anyhow) (g : γ) :
    (expandSections ctx p g).1.Kin S (expandSections (ctx.round r) q g).1 ∧
      (expandSections ctx p g).2 = (expandSections (ctx.round r) q g).2 := by
  unfold expandSections
  rw [← h.draft.control]
  cases mode : p.draft.control.mode with
  | standard => exact standard_kin keeps h g
  | random => exact random_kin keeps h g
  | process =>
    obtain rfl := suited mode
    exact ⟨process_kin h, rfl⟩

theorem expandTexts_kin {job job' : Job} (kin : job.Kin S job') (t : WildcardTable) (g : γ) :
    (expandTexts t job g).1.Kin S (expandTexts t job' g).1 ∧ (expandTexts t job g).2 = (expandTexts t job' g).2 := by
  obtain ⟨c, related⟩ := kin
  have texts : textsOf (job.withCheckpoints c) = textsOf job := rfl
  unfold expandTexts
  rw [texts]
  generalize Wildcard.expandFields t _ g = filled
  obtain ⟨texts, g'⟩ := filled
  dsimp only [withTexts, Job.withCheckpoints]
  split <;> exact ⟨⟨c, related⟩, rfl⟩

theorem finishJobs_kin (ctx : Context) (o : SweepOverrides) {jobs jobs' : List Job}
    (kin : List.Forall₂ (Job.Kin S) jobs jobs') (moves : Bool) (n : Nat) (g : γ) :
    List.Forall₂ (Job.Kin S) (finishJobs ctx moves n jobs g).1
        (finishJobs (ctx.round (ctx.resweep o)) moves n jobs' g).1 ∧
      (finishJobs ctx moves n jobs g).2 = (finishJobs (ctx.round (ctx.resweep o)) moves n jobs' g).2 := by
  induction kin generalizing n g with
  | nil => exact ⟨.nil, rfl⟩
  | @cons job job' _ _ one _ ih =>
    obtain ⟨filled, drawn⟩ := expandTexts_kin one ctx.wildcards g
    obtain ⟨others, drawn'⟩ := ih (n + 1) (expandTexts ctx.wildcards job g).2
    unfold finishJobs
    dsimp only
    rw [← drawn]
    generalize (expandTexts ctx.wildcards job g).1 = made at filled ⊢
    generalize (expandTexts ctx.wildcards job' g).1 = made' at filled ⊢
    obtain ⟨c, related⟩ := filled
    exact ⟨.cons ⟨c, related⟩ others, drawn'⟩

/-- A pass with other checkpoints of a sweep makes the same jobs, up to their checkpoints, and comes to the same in
all else. -/
theorem compile_kin (ctx : Context) (o : SweepOverrides) (keeps : ctx.Keeps S)
    (put : ∀ c, S (ctx.overrides.over c) (o.over c))
    (suited : (Pass.start ctx).draft.control.mode = .process → S = anyhow) (g : γ) :
    List.Forall₂ (Job.Kin S) (compile ctx g).1.jobs (compile (ctx.round (ctx.resweep o)) g).1.jobs ∧
      (compile ctx g).1.warnings = (compile (ctx.round (ctx.resweep o)) g).1.warnings ∧
      (compile ctx g).1.control = (compile (ctx.round (ctx.resweep o)) g).1.control ∧
      (compile ctx g).2 = (compile (ctx.round (ctx.resweep o)) g).2 := by
  obtain ⟨kin, drawn⟩ := expandSections_kin keeps (start_kin (r := ctx.resweep o) put) suited g
  unfold compile
  dsimp only
  rw [← drawn, ← kin.draft.control]
  obtain ⟨jobs, drawn'⟩ := finishJobs_kin ctx o kin.jobs
    ((expandSections ctx (Pass.start ctx) g).1.draft.control.mode != .process) 1
    (expandSections ctx (Pass.start ctx) g).2
  exact ⟨jobs, kin.warnings, rfl, drawn'⟩

/-! ## The two places of checkpoints -/

end Compile

/-- The places of a job where a checkpoint stands: its own, and the one of its second pass. -/
inductive CheckpointPlace where
  | job
  | highres

namespace CheckpointPlace

/-- The checkpoint that stands there. -/
def of : CheckpointPlace → Checkpoints → Option String
  | job, c => c.1
  | highres, c => c.2

/-- The checkpoint that a sweep puts there. -/
def ofSweep : CheckpointPlace → SweepOverrides → Option String
  | job, o => o.checkpoint
  | highres, o => o.highresCheckpoint

/-- What a directive sets there. -/
def setting : CheckpointPlace → Key
  | job => .checkpoint
  | highres => .highresCheckpoint

/-- The name of the directives that set it. -/
def name : CheckpointPlace → String
  | job => "CKPT_FILE"
  | highres => "HIGHRES_CKPT_FILE"

variable {place : CheckpointPlace}

theorem of_over {o : SweepOverrides} {title : String} (put : place.ofSweep o = some title) (c : Checkpoints) :
    place.of (o.over c) = some title := by
  cases place with
  | job => exact congrArg (Option.or · c.1) put
  | highres => exact congrArg (Option.or · c.2) put

/-- One name only stands for the setting. -/
theorem name_of_setting (place : CheckpointPlace) :
    ∀ p ∈ Key.names, p.2.setting = place.setting → p.1 = place.name := by
  cases place <;> decide +kernel

theorem of_renew {m : Change} (apart : m.setting ≠ place.setting) (c : Checkpoints) :
    place.of (m.renew c) = place.of c := by
  cases place <;> cases m <;> first | rfl | exact absurd rfl apart

/-- A directive of another name leaves what stands there. -/
theorem keeps_of_name_ne {d : Directive} (apart : Directive.normalKey d.key ≠ place.name) (title : String)
    (caps : Capabilities) : d.Keeps (fun a _ => place.of a = some title) caps := by
  intro m report read a _ held
  obtain ⟨k, named, made⟩ := Directive.exists_key_of_change read
  have setting : m.setting = k.setting := (Directive.reads_setting _ _ _ _ _ made).1
  refine (of_renew (fun same => ?_) a).trans held
  have name := place.name_of_setting _ named (setting.symm.trans same)
  exact apart name

end CheckpointPlace

namespace Compile

variable {γ : Type} [Generator γ]

/-- The checkpoints of a sweep do not interfere with a pass: whatever they are, there are as many jobs, equal in all
but their checkpoints, the warnings and what is said about the run are the same, and so are the numbers drawn.
Outside of process mode, a checkpoint that the sweep gives is the one of every job, as long as no directive among
the tokens sets it. -/
theorem overrides_show_in_checkpoints_only (ctx : Context) (o o' : SweepOverrides) (g : γ) :
    ((compile { ctx with overrides := o } g).1.jobs.length = (compile { ctx with overrides := o' } g).1.jobs.length ∧
      (compile { ctx with overrides := o } g).1.jobs.map Job.bare =
        (compile { ctx with overrides := o' } g).1.jobs.map Job.bare ∧
      (compile { ctx with overrides := o } g).1.warnings = (compile { ctx with overrides := o' } g).1.warnings ∧
      (compile { ctx with overrides := o } g).1.control = (compile { ctx with overrides := o' } g).1.control ∧
      (compile { ctx with overrides := o } g).2 = (compile { ctx with overrides := o' } g).2) ∧
    ∀ (place : CheckpointPlace) (title : String), place.ofSweep o = some title →
      (Pass.start ctx).draft.control.mode ≠ .process →
      (∀ s ∈ ctx.template.sections, ∀ token ∈ s.tokens, ∀ d, Directive.parseEmbedded? token = some d →
        Directive.normalKey d.key ≠ place.name) →
      ∀ job ∈ (compile { ctx with overrides := o } g).1.jobs, place.of job.checkpoints = some title := by
  constructor
  · obtain ⟨jobs, warnings, control, drawn⟩ := compile_kin { ctx with overrides := o } o' (S := anyhow)
      (fun _ _ _ _ d _ => keeps_anyhow d ctx.capabilities) (fun _ => trivial) (fun _ => rfl) g
    exact ⟨jobs.length_eq, forall₂_kin_iff.mp jobs, warnings, control, drawn⟩
  · intro place title put mode clear
    have keeps : ({ ctx with overrides := o } : Context).Keeps fun a _ => place.of a = some title :=
      fun s mem token within d parsed => place.keeps_of_name_ne (clear s mem token within d parsed) title _
    obtain ⟨jobs, -⟩ := compile_kin { ctx with overrides := o } o keeps (place.of_over put)
      (fun process => absurd process mode) g
    exact fun job mem => (List.forall₂_same.mp jobs job mem).related

/-- A template in random mode, with directives among its tokens. -/
def sketches : Context where
  template := Template.parse "[config]\nMODE = random\n[prompts]\ncat\n!STEPS=40\n!HIGHRES_CKPT_FILE=soft"
  defaults := {}
  queueDepth := 2
  files := ⟨[], []⟩

/-- The checkpoints of a sweep for the template. -/
def inkAndSharp : SweepOverrides :=
  { checkpoint := some "ink", highresCheckpoint := some "sharp" }

/-- The checkpoint of the sweep stays in all jobs; a directive that is drawn puts another in the place of the one of
the second pass. -/
theorem sketches_in_ink :
    (compile { sketches with overrides := inkAndSharp } (⟨3⟩ : SplitMix)).1.jobs.map Job.checkpoints =
      [(some "ink", some "sharp"), (some "ink", some "soft")] ∧
    ∀ job ∈ (compile { sketches with overrides := inkAndSharp } (⟨3⟩ : SplitMix)).1.jobs,
      CheckpointPlace.job.of job.checkpoints = some "ink" := by
  have clear : ∀ s ∈ sketches.template.sections, ∀ token ∈ s.tokens, ∀ d ∈ Directive.parseEmbedded? token,
      Directive.normalKey d.key ≠ CheckpointPlace.job.name := by
    decide +kernel
  have mode : (Pass.start sketches).draft.control.mode ≠ .process := by decide +kernel
  exact ⟨by decide +kernel,
    (overrides_show_in_checkpoints_only sketches inkAndSharp {} (⟨3⟩ : SplitMix)).2 .job "ink" rfl mode clear⟩

end Compile

end RenderFarm
