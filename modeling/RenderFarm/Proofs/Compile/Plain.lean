import RenderFarm.Proofs.Compile.Checkpoints

/-!
Passes that leave nothing to chance. When a template is in standard mode, picks fixed numbers of tokens, has no
directives among them and no wildcards in its texts, a pass draws no random numbers, and the checkpoints, the
loop and the seed offset of a sweep show in its jobs and nowhere else.
-/

namespace RenderFarm

/-- A job with the checkpoints of a sweep in the place of its own. -/
def SweepOverrides.dress (o : SweepOverrides) (job : Job) : Job :=
  { job with
    checkpoint := o.checkpoint.or job.checkpoint
    highres := { job.highres with checkpoint := o.highresCheckpoint.or job.highres.checkpoint } }

namespace Compile

variable {γ : Type} [Generator γ]

/-- A pass that leaves nothing to chance. -/
structure Context.Plain (ctx : Context) (g : γ) : Prop where
  mode : (Pass.start ctx).draft.control.mode = .standard
  fixed : ∀ s ∈ ctx.template.sections, s.isFixedPick
  bare : ∀ s ∈ ctx.template.sections, ∀ token ∈ s.tokens, Directive.parseEmbedded? token = none
  texts : ∀ job ∈ (expandSections ctx (Pass.start ctx) g).1.jobs, ∀ text ∈ textsOf job,
    ¬ (Wildcard.pieces text.toList).any (Wildcard.isKnown ctx.wildcards)

/-- A job as it comes out of a pass with certain checkpoints, of a certain loop, with its seed moved on. -/
def stamp (o : SweepOverrides) (loop : UInt32) (offset : Int64) (job : Job) : Job :=
  { o.dress job with seed := seedForLoop job.seed offset, loopIndex := loop }

/-! ## What the checkpoints change -/

/-- The pass with all jobs, made and drafted, in the checkpoints of a sweep. -/
def Pass.dressed (o : SweepOverrides) (p : Pass) : Pass :=
  { p with draft := { p.draft with job := o.dress p.draft.job }, jobs := p.jobs.map o.dress }

variable {ctx : Context} {o : SweepOverrides} {loop : UInt32} {offset : Int64}

/-- Checkpoints and what a sweep makes of them. -/
abbrev dressing (o : SweepOverrides) (a b : Checkpoints) : Prop :=
  b = o.over a

theorem dress_of_kin {job job' : Job} (kin : job.Kin (dressing o) job') : job' = o.dress job := by
  obtain ⟨_, rfl⟩ := kin
  rfl

theorem kin_dress (o : SweepOverrides) (job : Job) : job.Kin (dressing o) (o.dress job) :=
  .mk (o.over job.checkpoints) rfl

theorem dressed_of_kin {p q : Pass} (kin : p.Kin (dressing o) q) : q = p.dressed o := by
  obtain ⟨draft, jobs, warnings, dirs⟩ := p
  obtain ⟨draft', jobs', warnings', dirs'⟩ := q
  obtain ⟨_, rfl⟩ : draft.Kin (dressing o) draft' := kin.draft
  obtain rfl : warnings = warnings' := kin.warnings
  obtain rfl : dirs = dirs' := kin.imageDirs
  have made : jobs.map o.dress = jobs' := by
    rw [← List.forall₂_eq_eq_eq, List.forall₂_map_left_iff]
    exact kin.jobs.imp fun _ _ kin => (dress_of_kin kin).symm
  rw [← made]
  rfl

/-- The job of a combination without directives. -/
def jobOf (sections : List Section) (picks : List (List String)) (p : Pass) : Job :=
  { p.draft.job with prompt := promptOf p.draft.control sections picks }

theorem standardStep_of_bare {picks : List (List String)} (p : Pass)
    (bare : picks.flatten.filterMap Directive.parseEmbedded? = []) :
    standardStep ctx p picks =
      (expandImages ctx.files (jobOf ctx.template.sections picks p) p).2.emit
        (expandImages ctx.files (jobOf ctx.template.sections picks p) p).1 := by
  unfold standardStep
  rw [bare]
  rfl

/-- Looking into a directory changes no draft and makes no jobs. -/
theorem images_still (fs : FileSystem) (p : Pass) (dir : Path) :
    (p.images fs dir).2.draft = p.draft ∧ (p.images fs dir).2.jobs = p.jobs := by
  unfold Pass.images
  split
  · exact ⟨rfl, rfl⟩
  · cases Image.list fs dir with
    | ok found =>
      dsimp only
      split <;> exact ⟨rfl, rfl⟩
    | error e => exact ⟨rfl, rfl⟩

theorem imageChoices_still (fs : FileSystem) (p : Pass) (setting : Option Path) :
    (p.imageChoices fs setting).2.draft = p.draft ∧ (p.imageChoices fs setting).2.jobs = p.jobs := by
  unfold Pass.imageChoices
  split
  · rename_i dir _
    exact images_still fs p dir
  · exact ⟨rfl, rfl⟩

theorem expandImages_still (fs : FileSystem) (job : Job) (p : Pass) :
    (expandImages fs job p).2.draft = p.draft ∧ (expandImages fs job p).2.jobs = p.jobs := by
  obtain ⟨draft, jobs⟩ := imageChoices_still fs p job.inputImage
  obtain ⟨draft', jobs'⟩ := imageChoices_still fs (p.imageChoices fs job.inputImage).2 job.controlNet.inputImage
  exact ⟨draft'.trans draft, jobs'.trans jobs⟩

theorem foldl_standardStep_draft {combinations : List (List (List String))} (p : Pass)
    (bare : ∀ picks ∈ combinations, picks.flatten.filterMap Directive.parseEmbedded? = []) :
    (combinations.foldl (standardStep ctx) p).draft = p.draft := by
  refine List.foldlRecOn (motive := fun q : Pass => q.draft = p.draft) combinations _ rfl fun q same picks mem => ?_
  rw [standardStep_of_bare q (bare picks mem)]
  exact (expandImages_still _ _ _).1.trans same

/-- Fixed pick counts draw no random numbers. -/
theorem drawsOf_fixed {sections : List Section} (fixed : ∀ s ∈ sections, s.isFixedPick) (g : γ) :
    (drawsOf sections g).2 = g := by
  induction sections with
  | nil => rfl
  | cons s rest ih =>
    obtain ⟨first, later⟩ := List.forall_mem_cons.mp fixed
    simp only [drawsOf, pickCount, first, if_true]
    exact ih later

theorem expandSections_dressed {g : γ} (plain : ctx.Plain g) (base : ctx.overrides = {})
    (o : SweepOverrides) (loop : UInt32) (offset : Int64) :
    expandSections (ctx.round ⟨o, loop, offset⟩) (Pass.start (ctx.round ⟨o, loop, offset⟩)) g =
      ((expandSections ctx (Pass.start ctx) g).1.dressed o, (expandSections ctx (Pass.start ctx) g).2) := by
  have keeps : ctx.Keeps (dressing o) := fun s mem token within d parsed =>
    absurd ((plain.bare s mem token within).symm.trans parsed) (by simp)
  have put : ∀ c, dressing o (ctx.overrides.over c) (o.over c) := by
    rw [base]
    exact fun _ => rfl
  have suited : (Pass.start ctx).draft.control.mode = .process → dressing o = anyhow := by simp [plain.mode]
  obtain ⟨kin, drawn⟩ := expandSections_kin keeps (start_kin (r := ⟨o, loop, offset⟩) put) suited g
  exact Prod.ext (dressed_of_kin kin) drawn.symm

/-- Expanding the sections draws nothing and leaves the draft as it is. -/
theorem expandSections_plain {g : γ} (plain : ctx.Plain g) :
    (expandSections ctx (Pass.start ctx) g).2 = g ∧
      (expandSections ctx (Pass.start ctx) g).1.draft = (Pass.start ctx).draft := by
  have drawn := drawsOf_fixed plain.fixed g
  have bare : ∀ picks ∈ product (drawsOf ctx.template.sections g).1,
      picks.flatten.filterMap Directive.parseEmbedded? = [] := by
    intro picks mem
    refine List.filterMap_eq_nil_iff.mpr fun token picked => ?_
    obtain ⟨s, mem, within⟩ := exists_section_of_mem_product mem picked
    exact plain.bare s mem token within
  unfold expandSections
  rw [plain.mode]
  unfold standard
  dsimp only
  split
  · exact ⟨rfl, rfl⟩
  · rw [Odometer.run_choice, drawn]
    exact ⟨rfl, foldl_standardStep_draft _ bare⟩

/-! ## Finishing jobs -/

theorem expandTexts_dressed (t : WildcardTable) (job : Job) (g : γ) :
    expandTexts t (o.dress job) g = (o.dress (expandTexts t job g).1, (expandTexts t job g).2) := by
  obtain ⟨kin, drawn⟩ := expandTexts_kin (kin_dress o job) t g
  exact Prod.ext (dress_of_kin kin) drawn.symm

/-- Texts without placeholders of the wildcards draw no random numbers. -/
theorem expandFields_bare {t : WildcardTable} {fields : List String}
    (bare : ∀ text ∈ fields, ¬ (Wildcard.pieces text.toList).any (Wildcard.isKnown t)) (g : γ) :
    Wildcard.expandFields t fields g = (fields, g) := by
  have all : ∀ decks : Wildcard.Decks, Wildcard.expandAll t fields decks g = (fields, decks, g) := by
    intro decks
    induction fields with
    | nil => rfl
    | cons text rest ih =>
      obtain ⟨first, later⟩ := List.forall_mem_cons.mp bare
      have one : Wildcard.expandField t text decks g = (text, decks, g) := by
        simp only [Wildcard.expandField, Wildcard.maxPasses, Wildcard.expandPasses, if_neg first,
          String.ofList_toList]
      simp only [Wildcard.expandAll, one, ih later]
  unfold Wildcard.expandFields
  split
  · rfl
  · rw [all]

theorem seedForLoop_zero (base : Int64) : seedForLoop base 0 = base := by
  unfold seedForLoop
  split
  · rfl
  · exact Int64.add_zero base

theorem finishJobs_dressed {jobs : List Job}
    (bare : ∀ job ∈ jobs, ∀ text ∈ textsOf job, ¬ (Wildcard.pieces text.toList).any (Wildcard.isKnown ctx.wildcards))
    (base : ctx.seedOffset = 0) (o : SweepOverrides) (loop : UInt32) (offset : Int64) (n : Nat) (g : γ) :
    finishJobs (ctx.round ⟨o, loop, offset⟩) true n (jobs.map o.dress) g =
      ((finishJobs ctx true n jobs g).1.map (stamp o loop offset), g) ∧
    (finishJobs ctx true n jobs g).2 = g := by
  induction jobs generalizing n with
  | nil => exact ⟨rfl, rfl⟩
  | cons job rest ih =>
    obtain ⟨first, later⟩ := List.forall_mem_cons.mp bare
    obtain ⟨same, still⟩ := ih later (n + 1)
    have quiet : (expandTexts ctx.wildcards job g).2 = g := by
      rw [expandTexts, expandFields_bare first]
    rw [List.map_cons]
    unfold finishJobs
    dsimp only
    rw [expandTexts_dressed]
    generalize expandTexts ctx.wildcards job g = filled at quiet ⊢
    obtain ⟨job', g'⟩ := filled
    obtain rfl : g' = g := quiet
    dsimp only at same still ⊢
    rw [same, base]
    refine ⟨?_, still⟩
    simp only [if_true, List.map_cons, stamp, SweepOverrides.dress, seedForLoop_zero]

/-- A pass with certain checkpoints, of a certain loop, with a certain seed offset, makes the jobs of the plain
pass, stamped with these; it draws no random numbers, and says the same of the run. -/
theorem compile_stamped {g : γ} (plain : ctx.Plain g) (base : ctx.overrides = {}) (base' : ctx.seedOffset = 0)
    (o : SweepOverrides) (loop : UInt32) (offset : Int64) :
    compile (ctx.round ⟨o, loop, offset⟩) g =
      ({ (compile ctx g).1 with jobs := (compile ctx g).1.jobs.map (stamp o loop offset) }, g) ∧
    (compile ctx g).2 = g := by
  have dressed := expandSections_dressed plain base o loop offset
  obtain ⟨still, draft⟩ := expandSections_plain plain
  have texts := plain.texts
  have moves : ((expandSections ctx (Pass.start ctx) g).1.draft.control.mode != .process) = true := by
    rw [draft, plain.mode]
    rfl
  unfold compile
  rw [dressed]
  dsimp only
  generalize expandSections ctx (Pass.start ctx) g = expanded at still moves texts ⊢
  obtain ⟨finished, quiet⟩ := finishJobs_dressed texts base' o loop offset 1 g
  have moves' : ((expanded.1.dressed o).draft.control.mode != .process) = true := moves
  have jobs : (expanded.1.dressed o).jobs = expanded.1.jobs.map o.dress := rfl
  rw [moves, moves', still, jobs, finished]
  exact ⟨rfl, quiet⟩

/-- Where nothing is left to chance, the `[config]` block alone says how the run goes on. -/
theorem compile_control {g : γ} (plain : ctx.Plain g) :
    (compile ctx g).1.control = (Pass.start ctx).draft.control :=
  congrArg Draft.control (expandSections_plain plain).2

end Compile

end RenderFarm
