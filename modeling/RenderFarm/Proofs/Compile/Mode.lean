import RenderFarm.Proofs.Compile.Plain
import RenderFarm.Proofs.Compile.Standard
import RenderFarm.Proofs.Directive.Settings

/-!
The modes of a pass. The `[config]` block selects the mode by whose rules the sections are expanded. Directives that
the expansion comes upon may set another one: jobs made after such a directive have its mode, and the mode after the
last of them is the one reported, by which it is decided for all jobs of the pass whether their seeds are moved on.
-/

namespace RenderFarm

/-- The mode that a directive sets. -/
def Directive.mode? (d : Directive) : Option Mode :=
  (Key.ofName? (normalKey d.key)).bind fun k =>
    if k = .mode then (Mode.read (Text.trim d.value)).toOption else none

/-- The mode after some directives. -/
def modeAfter (m : Mode) (directives : List Directive) : Mode :=
  directives.foldl (fun m d => d.mode?.getD m) m

theorem modeAfter_concat (m : Mode) (ds : List Directive) (d : Directive) :
    modeAfter m (ds ++ [d]) = d.mode?.getD (modeAfter m ds) := by
  rw [modeAfter, List.foldl_concat]
  rfl

/-- Directives that set no mode but this one leave it as it is. -/
theorem modeAfter_of_same {m : Mode} {ds : List Directive} (same : ∀ d ∈ ds, ∀ m', d.mode? = some m' → m' = m) :
    modeAfter m ds = m := by
  induction ds with
  | nil => rfl
  | cons d ds ih =>
    obtain ⟨first, later⟩ := List.forall_mem_cons.mp same
    have kept : d.mode?.getD m = m := by
      cases set : d.mode? with
      | none => rfl
      | some m' => exact first m' set
    rw [modeAfter, List.foldl_cons, kept]
    exact ih later

/-! ## Drafts -/

/-- The draft after some directives. -/
def draftAfter (caps : Capabilities) (d : Draft) (directives : List Directive) : Draft :=
  directives.foldl (fun draft d => (Directive.apply caps d.key d.value draft).1) d

theorem draftAfter_append (caps : Capabilities) (d : Draft) (before after : List Directive) :
    draftAfter caps d (before ++ after) = draftAfter caps (draftAfter caps d before) after :=
  List.foldl_append

/-- The mode of a draft: that of its job and that of the run. -/
def Draft.InMode (d : Draft) (m : Mode) : Prop :=
  d.job.mode = m ∧ d.control.mode = m

variable {m : Mode} {draft : Draft}

/-- Changes of other settings change no mode. -/
theorem Draft.InMode.make (h : draft.InMode m) {c : Change} (other : c.setting ≠ .mode) : (c.make draft).InMode m := by
  cases c with
  | mode => exact absurd rfl other
  | job c => cases c <;> exact h
  | _ => exact h

theorem Key.eq_mode_of_setting {k : Key} (mode : k.setting = .mode) : k = .mode := by
  cases k <;> first | rfl | cases mode

/-- A directive that is taken in leaves the draft in the mode that it sets, if it sets one. -/
theorem Draft.InMode.apply (h : draft.InMode m) (caps : Capabilities) (d : Directive) :
    (Directive.apply caps d.key d.value draft).1.InMode (d.mode?.getD m) := by
  unfold Directive.apply Directive.change Directive.mode?
  cases named : Key.ofName? (Directive.normalKey d.key) with
  | none => exact h
  | some k =>
    rw [Option.bind_some]
    by_cases mode : k = .mode
    · subst mode
      dsimp only [Directive.read]
      cases Mode.read (Text.trim d.value) with
      | ok m' => exact ⟨rfl, rfl⟩
      | error word => exact h
    · rw [if_neg mode]
      dsimp only
      cases made : Directive.read (Directive.normalKey d.key) (Text.trim d.value) caps k with
      | error e => exact h
      | ok p =>
        have about := (Directive.reads_setting _ _ caps k p made).1
        exact h.make fun other => mode (Key.eq_mode_of_setting (about.symm.trans other))

namespace Compile

/-! ## What an expansion comes upon -/

variable {γ : Type} [Generator γ]

/-- The tokens of one sample of the sections. -/
def drawnTokens : List Section → γ → List String × γ
  | [], g => ([], g)
  | s :: rest, g =>
    let (k, g) := pickCount s g
    let (picked, g) := Random.sample s.tokens.length (min k s.tokens.length) g
    let (others, g) := drawnTokens rest g
    ((picked.map fun i => s.tokens.getD i "") ++ others, g)

/-- The tokens of a number of samples. -/
def sampledTokens (sections : List Section) : Nat → γ → List String × γ
  | 0, g => ([], g)
  | n + 1, g =>
    let (tokens, g) := drawnTokens sections g
    let (others, g) := sampledTokens sections n g
    (tokens ++ others, g)

/-- The tokens that an expansion by the rules of a mode comes upon, in order. -/
def Context.tokensMet (ctx : Context) (g : γ) : Mode → List String
  | .standard => (combinationsOf ctx.template.sections g).flatMap List.flatten
  | .random => (sampledTokens ctx.template.sections ctx.queueDepth g).1
  | .process => (ctx.template.sections.head?.map Section.tokens).getD []

/-- The mode that the `[config]` block selects, by whose rules the sections are expanded. -/
def Context.selected (ctx : Context) : Mode :=
  (Pass.start ctx).draft.control.mode

/-- The directives that the expansion of the sections comes upon, in order. -/
def Context.taken (ctx : Context) (g : γ) : List Directive :=
  (ctx.tokensMet g ctx.selected).filterMap Directive.parseEmbedded?

/-! ## Passes -/

/-- A job in the mode after the first so many of some directives. -/
def Job.ModedBy (m : Mode) (ds : List Directive) (job : Job) : Prop :=
  ∃ before, before <+: ds ∧ job.mode = modeAfter m before

theorem Job.ModedBy.more {job : Job} {ds : List Directive} (h : Job.ModedBy m ds job) (es : List Directive) :
    Job.ModedBy m (ds ++ es) job := by
  obtain ⟨before, within, mode⟩ := h
  exact ⟨before, within.trans (List.prefix_append ds es), mode⟩

/-- A pass that started in a mode and has come upon some directives: the draft is in the mode after all of them, and
every job in the mode after those that came before it. -/
structure Pass.Moded (m : Mode) (ds : List Directive) (p : Pass) : Prop where
  draft : p.draft.InMode (modeAfter m ds)
  jobs : ∀ job ∈ p.jobs, Job.ModedBy m ds job

/-- Jobs for the images of a directory differ in their images only. -/
theorem mode_of_mem_expandImages {fs : FileSystem} {job job' : Job} {p : Pass}
    (made : job' ∈ (expandImages fs job p).1) : job'.mode = job.mode := by
  obtain ⟨input, -, made⟩ := List.mem_flatMap.mp made
  obtain ⟨reference, -, rfl⟩ := List.mem_map.mp made
  rfl

theorem mode_deferDirectory (fs : FileSystem) (job : Job) : (deferDirectory fs job).mode = job.mode := by
  unfold deferDirectory
  split <;> rfl

theorem mode_jobOfSource (fs : FileSystem) (job : Job) (source : Path) :
    (jobOfSource fs job source).1.mode = job.mode := by
  unfold jobOfSource
  split <;> rfl

namespace Pass.Moded

variable {p q : Pass} {ds es : List Directive} {ctx : Context}

theorem more (h : p.Moded m ds) (draft : q.draft.InMode (modeAfter m (ds ++ es))) (jobs : q.jobs = p.jobs) :
    q.Moded m (ds ++ es) where
  draft := draft
  jobs := by
    rw [jobs]
    exact fun job mem => (h.jobs job mem).more es

/-- What changes neither draft nor jobs. -/
theorem same (h : p.Moded m ds) (draft : q.draft = p.draft) (jobs : q.jobs = p.jobs) : q.Moded m ds where
  draft := draft ▸ h.draft
  jobs := jobs ▸ h.jobs

theorem emit (h : p.Moded m ds) {jobs : List Job} (modes : ∀ job ∈ jobs, Job.ModedBy m ds job) :
    (p.emit jobs).Moded m ds where
  draft := h.draft
  jobs := by
    intro job mem
    obtain old | new := List.mem_append.mp mem
    · exact h.jobs job old
    · exact modes job new

/-- A job made from the draft is in its mode. -/
theorem modedBy (h : p.Moded m ds) {job : Job} (mode : job.mode = p.draft.job.mode) : Job.ModedBy m ds job :=
  ⟨ds, List.prefix_rfl, mode.trans h.draft.1⟩

theorem direct (h : p.Moded m ds) (caps : Capabilities) (d : Directive) : (p.direct caps d).Moded m (ds ++ [d]) := by
  obtain ⟨draft, jobs, -⟩ := direct_spec caps d p
  refine h.more ?_ jobs
  rw [draft, modeAfter_concat]
  exact h.draft.apply caps d

theorem directs (h : p.Moded m ds) (caps : Capabilities) (es : List Directive) :
    (es.foldl (fun p d => p.direct caps d) p).Moded m (ds ++ es) := by
  induction es generalizing p ds with
  | nil => rwa [List.append_nil]
  | cons d es ih =>
    rw [List.foldl_cons, ← List.singleton_append, ← List.append_assoc]
    exact ih (h.direct caps d)

theorem standardStep (h : p.Moded m ds) (picks : List (List String)) :
    (standardStep ctx p picks).Moded m (ds ++ picks.flatten.filterMap Directive.parseEmbedded?) := by
  unfold Compile.standardStep
  cases picks.flatten.filterMap Directive.parseEmbedded? with
  | nil =>
    rw [List.append_nil]
    obtain ⟨draft, jobs⟩ := expandImages_still ctx.files
      { p.draft.job with prompt := promptOf p.draft.control ctx.template.sections picks } p
    exact (h.same draft jobs).emit fun job made => h.modedBy (by rw [mode_of_mem_expandImages made])
  | cons d rest => exact h.directs ctx.capabilities (d :: rest)

theorem combinations (h : p.Moded m ds) (cs : List (List (List String))) :
    (cs.foldl (Compile.standardStep ctx) p).Moded m
      (ds ++ (cs.flatMap List.flatten).filterMap Directive.parseEmbedded?) := by
  induction cs generalizing p ds with
  | nil => rwa [List.flatMap_nil, List.filterMap_nil, List.append_nil]
  | cons picks cs ih =>
    rw [List.foldl_cons, List.flatMap_cons, List.filterMap_append, ← List.append_assoc]
    exact ih (h.standardStep picks)

theorem standard (h : p.Moded m []) (g : γ) :
    (standard ctx p g).1.Moded m ((ctx.tokensMet g .standard).filterMap Directive.parseEmbedded?) := by
  unfold Compile.standard
  split
  case isTrue empty =>
    have none : ctx.template.sections = [] := List.isEmpty_iff.mp empty
    have nothing : ctx.tokensMet g .standard = [] := by
      rw [Context.tokensMet, none]
      rfl
    rw [nothing]
    exact h.same rfl rfl
  case isFalse =>
    dsimp only
    rw [Odometer.run_choice, drawsOf_eq]
    exact h.combinations _

theorem takeTokens (h : p.Moded m ds) (tokens : List String) :
    (takeTokens ctx tokens p).2.Moded m (ds ++ tokens.filterMap Directive.parseEmbedded?) := by
  induction tokens generalizing p ds with
  | nil => rwa [List.filterMap_nil, List.append_nil]
  | cons token rest ih =>
    unfold Compile.takeTokens
    cases parsed : Directive.parseEmbedded? token with
    | some d =>
      rw [List.filterMap_cons_some parsed, ← List.singleton_append, ← List.append_assoc]
      exact ih (h.direct ctx.capabilities d)
    | none =>
      rw [List.filterMap_cons_none parsed]
      exact ih h

/-- One sample, with the generator that it leaves. -/
theorem sampleSections (h : p.Moded m ds) (ctx : Context) (sections : List Section) (g : γ) :
    (sampleSections ctx sections p g).2.1.Moded m
        (ds ++ (drawnTokens sections g).1.filterMap Directive.parseEmbedded?) ∧
      (sampleSections ctx sections p g).2.2 = (drawnTokens sections g).2 := by
  induction sections generalizing p ds g with
  | nil => exact ⟨by rwa [drawnTokens, List.filterMap_nil, List.append_nil], rfl⟩
  | cons s rest ih =>
    unfold Compile.sampleSections drawnTokens
    dsimp only
    rw [List.filterMap_append, ← List.append_assoc]
    exact ih (h.takeTokens _) _

theorem sampleJobs (h : p.Moded m ds) (n : Nat) (g : γ) :
    (sampleJobs ctx n p g).1.Moded m
      (ds ++ (sampledTokens ctx.template.sections n g).1.filterMap Directive.parseEmbedded?) := by
  induction n generalizing p ds g with
  | zero => rwa [sampledTokens, List.filterMap_nil, List.append_nil]
  | succ n ih =>
    obtain ⟨sampled, drawn⟩ := h.sampleSections ctx ctx.template.sections g
    unfold Compile.sampleJobs sampledTokens
    dsimp only
    rw [List.filterMap_append, ← List.append_assoc, ← drawn]
    refine ih (sampled.emit fun job made => sampled.modedBy ?_) _
    rw [List.mem_singleton.mp made]
    exact mode_deferDirectory _ _

theorem random (h : p.Moded m []) (g : γ) :
    (random ctx p g).1.Moded m ((ctx.tokensMet g .random).filterMap Directive.parseEmbedded?) := by
  unfold Compile.random
  split
  case isTrue empty =>
    have none : ctx.template.sections = [] := List.isEmpty_iff.mp empty
    have nothing (n : Nat) (g : γ) : (sampledTokens [] n g).1 = [] := by
      induction n with
      | zero => rfl
      | succ n ih => exact ih
    rw [Context.tokensMet, none, nothing]
    exact h.same rfl rfl
  case isFalse => exact h.sampleJobs _ g

theorem processRow (h : p.Moded m ds) (ctx : Context) :
    (processRow ctx p).2.Moded m ds ∧ ∀ s ∈ (processRow ctx p).1, Job.ModedBy m ds s.1 := by
  unfold Compile.processRow
  split
  · exact ⟨h.same rfl rfl, List.forall_mem_nil _⟩
  · rename_i input _
    split
    · obtain ⟨draft, jobs⟩ := images_still ctx.files p input
      refine ⟨h.same draft jobs, fun s made => ?_⟩
      obtain ⟨source, -, rfl⟩ := List.mem_map.mp made
      exact (h.same draft jobs).modedBy (mode_jobOfSource _ _ _)
    · split
      · refine ⟨h, fun s made => ?_⟩
        rw [List.mem_singleton.mp made]
        exact h.modedBy (mode_jobOfSource _ _ _)
      · exact ⟨h.same rfl rfl, List.forall_mem_nil _⟩

theorem processRows (h : p.Moded m ds) (ctx : Context) (tokens : List String) :
    (processRows ctx tokens p).2.Moded m (ds ++ tokens.filterMap Directive.parseEmbedded?) ∧
      ∀ s ∈ (processRows ctx tokens p).1,
        Job.ModedBy m (ds ++ tokens.filterMap Directive.parseEmbedded?) s.1 := by
  induction tokens generalizing p ds with
  | nil =>
    rw [List.filterMap_nil, List.append_nil]
    exact ⟨h, List.forall_mem_nil _⟩
  | cons token rest ih =>
    unfold Compile.processRows
    cases parsed : Directive.parseEmbedded? token with
    | some d =>
      rw [List.filterMap_cons_some parsed, ← List.singleton_append, ← List.append_assoc]
      exact ih (h.direct ctx.capabilities d)
    | none =>
      rw [List.filterMap_cons_none parsed]
      dsimp only
      split
      · obtain ⟨row, made⟩ := h.processRow ctx
        obtain ⟨later, others⟩ := ih row
        refine ⟨later, fun s mem => ?_⟩
        obtain here | there := List.mem_append.mp mem
        · exact (made s here).more _
        · exact others s there
      · exact ih (h.same rfl rfl)

theorem process (h : p.Moded m []) (g : γ) :
    (process ctx p).Moded m ((ctx.tokensMet g .process).filterMap Directive.parseEmbedded?) := by
  unfold Compile.process Context.tokensMet
  cases ctx.template.sections with
  | nil => exact h.same rfl rfl
  | cons s rest =>
    obtain ⟨rows, made⟩ := h.processRows ctx s.tokens
    dsimp only
    split
    · refine rows.emit fun job mem => ?_
      obtain ⟨sourced, among, rfl⟩ := List.mem_map.mp mem
      exact made sourced (List.mem_mergeSort.mp among)
    · refine rows.emit fun job mem => ?_
      obtain ⟨sourced, among, rfl⟩ := List.mem_map.mp mem
      exact made sourced among

end Pass.Moded

theorem configure_inMode (caps : Capabilities) (lines : List String) {p : Pass} (h : ∃ m, p.draft.InMode m) :
    ∃ m, (lines.foldl (fun p line => p.configure caps line) p).draft.InMode m := by
  induction lines generalizing p with
  | nil => exact h
  | cons line rest ih =>
    rw [List.foldl_cons]
    refine ih ?_
    unfold Pass.configure
    split
    · rename_i d _
      obtain ⟨m, mode⟩ := h
      rw [(direct_spec caps d p).1]
      exact ⟨_, mode.apply caps d⟩
    · exact h

/-- Before the sections are expanded, everything is in the mode that is selected. -/
theorem start_moded (ctx : Context) : (Pass.start ctx).Moded ctx.selected [] := by
  obtain ⟨m, configured⟩ : ∃ m, (Pass.start ctx).draft.InMode m :=
    configure_inMode ctx.capabilities ctx.template.config ⟨ctx.defaults.mode, rfl, rfl⟩
  have selected : ctx.selected = m := configured.2
  refine ⟨selected ▸ configured, ?_⟩
  have fresh : (Pass.start ctx).jobs = [] := (configure_spec _ _ _).1
  rw [fresh]
  exact List.forall_mem_nil _

/-- The expansion of the sections takes in the directives that it comes upon. -/
theorem expandSections_moded (ctx : Context) (g : γ) :
    (expandSections ctx (Pass.start ctx) g).1.Moded ctx.selected (ctx.taken g) := by
  have start := start_moded ctx
  unfold expandSections Context.taken
  change (match ctx.selected with
    | .standard => standard ctx (Pass.start ctx) g
    | .random => random ctx (Pass.start ctx) g
    | .process => (process ctx (Pass.start ctx), g)).1.Moded _ _
  cases mode : ctx.selected with
  | standard => exact (mode ▸ start).standard g
  | random => exact (mode ▸ start).random g
  | process => exact (mode ▸ start).process g

/-! ## Finished jobs -/

/-- Filling in texts changes neither mode nor seed. -/
theorem expandTexts_still (t : WildcardTable) (job : Job) (g : γ) :
    (expandTexts t job g).1.mode = job.mode ∧ (expandTexts t job g).1.seed = job.seed := by
  unfold expandTexts withTexts
  dsimp only
  split <;> exact ⟨rfl, rfl⟩

/-- A job as it is drafted, and as it is finished when seeds are moved on or not. -/
def Finishes (ctx : Context) (movesSeeds : Bool) (drafted job : Job) : Prop :=
  job.mode = drafted.mode ∧
    job.seed = if movesSeeds then seedForLoop drafted.seed ctx.seedOffset else drafted.seed

theorem finishJobs_finishes (ctx : Context) (movesSeeds : Bool) (n : Nat) (jobs : List Job) (g : γ) :
    List.Forall₂ (Finishes ctx movesSeeds) jobs (finishJobs ctx movesSeeds n jobs g).1 := by
  induction jobs generalizing n g with
  | nil => exact .nil
  | cons job rest ih =>
    obtain ⟨mode, seed⟩ := expandTexts_still ctx.wildcards job g
    unfold finishJobs
    dsimp only
    refine .cons ⟨mode, ?_⟩ (ih _ _)
    change (if movesSeeds then seedForLoop (expandTexts ctx.wildcards job g).1.seed ctx.seedOffset
      else (expandTexts ctx.wildcards job g).1.seed) = _
    rw [seed]

theorem Finishes.forall_mem {ctx : Context} {movesSeeds : Bool} {drafted jobs : List Job} {m : Mode}
    {ds : List Directive} (finished : List.Forall₂ (Finishes ctx movesSeeds) drafted jobs)
    (moded : ∀ job ∈ drafted, Job.ModedBy m ds job) : ∀ job ∈ jobs, Job.ModedBy m ds job := by
  induction finished with
  | nil => exact List.forall_mem_nil _
  | cons one _ ih =>
    obtain ⟨⟨before, within, mode⟩, later⟩ := List.forall_mem_cons.mp moded
    exact List.forall_mem_cons.mpr ⟨⟨before, within, one.1.trans mode⟩, ih later⟩

/-- Every pass has one mode: the one selected is reported and is that of every job, and it decides whether seeds are
moved on. -/
def OneMode (ctx : Context) (g : γ) : Prop :=
  (compile ctx g).1.control.mode = ctx.selected ∧
    (∀ job ∈ (compile ctx g).1.jobs, job.mode = (compile ctx g).1.control.mode) ∧
    List.Forall₂ (Finishes ctx (ctx.selected != .process)) (expandSections ctx (Pass.start ctx) g).1.jobs
      (compile ctx g).1.jobs

/-- The mode reported is the one after all directives that the expansion comes upon, and by it seeds are moved on or
not; a job has the mode after those that came before it. So a pass has one mode as long as none of them sets another
than the one selected. -/
theorem modes_of_pass (ctx : Context) (g : γ) :
    (compile ctx g).1.control.mode = modeAfter ctx.selected (ctx.taken g) ∧
      (∀ job ∈ (compile ctx g).1.jobs, Job.ModedBy ctx.selected (ctx.taken g) job) ∧
      List.Forall₂ (Finishes ctx ((compile ctx g).1.control.mode != .process))
        (expandSections ctx (Pass.start ctx) g).1.jobs (compile ctx g).1.jobs ∧
      ((∀ d ∈ ctx.taken g, ∀ m, d.mode? = some m → m = ctx.selected) → OneMode ctx g) := by
  obtain ⟨⟨-, reported⟩, jobs⟩ := expandSections_moded ctx g
  have finished : List.Forall₂ (Finishes ctx ((compile ctx g).1.control.mode != .process))
      (expandSections ctx (Pass.start ctx) g).1.jobs (compile ctx g).1.jobs :=
    finishJobs_finishes ctx _ 1 _ _
  have moded : ∀ job ∈ (compile ctx g).1.jobs, Job.ModedBy ctx.selected (ctx.taken g) job :=
    Finishes.forall_mem finished jobs
  refine ⟨reported, moded, finished, fun same => ?_⟩
  have kept : (compile ctx g).1.control.mode = ctx.selected := reported.trans (modeAfter_of_same same)
  refine ⟨kept, fun job mem => ?_, kept ▸ finished⟩
  obtain ⟨before, within, mode⟩ := moded job mem
  rw [kept, mode]
  exact modeAfter_of_same fun d among => same d (within.subset among)

/-- A template in standard mode, with a directive between its tokens that sets another one. -/
def strayMode : Context where
  template := Template.parse "[config]\nSEED = 5\n[prompts]\na\n!MODE = process\nb"
  defaults := {}
  seedOffset := 2
  queueDepth := 1
  files := ⟨[], []⟩

/-- The second job is one for an image that exists, and the seed of the first one is not moved on. -/
theorem strayMode_two_modes :
    (compile strayMode (⟨0⟩ : SplitMix)).1.jobs.map (fun job => (job.prompt, job.mode, job.seed)) =
        [("a", .standard, 5), ("b", .process, 5)] ∧
      strayMode.selected = .standard ∧ (compile strayMode (⟨0⟩ : SplitMix)).1.control.mode = .process ∧
      ¬ OneMode strayMode (⟨0⟩ : SplitMix) := by
  have reported : (compile strayMode (⟨0⟩ : SplitMix)).1.control.mode = .process := by decide +kernel
  have selected : strayMode.selected = .standard := by decide +kernel
  refine ⟨by decide +kernel, selected, reported, fun one => ?_⟩
  exact absurd (reported.symm.trans (one.1.trans selected)) (by decide)

/-- A template with a directive that sets the mode it is in. -/
def samplesAnew : Context where
  template := Template.parse "[config]\nMODE = random\nSEED = 5\n[prompts]\n!MODE = random"
  defaults := {}
  seedOffset := 2
  queueDepth := 2
  files := ⟨[], []⟩

theorem samplesAnew_one_mode :
    (∀ d ∈ samplesAnew.taken (⟨0⟩ : SplitMix), ∀ m, d.mode? = some m → m = samplesAnew.selected) ∧
      OneMode samplesAnew (⟨0⟩ : SplitMix) := by
  have taken : samplesAnew.taken (⟨0⟩ : SplitMix) = [⟨"MODE", "random", true⟩, ⟨"MODE", "random", true⟩] := by
    decide +kernel
  have selected : samplesAnew.selected = .random := by decide +kernel
  have same : ∀ d ∈ samplesAnew.taken (⟨0⟩ : SplitMix), ∀ m, d.mode? = some m → m = samplesAnew.selected := by
    have sets : (⟨"MODE", "random", true⟩ : Directive).mode? = some .random := by decide +kernel
    intro d mem m set
    rw [taken, List.mem_cons, List.mem_singleton, or_self] at mem
    rw [mem, sets] at set
    exact (Option.some.inj set).symm.trans selected.symm
  exact ⟨same, (modes_of_pass samplesAnew (⟨0⟩ : SplitMix)).2.2.2 same⟩

end Compile

end RenderFarm
