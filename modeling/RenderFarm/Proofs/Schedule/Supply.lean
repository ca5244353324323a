import RenderFarm.Proofs.Compile.Reads
import RenderFarm.Proofs.Schedule.Starts

/-!
What decides which jobs the main queue gives out. It is a small part of the run: the template and what it was
compiled to, the sweep, the random numbers, and the answers that the files give to a few questions. Devices,
requests and the log have no part in it; so the jobs that are still to come can be told from it alone.
-/

namespace RenderFarm

open Compile

/-- Paths that a run asks its files about, when they give the answers of `reads`: the template to begin with,
and whatever templates that come about name or have listed. -/
inductive Consulted (settings : RunSettings) (caps : Capabilities) (reads : FileSystem) : Path → Prop where
  | initial {p : Path} (h : settings.initialTemplate = some p) : Consulted settings caps reads p
  | image {path p : Path} {t : Template} {draft : Draft} (h : Consulted settings caps reads path)
      (read : Template.load reads path = .ok t) (drafted : Drafted t settings.jobDefaults caps draft)
      (named : draft.job.Names p) : Consulted settings caps reads p
  | listed {dir p : Path} {images : List Path} (h : Consulted settings caps reads dir)
      (found : Image.list reads dir = .ok images) (mem : p ∈ images) : Consulted settings caps reads p
  | next {path p : Path} {t : Template} {draft : Draft} (h : Consulted settings caps reads path)
      (read : Template.load reads path = .ok t) (drafted : Drafted t settings.jobDefaults caps draft)
      (named : draft.control.nextTemplate = some p) : Consulted settings caps reads p
  /-- A template that follows may also stand beside the one before it. -/
  | beside {path p dir : Path} {t : Template} {draft : Draft} (h : Consulted settings caps reads path)
      (read : Template.load reads path = .ok t) (drafted : Drafted t settings.jobDefaults caps draft)
      (named : draft.control.nextTemplate = some p) (parent : t.path.bind Path.parent? = some dir) :
      Consulted settings caps reads (dir.join p.text)

/-- Files give the same answers as others, in all that the supply of work asks them. -/
structure FileSystem.Answers (settings : RunSettings) (caps : Capabilities) (fs reads : FileSystem) : Prop where
  wildcards : WildcardTable.load fs settings.wildcardDir = WildcardTable.load reads settings.wildcardDir
  consulted : ∀ p, Consulted settings caps reads p → fs.AgreesAt reads p

/-- What the jobs that come next from the main queue depend on, apart from the files. -/
structure Supply (γ : Type) where
  settings : RunSettings
  capabilities : Capabilities := {}
  template : Option Template := none
  control : RunControl := {}
  sweep : Sweep := {}
  lastPassJobs : Nat := 0
  wildcards : WildcardTable := {}
  random : γ
  main : List Job := []
  dispatching : Bool := false

/-- What a run goes by, and no supply of work changes. -/
structure Basis where
  settings : RunSettings
  capabilities : Capabilities
  files : FileSystem
  pendingTemplate : Option Path
  paused : Bool

/-- The paths that a run asks about, when its files give the answers of `reads`. -/
def Basis.Consults (b : Basis) (reads : FileSystem) : Path → Prop :=
  Consulted b.settings b.capabilities reads

/-- The files of a run give the answers of `reads`. -/
def Basis.Answers (b : Basis) (reads : FileSystem) : Prop :=
  b.files.Answers b.settings b.capabilities reads

namespace Scheduler

variable {γ : Type} {s u : Scheduler γ}

def supply (s : Scheduler γ) : Supply γ :=
  ⟨s.settings, s.capabilities, s.template, s.control, s.sweep, s.lastPassJobs, s.wildcards, s.random,
    s.queue.main, s.phase == .dispatching⟩

def basis (s : Scheduler γ) : Basis :=
  ⟨s.settings, s.capabilities, s.files, s.pendingTemplate, s.paused⟩

@[simp] theorem supply_note (e : LogEvent) (s : Scheduler γ) : (s.note e).supply = s.supply := rfl

@[simp] theorem supply_takeCompiled (t : Template) (c : Compiled) (s : Scheduler γ) :
    (s.takeCompiled t c).supply =
      { s.supply with
        lastPassJobs := c.jobs.length, main := s.supply.main ++ c.jobs, control := c.control } := rfl

@[simp] theorem supply_startSweep (control : RunControl) (s : Scheduler γ) :
    (s.startSweep control).supply =
      { s.supply with sweep := .ofLists control.modelSweep control.highresSweep } := rfl

/-- The end of the supply is all that draining means for it. -/
@[simp] theorem supply_beginDraining (s : Scheduler γ) :
    s.beginDraining.supply = { s.supply with dispatching := false } := by
  unfold beginDraining
  split
  · rfl
  · rename_i other
    have already : s.supply.dispatching = false := by simpa [supply] using other
    rw [← already]

@[simp] theorem supply_discardPending (s : Scheduler γ) :
    s.discardPending.supply = { s.supply with main := [] } := by
  unfold discardPending
  dsimp only
  split <;> rfl

/-- Wildcard files that cannot be read leave no wildcards. -/
theorem supply_reloadWildcards (s : Scheduler γ) :
    s.reloadWildcards.supply =
      { s.supply with wildcards := (WildcardTable.load s.files s.settings.wildcardDir).toOption.getD {} } := by
  unfold reloadWildcards
  cases WildcardTable.load s.files s.settings.wildcardDir <;> rfl

@[simp] theorem supply_settle (s : Scheduler γ) : s.settle.supply = s.supply := by
  unfold settle
  split
  · rename_i drained
    have draining : s.phase = .draining := by simp_all
    have still : s.supply.dispatching = false := by simp [supply, draining]
    have same : s.supply = { s.supply with dispatching := false } := by rw [← still]
    rw [same]
    rfl
  · rfl

@[simp] theorem supply_startJob (slot : Nat) (job : Job) (s : Scheduler γ) :
    (s.startJob slot job).supply = s.supply := rfl

@[simp] theorem basis_note (e : LogEvent) (s : Scheduler γ) : (s.note e).basis = s.basis := rfl

@[simp] theorem basis_beginDraining (s : Scheduler γ) : s.beginDraining.basis = s.basis := by
  unfold beginDraining
  split <;> rfl

@[simp] theorem basis_discardPending (s : Scheduler γ) : s.discardPending.basis = s.basis := by
  unfold discardPending
  dsimp only
  split <;> rfl

@[simp] theorem basis_reloadWildcards (s : Scheduler γ) : s.reloadWildcards.basis = s.basis := by
  unfold reloadWildcards
  split <;> rfl

@[simp] theorem basis_settle (s : Scheduler γ) : s.settle.basis = s.basis := by
  unfold settle
  split <;> rfl

/-- Two runs with the same supply dispatch together. -/
theorem dispatching_of_supply (same : s.supply = u.supply) :
    s.phase = .dispatching ↔ u.phase = .dispatching := by
  have both := congrArg Supply.dispatching same
  simp only [supply] at both
  rw [← beq_iff_eq, both, beq_iff_eq]

variable [Generator γ]

/-- The run after the random numbers of a compilation are drawn. -/
def drawn (t : Template) (s : Scheduler γ) : Scheduler γ :=
  { s with random := (s.compile t).2 }

@[simp] theorem supply_drawn (t : Template) (s : Scheduler γ) :
    (s.drawn t).supply = { s.supply with random := (s.compile t).2 } := rfl

/-- A pass compiles its template once, or a second time when a sweep starts with it. -/
theorem compilePass_eq (t : Template) (s : Scheduler γ) :
    s.compilePass t =
      if asksForSweep (s.compile t).1.control && !s.sweep.isActive then
        let swept := (s.drawn t).startSweep (s.compile t).1.control
        (swept.drawn t).takeCompiled t (swept.compile t).1
      else (s.drawn t).takeCompiled t (s.compile t).1 := by
  unfold compilePass drawn
  rfl

@[simp] theorem basis_compilePass (t : Template) (s : Scheduler γ) : (s.compilePass t).basis = s.basis := by
  unfold compilePass
  dsimp only
  split <;> rfl

@[simp] theorem basis_loadTemplate (path : Path) (s : Scheduler γ) : (s.loadTemplate path).basis = s.basis := by
  unfold loadTemplate
  dsimp only
  split
  · simp
  · rw [basis_compilePass]
    have cleared : s.reloadWildcards.discardPending.basis = s.basis := by simp
    generalize s.reloadWildcards.discardPending = v at cleared ⊢
    split <;> exact cleared

@[simp] theorem basis_advanceRun (s : Scheduler γ) : s.advanceRun.basis = s.basis := by
  unfold advanceRun
  repeat' split
  all_goals first | exact basis_beginDraining s | exact basis_compilePass _ _ | exact basis_loadTemplate _ _

@[simp] theorem basis_refilled (s : Scheduler γ) : s.refilled.basis = s.basis := by
  unfold refilled
  split <;> simp

theorem Hands.basis {t : Scheduler γ} {job : Option Job} (h : s.Hands job t) : t.basis = s.basis := by
  cases h with
  | priority | held => rfl
  | main | dry => exact basis_refilled s

/-! ## The same supply and the same answers -/

/-- A run knows the answers of `reads`: its files give them, and its template is one that they give. -/
structure Known (reads : FileSystem) (s : Scheduler γ) : Prop where
  answers : s.basis.Answers reads
  template : ∀ t ∈ s.template, ∃ path, s.basis.Consults reads path ∧ Template.load reads path = .ok t ∧
    ∃ draft, Drafted t s.settings.jobDefaults s.capabilities draft ∧ draft.control = s.control

variable {reads : FileSystem} {path : Path} {t : Template}

omit [Generator γ] in
theorem consults_of_supply (same : s.supply = u.supply) (consulted : s.basis.Consults reads path) :
    u.basis.Consults reads path := by
  have settings : s.settings = u.settings := congrArg Supply.settings same
  have capabilities : s.capabilities = u.capabilities := congrArg Supply.capabilities same
  unfold Basis.Consults basis at consulted ⊢
  rwa [← settings, ← capabilities]

omit [Generator γ] in
/-- Only what the run goes by, its template and what that says of the run matter. -/
theorem Known.of_same (h : s.Known reads) (basis : u.basis = s.basis) (template : u.template = s.template)
    (control : u.control = s.control) : u.Known reads := by
  have settings : u.settings = s.settings := congrArg Basis.settings basis
  have capabilities : u.capabilities = s.capabilities := congrArg Basis.capabilities basis
  refine ⟨?_, ?_⟩
  · rw [basis]
    exact h.answers
  · rw [basis, settings, capabilities, template, control]
    exact h.template

omit [Generator γ] in
/-- Beside the supply only the answers of the files matter. -/
theorem Known.of_supply (h : s.Known reads) (same : u.supply = s.supply) (answers : u.basis.Answers reads) :
    u.Known reads := by
  have settings : u.settings = s.settings := congrArg Supply.settings same
  have capabilities : u.capabilities = s.capabilities := congrArg Supply.capabilities same
  have template : u.template = s.template := congrArg Supply.template same
  have control : u.control = s.control := congrArg Supply.control same
  refine ⟨answers, ?_⟩
  unfold Basis.Consults basis
  rw [settings, capabilities, template, control]
  exact h.template

/-- Compiling a template that the answers give comes to the same with the answers themselves. -/
theorem compile_of_answers (answers : s.basis.Answers reads) (consulted : s.basis.Consults reads path)
    (read : Template.load reads path = .ok t) :
    s.compile t = { s with files := reads }.compile t ∧
      ∃ draft, Drafted t s.settings.jobDefaults s.capabilities draft ∧
        draft.control = (s.compile t).1.control := by
  refine compile_congr (b := reads) (S := s.basis.Consults reads) ⟨?_, ?_, ?_⟩ s.random
  · exact fun draft drafted p named => .image consulted read drafted named
  · intro dir among images found p mem
    have found : Image.list reads dir = .ok images := (answers.consulted dir among).images ▸ found
    exact .listed among found mem
  · exact answers.consulted

theorem compile_supply (same : s.supply = u.supply) (answers : s.basis.Answers reads)
    (answers' : u.basis.Answers reads) (consulted : s.basis.Consults reads path)
    (read : Template.load reads path = .ok t) : s.compile t = u.compile t := by
  have swapped : { s with files := reads }.compile t = { u with files := reads }.compile t := by
    have settings : s.settings = u.settings := congrArg Supply.settings same
    have capabilities : s.capabilities = u.capabilities := congrArg Supply.capabilities same
    have wildcards : s.wildcards = u.wildcards := congrArg Supply.wildcards same
    have sweep : s.sweep = u.sweep := congrArg Supply.sweep same
    have random : s.random = u.random := congrArg Supply.random same
    unfold compile
    rw [settings, capabilities, wildcards, sweep, random]
  have first := (compile_of_answers answers consulted read).1
  have second := (compile_of_answers answers' (consults_of_supply same consulted) read).1
  exact first.trans (swapped.trans second.symm)

theorem compilePass_supply (same : s.supply = u.supply) (answers : s.basis.Answers reads)
    (answers' : u.basis.Answers reads) (consulted : s.basis.Consults reads path)
    (read : Template.load reads path = .ok t) : (s.compilePass t).supply = (u.compilePass t).supply := by
  have first := compile_supply same answers answers' consulted read
  have sweep : s.sweep = u.sweep := congrArg Supply.sweep same
  have drew : (s.drawn t).supply = (u.drawn t).supply := by rw [supply_drawn, supply_drawn, first, same]
  rw [compilePass_eq, compilePass_eq, first, sweep]
  split
  · have started : ((s.drawn t).startSweep (u.compile t).1.control).supply =
        ((u.drawn t).startSweep (u.compile t).1.control).supply := by
      rw [supply_startSweep, supply_startSweep, drew]
    have second := compile_supply started answers answers' consulted read
    simp only [supply_takeCompiled, supply_drawn, second, started]
  · simp only [supply_takeCompiled, drew]

/-- A template that is compiled stays, and what it says of the run is taken over. -/
theorem known_compilePass (answers : s.basis.Answers reads) (template : s.template = some t)
    (consulted : s.basis.Consults reads path) (read : Template.load reads path = .ok t) :
    (s.compilePass t).Known reads := by
  have once : ∀ v : Scheduler γ, v.basis = s.basis → v.template = some t →
      ((v.drawn t).takeCompiled t (v.compile t).1).Known reads := by
    intro v basis here
    obtain ⟨_, said⟩ := compile_of_answers (basis ▸ answers) (basis ▸ consulted) read
    refine ⟨basis ▸ answers, fun t' mem => ?_⟩
    cases Option.some.inj (here.symm.trans mem)
    exact ⟨path, basis ▸ consulted, read, said⟩
  rw [compilePass_eq]
  split
  · exact once _ rfl template
  · exact once s rfl template

theorem advanceRun_of_spent (spent : s.template = none ∨ s.lastPassJobs = 0) :
    s.advanceRun = s.beginDraining := by
  unfold advanceRun
  split
  · rfl
  · rename_i t template
    rw [if_pos (spent.resolve_left (by simp [template]))]

theorem advanceRun_of_random (template : s.template = some t) (jobs : s.lastPassJobs ≠ 0)
    (mode : s.control.mode = .random) : s.advanceRun = s.compilePass t := by
  unfold advanceRun
  rw [template]
  dsimp only
  rw [if_neg jobs, if_pos mode]

theorem advanceRun_of_swept (template : s.template = some t) (jobs : s.lastPassJobs ≠ 0)
    (mode : s.control.mode ≠ .random) :
    s.advanceRun =
      if s.sweep.advance.2 ≠ .complete then { s with sweep := s.sweep.advance.1.recordLoop }.compilePass t
      else if s.control.repeats then
        (({ s with sweep := s.sweep.restart.recordLoop } : Scheduler γ).note (.info "Repeating template"
          [("loop_index", .number s.sweep.restart.recordLoop.loops.toNat)])).compilePass t
      else
        match s.control.nextTemplate with
        | some next =>
          (s.note (.info "Continuing with next template"
            [("template", .shown (s.resolveNext t next).text)])).loadTemplate (s.resolveNext t next)
        | none => s.beginDraining := by
  unfold advanceRun
  rw [template]
  dsimp only
  rw [if_neg jobs, if_neg mode]
  rcases s.sweep.advance with ⟨sweep, step⟩
  cases step <;> rfl

/-- A template that is read takes the place of all that came of the one before, and is compiled. -/
theorem loadTemplate_ok (read : Template.load s.files path = .ok t) :
    ∃ v : Scheduler γ, s.loadTemplate path = v.compilePass t ∧ v.basis = s.basis ∧
      v.supply =
        { s.supply with
          wildcards := (WildcardTable.load s.files s.settings.wildcardDir).toOption.getD {}
          main := [], template := some t, control := {}, sweep := {}
          dispatching := s.phase != .shuttingDown } := by
  have basis : s.reloadWildcards.discardPending.basis = s.basis := by simp
  have phase : s.reloadWildcards.discardPending.phase = s.phase := by simp
  have supply : s.reloadWildcards.discardPending.supply =
      { s.supply with
        wildcards := (WildcardTable.load s.files s.settings.wildcardDir).toOption.getD {}, main := [] } := by
    rw [supply_discardPending, supply_reloadWildcards]
  unfold loadTemplate
  rw [read]
  dsimp only
  generalize s.reloadWildcards.discardPending = cleared at basis phase supply ⊢
  refine ⟨_, rfl, ?_, ?_⟩
  · split <;> exact basis
  · have fields : ∀ b, ({ cleared.supply with template := some t, control := {}, sweep := {}, dispatching := b } :
        Supply γ) = { s.supply with
          wildcards := (WildcardTable.load s.files s.settings.wildcardDir).toOption.getD {}, main := []
          template := some t, control := {}, sweep := {}, dispatching := b } := by
      intro b
      rw [supply]
    rw [← fields]
    dsimp only
    cases now : s.phase <;> simp only [phase_note, phase, now] <;> simp [Scheduler.supply, note, phase, now]

theorem loadTemplate_supply (same : s.supply = u.supply) (dispatching : s.phase = .dispatching)
    (answers : s.basis.Answers reads) (answers' : u.basis.Answers reads)
    (consulted : s.basis.Consults reads path) :
    (s.loadTemplate path).supply = (u.loadTemplate path).supply := by
  have answer := (answers.consulted path consulted).template
  have answer' := (answers'.consulted path (consults_of_supply same consulted)).template
  cases read : Template.load reads path with
  | error e =>
    rw [loadTemplate_error (answer.trans read), loadTemplate_error (answer'.trans read), supply_beginDraining,
      supply_beginDraining, supply_note, supply_note, same]
  | ok t =>
    have dispatching' : u.phase = .dispatching := (dispatching_of_supply same).mp dispatching
    have settings : s.settings = u.settings := congrArg Supply.settings same
    have wildcards : WildcardTable.load s.files s.settings.wildcardDir =
        WildcardTable.load u.files u.settings.wildcardDir :=
      answers.wildcards.trans ((congrArg _ (congrArg _ settings)).trans answers'.wildcards.symm)
    obtain ⟨v, loaded, basis, supply⟩ := loadTemplate_ok (answer.trans read)
    obtain ⟨v', loaded', basis', supply'⟩ := loadTemplate_ok (answer'.trans read)
    rw [loaded, loaded']
    refine compilePass_supply ?_ (basis ▸ answers) (basis' ▸ answers') (basis ▸ consulted) read
    rw [supply, supply', same, wildcards, dispatching, dispatching']

omit [Generator γ] in
theorem Known.beginDraining (h : s.Known reads) : s.beginDraining.Known reads :=
  h.of_same (basis_beginDraining s) (congrArg Supply.template (supply_beginDraining s))
    (congrArg Supply.control (supply_beginDraining s))

theorem Known.loadTemplate (h : s.Known reads) (consulted : s.basis.Consults reads path) :
    (s.loadTemplate path).Known reads := by
  have answer := (h.answers.consulted path consulted).template
  cases read : Template.load reads path with
  | error e =>
    rw [loadTemplate_error (answer.trans read)]
    exact Known.beginDraining (s := s.note _) (h.of_same rfl rfl rfl)
  | ok t =>
    obtain ⟨v, loaded, basis, supply⟩ := loadTemplate_ok (answer.trans read)
    rw [loaded]
    exact known_compilePass (basis ▸ h.answers) (congrArg Supply.template supply) (basis ▸ consulted) read

omit [Generator γ] in
/-- Where the template that follows is does not depend on anything but the answers. -/
theorem Known.resolveNext (h : s.Known reads) {next : Path} (template : s.template = some t)
    (named : s.control.nextTemplate = some next) :
    s.resolveNext t next = { s with files := reads }.resolveNext t next ∧
      s.basis.Consults reads (s.resolveNext t next) := by
  obtain ⟨path, consulted, read, draft, drafted, said⟩ := h.template t template
  rw [← said] at named
  have follows : s.basis.Consults reads next := .next consulted read drafted named
  have isThere : s.files.exists? next = reads.exists? next := (h.answers.consulted next follows).isThere
  unfold Scheduler.resolveNext
  dsimp only
  rw [isThere]
  refine ⟨rfl, ?_⟩
  split
  · exact follows
  · split
    · rename_i dir parent
      exact .beside consulted read drafted named parent
    · exact follows

omit [Generator γ] in
theorem resolveNext_supply (same : s.supply = u.supply) (h : s.Known reads) (h' : u.Known reads) {next : Path}
    (template : s.template = some t) (named : s.control.nextTemplate = some next) :
    s.resolveNext t next = u.resolveNext t next := by
  have template' : u.template = some t := (congrArg Supply.template same).symm.trans template
  have control : s.control = u.control := congrArg Supply.control same
  rw [(h.resolveNext template named).1, (h'.resolveNext template' (control ▸ named)).1]
  rfl

/-- What comes after a pass is the same for two runs with the same supply and the same answers. -/
theorem advanceRun_supply (same : s.supply = u.supply) (h : s.Known reads) (h' : u.Known reads)
    (dispatching : s.phase = .dispatching) : s.advanceRun.supply = u.advanceRun.supply := by
  have drained : s.beginDraining.supply = u.beginDraining.supply := by
    rw [supply_beginDraining, supply_beginDraining, same]
  have template' : u.template = s.template := (congrArg Supply.template same).symm
  have control : u.control = s.control := (congrArg Supply.control same).symm
  have sweep : u.sweep = s.sweep := (congrArg Supply.sweep same).symm
  have jobs' : u.lastPassJobs = s.lastPassJobs := (congrArg Supply.lastPassJobs same).symm
  by_cases spent : s.template = none ∨ s.lastPassJobs = 0
  · rw [advanceRun_of_spent spent, advanceRun_of_spent (by rwa [template', jobs'])]
    exact drained
  obtain ⟨missing, jobs⟩ := not_or.mp spent
  obtain ⟨t, template⟩ := Option.ne_none_iff_exists'.mp missing
  obtain ⟨path, consulted, read, _⟩ := h.template t template
  rw [template] at template'
  have compiled : ∀ {v v' : Scheduler γ}, v.basis = s.basis → v'.basis = u.basis → v.supply = v'.supply →
      (v.compilePass t).supply = (v'.compilePass t).supply := fun {v v'} basis basis' same =>
    compilePass_supply same (basis ▸ h.answers) (basis' ▸ h'.answers) (basis ▸ consulted) read
  by_cases mode : s.control.mode = .random
  · rw [advanceRun_of_random template jobs mode,
      advanceRun_of_random template' (jobs' ▸ jobs) (control ▸ mode)]
    exact compiled rfl rfl same
  rw [advanceRun_of_swept template jobs mode, advanceRun_of_swept template' (jobs' ▸ jobs) (control ▸ mode)]
  -- The decision is the same, and so is what is done.
  rw [sweep, show u.control.repeats = s.control.repeats by rw [control],
    show u.control.nextTemplate = s.control.nextTemplate by rw [control]]
  split
  · exact compiled rfl rfl (congrArg (fun x : Supply γ => { x with sweep := s.sweep.advance.1.recordLoop }) same)
  · split
    · exact compiled rfl rfl (congrArg (fun x : Supply γ => { x with sweep := s.sweep.restart.recordLoop }) same)
    · split
      · rename_i next named
        rw [← resolveNext_supply same h h' template named]
        exact loadTemplate_supply (s := s.note _) (u := u.note _) same dispatching h.answers h'.answers
          (h.resolveNext template named).2
      · exact drained

theorem Known.advanceRun (h : s.Known reads) : s.advanceRun.Known reads := by
  by_cases spent : s.template = none ∨ s.lastPassJobs = 0
  · rw [advanceRun_of_spent spent]
    exact h.beginDraining
  obtain ⟨missing, jobs⟩ := not_or.mp spent
  obtain ⟨t, template⟩ := Option.ne_none_iff_exists'.mp missing
  obtain ⟨path, consulted, read, _⟩ := h.template t template
  have compiled : ∀ {v : Scheduler γ}, v.basis = s.basis → v.template = some t →
      (v.compilePass t).Known reads := fun {v} basis template =>
    known_compilePass (basis ▸ h.answers) template (basis ▸ consulted) read
  by_cases mode : s.control.mode = .random
  · rw [advanceRun_of_random template jobs mode]
    exact compiled rfl template
  rw [advanceRun_of_swept template jobs mode]
  split
  · exact compiled rfl template
  · split
    · exact compiled rfl template
    · split
      · rename_i next named
        exact Known.loadTemplate (s := s.note _) (h.of_same rfl rfl rfl) (h.resolveNext template named).2
      · exact h.beginDraining

theorem refilled_supply (same : s.supply = u.supply) (h : s.Known reads) (h' : u.Known reads)
    (dispatching : s.phase = .dispatching) : s.refilled.supply = u.refilled.supply := by
  have main : s.queue.main = u.queue.main := congrArg Supply.main same
  unfold refilled
  rw [main]
  split
  · exact advanceRun_supply same h h' dispatching
  · exact same

theorem Known.refilled (h : s.Known reads) : s.refilled.Known reads := by
  unfold Scheduler.refilled
  split
  · exact h.advanceRun
  · exact h

end Scheduler

end RenderFarm
