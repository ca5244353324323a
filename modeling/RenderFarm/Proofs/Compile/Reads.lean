import RenderFarm.Proofs.Compile.Standard

/-!
What a pass reads of the files. It looks only at images that a draft names, and at those listed in directories
that a draft names; a draft is what the directives of the template can lead to. Where two file systems agree
on these, passes come to the same.
-/

namespace RenderFarm

/-- A directive that stands in a template: in its `[config]` block, or marked among the tokens of a section. -/
inductive Template.Directs (t : Template) : Directive → Prop where
  | config {line : String} {d : Directive} (mem : line ∈ t.config)
      (parsed : Directive.parse? line = some d) : t.Directs d
  | embedded {s : Section} {token : String} {d : Directive} (mem : s ∈ t.sections)
      (within : token ∈ s.tokens) (parsed : Directive.parseEmbedded? token = some d) : t.Directs d

/-- Two file systems give the same answers about a path. -/
structure FileSystem.AgreesAt (a b : FileSystem) (p : Path) : Prop where
  template : Template.load a p = Template.load b p
  isThere : a.exists? p = b.exists? p
  directory : a.isDirectory p = b.isDirectory p
  file : a.isFile p = b.isFile p
  images : Image.list a p = Image.list b p
  record : ImageRecord.read a p = ImageRecord.read b p

/-- A job names an image: the one to start from, or the reference. -/
def Job.Names (job : Job) (p : Path) : Prop :=
  p ∈ job.inputImage ∨ p ∈ job.controlNet.inputImage

theorem Job.names_with_prompt {job : Job} {prompt : String} {p : Path} :
    { job with prompt }.Names p ↔ job.Names p := Iff.rfl

namespace Compile

/-- A draft that the directives of a template can lead to, whatever checkpoints a sweep puts into it. -/
inductive Drafted (t : Template) (defaults : Job) (caps : Capabilities) : Draft → Prop where
  | start : Drafted t defaults caps
      { Draft.ofDefaults defaults with job := { (Draft.ofDefaults defaults).job with templatePath := t.path } }
  | direct {draft : Draft} {d : Directive} (h : Drafted t defaults caps draft) (stands : t.Directs d) :
      Drafted t defaults caps (Directive.apply caps d.key d.value draft).1
  | override {p : Pass} (h : Drafted t defaults caps p.draft) (o : SweepOverrides) :
      Drafted t defaults caps (p.override o).draft

/-- The drafts that a pass can come to. -/
abbrev Context.Drafts (ctx : Context) : Draft → Prop :=
  Drafted ctx.template ctx.defaults ctx.capabilities

/-- Some paths take in all that a pass looks at, and another file system agrees on them. -/
structure Context.Covered (ctx : Context) (b : FileSystem) (S : Path → Prop) : Prop where
  named : ∀ draft, ctx.Drafts draft → ∀ p, draft.job.Names p → S p
  listed : ∀ dir, S dir → ∀ images, Image.list ctx.files dir = .ok images → ∀ p ∈ images, S p
  agree : ∀ p, S p → ctx.files.AgreesAt b p

/-- A pass has drafted nothing but what the template leads to, and remembers only images among some paths. -/
structure Pass.Within (ctx : Context) (S : Path → Prop) (p : Pass) : Prop where
  drafted : ctx.Drafts p.draft
  remembered : ∀ e ∈ p.imageDirs, ∀ image ∈ e.2, S image

section

variable {ctx : Context} {b : FileSystem} {S : Path → Prop} {p : Pass}

theorem Pass.Within.direct (h : p.Within ctx S) {d : Directive} (stands : ctx.template.Directs d) :
    (p.direct ctx.capabilities d).Within ctx S := by
  obtain ⟨draft, _, imageDirs⟩ := direct_spec ctx.capabilities d p
  refine ⟨?_, ?_⟩
  · rw [draft]
    exact h.drafted.direct stands
  · rw [imageDirs]
    exact h.remembered

theorem Pass.Within.configure (h : p.Within ctx S) {line : String} (mem : line ∈ ctx.template.config) :
    (p.configure ctx.capabilities line).Within ctx S := by
  unfold Pass.configure
  split
  · rename_i d parsed
    exact h.direct (.config mem parsed)
  · exact ⟨h.drafted, h.remembered⟩

/-- A pass starts with a draft of the template, and has looked at nothing. -/
theorem start_within (ctx : Context) (S : Path → Prop) : (Pass.start ctx).Within ctx S := by
  have configured := List.foldlRecOn (motive := Pass.Within ctx S) ctx.template.config
    (fun p line => p.configure ctx.capabilities line)
    (b := { draft := _, warnings := ctx.template.warnings }) ⟨.start, fun _ mem => nomatch mem⟩
    fun _ h _ mem => h.configure mem
  exact ⟨configured.drafted.override ctx.overrides, configured.remembered⟩

/-! ## Directives among tokens -/

/-- A selection takes its items from the list. -/
theorem subset_of_mem_selections {α : Type} {k : Nat} {items picked : List α}
    (mem : picked ∈ selections k items) : picked ⊆ items := by
  induction items generalizing k picked with
  | nil =>
    cases k with
    | zero =>
      obtain rfl : picked = [] := by simpa [selections] using mem
      exact List.Subset.refl _
    | succ k => simp [selections] at mem
  | cons x xs ih =>
    cases k with
    | zero =>
      obtain rfl : picked = [] := by simpa [selections] using mem
      exact List.nil_subset _
    | succ k =>
      rw [selections, List.mem_append] at mem
      obtain first | later := mem
      · obtain ⟨others, mem, rfl⟩ := List.mem_map.mp first
        exact List.cons_subset_cons x (ih mem)
      · split at later
        · cases later
        · exact List.Subset.trans (ih later) (List.subset_cons_self x xs)

theorem subset_of_mem_combinations {α : Type} {k : Nat} {tokens picked : List α}
    (mem : picked ∈ combinations tokens k) : picked ⊆ tokens := by
  unfold combinations at mem
  split at mem
  · obtain rfl : picked = [] := by simpa using mem
    exact List.nil_subset _
  · split at mem
    · obtain rfl : picked = tokens := by simpa using mem
      exact List.Subset.refl _
    · exact subset_of_mem_selections mem

variable {γ : Type} [Generator γ]

/-- The tokens of a combination stand in the sections. -/
theorem exists_section_of_mem_product {sections : List Section} {g : γ}
    {picks : List (List String)} (mem : picks ∈ product (drawsOf sections g).1) {token : String}
    (picked : token ∈ picks.flatten) : ∃ s ∈ sections, token ∈ s.tokens := by
  induction sections generalizing g picks with
  | nil =>
    obtain rfl : picks = [] := by simpa [drawsOf, product] using mem
    cases picked
  | cons s rest ih =>
    simp only [drawsOf, product, List.mem_flatMap, List.mem_map] at mem
    obtain ⟨first, drawn, others, mem, rfl⟩ := mem
    rw [List.flatten_cons, List.mem_append] at picked
    obtain here | there := picked
    · exact ⟨s, List.mem_cons_self, subset_of_mem_combinations drawn here⟩
    · obtain ⟨s', mem', within⟩ := ih mem there
      exact ⟨s', List.mem_cons_of_mem s mem', within⟩

/-- A directive that is drawn from a section stands in it. -/
theorem mem_tokens_of_drawn {s : Section} {picked : List Nat} {token : String} {d : Directive}
    (drawn : token ∈ picked.map fun i => s.tokens.getD i "")
    (parsed : Directive.parseEmbedded? token = some d) : token ∈ s.tokens := by
  obtain ⟨i, -, rfl⟩ := List.mem_map.mp drawn
  rw [List.getD_eq_getElem?_getD] at parsed ⊢
  cases there : s.tokens[i]? with
  | some token => exact List.mem_of_getElem? there
  | none =>
    -- A draw beyond the tokens would be the empty text, which is no directive.
    have empty : Directive.parseEmbedded? "" = none := by decide
    rw [there] at parsed
    exact absurd (empty.symm.trans parsed) (by simp)

/-- Tokens taken from a section keep a pass within the paths, whatever file system is at hand. -/
theorem takeTokens_congr (h : p.Within ctx S) (tokens : List String)
    (stand : ∀ token ∈ tokens, ∀ d, Directive.parseEmbedded? token = some d → ctx.template.Directs d) :
    takeTokens ctx tokens p = takeTokens { ctx with files := b } tokens p ∧
      (takeTokens ctx tokens p).2.Within ctx S := by
  induction tokens generalizing p with
  | nil => exact ⟨rfl, h⟩
  | cons token rest ih =>
    obtain ⟨first, later⟩ := List.forall_mem_cons.mp stand
    unfold takeTokens
    cases parsed : Directive.parseEmbedded? token with
    | some d => exact ih (h.direct (first d parsed)) later
    | none =>
      obtain ⟨same, within⟩ := ih h later
      dsimp only
      rw [← same]
      exact ⟨rfl, within⟩

theorem sampleSections_congr (h : p.Within ctx S) {sections : List Section}
    (stand : ∀ s ∈ sections, s ∈ ctx.template.sections) (g : γ) :
    sampleSections ctx sections p g = sampleSections { ctx with files := b } sections p g ∧
      (sampleSections ctx sections p g).2.1.Within ctx S := by
  induction sections generalizing p g with
  | nil => exact ⟨rfl, h⟩
  | cons s rest ih =>
    obtain ⟨first, later⟩ := List.forall_mem_cons.mp stand
    unfold sampleSections
    dsimp only
    obtain ⟨same, within⟩ := takeTokens_congr (b := b) h
      ((Random.sample s.tokens.length (min (pickCount s g).1 s.tokens.length) (pickCount s g).2).1.map
        fun i => s.tokens.getD i "") fun token drawn d parsed =>
          .embedded first (mem_tokens_of_drawn drawn parsed) parsed
    obtain ⟨same', within'⟩ := ih within later
      (Random.sample s.tokens.length (min (pickCount s g).1 s.tokens.length) (pickCount s g).2).2
    rw [← same, ← same']
    exact ⟨rfl, within'⟩

/-- Finishing jobs reads nothing. -/
theorem finishJobs_files (movesSeeds : Bool) (n : Nat) (jobs : List Job) (g : γ) :
    finishJobs ctx movesSeeds n jobs g = finishJobs { ctx with files := b } movesSeeds n jobs g := by
  induction jobs generalizing n g with
  | nil => rfl
  | cons job rest ih =>
    unfold finishJobs
    dsimp only
    rw [ih]

/-! ## Looking at images -/

variable (covered : ctx.Covered b S)
include covered

/-- The images of a directory that is among the paths are there for both, and are among the paths. -/
theorem images_congr (h : p.Within ctx S) {dir : Path} (among : S dir) :
    p.images ctx.files dir = p.images b dir ∧ (∀ image ∈ (p.images ctx.files dir).1, S image) ∧
      (p.images ctx.files dir).2.Within ctx S := by
  have same := (covered.agree dir among).images
  refine ⟨by unfold Pass.images; rw [same], ?_⟩
  unfold Pass.images
  split
  · rename_i d found known
    exact ⟨h.remembered _ (List.mem_of_find?_eq_some known), h⟩
  · cases listed : Image.list ctx.files dir with
    | ok found =>
      have inside := covered.listed dir among found listed
      dsimp only
      split <;> exact ⟨inside, h.drafted, List.forall_mem_cons.mpr ⟨inside, h.remembered⟩⟩
    | error e => exact ⟨by simp, h.drafted, List.forall_mem_cons.mpr ⟨by simp, h.remembered⟩⟩

theorem imageChoices_congr (h : p.Within ctx S) {setting : Option Path} (among : ∀ image ∈ setting, S image) :
    p.imageChoices ctx.files setting = p.imageChoices b setting ∧
      (p.imageChoices ctx.files setting).2.Within ctx S := by
  unfold Pass.imageChoices
  cases setting with
  | none => exact ⟨rfl, h⟩
  | some path =>
    obtain ⟨same, _, within⟩ := images_congr covered h (among path rfl)
    have directory := (covered.agree path (among path rfl)).directory
    simp only [Option.filter_some, directory]
    cases b.isDirectory path with
    | true => exact ⟨by simp only [if_true, same], within⟩
    | false => exact ⟨rfl, h⟩

theorem expandImages_congr (h : p.Within ctx S) (job : Job) (among : ∀ image, job.Names image → S image) :
    expandImages ctx.files job p = expandImages b job p ∧ (expandImages ctx.files job p).2.Within ctx S := by
  obtain ⟨inputs, within⟩ := imageChoices_congr covered h fun image mem => among image (.inl mem)
  obtain ⟨references, within'⟩ := imageChoices_congr covered within fun image mem => among image (.inr mem)
  refine ⟨?_, within'⟩
  unfold expandImages
  dsimp only
  rw [← inputs, ← references]

/-! ## The modes -/

/-- Directives among picked tokens stand in the template. -/
theorem standardStep_congr (h : p.Within ctx S) {picks : List (List String)}
    (stand : ∀ d ∈ picks.flatten.filterMap Directive.parseEmbedded?, ctx.template.Directs d) :
    standardStep ctx p picks = standardStep { ctx with files := b } p picks ∧
      (standardStep ctx p picks).Within ctx S := by
  unfold standardStep
  dsimp only
  generalize picks.flatten.filterMap Directive.parseEmbedded? = directives at stand ⊢
  split
  · obtain ⟨same, within⟩ := expandImages_congr covered h
      { p.draft.job with prompt := promptOf p.draft.control ctx.template.sections picks }
      fun image named => covered.named p.draft h.drafted image (Job.names_with_prompt.mp named)
    exact ⟨by rw [same], within.drafted, within.remembered⟩
  · refine ⟨rfl, ?_⟩
    exact List.foldlRecOn (motive := Pass.Within ctx S) directives _ h fun _ h d mem => h.direct (stand d mem)

theorem foldl_standardStep_congr (h : p.Within ctx S) (combinations : List (List (List String)))
    (stand : ∀ picks ∈ combinations, ∀ d ∈ picks.flatten.filterMap Directive.parseEmbedded?,
      ctx.template.Directs d) :
    combinations.foldl (standardStep ctx) p = combinations.foldl (standardStep { ctx with files := b }) p ∧
      (combinations.foldl (standardStep ctx) p).Within ctx S := by
  induction combinations generalizing p with
  | nil =>
    rw [List.foldl_nil, List.foldl_nil]
    exact ⟨rfl, h⟩
  | cons picks rest ih =>
    obtain ⟨first, later⟩ := List.forall_mem_cons.mp stand
    obtain ⟨same, within⟩ := standardStep_congr covered h first
    obtain ⟨same', within'⟩ := ih within later
    rw [List.foldl_cons, List.foldl_cons, ← same, ← same']
    exact ⟨rfl, within'⟩

theorem standard_congr (h : p.Within ctx S) (g : γ) :
    standard ctx p g = standard { ctx with files := b } p g ∧ (standard ctx p g).1.Within ctx S := by
  unfold standard
  dsimp only
  split
  · exact ⟨rfl, h.drafted, h.remembered⟩
  · rw [Odometer.run_choice, Odometer.run_choice]
    obtain ⟨same, within⟩ := foldl_standardStep_congr covered h
      (product (drawsOf ctx.template.sections g).1) fun picks mem d directive => by
        obtain ⟨token, picked, parsed⟩ := List.mem_filterMap.mp directive
        obtain ⟨s, mem, within⟩ := exists_section_of_mem_product mem picked
        exact .embedded mem within parsed
    exact ⟨by rw [same], within⟩

theorem deferDirectory_congr (job : Job) (among : ∀ image, job.Names image → S image) :
    deferDirectory ctx.files job = deferDirectory b job := by
  unfold deferDirectory
  cases input : job.inputImage with
  | none => rfl
  | some image =>
    have directory := (covered.agree image (among image (.inl input))).directory
    simp only [Option.filter_some, directory]

theorem sampleJobs_congr (h : p.Within ctx S) (n : Nat) (g : γ) :
    sampleJobs ctx n p g = sampleJobs { ctx with files := b } n p g ∧
      (sampleJobs ctx n p g).1.Within ctx S := by
  induction n generalizing p g with
  | zero => exact ⟨rfl, h⟩
  | succ n ih =>
    obtain ⟨same, within⟩ := sampleSections_congr (b := b) h (fun _ mem => mem) g
    unfold sampleJobs
    dsimp only
    rw [← same]
    generalize sampleSections ctx ctx.template.sections p g = drawn at within ⊢
    obtain ⟨picks, q, g⟩ := drawn
    have deferred := deferDirectory_congr covered
      { q.draft.job with prompt := promptOf q.draft.control ctx.template.sections picks }
      fun image named => covered.named q.draft within.drafted image (Job.names_with_prompt.mp named)
    dsimp only
    rw [← deferred]
    exact ih (p := q.emit _) ⟨within.drafted, within.remembered⟩ g

theorem random_congr (h : p.Within ctx S) (g : γ) :
    random ctx p g = random { ctx with files := b } p g ∧ (random ctx p g).1.Within ctx S := by
  unfold random
  dsimp only
  split
  · exact ⟨rfl, h.drafted, h.remembered⟩
  · exact sampleJobs_congr covered h _ g

theorem jobOfSource_congr (job : Job) {source : Path} (among : S source) :
    jobOfSource ctx.files job source = jobOfSource b job source := by
  unfold jobOfSource
  rw [(covered.agree source among).record]

theorem processRow_congr (h : p.Within ctx S) :
    processRow ctx p = processRow { ctx with files := b } p ∧ (processRow ctx p).2.Within ctx S := by
  unfold processRow
  dsimp only
  cases input : p.draft.job.inputImage with
  | none => exact ⟨rfl, h.drafted, h.remembered⟩
  | some image =>
    have among : S image := covered.named p.draft h.drafted image (.inl input)
    obtain ⟨same, inside, within⟩ := images_congr covered h among
    dsimp only
    rw [← (covered.agree image among).directory, ← (covered.agree image among).file]
    split
    · refine ⟨?_, within⟩
      rw [← same]
      refine Prod.ext (List.map_congr_left fun source mem => ?_) rfl
      exact jobOfSource_congr covered _ (inside source mem)
    · split
      · exact ⟨by rw [jobOfSource_congr covered _ among], h⟩
      · exact ⟨rfl, h.drafted, h.remembered⟩

theorem processRows_congr (h : p.Within ctx S) (tokens : List String)
    (stand : ∀ token ∈ tokens, ∀ d, Directive.parseEmbedded? token = some d → ctx.template.Directs d) :
    processRows ctx tokens p = processRows { ctx with files := b } tokens p ∧
      (processRows ctx tokens p).2.Within ctx S := by
  induction tokens generalizing p with
  | nil => exact ⟨rfl, h⟩
  | cons token rest ih =>
    obtain ⟨first, later⟩ := List.forall_mem_cons.mp stand
    unfold processRows
    cases parsed : Directive.parseEmbedded? token with
    | some d => exact ih (h.direct (first d parsed)) later
    | none =>
      dsimp only
      split
      · obtain ⟨same, within⟩ := processRow_congr covered h
        obtain ⟨same', within'⟩ := ih within later
        rw [← same, ← same']
        exact ⟨rfl, within'⟩
      · exact ih ⟨h.drafted, h.remembered⟩ later

theorem process_congr (h : p.Within ctx S) :
    process ctx p = process { ctx with files := b } p ∧ (process ctx p).Within ctx S := by
  unfold process
  cases sections : ctx.template.sections with
  | nil => exact ⟨rfl, h.drafted, h.remembered⟩
  | cons s rest =>
    have first : s ∈ ctx.template.sections := sections ▸ List.mem_cons_self
    obtain ⟨same, within⟩ := processRows_congr covered h s.tokens
      fun token mem d parsed => .embedded first mem parsed
    dsimp only
    rw [← same]
    refine ⟨rfl, ?_⟩
    split <;> exact ⟨within.drafted, within.remembered⟩

theorem expandSections_congr (h : p.Within ctx S) (g : γ) :
    expandSections ctx p g = expandSections { ctx with files := b } p g ∧
      (expandSections ctx p g).1.Within ctx S := by
  unfold expandSections
  cases p.draft.control.mode with
  | standard => exact standard_congr covered h g
  | random => exact random_congr covered h g
  | process =>
    obtain ⟨same, within⟩ := process_congr covered h
    exact ⟨by rw [same], within⟩

/-- A pass comes to the same on both file systems, and what it says about the run stands in the template. -/
theorem compile_congr (g : γ) :
    compile ctx g = compile { ctx with files := b } g ∧
      ∃ draft, ctx.Drafts draft ∧ draft.control = (compile ctx g).1.control := by
  obtain ⟨same, within⟩ := expandSections_congr covered (start_within ctx S) g
  have started : Pass.start { ctx with files := b } = Pass.start ctx := rfl
  refine ⟨?_, _, within.drafted, rfl⟩
  unfold compile
  rw [started, ← same]
  dsimp only
  rw [finishJobs_files (b := b)]

end

end Compile

end RenderFarm
