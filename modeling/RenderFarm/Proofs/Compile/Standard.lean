import RenderFarm.Compile.Pass
import RenderFarm.Proofs.Compile.Odometer
import RenderFarm.Proofs.Files.Spelling

/-!
What compiling in standard mode comes to: a plain fold over the product of the sections' draws. The fold looks
into a directory afresh each time, so its images come in the spelling of the setting at hand; the pass
remembers directories by their components, and its images come in the spelling that was met first.
-/

namespace RenderFarm

/-- Two settings of an image that are the same but for the spelling of the path. -/
def SameImage (a b : Option Path) : Prop :=
  a.map Path.components = b.map Path.components

/-- Two jobs that are the same but for the spelling of their images' paths. -/
def Job.SameImages (a b : Job) : Prop :=
  SameImage a.inputImage b.inputImage ∧ SameImage a.controlNet.inputImage b.controlNet.inputImage ∧
    a = { b with inputImage := a.inputImage
                 controlNet := { b.controlNet with inputImage := a.controlNet.inputImage } }

namespace Compile

variable {γ : Type} [Generator γ]

/-- How many tokens are picked from each section, rolled in the order of the sections. -/
def rolls : List Section → γ → List Nat × γ
  | [], g => ([], g)
  | s :: rest, g => ((pickCount s g).1 :: (rolls rest (pickCount s g).2).1, (rolls rest (pickCount s g).2).2)

/-- The combinations of a template, in lexicographic order, the last section fastest. -/
def combinationsOf (sections : List Section) (g : γ) : List (List (List String)) :=
  product (List.zipWith (fun s k => combinations s.tokens k) sections (rolls sections g).1)

/-- What a fold over the combinations carries along. -/
structure Outcome where
  draft : Draft
  jobs : List Job := []

/-- What a setting of an image stands for: the images of a directory, or the setting itself. -/
def imagesOf (fs : FileSystem) (setting : Option Path) : List (Option Path) :=
  match setting with
  | none => [none]
  | some path => if fs.isDirectory path then (Image.found fs path).map some else [some path]

/-- One job for every pair of an input image and a reference image, the inputs outermost. -/
def pairs (fs : FileSystem) (job : Job) : List Job :=
  (imagesOf fs job.inputImage).flatMap fun input =>
    (imagesOf fs job.controlNet.inputImage).map fun reference =>
      { job with inputImage := input, controlNet := { job.controlNet with inputImage := reference } }

/-- Takes in a combination: one that holds directives applies them in order and makes no job, any other one
makes a job from the draft. -/
def Outcome.take (ctx : Context) (n : Outcome) (combination : List (List String)) : Outcome :=
  match combination.flatten.filterMap Directive.parseEmbedded? with
  | [] =>
    let fragments := List.zipWith (fun words s => Prompt.join words s.delimiter) combination ctx.template.sections
    let prompt := Prompt.clean (Prompt.join fragments n.draft.control.delimiter)
    { n with jobs := n.jobs ++ pairs ctx.files { n.draft.job with prompt } }
  | directives =>
    { n with draft := directives.foldl (fun draft d => (Directive.apply ctx.capabilities d.key d.value draft).1) n.draft }

/-- The draws of the sections are the combinations for the numbers that are rolled. -/
theorem drawsOf_eq (sections : List Section) (g : γ) :
    drawsOf sections g =
      (List.zipWith (fun s k => combinations s.tokens k) sections (rolls sections g).1, (rolls sections g).2) := by
  induction sections generalizing g with
  | nil => rfl
  | cons s rest ih => simp [drawsOf, rolls, ih]

/-! ## Looking into directories -/

/-- What a pass remembers of directories is what is found there. -/
def Pass.Remembers (fs : FileSystem) (p : Pass) : Prop :=
  ∀ e ∈ p.imageDirs, e.2 = Image.found fs e.1

/-- The images of a directory, as a pass knows them, are those found there, in the spelling in which the directory was
met first. Nothing else of the pass changes. -/
theorem images_found {fs : FileSystem} {p : Pass} (remembers : p.Remembers fs) (dir : Path) :
    (∃ d, d.components = dir.components ∧ (p.images fs dir).1 = Image.found fs d) ∧
      (p.images fs dir).2.draft = p.draft ∧ (p.images fs dir).2.jobs = p.jobs ∧
      (p.images fs dir).2.Remembers fs := by
  unfold Pass.images
  split
  · rename_i d found known
    have same : d.components = dir.components := by
      simpa [Path.sameAs] using List.find?_some known
    have looked : found = Image.found fs d := remembers _ (List.mem_of_find?_eq_some known)
    exact ⟨⟨d, same, looked⟩, rfl, rfl, remembers⟩
  -- What is found now is remembered, an unreadable directory as an empty one.
  · have more : ∀ found, found = Image.found fs dir →
        ∀ e ∈ (dir, found) :: p.imageDirs, e.2 = Image.found fs e.1 :=
      fun found looked => List.forall_mem_cons.mpr ⟨looked, remembers⟩
    cases listed : Image.list fs dir with
    | ok found =>
      have looked : found = Image.found fs dir := by simp [Image.found, listed, Except.toOption]
      dsimp only
      split <;> exact ⟨⟨dir, rfl, looked⟩, rfl, rfl, more found looked⟩
    | error e =>
      have looked : [] = Image.found fs dir := by simp [Image.found, listed, Except.toOption]
      exact ⟨⟨dir, rfl, looked⟩, rfl, rfl, more [] looked⟩

/-- The images of a directory, as a pass knows them, are those found there but for their spelling. Nothing
else of the pass changes. -/
theorem images_spec {fs : FileSystem} {p : Pass} (remembers : p.Remembers fs) (dir : Path) :
    (p.images fs dir).1.map Path.components = (Image.found fs dir).map Path.components ∧
      (p.images fs dir).2.draft = p.draft ∧ (p.images fs dir).2.jobs = p.jobs ∧
      (p.images fs dir).2.Remembers fs := by
  obtain ⟨⟨d, same, looked⟩, rest⟩ := images_found remembers dir
  exact ⟨looked ▸ Image.found_congr fs same, rest⟩

/-- What a setting stands for does not depend on what the pass remembers, but for the spelling. -/
theorem imageChoices_spec {fs : FileSystem} {p : Pass} (remembers : p.Remembers fs) (setting : Option Path) :
    List.Forall₂ SameImage (p.imageChoices fs setting).1 (imagesOf fs setting) ∧
      (p.imageChoices fs setting).2.draft = p.draft ∧ (p.imageChoices fs setting).2.jobs = p.jobs ∧
      (p.imageChoices fs setting).2.Remembers fs := by
  unfold Pass.imageChoices
  cases setting with
  | none => exact ⟨.cons rfl .nil, rfl, rfl, remembers⟩
  | some path =>
    unfold imagesOf
    by_cases directory : fs.isDirectory path
    · obtain ⟨same, draft, jobs, remembers'⟩ := images_spec remembers path
      have choices : List.Forall₂ SameImage ((p.images fs path).1.map some)
          ((Image.found fs path).map some) := by
        have equal : List.Forall₂ Eq ((p.images fs path).1.map Path.components)
            ((Image.found fs path).map Path.components) := by
          rw [List.forall₂_eq_eq_eq, same]
        rw [List.forall₂_map_left_iff, List.forall₂_map_right_iff] at equal ⊢
        exact equal.imp fun _ _ spelled => congrArg some spelled
      simp only [Option.filter_some, directory, if_true]
      exact ⟨choices, draft, jobs, remembers'⟩
    · simp only [Option.filter_some, directory]
      exact ⟨.cons rfl .nil, rfl, rfl, remembers⟩

theorem expandImages_spec {fs : FileSystem} {p : Pass} (remembers : p.Remembers fs) (job : Job) :
    List.Forall₂ Job.SameImages (expandImages fs job p).1 (pairs fs job) ∧
      (expandImages fs job p).2.draft = p.draft ∧ (expandImages fs job p).2.jobs = p.jobs ∧
      (expandImages fs job p).2.Remembers fs := by
  obtain ⟨inputs, draft, jobs, remembers'⟩ := imageChoices_spec remembers job.inputImage
  obtain ⟨references, draft', jobs', remembers''⟩ := imageChoices_spec remembers' job.controlNet.inputImage
  refine ⟨?_, draft'.trans draft, jobs'.trans jobs, remembers''⟩
  refine List.rel_flatMap inputs fun input input' sameInput => ?_
  refine List.rel_map (fun reference reference' sameReference => ?_) references
  exact ⟨sameInput, sameReference, rfl⟩

/-! ## One combination after another -/

/-- A pass that has come as far as a fold. -/
structure Follows (fs : FileSystem) (p : Pass) (n : Outcome) : Prop where
  draft : p.draft = n.draft
  jobs : List.Forall₂ Job.SameImages p.jobs n.jobs
  remembers : p.Remembers fs

/-- A directive changes the draft, and warns at most. -/
theorem direct_spec (caps : Capabilities) (d : Directive) (p : Pass) :
    (p.direct caps d).draft = (Directive.apply caps d.key d.value p.draft).1 ∧
      (p.direct caps d).jobs = p.jobs ∧ (p.direct caps d).imageDirs = p.imageDirs := by
  unfold Pass.direct
  rcases Directive.apply caps d.key d.value p.draft with ⟨_, report⟩
  cases report <;> exact ⟨rfl, rfl, rfl⟩

/-- Directives change the draft, one after another, and warn at most. -/
theorem directives_spec (caps : Capabilities) (directives : List Directive) (p : Pass) :
    (directives.foldl (fun p d => p.direct caps d) p).draft =
        directives.foldl (fun draft d => (Directive.apply caps d.key d.value draft).1) p.draft ∧
      (directives.foldl (fun p d => p.direct caps d) p).jobs = p.jobs ∧
      (directives.foldl (fun p d => p.direct caps d) p).imageDirs = p.imageDirs := by
  induction directives generalizing p with
  | nil => exact ⟨rfl, rfl, rfl⟩
  | cons d rest ih =>
    obtain ⟨draft, jobs, imageDirs⟩ := ih (p.direct caps d)
    obtain ⟨draft', jobs', imageDirs'⟩ := direct_spec caps d p
    rw [List.foldl_cons, List.foldl_cons, draft, jobs, imageDirs, draft', jobs', imageDirs']
    exact ⟨rfl, rfl, rfl⟩

theorem Follows.step {ctx : Context} {p : Pass} {n : Outcome} (h : Follows ctx.files p n)
    (picks : List (List String)) : Follows ctx.files (standardStep ctx p picks) (n.take ctx picks) := by
  unfold standardStep Outcome.take
  cases picks.flatten.filterMap Directive.parseEmbedded? with
  | nil =>
    have prompt : promptOf p.draft.control ctx.template.sections picks =
        Prompt.clean (Prompt.join (List.zipWith (fun words s => Prompt.join words s.delimiter) picks
          ctx.template.sections) n.draft.control.delimiter) := by
      rw [promptOf, h.draft, List.zip, List.map_zipWith]
    obtain ⟨same, draft, jobs, remembers⟩ := expandImages_spec h.remembers
      { p.draft.job with prompt := promptOf p.draft.control ctx.template.sections picks }
    refine ⟨draft.trans h.draft, ?_, remembers⟩
    dsimp only
    rw [← prompt, ← h.draft]
    have emitted := List.rel_append h.jobs same
    rw [← jobs] at emitted
    exact emitted
  | cons d rest =>
    obtain ⟨draft, jobs, imageDirs⟩ := directives_spec ctx.capabilities (d :: rest) p
    simp only [List.isEmpty_cons, Bool.false_eq_true, if_false]
    refine ⟨?_, ?_, ?_⟩
    · rw [draft, h.draft]
    · rw [jobs]
      exact h.jobs
    · unfold Pass.Remembers
      rw [imageDirs]
      exact h.remembers

theorem Follows.foldl {ctx : Context} {p : Pass} {n : Outcome} (h : Follows ctx.files p n)
    (combinations : List (List (List String))) :
    Follows ctx.files (combinations.foldl (standardStep ctx) p) (combinations.foldl (Outcome.take ctx) n) := by
  induction combinations generalizing p n with
  | nil => exact h
  | cons picks rest ih => exact ih (h.step picks)

/-- The `[config]` block makes no jobs and looks into no directories. -/
theorem configure_spec (caps : Capabilities) (lines : List String) (p : Pass) :
    (lines.foldl (fun p line => p.configure caps line) p).jobs = p.jobs ∧
      (lines.foldl (fun p line => p.configure caps line) p).imageDirs = p.imageDirs := by
  induction lines generalizing p with
  | nil => exact ⟨rfl, rfl⟩
  | cons line rest ih =>
    obtain ⟨jobs, imageDirs⟩ := ih (p.configure caps line)
    have one : (p.configure caps line).jobs = p.jobs ∧ (p.configure caps line).imageDirs = p.imageDirs := by
      unfold Pass.configure
      split
      · rename_i d _
        exact (direct_spec caps d p).2
      · exact ⟨rfl, rfl⟩
    rw [List.foldl_cons, jobs, imageDirs]
    exact one

end Compile

end RenderFarm
