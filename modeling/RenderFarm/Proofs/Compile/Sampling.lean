import RenderFarm.Proofs.Compile.Mode
import RenderFarm.Proofs.Random

/-!
What compiling in random mode comes to. The positions that are picked depend on the sections and the random numbers
alone, so a pass can be told in two steps: first all rounds are drawn, and then each round makes one job from the draft
as the directives of this round and the rounds before it leave it.
-/

namespace RenderFarm

/-- What may be picked from a section: distinct positions of its tokens, as many as its bounds say, or as it has. -/
structure Section.Picked (s : Section) (picked : List Nat) : Prop extends Random.Positions s.tokens.length picked where
  enough : min s.minPick s.tokens.length ≤ picked.length
  few : picked.length ≤ min s.maxPick s.tokens.length

/-- The tokens at some positions, in the order of the positions. -/
def Section.tokensAt (s : Section) (picked : List Nat) : List String :=
  picked.filterMap fun i => s.tokens[i]?

/-- A job that is drafted, and as it is made when a directory is named as its input image: the directory is moved to
where an image is drawn from. -/
inductive Job.Deferred (fs : FileSystem) (job : Job) : Job → Prop
  | directory {dir : Path} (named : job.inputImage = some dir) (there : fs.isDirectory dir) :
      Deferred fs job { job with inputImage := none, randomInputDir := some dir }
  | other (image : ∀ path, job.inputImage = some path → ¬ fs.isDirectory path) : Deferred fs job job

theorem Job.Deferred.image {fs : FileSystem} {job made : Job} (h : job.Deferred fs made) :
    ∀ path, made.inputImage = some path → ¬ fs.isDirectory path := by
  cases h with
  | directory => exact fun path image => nomatch image
  | other image => exact image

namespace Compile

variable {γ : Type} [Generator γ]

/-! ## Rounds -/

/-- The positions that are picked from each section in one round. -/
def picksOf : List Section → γ → List (List Nat) × γ
  | [], g => ([], g)
  | s :: rest, g =>
    let (k, g) := pickCount s g
    let (picked, g) := Random.sample s.tokens.length (min k s.tokens.length) g
    let (others, g) := picksOf rest g
    (picked :: others, g)

/-- The picks of a number of rounds. -/
def roundsOf (sections : List Section) : Nat → γ → List (List (List Nat)) × γ
  | 0, g => ([], g)
  | n + 1, g =>
    let (round, g) := picksOf sections g
    let (rounds, g) := roundsOf sections n g
    (round :: rounds, g)

/-- The directives that are picked in a round, in order. -/
def directivesOf (sections : List Section) (round : List (List Nat)) : List Directive :=
  (List.zipWith Section.tokensAt sections round).flatten.filterMap Directive.parseEmbedded?

/-- The tokens that are no directives. -/
def wordsOf (tokens : List String) : List String :=
  tokens.filter fun token => (Directive.parseEmbedded? token).isNone

/-- The prompt of a round. Directives bring no text into it. -/
def promptOfRound (control : RunControl) (sections : List Section) (round : List (List Nat)) : String :=
  let fragments := List.zipWith (fun s picked => Prompt.join (wordsOf (s.tokensAt picked)) s.delimiter) sections round
  Prompt.clean (Prompt.join fragments control.delimiter)

/-- The job of a round as it is drafted. -/
def jobOfRound (sections : List Section) (d : Draft) (round : List (List Nat)) : Job :=
  { d.job with prompt := promptOfRound d.control sections round }

theorem pickCount_le (s : Section) (g : γ) : s.minPick ≤ (pickCount s g).1 ∧ (pickCount s g).1 ≤ s.maxPick := by
  have ordered := s.minPick_le_maxPick
  unfold pickCount
  split
  · exact ⟨Nat.le_refl _, ordered⟩
  · exact Random.between_le ordered g

theorem picked_of_sample (s : Section) (g g' : γ) :
    s.Picked (Random.sample s.tokens.length (min (pickCount s g).1 s.tokens.length) g').1 := by
  have fits := Nat.min_le_right (pickCount s g).1 s.tokens.length
  obtain ⟨least, most⟩ := pickCount_le s g
  refine ⟨Random.sample_positions fits g', ?_, ?_⟩
  · rw [Random.length_sample fits]
    omega
  · rw [Random.length_sample fits]
    omega

/-- A round picks from every section what may be picked from it. -/
theorem picked_of_round (sections : List Section) (g : γ) :
    List.Forall₂ Section.Picked sections (picksOf sections g).1 := by
  induction sections generalizing g with
  | nil => exact .nil
  | cons s rest ih => exact .cons (picked_of_sample s g _) (ih _)

theorem length_roundsOf (sections : List Section) (n : Nat) (g : γ) : (roundsOf sections n g).1.length = n := by
  induction n generalizing g with
  | zero => rfl
  | succ n ih => exact congrArg (· + 1) (ih _)

theorem picked_of_rounds (sections : List Section) (n : Nat) (g : γ) :
    ∀ round ∈ (roundsOf sections n g).1, List.Forall₂ Section.Picked sections round := by
  induction n generalizing g with
  | zero => exact List.forall_mem_nil _
  | succ n ih => exact List.forall_mem_cons.mpr ⟨picked_of_round sections g, ih _⟩

/-! ## A pass told by its rounds -/

variable {ctx : Context}

theorem wordsOf_cons_of_directive {token : String} {d : Directive} (parsed : Directive.parseEmbedded? token = some d)
    (rest : List String) : wordsOf (token :: rest) = wordsOf rest :=
  List.filter_cons_of_neg (by simp [parsed])

theorem wordsOf_cons_of_word {token : String} (word : Directive.parseEmbedded? token = none) (rest : List String) :
    wordsOf (token :: rest) = token :: wordsOf rest :=
  List.filter_cons_of_pos (by simp [word])

/-- Of the tokens that are drawn, the directives are applied and the others are the words. -/
theorem takeTokens_eq (tokens : List String) (p : Pass) :
    takeTokens ctx tokens p = (wordsOf tokens,
      (tokens.filterMap Directive.parseEmbedded?).foldl (fun p d => p.direct ctx.capabilities d) p) := by
  induction tokens generalizing p with
  | nil => rfl
  | cons token rest ih =>
    unfold takeTokens
    cases parsed : Directive.parseEmbedded? token with
    | some d =>
      rw [List.filterMap_cons_some parsed, List.foldl_cons, wordsOf_cons_of_directive parsed]
      exact ih _
    | none =>
      rw [List.filterMap_cons_none parsed, wordsOf_cons_of_word parsed]
      dsimp only
      rw [ih]

/-- Where all positions are in the list, every one of them has its token. -/
theorem tokensAt_eq {s : Section} {picked : List Nat} (inside : ∀ i ∈ picked, i < s.tokens.length) :
    picked.map (fun i => s.tokens.getD i "") = s.tokensAt picked := by
  unfold Section.tokensAt
  rw [← List.filterMap_eq_map]
  refine List.filterMap_congr fun i mem => ?_
  simp [inside i mem]

theorem sampleSections_eq (sections : List Section) (p : Pass) (g : γ) :
    sampleSections ctx sections p g =
      (List.zipWith (fun s picked => wordsOf (s.tokensAt picked)) sections (picksOf sections g).1,
        (directivesOf sections (picksOf sections g).1).foldl (fun p d => p.direct ctx.capabilities d) p,
        (picksOf sections g).2) := by
  induction sections generalizing p g with
  | nil => rfl
  | cons s rest ih =>
    have fits := Nat.min_le_right (pickCount s g).1 s.tokens.length
    have tokens := tokensAt_eq (Random.sample_positions fits (pickCount s g).2).below
    unfold sampleSections picksOf
    dsimp only
    rw [tokens, takeTokens_eq, ih]
    unfold directivesOf
    rw [List.zipWith_cons_cons, List.zipWith_cons_cons, List.flatten_cons, List.filterMap_append, List.foldl_append]

theorem deferred_deferDirectory (fs : FileSystem) (job : Job) : job.Deferred fs (deferDirectory fs job) := by
  unfold deferDirectory
  split
  · rename_i dir named
    obtain ⟨image, there⟩ := Option.filter_eq_some_iff.mp named
    exact .directory image there
  · rename_i none
    refine .other fun path image there => ?_
    rw [image, Option.filter_some, if_pos there] at none
    cases none

/-- The jobs of some rounds, each from the draft that it leaves. -/
def jobsOfRounds (ctx : Context) : Draft → List (List (List Nat)) → List Job
  | _, [] => []
  | d, round :: rounds =>
    let d := draftAfter ctx.capabilities d (directivesOf ctx.template.sections round)
    deferDirectory ctx.files (jobOfRound ctx.template.sections d round) :: jobsOfRounds ctx d rounds

theorem getElem?_jobsOfRounds (d : Draft) (rounds : List (List (List Nat))) (i : Nat) :
    (jobsOfRounds ctx d rounds)[i]? = rounds[i]?.map fun round =>
      deferDirectory ctx.files (jobOfRound ctx.template.sections (draftAfter ctx.capabilities d
        ((rounds.take (i + 1)).flatMap (directivesOf ctx.template.sections))) round) := by
  induction rounds generalizing d i with
  | nil => rfl
  | cons round rounds ih =>
    cases i with
    | zero => simp [jobsOfRounds]
    | succ i =>
      rw [jobsOfRounds, List.getElem?_cons_succ, List.getElem?_cons_succ, ih, List.take_succ_cons, List.flatMap_cons,
        draftAfter_append]

theorem promptOf_words (control : RunControl) (sections : List Section) (round : List (List Nat)) :
    promptOf control sections (List.zipWith (fun s picked => wordsOf (s.tokensAt picked)) sections round) =
      promptOfRound control sections round := by
  have fragments : ∀ (sections : List Section) (round : List (List Nat)),
      ((List.zipWith (fun s picked => wordsOf (s.tokensAt picked)) sections round).zip sections).map
          (fun pair => Prompt.join pair.1 pair.2.delimiter) =
        List.zipWith (fun s picked => Prompt.join (wordsOf (s.tokensAt picked)) s.delimiter) sections round := by
    intro sections
    induction sections with
    | nil => exact fun _ => rfl
    | cons s rest ih =>
      intro round
      cases round with
      | nil => rfl
      | cons picked round => exact congrArg (_ :: ·) (ih round)
  exact congrArg (fun fragments => Prompt.clean (Prompt.join fragments control.delimiter)) (fragments sections round)

theorem length_jobsOfRounds (d : Draft) (rounds : List (List (List Nat))) :
    (jobsOfRounds ctx d rounds).length = rounds.length := by
  induction rounds generalizing d with
  | nil => rfl
  | cons round rounds ih => exact congrArg (· + 1) (ih _)

/-- One round after another makes the jobs of the rounds. -/
theorem sampleJobs_spec (ctx : Context) (n : Nat) (p : Pass) (g : γ) :
    (sampleJobs ctx n p g).1.jobs = p.jobs ++ jobsOfRounds ctx p.draft (roundsOf ctx.template.sections n g).1 ∧
      (sampleJobs ctx n p g).1.draft = draftAfter ctx.capabilities p.draft
        ((roundsOf ctx.template.sections n g).1.flatMap (directivesOf ctx.template.sections)) ∧
      (sampleJobs ctx n p g).2 = (roundsOf ctx.template.sections n g).2 := by
  induction n generalizing p g with
  | zero => exact ⟨(List.append_nil _).symm, rfl, rfl⟩
  | succ n ih =>
    unfold sampleJobs roundsOf
    rw [sampleSections_eq]
    dsimp only
    rw [promptOf_words]
    rcases picksOf ctx.template.sections g with ⟨round, g'⟩
    dsimp only
    obtain ⟨draft, jobs, -⟩ := directives_spec ctx.capabilities (directivesOf ctx.template.sections round) p
    generalize (directivesOf ctx.template.sections round).foldl (fun p d => p.direct ctx.capabilities d) p = q
      at draft jobs ⊢
    obtain ⟨jobs', draft', drawn⟩ :=
      ih (q.emit [deferDirectory ctx.files (jobOfRound ctx.template.sections q.draft round)]) g'
    have after : q.draft = draftAfter ctx.capabilities p.draft (directivesOf ctx.template.sections round) := draft
    refine ⟨jobs'.trans ?_, draft'.trans ?_, drawn⟩
    · rw [jobsOfRounds, ← after, Pass.emit, jobs, List.append_assoc]
      rfl
    · rw [List.flatMap_cons, draftAfter_append, ← after]
      rfl

/-! ## Whole passes -/

/-- Finishing a job leaves its input image as it is. -/
theorem finishJobs_images (movesSeeds : Bool) (n : Nat) (jobs : List Job) (g : γ) :
    (finishJobs ctx movesSeeds n jobs g).1.map Job.inputImage = jobs.map Job.inputImage := by
  have filled : ∀ (job : Job) (g : γ), (expandTexts ctx.wildcards job g).1.inputImage = job.inputImage := by
    intro job g
    unfold expandTexts withTexts
    dsimp only
    split <;> rfl
  induction jobs generalizing n g with
  | nil => rfl
  | cons job rest ih =>
    unfold finishJobs
    dsimp only
    rw [List.map_cons, List.map_cons, ih, ← filled job g]

/-- What a pass in random mode makes. In every round distinct positions are picked from each section, as many as its
bounds and its tokens allow, and the round makes one job: the draft after all directives that were picked up to then,
with the prompt of the tokens that are no directives. No job keeps a directory as its input image. -/
theorem samples_by_rounds (ctx : Context) (g : γ) (sectioned : ctx.template.sections ≠ [])
    (mode : ctx.selected = .random) :
    let sections := ctx.template.sections
    let rounds := (roundsOf sections ctx.queueDepth g).1
    let expanded := expandSections ctx (Pass.start ctx) g
    let draftAt (i : Nat) :=
      draftAfter ctx.capabilities (Pass.start ctx).draft ((rounds.take i).flatMap (directivesOf sections))
    (rounds.length = ctx.queueDepth ∧ ∀ round ∈ rounds, List.Forall₂ Section.Picked sections round) ∧
      expanded.1.jobs.length = ctx.queueDepth ∧
      (∀ i round, rounds[i]? = some round → ∃ job, expanded.1.jobs[i]? = some job ∧
        (jobOfRound sections (draftAt (i + 1)) round).Deferred ctx.files job) ∧
      (expanded.1.draft = draftAt ctx.queueDepth ∧ expanded.2 = (roundsOf sections ctx.queueDepth g).2) ∧
      (compile ctx g).1.jobs.length = ctx.queueDepth ∧
      ∀ job ∈ (compile ctx g).1.jobs, ∀ path, job.inputImage = some path → ¬ ctx.files.isDirectory path := by
  intro sections rounds expanded draftAt
  have count : rounds.length = ctx.queueDepth := length_roundsOf _ _ _
  have selected : (Pass.start ctx).draft.control.mode = .random := mode
  have expands : expanded = sampleJobs ctx ctx.queueDepth (Pass.start ctx) g := by
    simp only [expanded, expandSections, selected, random]
    rw [if_neg (by simpa using sectioned)]
  obtain ⟨jobs, draft, drawn⟩ := sampleJobs_spec ctx ctx.queueDepth (Pass.start ctx) g
  have fresh : (Pass.start ctx).jobs = [] := (configure_spec _ _ _).1
  rw [← expands, fresh, List.nil_append] at jobs
  rw [← expands] at draft drawn
  have made : ∀ i, expanded.1.jobs[i]? = rounds[i]?.map fun round =>
      deferDirectory ctx.files (jobOfRound sections (draftAt (i + 1)) round) := by
    intro i
    rw [jobs, getElem?_jobsOfRounds]
  have length : expanded.1.jobs.length = ctx.queueDepth := by
    rw [jobs, length_jobsOfRounds]
    exact count
  have images : (compile ctx g).1.jobs.map Job.inputImage = expanded.1.jobs.map Job.inputImage :=
    finishJobs_images _ _ _ _
  refine ⟨⟨count, picked_of_rounds _ _ _⟩, length, fun i round picked => ?_, ⟨?_, drawn⟩, ?_,
    fun job mem path image => ?_⟩
  · refine ⟨_, ?_, deferred_deferDirectory ctx.files _⟩
    rw [made, picked, Option.map_some]
  · have whole : rounds.take ctx.queueDepth = rounds := List.take_of_length_le (Nat.le_of_eq count)
    simp only [draftAt, whole]
    exact draft
  · have same := congrArg List.length images
    rw [List.length_map, List.length_map] at same
    exact same.trans length
  · -- The image of a finished job is that of the job that its round has made.
    have among : some path ∈ expanded.1.jobs.map Job.inputImage := images ▸ image ▸ List.mem_map_of_mem mem
    obtain ⟨drafted, mem', image'⟩ := List.mem_map.mp among
    obtain ⟨i, here⟩ := List.getElem?_of_mem mem'
    rw [made] at here
    obtain ⟨round, -, rfl⟩ := Option.map_eq_some_iff.mp here
    exact (deferred_deferDirectory ctx.files _).image path image'

/-- A template in random mode. One of its sections has a directive between its tokens, which names a directory. -/
def namesFolder : Context where
  template := Template.parse
    "[config]\nMODE = random\n[prompts 2]\na\n!INPUT_IMAGE = shots\n[prompts 0-3]\nb\nc"
  defaults := {}
  queueDepth := 3
  files := ⟨[(["shots"], .directory)], []⟩

theorem namesFolder_three_jobs :
    (namesFolder.template.sections.map fun s => (s.minPick, s.maxPick, s.tokens.length)) = [(2, 2, 2), (0, 3, 2)] ∧
      namesFolder.selected = .random ∧ (compile namesFolder (⟨0⟩ : SplitMix)).1.jobs.length = 3 := by
  have sectioned : namesFolder.template.sections ≠ [] := by decide +kernel
  have mode : namesFolder.selected = .random := by decide +kernel
  exact ⟨by decide +kernel, mode, (samples_by_rounds namesFolder (⟨0⟩ : SplitMix) sectioned mode).2.2.2.2.1⟩

end Compile

end RenderFarm
