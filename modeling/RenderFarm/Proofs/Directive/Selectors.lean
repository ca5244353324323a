import RenderFarm.Proofs.Directive.Independence

/-!
Where the names in a draft come from. A selector holds names of things that the backend has: a sampler, checkpoints,
styles. As soon as the backend has told what it has, a directive puts in none but these names, spelled as the
backend spells them; only latent upscalers, which no backend lists, are taken as they are written.
-/

namespace RenderFarm

/-- The settings of a draft that hold names of what the backend has. -/
inductive Selector where
  | sampler | checkpoint | vae | styles
  | highresUpscaler | highresCheckpoint | highresSampler
  | upscaler | upscaleCheckpoint | upscaleSampler
  | controlNetModel | controlNetPreprocessor
  | modelSweep | highresSweep
deriving DecidableEq

/-- The upscaler that a method names. -/
def UpscaleMethod.upscaler? : UpscaleMethod → Option String
  | .upscaler name => some name
  | .sd | .ultimate => none

namespace Selector

/-- The names that a selector holds in a draft: none where it is unset. -/
def names (d : Draft) : Selector → List String
  | .sampler => [d.job.sampler]
  | .checkpoint => d.job.checkpoint.toList
  | .vae => d.job.vae.toList
  | .styles => d.job.styles
  | .highresUpscaler => [d.job.highres.upscaler]
  | .highresCheckpoint => d.job.highres.checkpoint.toList
  | .highresSampler => d.job.highres.sampler.toList
  | .upscaler => d.job.upscale.method.upscaler?.toList
  | .upscaleCheckpoint => d.job.upscale.checkpoint.toList
  | .upscaleSampler => d.job.upscale.sampler.toList
  | .controlNetModel => d.job.controlNet.model.toList
  | .controlNetPreprocessor => [d.job.controlNet.preprocessor]
  | .modelSweep => d.control.modelSweep
  | .highresSweep => d.control.highresSweep

/-- The names that the backend has for a selector. -/
def offered (caps : Capabilities) : Selector → List String
  | .sampler | .highresSampler | .upscaleSampler => caps.samplers
  | .checkpoint | .highresCheckpoint | .upscaleCheckpoint | .modelSweep | .highresSweep => caps.modelTitles
  | .vae => caps.vaes
  | .styles => caps.styleNames
  | .highresUpscaler | .upscaler => caps.upscalers
  | .controlNetModel => caps.controlNetModels
  | .controlNetPreprocessor => caps.controlNetPreprocessors

end Selector

/-- A name that starts with "latent", in whatever letter case. -/
def NamesLatent (name : String) : Prop :=
  ∃ word rest : List Char, name.toList = word ++ rest ∧ word.map Char.toLower = "latent".toList

/-- A name that a directive may put into a selector: one that the backend has, or a latent upscaler. -/
def Selector.Takes (caps : Capabilities) (s : Selector) (name : String) : Prop :=
  name ∈ s.offered caps ∨ s = .highresUpscaler ∧ NamesLatent name

/-- The settings that are about selectors. -/
def Key.selecting : List Key :=
  [.sampler, .vae, .style, .checkpoint, .highresUpscaler, .highresSampler, .highresCheckpoint, .upscaleModel,
    .upscaleCheckpoint, .upscaleSampler, .controlNetModel, .controlNetPreprocessor]

namespace Change

/-- The selectors that a change is about, with the names that it puts into each. -/
def puts : Change → List (Selector × List String)
  | .job (.sampler name) => [(.sampler, [name])]
  | .job (.vae name) => [(.vae, name.toList)]
  | .job (.styles names) => [(.styles, names)]
  | .highres (.upscaler name) => [(.highresUpscaler, [name])]
  | .highres (.sampler name) => [(.highresSampler, name.toList)]
  | .upscale (.method m) => [(.upscaler, m.upscaler?.toList)]
  | .upscale (.checkpoint title) => [(.upscaleCheckpoint, title.toList)]
  | .upscale (.sampler name) => [(.upscaleSampler, name.toList)]
  | .controlNet (.model name) => [(.controlNetModel, name.toList)]
  | .controlNet (.preprocessor name) => [(.controlNetPreprocessor, [name])]
  | .checkpoint first sweep => [(.checkpoint, first.toList), (.modelSweep, sweep)]
  | .highresCheckpoint first sweep => [(.highresCheckpoint, first.toList), (.highresSweep, sweep)]
  | _ => []

theorem puts_eq_nil {c : Change} (free : c.setting ∉ Key.selecting) : c.puts = [] := by
  cases c with
  | job c => cases c <;> first | rfl | exact absurd (List.elem_iff.mp rfl) free
  | highres c => cases c <;> first | rfl | exact absurd (List.elem_iff.mp rfl) free
  | upscale c => cases c <;> first | rfl | exact absurd (List.elem_iff.mp rfl) free
  | controlNet c => cases c <;> first | rfl | exact absurd (List.elem_iff.mp rfl) free
  | checkpoint | highresCheckpoint => exact absurd (List.elem_iff.mp rfl) free
  | _ => rfl

/-- A change leaves the selectors as they are that it is not about. -/
theorem names_make (c : Change) (d : Draft) (s : Selector) :
    s.names (c.make d) = (c.puts.lookup s).getD (s.names d) := by
  cases c with
  | job c => cases c <;> cases s <;> rfl
  | iptc c => cases s <;> rfl
  | highres c => cases c <;> cases s <;> rfl
  | upscale c => cases c <;> cases s <;> rfl
  | controlNet c => cases c <;> cases s <;> rfl
  | detailer c => cases s <;> rfl
  | _ => cases s <;> rfl

/-- The names that a change puts into selectors are such as they take, as far as the backend has told. -/
def Offered (caps : Capabilities) (c : Change) : Prop :=
  ∀ put ∈ c.puts, put.1.offered caps ≠ [] → ∀ name ∈ put.2, put.1.Takes caps name

variable {caps : Capabilities} {c : Change}

/-- After a change whose names are offered a selector holds what it held, or names that it takes. -/
theorem Offered.make (offered : c.Offered caps) {s : Selector} (told : s.offered caps ≠ []) (d : Draft) :
    s.names (c.make d) = s.names d ∨ ∀ name ∈ s.names (c.make d), s.Takes caps name := by
  rw [names_make]
  cases put : c.puts.lookup s with
  | none => exact .inl rfl
  | some names =>
    obtain ⟨_, _, split, -⟩ := List.lookup_eq_some_iff.mp put
    have mem : (s, names) ∈ c.puts := by
      rw [split]
      exact List.mem_append_right _ List.mem_cons_self
    exact .inr (offered _ mem told)

end Change

/-! ## Names that are looked up -/

namespace Directive

variable {caps : Capabilities} {key value : String} {candidates : List String}

/-- Names that are candidates, as far as there are any. -/
def Among (candidates names : List String) : Prop :=
  candidates ≠ [] → ∀ name ∈ names, name ∈ candidates

theorem among_nil (candidates : List String) : Among candidates [] :=
  fun _ _ mem => nomatch mem

theorem mem_of_matchName? {name : String} (found : matchName? value candidates = some name) :
    name ∈ candidates := by
  unfold matchName? at found
  dsimp only at found
  split at found
  · cases found
  · split at found
    · rename_i same
      cases found
      exact List.mem_of_find?_eq_some same
    · exact List.mem_of_find?_eq_some found

theorem among_of_choose {name : String} (read : choose key value candidates = .ok name) :
    Among candidates [name] := by
  intro told
  have some : candidates.isEmpty = false := by simpa using told
  unfold choose at read
  rw [some] at read
  split at read
  · cases read
  · rw [if_neg (by simp)] at read
    split at read
    · rename_i found
      cases read
      exact List.forall_mem_singleton.mpr (mem_of_matchName? found)
    · cases read

theorem among_of_chooseOptional {name : Option String} (read : chooseOptional key value candidates = .ok name) :
    Among candidates name.toList := by
  unfold chooseOptional at read
  split at read
  · cases read
    exact among_nil candidates
  · cases chosen : choose key value candidates with
    | error e =>
      rw [chosen] at read
      cases read
    | ok name =>
      rw [chosen] at read
      cases read
      exact among_of_choose chosen

/-- Adding a name, unless it is there, adds no other. -/
theorem among_insert {names : List String} {name : String} (others : Among candidates names)
    (one : Among candidates [name]) : Among candidates (if name ∈ names then names else names ++ [name]) := by
  split
  · exact others
  · exact fun told => List.forall_mem_append.mpr ⟨others told, one told⟩

theorem among_findAll {names found missing : List String} (before : Among candidates found) :
    Among candidates (findAll key candidates names (found, missing)).1 := by
  induction names generalizing found missing with
  | nil => exact before
  | cons name names ih =>
    rw [findAll]
    cases chosen : choose key name candidates with
    | error e => exact ih before
    | ok title => exact ih (among_insert before (among_of_choose chosen))

theorem among_findStyles {items found names : List String} (before : Among candidates found)
    (read : findStyles key candidates items found = .ok names) : Among candidates names := by
  induction items generalizing found with
  | nil =>
    cases read
    exact before
  | cons item items ih =>
    rw [findStyles] at read
    cases chosen : choose key item candidates with
    | error e =>
      rw [chosen] at read
      cases read
    | ok style =>
      rw [chosen] at read
      exact ih (among_insert before (among_of_choose chosen)) read

theorem among_of_styles {names : List String} (read : styles key value caps = .ok names) :
    Among caps.styleNames names := by
  unfold styles at read
  split at read
  · cases read
    exact among_nil _
  · exact among_findStyles (among_nil _) read

/-- The checkpoint of a selection and those to go through are titles that were found. -/
theorem among_selectionOf {found : List String} (titles : Among candidates found) (missing : List String) :
    Among candidates (selectionOf found missing).first.toList ∧
      Among candidates (selectionOf found missing).sweep := by
  refine ⟨fun told name mem => ?_, ?_⟩
  · exact titles told name (List.mem_of_mem_head? (Option.mem_toList.mp mem))
  · unfold selectionOf
    dsimp only
    split
    · exact titles
    · exact among_nil candidates

theorem among_of_models {s : Selection} (read : models key value caps = .ok s) :
    Among caps.modelTitles s.first.toList ∧ Among caps.modelTitles s.sweep := by
  unfold models at read
  split at read
  · cases read
    exact ⟨among_nil _, among_nil _⟩
  · split at read
    · split at read
      · cases read
      · cases read
        exact among_selectionOf (fun _ _ mem => mem) _
    · dsimp only at read
      split at read
      · cases read
      · cases read
        exact among_selectionOf (among_findAll (among_nil _)) _

theorem among_of_upscaleMethod {m : UpscaleMethod} (read : upscaleMethod key value caps = .ok m) :
    Among caps.upscalers m.upscaler?.toList := by
  unfold upscaleMethod at read
  dsimp only at read
  split at read
  · cases read
    exact among_nil _
  · split at read
    · cases read
      exact among_nil _
    · cases chosen : choose key value caps.upscalers with
      | error e =>
        rw [chosen] at read
        cases read
      | ok name =>
        rw [chosen] at read
        cases read
        exact among_of_choose chosen

theorem namesLatent_of_startsWith (starts : Text.startsWith (Text.lowerAscii value) "latent") :
    NamesLatent value := by
  obtain ⟨rest, split⟩ := List.isPrefixOf_iff_prefix.mp starts
  have low : value.toList.map Char.toLower = "latent".toList ++ rest := by
    rw [split, Text.lowerAscii, String.toList_ofList, Chars.lowerAscii]
  obtain ⟨word, rest, here, low, -⟩ := List.map_eq_append_iff.mp low
  exact ⟨word, rest, here, low⟩

/-! ## Reading -/

theorem offered_of_among {c : Change} (h : ∀ put ∈ c.puts, Among (put.1.offered caps) put.2) : c.Offered caps :=
  fun put mem told name named => .inl (h put mem told name named)

theorem offered_of_puts_one {c : Change} {s : Selector} {names : List String} (puts : c.puts = [(s, names)])
    (h : Among (s.offered caps) names) : c.Offered caps := by
  refine offered_of_among ?_
  rw [puts]
  exact List.forall_mem_singleton.mpr h

theorem offered_of_puts_nil {c : Change} (puts : c.puts = []) : c.Offered caps := by
  refine offered_of_among ?_
  rw [puts]
  exact List.forall_mem_nil _

theorem offered_of_puts_two {c : Change} {s s' : Selector} {names names' : List String}
    (puts : c.puts = [(s, names), (s', names')])
    (h : Among (s.offered caps) names ∧ Among (s'.offered caps) names') : c.Offered caps := by
  refine offered_of_among ?_
  rw [puts]
  exact List.forall_mem_cons.mpr ⟨h.1, List.forall_mem_singleton.mpr h.2⟩

/-- A value is read as a change with names that are offered, under every key. -/
theorem reads_offered (key value : String) (caps : Capabilities) (k : Key) :
    Reads (fun p => p.1.Offered caps) (read key value caps k) := by
  cases k with
  | sampler => exact .whole fun _ read => offered_of_puts_one rfl (among_of_choose read)
  | controlNetPreprocessor => exact .whole fun _ read => offered_of_puts_one rfl (among_of_choose read)
  | vae | highresSampler | upscaleCheckpoint | upscaleSampler | controlNetModel =>
    exact .whole fun _ read => offered_of_puts_one rfl (among_of_chooseOptional read)
  | style => exact .whole fun _ read => offered_of_puts_one rfl (among_of_styles read)
  | upscaleModel => exact .whole fun _ read => offered_of_puts_one rfl (among_of_upscaleMethod read)
  | checkpoint | highresCheckpoint =>
    exact .selection fun _ read _ => offered_of_puts_two rfl (among_of_models read)
  | highresUpscaler =>
    unfold read
    dsimp only
    split
    · rename_i latent
      exact .ok (List.forall_mem_singleton.mpr fun _ =>
        List.forall_mem_singleton.mpr (.inr ⟨rfl, namesLatent_of_startsWith latent⟩))
    · exact .whole fun _ read => offered_of_puts_one rfl (among_of_choose read)
  | _ => exact .of_setting fun _ _ same => offered_of_puts_nil (Change.puts_eq_nil (same ▸ by decide))

/-- Whatever directives are given once the backend has told what it has for a selector: the selector holds what it
held at first, or it holds only names that the backend has, or latent upscalers where these are taken. -/
theorem names_from_backend (caps : Capabilities) (directives : List Directive) (d : Draft) (s : Selector)
    (told : s.offered caps ≠ []) :
    s.names (applyAll (directives.map (caps, ·)) d) = s.names d ∨
      ∀ name ∈ s.names (applyAll (directives.map (caps, ·)) d),
        name ∈ s.offered caps ∨ s = .highresUpscaler ∧ NamesLatent name := by
  refine applyAll_invariant (P := fun now => s.names now = s.names d ∨ ∀ name ∈ s.names now, s.Takes caps name) d
    (fun g mem key value k p made now h => ?_) (.inl rfl)
  obtain ⟨_, _, rfl⟩ := List.mem_map.mp mem
  obtain same | taken := (reads_offered key value caps k p made).make told now
  · rwa [same]
  · exact .inr taken

/-- A backend that has told of something in every list. -/
def equippedBackend : Capabilities where
  samplers := ["Euler a", "DPM++ 2M Karras"]
  models := [{ title := "alpha.safetensors [aa11]" }, { title := "beta.ckpt [bb22]" }]
  vaes := ["vae-ft-mse.safetensors"]
  styles := [{ name := "Noir", prompt := "film noir", negativePrompt := "" }]
  upscalers := ["R-ESRGAN 4x+"]
  controlNetModels := ["canny"]
  controlNetPreprocessors := ["lineart"]

/-- A sampler that the backend does not have, and two of its checkpoints, named in part and in other letter case,
after one that it does not have. -/
def givenNames : List Directive :=
  [⟨"SAMPLER", "DDIM", false⟩, ⟨"!ckpt_file", "nix, BETA, alpha", true⟩]

/-- The checkpoints to go through are those of the backend. -/
theorem checkpoints_from_equippedBackend :
    Selector.modelSweep.offered equippedBackend ≠ [] ∧
      Selector.modelSweep.names (applyAll (givenNames.map (equippedBackend, ·)) (.ofDefaults {})) =
        ["beta.ckpt [bb22]", "alpha.safetensors [aa11]"] ∧
      ∀ name ∈ ["beta.ckpt [bb22]", "alpha.safetensors [aa11]"],
        name ∈ Selector.modelSweep.offered equippedBackend ∨
          Selector.modelSweep = .highresUpscaler ∧ NamesLatent name := by
  have told : Selector.modelSweep.offered equippedBackend ≠ [] := by decide
  have held : Selector.modelSweep.names (applyAll (givenNames.map (equippedBackend, ·)) (.ofDefaults {})) =
      ["beta.ckpt [bb22]", "alpha.safetensors [aa11]"] := by
    decide +kernel
  refine ⟨told, held, ?_⟩
  have either := names_from_backend equippedBackend givenNames (.ofDefaults {}) .modelSweep told
  rw [held] at either
  exact either.resolve_left (by decide)

end Directive

end RenderFarm
