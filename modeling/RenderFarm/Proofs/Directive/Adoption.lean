import RenderFarm.Proofs.Capability
import RenderFarm.Proofs.Directive.Refusal
import RenderFarm.Proofs.Directive.Selectors

/-!
Names that a directive adopts. A directive looks up what is written in it in a list of the backend and puts the name
that it finds there into the draft. The same directive with that name finds it again and makes the same change, unless
the name is a word that the directive reads before it looks anything up, or would be read as a list.
-/

namespace RenderFarm

/-- The names that a change puts into selectors. -/
def Change.adopted (c : Change) : List String :=
  c.puts.flatMap Prod.snd

namespace Directive

/-- Whether a directive looks a name up as it stands, and does not read it as one of its words or as a list. -/
def LooksUp (name : String) : Key → Prop
  | .vae | .highresSampler | .upscaleCheckpoint | .upscaleSampler | .controlNetModel => isNone name = false
  | .style => isNone name = false ∧ ',' ∉ name.toList
  | .checkpoint | .highresCheckpoint =>
    isNone name = false ∧ ',' ∉ name.toList ∧ Text.eqIgnoringCase name "all" = false
  | .upscaleModel => Text.lowerAscii name ≠ "sd" ∧ Text.lowerAscii name ≠ "ultimate"
  | _ => True

open Directive.read (done)

variable {caps : Capabilities} {key value name : String} {candidates : List String}

theorem nonempty_of_isNone (meant : isNone name = false) : name.isEmpty = false := by
  rw [isNone, Bool.or_eq_false_iff, Bool.or_eq_false_iff] at meant
  exact meant.1.1

/-- What a text was looked up as is looked up as itself. -/
theorem choose_again (trimmed : ∀ c ∈ candidates, Text.trim c = c) (chosen : choose key value candidates = .ok name) :
    choose key name candidates = .ok name := by
  unfold choose at chosen
  split at chosen
  · cases chosen
  · rename_i written
    split at chosen
    · rename_i untold
      cases chosen
      rw [choose, if_neg written, if_pos untold]
    · rename_i told
      split at chosen
      · rename_i found
        cases chosen
        have again := matchName?_again trimmed found
        have nonempty : ¬ name.isEmpty := by
          intro empty
          exact (matchName?_eq_some_iff.mp again).1 (by simp [String.isEmpty_iff.mp empty])
        rw [choose, if_neg nonempty, if_neg told, again]
      · cases chosen

/-- What a text was looked up as has no blanks around it. -/
theorem trim_of_choose (trimmed : ∀ c ∈ candidates, Text.trim c = c) (trimmed' : Text.trim value = value)
    (chosen : choose key value candidates = .ok name) : Text.trim name = name := by
  by_cases told : candidates = []
  · unfold choose at chosen
    split at chosen
    · cases chosen
    · rw [if_pos (by simp [told])] at chosen
      cases chosen
      exact trimmed'
  · exact trimmed _ (among_of_choose chosen told _ List.mem_cons_self)

/-! ## Lists of names -/

theorem exists_of_mem_findStyles {items found names : List String}
    (read : findStyles key candidates items found = .ok names) (mem : name ∈ names) :
    name ∈ found ∨ ∃ item ∈ items, choose key item candidates = .ok name := by
  induction items generalizing found with
  | nil =>
    cases read
    exact .inl mem
  | cons item items ih =>
    rw [findStyles] at read
    cases chosen : choose key item candidates with
    | error e =>
      rw [chosen] at read
      cases read
    | ok style =>
      rw [chosen] at read
      obtain before | ⟨item', mem', chosen'⟩ := ih read
      · split at before
        · exact .inl before
        · obtain before | here := List.mem_append.mp before
          · exact .inl before
          · rw [List.mem_singleton.mp here]
            exact .inr ⟨item, List.mem_cons_self, chosen⟩
      · exact .inr ⟨item', List.mem_cons_of_mem _ mem', chosen'⟩

theorem exists_of_mem_known {names : List String} (nonempty : ∀ name ∈ names, name ≠ "")
    (mem : name ∈ known candidates names) (key : String) : ∃ item ∈ names, choose key item candidates = .ok name := by
  obtain ⟨item, mem, title⟩ := List.mem_filterMap.mp (List.mem_eraseDups.mp mem)
  refine ⟨item, mem, ?_⟩
  rw [choose_of_ne_empty (nonempty item mem), title]

theorem findAll_single (chosen : choose key name candidates = .ok name) :
    findAll key candidates [name] ([], []) = ([name], []) := by
  rw [findAll, chosen]
  simp [findAll]

theorem selectionOf_eq_single {found missing : List String}
    (only : (selectionOf found missing).first.toList ++ (selectionOf found missing).sweep = [name]) :
    found = [name] := by
  unfold selectionOf at only
  match found, only with
  | [], only => simp at only
  | [_], only => simpa using only
  | _ :: _ :: _, only => simp at only

/-! ## Readings with one name -/

theorem chooseOptional_again (meant : isNone name = false) (trimmed : ∀ c ∈ candidates, Text.trim c = c)
    (trimmed' : Text.trim value = value) (read : chooseOptional key value candidates = .ok (some name)) :
    Text.trim name = name ∧ chooseOptional key name candidates = .ok (some name) := by
  unfold chooseOptional at read
  split at read
  · cases read
  · cases chosen : choose key value candidates with
    | error e =>
      rw [chosen] at read
      cases read
    | ok name' =>
      rw [chosen] at read
      cases read
      refine ⟨trim_of_choose trimmed trimmed' chosen, ?_⟩
      rw [chooseOptional, meant, choose_again trimmed chosen]
      rfl

theorem upscaleMethod_again (notSd : Text.lowerAscii name ≠ "sd") (notUltimate : Text.lowerAscii name ≠ "ultimate")
    (trimmed : ∀ c ∈ caps.upscalers, Text.trim c = c) (trimmed' : Text.trim value = value)
    (read : upscaleMethod key value caps = .ok (.upscaler name)) :
    Text.trim name = name ∧ upscaleMethod key name caps = .ok (.upscaler name) := by
  unfold upscaleMethod at read
  dsimp only at read
  split at read
  · cases read
  · split at read
    · cases read
    · cases chosen : choose key value caps.upscalers with
      | error e =>
        rw [chosen] at read
        cases read
      | ok name' =>
        rw [chosen] at read
        cases read
        refine ⟨trim_of_choose trimmed trimmed' chosen, ?_⟩
        rw [upscaleMethod, if_neg notSd, if_neg notUltimate, choose_again trimmed chosen]
        rfl

theorem styles_again (meant : isNone name = false) (single : ',' ∉ name.toList)
    (trimmed : ∀ c ∈ caps.styleNames, Text.trim c = c) (read : styles key value caps = .ok [name]) :
    Text.trim name = name ∧ styles key name caps = .ok [name] := by
  unfold styles at read
  split at read
  · cases read
  · obtain none | ⟨item, mem, chosen⟩ := exists_of_mem_findStyles read List.mem_cons_self
    · cases none
    · have own := trim_of_choose trimmed (Text.trim_of_mem_listItems mem) chosen
      refine ⟨own, ?_⟩
      rw [styles, meant, if_neg Bool.false_ne_true, Text.listItems_single own (nonempty_of_isNone meant) single,
        findStyles, choose_again trimmed chosen]
      rfl

/-- Where there is one candidate, its name is looked up as itself. -/
theorem choose_single (nonempty : name.isEmpty = false) (trimmed : Text.trim name = name) :
    choose key name [name] = .ok name := by
  have written : ¬ ∀ ch ∈ name.toList, Chars.isBlank ch := by
    rw [← lower_trim_eq_empty_iff, trimmed, String.isEmpty_iff, ← String.toList_eq_nil_iff, Text.lower,
      String.toList_ofList, Chars.lower_eq_nil_iff, String.toList_eq_nil_iff, ← String.isEmpty_iff, nonempty]
    exact Bool.false_ne_true
  have found : matchName? name [name] = some name :=
    matchName?_eq_some_iff.mpr ⟨written, [], [], rfl, .whole (by rw [Named, trimmed]) (List.forall_mem_nil _)⟩
  rw [choose, nonempty, found]
  rfl

/-- A single checkpoint that was chosen is one that some name was looked up as. -/
theorem exists_of_models (nonempty : name.isEmpty = false) (trimmed : ∀ c ∈ caps.modelTitles, Text.trim c = c)
    (trimmed' : Text.trim value = value) {s : Selection} (read : models key value caps = .ok s)
    (only : s.first.toList ++ s.sweep = [name]) :
    s.sweep = [] ∧ ∃ item, Text.trim item = item ∧ choose key item caps.modelTitles = .ok name := by
  unfold models at read
  split at read
  · cases read
    cases only
  · split at read
    · split at read
      · cases read
      · cases read
        have titles := selectionOf_eq_single only
        have own := trimmed name (by simp [titles])
        rw [titles]
        exact ⟨rfl, name, own, choose_single nonempty own⟩
    · rw [← trimmed', listItems_trim, findAll_listed] at read
      dsimp only at read
      split at read
      · cases read
      · obtain rfl := Except.ok.inj read
        have found := selectionOf_eq_single only
        have among : name ∈ known caps.modelTitles (listed value) := found ▸ List.mem_cons_self
        obtain ⟨item, mem, chosen⟩ :=
          exists_of_mem_known (fun _ mem => Text.ne_empty_of_mem_listItems mem) among key
        rw [found]
        exact ⟨rfl, item, Text.trim_of_mem_listItems mem, chosen⟩

theorem models_again (meant : isNone name = false) (single : ',' ∉ name.toList)
    (notAll : Text.eqIgnoringCase name "all" = false) (trimmed : ∀ c ∈ caps.modelTitles, Text.trim c = c)
    (trimmed' : Text.trim value = value) {s : Selection} (read : models key value caps = .ok s)
    (only : s.first.toList ++ s.sweep = [name]) :
    s.first = some name ∧ s.sweep = [] ∧ Text.trim name = name ∧
      models key name caps = .ok (selectionOf [name] []) := by
  obtain ⟨sweep, item, item', chosen⟩ := exists_of_models (nonempty_of_isNone meant) trimmed trimmed' read only
  have own := trim_of_choose trimmed item' chosen
  refine ⟨?_, sweep, own, ?_⟩
  · rwa [sweep, List.append_nil, Option.toList_eq_singleton_iff] at only
  · rw [models, meant, notAll, Text.listItems_single own (nonempty_of_isNone meant) single,
      findAll_single (choose_again trimmed chosen)]
    rfl

/-! ## Directives -/

/-- What a value was read as is what the one name that it puts into selectors is read as, and then in full. -/
def Again (key name : String) (caps : Capabilities) (k : Key) (p : Change × Option DirectiveError) : Prop :=
  p.1.adopted = [name] → Text.trim name = name ∧ read key name caps k = .ok (p.1, none)

theorem again_of_choose {k : Key} {f : String → Change} (trimmed : ∀ c ∈ candidates, Text.trim c = c)
    (trimmed' : Text.trim value = value) (puts : ∀ a, (f a).adopted = [a])
    (same : read key name caps k = done <$> f <$> choose key name candidates) :
    Reads (Again key name caps k) (done <$> f <$> choose key value candidates) := by
  refine .whole fun a chosen only => ?_
  obtain rfl : a = name := List.singleton_inj.mp ((puts a).symm.trans only)
  exact ⟨trim_of_choose trimmed trimmed' chosen, by rw [same, choose_again trimmed chosen]; rfl⟩

theorem again_of_chooseOptional {k : Key} {f : Option String → Change} (meant : isNone name = false)
    (trimmed : ∀ c ∈ candidates, Text.trim c = c) (trimmed' : Text.trim value = value)
    (puts : ∀ a, (f a).adopted = a.toList)
    (same : read key name caps k = done <$> f <$> chooseOptional key name candidates) :
    Reads (Again key name caps k) (done <$> f <$> chooseOptional key value candidates) := by
  refine .whole fun a chosen only => ?_
  obtain rfl : a = some name := Option.toList_eq_singleton_iff.mp ((puts a).symm.trans only)
  obtain ⟨own, again⟩ := chooseOptional_again meant trimmed trimmed' chosen
  exact ⟨own, by rw [same, again]; rfl⟩

theorem again_of_models {k : Key} {f : Option String → List String → Change} (meant : isNone name = false)
    (single : ',' ∉ name.toList) (notAll : Text.eqIgnoringCase name "all" = false)
    (trimmed : ∀ c ∈ caps.modelTitles, Text.trim c = c) (trimmed' : Text.trim value = value)
    (puts : ∀ first sweep, (f first sweep).adopted = first.toList ++ sweep)
    (same : read key name caps k = selectionChange key f <$> models key name caps) :
    Reads (Again key name caps k) (selectionChange key f <$> models key value caps) := by
  refine .selection fun s chosen report only => ?_
  obtain ⟨first, sweep, own, again⟩ :=
    models_again meant single notAll trimmed trimmed' chosen ((puts _ _).symm.trans only)
  exact ⟨own, by rw [same, again, first, sweep]; rfl⟩

/-- Under every key that looks the name up. -/
theorem reads_again {k : Key} (looks : LooksUp name k) (trimmed : ∀ s : Selector, ∀ c ∈ s.offered caps, Text.trim c = c)
    (trimmed' : Text.trim value = value) : Reads (Again key name caps k) (read key value caps k) := by
  cases k with
  | sampler => exact again_of_choose (trimmed .sampler) trimmed' (fun _ => rfl) rfl
  | controlNetPreprocessor => exact again_of_choose (trimmed .controlNetPreprocessor) trimmed' (fun _ => rfl) rfl
  | vae => exact again_of_chooseOptional looks (trimmed .vae) trimmed' (fun _ => List.append_nil _) rfl
  | highresSampler => exact again_of_chooseOptional looks (trimmed .sampler) trimmed' (fun _ => List.append_nil _) rfl
  | upscaleCheckpoint =>
    exact again_of_chooseOptional looks (trimmed .checkpoint) trimmed' (fun _ => List.append_nil _) rfl
  | upscaleSampler => exact again_of_chooseOptional looks (trimmed .sampler) trimmed' (fun _ => List.append_nil _) rfl
  | controlNetModel =>
    exact again_of_chooseOptional looks (trimmed .controlNetModel) trimmed' (fun _ => List.append_nil _) rfl
  | checkpoint | highresCheckpoint =>
    refine again_of_models looks.1 looks.2.1 looks.2.2 (trimmed .checkpoint) trimmed' (fun _ _ => ?_) rfl
    simp only [Change.adopted, Change.puts, List.flatMap_cons, List.flatMap_nil, List.append_nil]
  | upscaleModel =>
    refine .whole fun m chosen only => ?_
    obtain rfl : m = .upscaler name := by
      cases m with
      | upscaler name' => exact congrArg _ (List.singleton_inj.mp only)
      | sd | ultimate => cases only
    obtain ⟨own, again⟩ := upscaleMethod_again looks.1 looks.2 (trimmed .upscaler) trimmed' chosen
    exact ⟨own, congrArg (done <$> (Change.upscale ∘ UpscaleChange.method) <$> ·) again⟩
  | style =>
    refine .whole fun names chosen only => ?_
    obtain rfl : names = [name] := (List.append_nil names).symm.trans only
    obtain ⟨own, again⟩ := styles_again looks.1 looks.2 (trimmed .styles) chosen
    exact ⟨own, congrArg (done <$> (Change.job ∘ JobChange.styles) <$> ·) again⟩
  | highresUpscaler =>
    -- A latent upscaler is taken as it is written; a name of the list is taken so as well if it sounds like one.
    unfold read
    dsimp only
    split
    · rename_i latent
      refine .ok fun only => ?_
      obtain rfl : value = name := List.singleton_inj.mp only
      exact ⟨trimmed', if_pos latent⟩
    · refine .whole fun name' chosen only => ?_
      obtain rfl : name' = name := List.singleton_inj.mp only
      refine ⟨trim_of_choose (trimmed .upscaler) trimmed' chosen, ?_⟩
      unfold read
      dsimp only
      split
      · rfl
      · have again : choose key name' caps.upscalers = .ok name' := choose_again (trimmed .upscaler) chosen
        rw [again]
        rfl
  | _ =>
    refine .of_setting fun c report same only => ?_
    rw [Change.adopted, Change.puts_eq_nil (same ▸ by decide)] at only
    cases only

/-- **Looking up a name.** What is found is the first candidate that is the name up to letter case, wherever it
stands, or else the first that has it in it; nothing is found for a blank text, or where no candidate has it in it.
Among candidates without blanks around them, one that was found is found again under its own name and at the same
place. So where the lists of the backend are without such blanks, a directive that has put one name into the draft makes
the same change again when it looks that name up; a few names, such as "none" for an optional setting, it does not look
up but reads as words. -/
theorem lookup_exact_first_and_stable (value : String) (candidates : List String) :
    (∀ c, matchName? value candidates = some c ↔
      ¬ (∀ ch ∈ value.toList, Chars.isBlank ch) ∧
        ∃ before after, candidates = before ++ c :: after ∧ Best value before c after) ∧
    (matchName? value candidates = none ↔
      (∀ ch ∈ value.toList, Chars.isBlank ch) ∨ ∀ c ∈ candidates, ¬ Mentions c value) ∧
    ((∀ c ∈ candidates, Text.trim c = c) →
      (∀ c, matchName? value candidates = some c → matchName? c candidates = some c) ∧
      (∀ before c after, candidates = before ++ c :: after → Best value before c after → Best c before c after) ∧
      ∀ key c, choose key value candidates = .ok c → choose key c candidates = .ok c) ∧
    ∀ caps : Capabilities, (∀ s : Selector, ∀ c ∈ s.offered caps, Text.trim c = c) →
      ∀ key k, Key.ofName? (normalKey key) = some k →
        ∀ change' report, change caps key value = .ok (change', report) →
          ∀ c, change'.adopted = [c] → LooksUp c k → change caps key c = .ok (change', none) := by
  refine ⟨fun c => matchName?_eq_some_iff, matchName?_eq_none_iff, fun trimmed => ⟨?_, ?_, ?_⟩, ?_⟩
  · exact fun c => matchName?_again trimmed
  · intro before c after split best
    exact best.again (trimmed c (by simp [split]))
  · exact fun key c => choose_again trimmed
  · intro caps trimmed key k named c report changed name only looks
    rw [change, named] at changed ⊢
    obtain ⟨own, again⟩ := reads_again looks trimmed (Text.trim_trim value) _ changed only
    rw [own]
    exact again

/-- Of three samplers the one that is named is found behind the one that has its name in it; and a sampler that was
found by a part of its name is set again by its full name. -/
theorem sampler_found_and_set_again :
    matchName? "Euler" ["Euler a", "Euler", "DPM++ 2M Karras"] = some "Euler" ∧
      matchName? "DPM++ 2M Karras" ["Euler a", "Euler", "DPM++ 2M Karras"] = some "DPM++ 2M Karras" ∧
      change { samplers := ["Euler a", "Euler", "DPM++ 2M Karras"] } "!sampler" "DPM++ 2M Karras" =
        .ok (.job (.sampler "DPM++ 2M Karras"), none) := by
  have key : Key.ofName? (normalKey "!sampler") = some .sampler := by decide +kernel
  have euler : matchName? " euler" ["Euler a", "Euler", "DPM++ 2M Karras"] = some "Euler" := by decide +kernel
  have karras : matchName? "2m karras" ["Euler a", "Euler", "DPM++ 2M Karras"] = some "DPM++ 2M Karras" := by
    decide +kernel
  have trimmed : ∀ c ∈ ["Euler a", "Euler", "DPM++ 2M Karras"], Text.trim c = c := by decide +kernel
  have offered : ∀ s : Selector, ∀ c ∈ s.offered { samplers := ["Euler a", "Euler", "DPM++ 2M Karras"] },
      Text.trim c = c := by
    intro s c mem
    cases s <;> first | exact trimmed c mem | cases mem
  have written : Text.trim "2m karras" = "2m karras" := by decide +kernel
  have changed : change { samplers := ["Euler a", "Euler", "DPM++ 2M Karras"] } "!sampler" "2m karras" =
      .ok (.job (.sampler "DPM++ 2M Karras"), none) := by
    rw [change, key, written]
    dsimp only [read, choose]
    rw [karras]
    rfl
  obtain ⟨-, -, again, -⟩ := lookup_exact_first_and_stable " euler" ["Euler a", "Euler", "DPM++ 2M Karras"]
  obtain ⟨-, -, again', directive⟩ := lookup_exact_first_and_stable "2m karras" ["Euler a", "Euler", "DPM++ 2M Karras"]
  exact ⟨(again trimmed).1 _ euler, (again' trimmed).1 _ karras, directive _ offered _ _ key _ _ changed _ rfl trivial⟩

end Directive

end RenderFarm
