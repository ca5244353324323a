import RenderFarm.Proofs.Directive.Independence
import RenderFarm.Proofs.Text

/-!
What a refused directive leaves behind. It changes nothing at all, with one exception: of a list of checkpoints
the known ones are taken over, and the unknown ones are reported.
-/

namespace RenderFarm

namespace Directive

/-- The names in the value of a directive that takes a list. -/
def listed (value : String) : List String :=
  Text.listItems ',' (Text.trim value)

/-- The title that a name stands for. Any name will do as long as the backend has told of none. -/
def titleOf? (titles : List String) (name : String) : Option String :=
  if titles.isEmpty then some name else matchName? name titles

/-- The titles that names stand for, in their order and without repetitions. -/
def known (titles names : List String) : List String :=
  (names.filterMap (titleOf? titles)).eraseDups

/-- The names that stand for no title, in their order. -/
def unknown (titles names : List String) : List String :=
  names.filter fun name => (titleOf? titles name).isNone

/-- A list of checkpoints of which the backend knows some and does not know others. -/
def PartlyKnown (caps : Capabilities) (key value : String) : Prop :=
  (normalKey key = "CKPT_FILE" ∨ normalKey key = "HIGHRES_CKPT_FILE") ∧
    known caps.modelTitles (listed value) ≠ [] ∧ unknown caps.modelTitles (listed value) ≠ []

instance (caps : Capabilities) (key value : String) : Decidable (PartlyKnown caps key value) :=
  inferInstanceAs (Decidable (_ ∧ _))

/-- The checkpoints to go through: none when there is just one. -/
def sweepOf (titles : List String) : List String :=
  if titles.length = 1 then [] else titles

/-- The change that the checkpoints named under a key make. -/
def checkpointChange (key : String) : Option String → List String → Change :=
  if normalKey key = "CKPT_FILE" then .checkpoint else .highresCheckpoint

/-! ## Sorting the names of a list -/

theorem eraseDups_concat (seen : List String) (title : String) :
    (seen ++ [title]).eraseDups = if title ∈ seen.eraseDups then seen.eraseDups else seen.eraseDups ++ [title] := by
  rw [List.eraseDups_append]
  by_cases again : title ∈ seen <;> simp [List.mem_eraseDups, List.removeAll, again, List.eraseDups_cons]

theorem choose_of_ne_empty {key name : String} (nonempty : name ≠ "") (titles : List String) :
    choose key name titles =
      match titleOf? titles name with
      | some title => .ok title
      | none => .error (.unavailable key name) := by
  have given : name.isEmpty = false := by simpa using nonempty
  unfold choose titleOf?
  rw [given]
  by_cases any : titles.isEmpty
  · simp [any]
  · cases found : matchName? name titles <;> simp [any]

/-- The names of a list are sorted one after another; what was found before them stays in front. -/
theorem findAll_eq (key : String) (titles : List String) {names : List String}
    (nonempty : ∀ name ∈ names, name ≠ "") (seen missing : List String) :
    findAll key titles names (seen.eraseDups, missing) =
      ((seen ++ names.filterMap (titleOf? titles)).eraseDups, missing ++ unknown titles names) := by
  induction names generalizing seen missing with
  | nil => simp [findAll, unknown]
  | cons name names ih =>
    rw [List.forall_mem_cons] at nonempty
    rw [findAll, choose_of_ne_empty nonempty.1]
    cases found : titleOf? titles name with
    | none =>
      dsimp only
      rw [ih nonempty.2]
      simp [unknown, found]
    | some title =>
      dsimp only
      rw [← eraseDups_concat, ih nonempty.2]
      simp [unknown, found]

theorem listItems_trim (value : String) : Text.listItems ',' (Text.trim value) = listed value := rfl

theorem findAll_listed (key : String) (titles : List String) (value : String) :
    findAll key titles (listed value) ([], []) = (known titles (listed value), unknown titles (listed value)) := by
  have nonempty : ∀ name ∈ listed value, name ≠ "" := fun _ mem => Text.ne_empty_of_mem_listItems mem
  have sorted := findAll_eq key titles nonempty [] []
  rw [List.nil_append, List.nil_append, List.eraseDups_nil] at sorted
  exact sorted

variable {caps : Capabilities} {key value : String}

/-- A list with a known and an unknown name has more than one name, so it is no single word. -/
theorem comma_mem_of_partlyKnown (partly : PartlyKnown caps key value) : ',' ∈ (Text.trim value).toList := by
  obtain ⟨_, some, others⟩ := partly
  refine Decidable.byContradiction fun none => ?_
  obtain ⟨other, mem⟩ := List.exists_mem_of_ne_nil _ others
  obtain ⟨listed', untitled⟩ := List.mem_filter.mp mem
  -- The only name of the list is the unknown one.
  have only : listed value = [other] := by
    obtain ⟨name, single⟩ := List.length_eq_one_iff.mp
      (Nat.le_antisymm (Text.length_listItems_le none) (List.length_pos_of_mem listed'))
    have same : listed value = [name] := single
    rw [same, List.mem_singleton] at listed'
    rw [same, listed']
  rw [Option.isNone_iff_eq_none] at untitled
  exact some (by simp [known, only, untitled])

/-- What a list of checkpoints is read as, when the backend knows some of them and does not know others. -/
theorem models_of_partlyKnown (partly : PartlyKnown caps key value) :
    models (normalKey key) (Text.trim value) caps =
      .ok (selectionOf (known caps.modelTitles (listed value)) (unknown caps.modelTitles (listed value))) := by
  have comma := comma_mem_of_partlyKnown partly
  have plain : ∀ word : String, ',' ∉ word.toList → Text.eqIgnoringCase (Text.trim value) word = false := by
    intro word without
    rw [Bool.eq_false_iff]
    exact fun same => Text.comma_not_mem_of_eqIgnoringCase same without comma
  have given : (Text.trim value).isEmpty = false := by
    rw [Bool.eq_false_iff]
    intro empty
    rw [String.isEmpty_iff.mp empty] at comma
    cases comma
  have some : (known caps.modelTitles (listed value)).isEmpty = false := by
    simpa using partly.2.1
  unfold models isNone
  rw [given, plain "none" (by decide), plain "default" (by decide), plain "all" (by decide), listItems_trim,
    findAll_listed]
  simp only [some]
  rfl

theorem selectionOf_missing (found missing : List String) : (selectionOf found missing).missing = missing := rfl

/-- A list of checkpoints is refused in full when the backend knows none of them, and taken over in full when it
knows all of them. -/
theorem models_of_not_partlyKnown (names : normalKey key = "CKPT_FILE" ∨ normalKey key = "HIGHRES_CKPT_FILE")
    (others : ¬ PartlyKnown caps key value) {s : Selection}
    (read : models (normalKey key) (Text.trim value) caps = .ok s) : s.missing = [] := by
  unfold models at read
  split at read
  · rw [← Except.ok.inj read]
  · split at read
    · split at read
      · cases read
      · rw [← Except.ok.inj read, selectionOf_missing]
    · rw [listItems_trim, findAll_listed] at read
      dsimp only at read
      split at read
      · cases read
      · rename_i some
        have some : known caps.modelTitles (listed value) ≠ [] := by simpa using some
        rw [← Except.ok.inj read, selectionOf_missing]
        by_cases left : unknown caps.modelTitles (listed value) = []
        · exact left
        · exact absurd ⟨names, some, left⟩ others

theorem selectionOf_sweep {found : List String} (some : found ≠ []) (missing : List String) :
    (selectionOf found missing).sweep = sweepOf found := by
  have positive : 0 < found.length := List.length_pos_iff.mpr some
  unfold selectionOf sweepOf
  by_cases one : found.length = 1
  · simp [one]
  · rw [if_neg one]
    exact if_pos (by omega)

/-- Names left out of a selection are reported. -/
theorem selectionChange_of_missing {found missing : List String} (some' : found ≠ []) (left : missing ≠ [])
    (key : String) (make : Option String → List String → Change) :
    selectionChange key make (selectionOf found missing) =
      (make found.head? (sweepOf found), some (.unavailable key (", ".intercalate missing))) := by
  have others : missing.isEmpty = false := by simpa using left
  rw [selectionChange, selectionOf_sweep some', selectionOf_missing, others]
  rfl

/-! ## What is left behind -/

theorem ofName?_checkpoint : Key.ofName? "CKPT_FILE" = some .checkpoint := by
  decide +kernel

theorem ofName?_highresCheckpoint : Key.ofName? "HIGHRES_CKPT_FILE" = some .highresCheckpoint := by
  decide +kernel

/-- The keys that checkpoints are named under. -/
theorem name_of_namesCheckpoints :
    ∀ p ∈ Key.names, p.2.namesCheckpoints → p.1 = "CKPT_FILE" ∨ p.1 = "HIGHRES_CKPT_FILE" := by
  decide +kernel

/-- Checkpoints are read in the same way under both of their keys. -/
theorem change_of_checkpoints (names : normalKey key = "CKPT_FILE" ∨ normalKey key = "HIGHRES_CKPT_FILE") :
    change caps key value =
      selectionChange (normalKey key) (checkpointChange key) <$> models (normalKey key) (Text.trim value) caps := by
  unfold change checkpointChange
  obtain named | named := names
  · rw [named, ofName?_checkpoint, if_pos rfl]
    rfl
  · rw [named, ofName?_highresCheckpoint, if_neg (by decide)]
    rfl

theorem change_of_selection (names : normalKey key = "CKPT_FILE" ∨ normalKey key = "HIGHRES_CKPT_FILE")
    {s : Selection} (read : models (normalKey key) (Text.trim value) caps = .ok s) :
    change caps key value = .ok (selectionChange (normalKey key) (checkpointChange key) s) := by
  rw [change_of_checkpoints names, read]
  rfl

/-- Of a list with a known and an unknown name the known ones are taken over and the others reported. -/
theorem apply_of_partlyKnown (partly : PartlyKnown caps key value) (d : Draft) :
    apply caps key value d =
      ((checkpointChange key (known caps.modelTitles (listed value)).head?
          (sweepOf (known caps.modelTitles (listed value)))).make d,
        some (.unavailable (normalKey key) (", ".intercalate (unknown caps.modelTitles (listed value))))) := by
  have read := change_of_selection partly.1 (models_of_partlyKnown partly)
  rw [selectionChange_of_missing partly.2.1 partly.2.2] at read
  exact apply_of_change d read

/-- In every other case a directive is either taken over without a report, or refused without effect. -/
theorem apply_of_not_partlyKnown (whole : ¬ PartlyKnown caps key value) (d : Draft)
    (reported : (apply caps key value d).2.isSome) : (apply caps key value d).1 = d := by
  cases read : change caps key value with
  | error e => rw [apply_of_error _ read]
  | ok p =>
    rw [apply_of_change _ read] at reported
    obtain ⟨k, named, made⟩ := exists_key_of_change read
    have silent := (reads_setting _ _ _ _ _ made).2
    by_cases checkpoints : k.namesCheckpoints
    · have names := name_of_namesCheckpoints _ named checkpoints
      cases selected : models (normalKey key) (Text.trim value) caps with
      | error e =>
        rw [change_of_checkpoints names, selected] at read
        cases read
      | ok s =>
        rw [change_of_selection names selected] at read
        rw [← Except.ok.inj read] at reported
        simp [selectionChange, models_of_not_partlyKnown names whole selected] at reported
    · rw [silent checkpoints] at reported
      cases reported

/-- A directive that is refused, and for whatever reason, leaves the draft as it was. The one exception is a list
of checkpoints with a known and an unknown name: the unknown names are reported, in their order, and the first of
the known ones becomes the checkpoint, to be followed by the others if there are any. -/
theorem refusal_is_atomic (caps : Capabilities) (key value : String) (d : Draft) :
    ((apply caps key value d).2.isSome → ¬ PartlyKnown caps key value → (apply caps key value d).1 = d) ∧
    (PartlyKnown caps key value →
      (apply caps key value d).2 =
          some (.unavailable (normalKey key) (", ".intercalate (unknown caps.modelTitles (listed value)))) ∧
        (normalKey key = "CKPT_FILE" → (apply caps key value d).1 =
          { job := { d.job with checkpoint := (known caps.modelTitles (listed value)).head? }
            control := { d.control with modelSweep := sweepOf (known caps.modelTitles (listed value)) } }) ∧
        (normalKey key = "HIGHRES_CKPT_FILE" → (apply caps key value d).1 =
          { job := { d.job with
              highres := { d.job.highres with checkpoint := (known caps.modelTitles (listed value)).head? } }
            control := { d.control with highresSweep := sweepOf (known caps.modelTitles (listed value)) } })) := by
  refine ⟨fun reported whole => apply_of_not_partlyKnown whole d reported, fun partly => ?_⟩
  rw [apply_of_partlyKnown partly]
  refine ⟨rfl, fun named => ?_, fun named => ?_⟩
  · rw [checkpointChange, if_pos named]
    rfl
  · rw [checkpointChange, if_neg (by rw [named]; decide)]
    rfl

/-- Two of four names are known, and both are kept in the order in which they are given. -/
theorem list_with_unknown_names_taken_over :
    PartlyKnown { models := [{ title := "alpha" }, { title := "beta" }] } "!ckpt_file" "nix, beta, Alpha, nope" ∧
      (apply { models := [{ title := "alpha" }, { title := "beta" }] } "!ckpt_file" "nix, beta, Alpha, nope"
          (.ofDefaults {})).2 = some (.unavailable "CKPT_FILE" "nix, nope") ∧
      (apply { models := [{ title := "alpha" }, { title := "beta" }] } "!ckpt_file" "nix, beta, Alpha, nope"
          (.ofDefaults {})).1 =
        { job := { checkpoint := some "beta" }, control := { modelSweep := ["beta", "alpha"] } } := by
  have partly : PartlyKnown { models := [{ title := "alpha" }, { title := "beta" }] } "!ckpt_file"
      "nix, beta, Alpha, nope" := by decide +kernel
  have key : normalKey "!ckpt_file" = "CKPT_FILE" := by decide +kernel
  have kept : known ["alpha", "beta"] (listed "nix, beta, Alpha, nope") = ["beta", "alpha"] := by decide +kernel
  have left : ", ".intercalate (unknown ["alpha", "beta"] (listed "nix, beta, Alpha, nope")) = "nix, nope" := by
    decide +kernel
  obtain ⟨reported, changed, -⟩ := (refusal_is_atomic _ _ _ (.ofDefaults {})).2 partly
  refine ⟨partly, ?_, ?_⟩
  · rw [reported, key]
    exact congrArg (fun names => some (DirectiveError.unavailable "CKPT_FILE" names)) left
  · rw [changed key]
    exact congrArg (fun titles : List String => (
      { job := { checkpoint := titles.head? }, control := { modelSweep := sweepOf titles } } : Draft)) kept

end Directive

end RenderFarm
