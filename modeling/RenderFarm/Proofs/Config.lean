import RenderFarm.Config
import RenderFarm.Proofs.Lines

/-!
Settings that are refused. Whether a line is taken over does not depend on what was set before it, and a refused line
changes nothing; so the errors of a text are those of its lines, and the settings are those of the lines that are left
when the refused ones are taken out.
-/

namespace RenderFarm.Config

/-- What is reported of a line, if it is refused. -/
def refusal? : Except ConfigError Config → Option ConfigError
  | .ok _ => none
  | .error e => some e

/-- What a content line is refused for. -/
def fault? (line : String) : Option ConfigError :=
  refusal? (applyLine line {})

/-! ## Single lines -/

theorem refusal?_eq_some {r : Except ConfigError Config} {e : ConfigError} : refusal? r = some e ↔ r = .error e := by
  cases r <;> simp [refusal?]

theorem refusal?_map {α : Type} (r : Except ConfigError α) (f f' : α → Config) :
    refusal? (r.map f) = refusal? (r.map f') := by
  cases r <;> rfl

/-- A value that presets a job is read without a look at the job. -/
theorem refusal?_presetJob (key value : String) (c c' : Config) :
    refusal? (presetJob key value c) = refusal? (presetJob key value c') := by
  unfold presetJob Directive.apply
  cases Directive.change {} key value with
  | error e => rfl
  | ok read =>
    obtain ⟨change, report⟩ := read
    cases report <;> rfl

/-- A value of the farm is read without a look at the other settings. -/
theorem refusal?_set (key value : String) (c c' : Config) :
    refusal? (set key value c) = refusal? (set key value c') := by
  unfold set
  split
  -- A number, a list of devices, a placement; whatever else has a key is taken as it is.
  case h_2 | h_9 | h_10 | h_11 | h_12 | h_15 => exact refusal?_map _ _ _
  case h_3 => cases Text.listItems ',' value <;> rfl
  case h_14 => cases Placement.parse value <;> rfl
  all_goals rfl

theorem refusal?_applyLine (line : String) (c : Config) : refusal? (applyLine line c) = fault? line := by
  unfold fault? applyLine
  split
  · rfl
  · dsimp only
    split
    · exact refusal?_presetJob _ _ _ _
    · exact refusal?_set _ _ _ _

/-! ## All lines of a text -/

theorem applyLines_cons_of_refused {line : String} {e : ConfigError} (refused : fault? line = some e)
    (lines : List String) (c : Config) :
    applyLines (line :: lines) c = ((applyLines lines c).1, e :: (applyLines lines c).2) := by
  rw [← refusal?_applyLine line c] at refused
  rw [applyLines]
  cases applied : applyLine line c with
  | ok c' => simp [applied, refusal?] at refused
  | error e' =>
    rw [applied] at refused
    cases refused
    rfl

theorem applyLines_cons_of_accepted {line : String} (accepted : fault? line = none) (c : Config) :
    ∃ c', ∀ lines, applyLines (line :: lines) c = applyLines lines c' := by
  rw [← refusal?_applyLine line c] at accepted
  cases applied : applyLine line c with
  | ok c' => exact ⟨c', fun lines => by rw [applyLines, applied]⟩
  | error e => simp [applied, refusal?] at accepted

theorem errors_applyLines (lines : List String) (c : Config) : (applyLines lines c).2 = lines.filterMap fault? := by
  induction lines generalizing c with
  | nil => rfl
  | cons line lines ih =>
    cases verdict : fault? line with
    | none =>
      obtain ⟨c', next⟩ := applyLines_cons_of_accepted verdict c
      rw [next, List.filterMap_cons_none verdict, ih]
    | some e => rw [applyLines_cons_of_refused verdict, List.filterMap_cons_some verdict, ih]

/-- The lines that are taken over give the same settings without the refused ones between them. -/
theorem applyLines_filter (lines : List String) (c : Config) :
    applyLines (lines.filter fun line => (fault? line).isNone) c = ((applyLines lines c).1, []) := by
  induction lines generalizing c with
  | nil => rfl
  | cons line lines ih =>
    cases verdict : fault? line with
    | none =>
      obtain ⟨c', next⟩ := applyLines_cons_of_accepted verdict c
      rw [List.filter_cons_of_pos (by simp [verdict]), next, next, ih]
    | some e => rw [List.filter_cons_of_neg (by simp [verdict]), applyLines_cons_of_refused verdict, ih]

theorem errors_parse (contents : String) : (parse contents).2 = (Text.contentLines contents).filterMap fault? := by
  rw [parse, ← errors_applyLines _ {}]

/-- A line that is read alone is kept when its content is. -/
theorem contentLines_kept {line : String} (single : (Text.contentLines line).length ≤ 1) :
    (if (parse line).2.isEmpty then Text.contentLines line else []) =
      (Text.contentLines line).filter fun content => (fault? content).isNone := by
  rw [errors_parse]
  match Text.contentLines line, single with
  | [], _ => rfl
  | [content], _ => cases verdict : fault? content <;> simp [verdict]

theorem flatMap_kept {lines : List String} (single : ∀ line ∈ lines, (Text.contentLines line).length ≤ 1) :
    (lines.filter fun line => (parse line).2.isEmpty).flatMap Text.contentLines =
      (lines.flatMap Text.contentLines).filter fun content => (fault? content).isNone := by
  induction lines with
  | nil => rfl
  | cons line lines ih =>
    obtain ⟨first, later⟩ := List.forall_mem_cons.mp single
    rw [List.flatMap_cons, List.filter_append, ← contentLines_kept first, ← ih later]
    by_cases kept : (parse line).2.isEmpty
    · rw [List.filter_cons_of_pos (by simpa using kept), List.flatMap_cons, if_pos kept]
    · rw [List.filter_cons_of_neg (by simpa using kept), if_neg kept, List.nil_append]

/-- The content lines that are left without the refused lines are those that are taken over. -/
theorem contentLines_rest (contents : String) :
    Text.contentLines (String.join ((Text.wholeLines contents).filter fun line => (parse line).2.isEmpty)) =
      (Text.contentLines contents).filter fun content => (fault? content).isNone := by
  rw [Text.contentLines_eq, Text.wholeLines_filter, Text.contentLines_eq contents]
  exact flatMap_kept fun line mem => Text.length_contentLines_le mem

/-- What is refused in a text. Whether a line is refused, and what for, does not depend on the settings before it; the
errors of a text are those of its lines, in order and at most one for each, and only for a line that holds something.
When the lines that are refused are taken out, the rest is read without an error and gives the same settings. Jobs
always get the trigger placement of the settings. -/
theorem refused_lines_have_no_effect (contents : String) :
    let lines := Text.wholeLines contents
    String.join lines = contents ∧
      (∀ line ∈ lines, (Text.contentLines line).length ≤ 1 ∧
        (parse line).2.length ≤ (Text.contentLines line).length) ∧
      (∀ (line : String) (c c' : Config) (e : ConfigError),
        c.applyLine line = .error e ↔ c'.applyLine line = .error e) ∧
      (parse contents).2 = lines.flatMap (fun line => (parse line).2) ∧
      parse (String.join (lines.filter fun line => (parse line).2.isEmpty)) = ((parse contents).1, []) ∧
      (parse contents).1.jobDefaults.triggerPlacement = (parse contents).1.triggerPlacement := by
  intro lines
  refine ⟨Text.join_wholeLines contents, fun line mem => ⟨Text.length_contentLines_le mem, ?_⟩, ?_, ?_, ?_, ?_⟩
  · rw [errors_parse]
    exact List.length_filterMap_le _ _
  · intro line c c' e
    have same := (refusal?_applyLine line c).trans (refusal?_applyLine line c').symm
    rw [← refusal?_eq_some, ← refusal?_eq_some, same]
  · simp only [errors_parse]
    rw [Text.contentLines_eq, List.filterMap_flatMap]
  · rw [parse, contentLines_rest, applyLines_filter]
    rfl
  · rw [parse]

end RenderFarm.Config
