import RenderFarm.Proofs.Directive.Settings

/-!
Directives in another order, or given again. What a directive is refused for and what it changes never depends
on what was set before; so it can be given again without effect, and two directives that are about different
settings can be given in either order.
-/

namespace RenderFarm

namespace Directive

/-- The keys that are about one setting together. -/
def keyGroups : List (List String) :=
  [["SCALE", "MIN_SCALE", "MAX_SCALE"], ["STRENGTH", "MIN_STRENGTH", "MAX_STRENGTH"],
    ["UPSCALE_GFPGAN_AMOUNT", "UPSCALE_FACE_ENH"]]

/-- Whether two keys are about the same setting: they are the same key, or of the same group. -/
def Related (key key' : String) : Prop :=
  normalKey key = normalKey key' ∨ ∃ group ∈ keyGroups, normalKey key ∈ group ∧ normalKey key' ∈ group

instance (key key' : String) : Decidable (Related key key') :=
  inferInstanceAs (Decidable (_ ∨ _))

/-- Names of the same setting are of the same group. -/
theorem names_of_same_setting : ∀ p ∈ Key.names, ∀ q ∈ Key.names, p.2.setting = q.2.setting →
    p.1 = q.1 ∨ ∃ group ∈ keyGroups, p.1 ∈ group ∧ q.1 ∈ group := by
  decide +kernel

/-- A key is found under one of its names. -/
theorem mem_names_of_ofName? {name : String} {k : Key} (found : Key.ofName? name = some k) :
    (name, k) ∈ Key.names := by
  obtain ⟨⟨name', _⟩, here, rfl⟩ := Option.map_eq_some_iff.mp found
  have same : name' = name := by simpa using List.find?_some here
  exact same ▸ List.mem_of_find?_eq_some here

variable {caps caps' : Capabilities} {key key' value value' : String} {c c' : Change}
  {report report' : Option DirectiveError} (d : Draft)

theorem apply_of_change (read : change caps key value = .ok (c, report)) :
    apply caps key value d = (c.make d, report) := by
  rw [apply, read]

theorem apply_of_error {e : DirectiveError} (refused : change caps key value = .error e) :
    apply caps key value d = (d, some e) := by
  rw [apply, refused]

/-- A directive that changes something has a key, and is read under it. -/
theorem exists_key_of_change (read : change caps key value = .ok (c, report)) :
    ∃ k, (normalKey key, k) ∈ Key.names ∧
      Directive.read (normalKey key) (Text.trim value) caps k = .ok (c, report) := by
  unfold change at read
  split at read
  · rename_i k found
    exact ⟨k, mem_names_of_ofName? found, read⟩
  · cases read

/-- Applies directives one after another, each with what the backend has reported by then. -/
def applyAll (given : List (Capabilities × Directive)) (d : Draft) : Draft :=
  given.foldl (fun d g => (apply g.1 g.2.key g.2.value d).1) d

/-- What every change keeps that can be read with the reports of the backend, directives keep. -/
theorem applyAll_invariant {P : Draft → Prop} {given : List (Capabilities × Directive)}
    (keeps : ∀ g ∈ given, ∀ key value k, Reads (fun p => ∀ d, P d → P (p.1.make d)) (Directive.read key value g.1 k))
    (start : P d) : P (applyAll given d) := by
  refine List.foldlRecOn (motive := P) given _ start fun d h g mem => ?_
  cases read : change g.1 g.2.key g.2.value with
  | error e => rwa [apply_of_error d read]
  | ok p =>
    obtain ⟨k, _, made⟩ := exists_key_of_change read
    rw [apply_of_change d read]
    exact keeps g mem _ _ k p made d h

/-- Directives that are not related change different settings. -/
theorem setting_ne_of_not_related (apart : ¬ Related key key')
    (read : change caps key value = .ok (c, report)) (read' : change caps' key' value' = .ok (c', report')) :
    c.setting ≠ c'.setting := by
  obtain ⟨k, named, made⟩ := exists_key_of_change read
  obtain ⟨k', named', made'⟩ := exists_key_of_change read'
  intro same
  have setting : c.setting = k.setting := (reads_setting _ _ _ _ _ made).1
  have setting' : c'.setting = k'.setting := (reads_setting _ _ _ _ _ made').1
  have related := names_of_same_setting _ named _ named' (setting.symm.trans (same.trans setting'))
  exact apart related

/-- What a directive reports does not depend on the draft. -/
theorem report_apply (d d' : Draft) : (apply caps key value d).2 = (apply caps key value d').2 := by
  unfold apply
  cases change caps key value <;> rfl

/-- Two directives that are not related can be given in either order. -/
theorem apply_comm (apart : ¬ Related key key') :
    (apply caps key value (apply caps key' value' d).1).1 = (apply caps key' value' (apply caps key value d).1).1 := by
  cases read : change caps key value with
  | error e => rw [apply_of_error _ read, apply_of_error _ read]
  | ok p =>
    cases read' : change caps key' value' with
    | error e => rw [apply_of_error _ read', apply_of_error _ read']
    | ok p' =>
      simp only [apply_of_change _ read, apply_of_change _ read']
      exact Change.make_comm (setting_ne_of_not_related apart read read') d

/-- A directive that is given again changes nothing more and reports the same; and of two directives that are
about different settings, in whichever order they are given, each reports what it reports alone, and the draft
is the same in the end. -/
theorem directives_repeat_and_commute (caps : Capabilities) (key value key' value' : String) (d : Draft) :
    apply caps key value (apply caps key value d).1 = apply caps key value d ∧
    (¬ Related key key' →
      (apply caps key value (apply caps key' value' d).1).1 =
          (apply caps key' value' (apply caps key value d).1).1 ∧
        (apply caps key value (apply caps key' value' d).1).2 = (apply caps key value d).2 ∧
        (apply caps key' value' (apply caps key value d).1).2 = (apply caps key' value' d).2) := by
  refine ⟨?_, fun apart => ⟨apply_comm d apart, report_apply _ _, report_apply _ _⟩⟩
  refine Prod.ext ?_ (report_apply _ _)
  cases read : change caps key value with
  | error e => rw [apply_of_error _ read, apply_of_error _ read]
  | ok p => simp only [apply_of_change _ read, Change.make_make]

/-- A choice of checkpoints and a mode: both concern the job and the run. -/
theorem checkpoint_and_mode_commute :
    ¬ Related "!ckpt_file" "Mode" ∧
      (apply {} "!ckpt_file" "a, b" (apply {} "Mode" "random" (.ofDefaults {})).1).1 =
        (apply {} "Mode" "random" (apply {} "!ckpt_file" "a, b" (.ofDefaults {})).1).1 := by
  have apart : ¬ Related "!ckpt_file" "Mode" := by decide +kernel
  exact ⟨apart, ((directives_repeat_and_commute {} "!ckpt_file" "a, b" "Mode" "random" (.ofDefaults {})).2 apart).1⟩

end Directive

end RenderFarm
