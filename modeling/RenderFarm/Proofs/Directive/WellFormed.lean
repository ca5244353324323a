import RenderFarm.Proofs.Directive.Independence
import RenderFarm.Proofs.Number

/-!
Drafts that make sense. Bounds are in order and finite, sizes and factors are above zero, shares lie between zero
and one, and a sweep starts with the checkpoint that is set. The draft of the defaults is such a draft, and no
directive leads out of them: what a value is read as is sound by itself, and a sound change keeps a draft sound.
-/

namespace RenderFarm

/-- A range of doubles between finite bounds. -/
structure Range.Proper (r : Range Float) : Prop where
  min_finite : r.min.isFinite
  max_finite : r.max.isFinite
  ordered : r.min ≤ r.max

/-- A share of a whole. -/
def InUnit (x : Float) : Prop :=
  0 ≤ x ∧ x ≤ 1

instance (x : Float) : Decidable (InUnit x) :=
  inferInstanceAs (Decidable (_ ∧ _))

/-- Checkpoints to go through, if any, are at least two and start with the one that is set. -/
def Sweeps (first : Option String) (sweep : List String) : Prop :=
  sweep = [] ∨ 2 ≤ sweep.length ∧ sweep.head? = first

/-- A draft whose settings make sense. -/
structure Draft.WellFormed (d : Draft) : Prop where
  steps : d.job.steps.min ≤ d.job.steps.max
  scale : d.job.scale.Proper
  strength : d.job.strength.Proper
  width : 1 ≤ d.job.width
  height : 1 ≤ d.job.height
  highresScaleFactor : 0 < d.job.highres.scaleFactor
  upscaleAmount : 0 < d.job.upscale.amount
  codeformer : InUnit d.job.upscale.codeformerVisibility
  gfpgan : InUnit d.job.upscale.gfpganVisibility
  sdStrength : InUnit d.job.upscale.sdStrength
  guidanceStart : InUnit d.job.controlNet.guidanceStart
  guidanceEnd : InUnit d.job.controlNet.guidanceEnd
  detailerStrength : InUnit d.job.detailer.denoisingStrength
  detailerConfidence : InUnit d.job.detailer.confidence
  mode : d.job.mode = d.control.mode
  modelSweep : Sweeps d.job.checkpoint d.control.modelSweep
  highresSweep : Sweeps d.job.highres.checkpoint d.control.highresSweep

/-! ## Ranges -/

theorem isFinite_of_readFinite? {s : String} {x : Float} (read : readFinite? s = some x) : x.isFinite := by
  unfold readFinite? at read
  dsimp only at read
  split at read
  · rename_i y value
    split at read
    · rename_i finite
      obtain rfl : y = x := Option.some.inj (value.symm.trans read)
      exact finite
    · cases read
  · rename_i none
    exact absurd (none.symm.trans read) (by simp)

namespace Range

/-- The bounds of a range that is read are numbers that can be read, and they are the same, or were compared. -/
theorem bounds_of_read? {α : Type} [Quantity α] {s : String} {r : Range α} (read : read? s = some r) :
    (∃ t, readFinite? t = some r.min) ∧ (∃ t, readFinite? t = some r.max) ∧
      (r.min = r.max ∨ Quantity.atMost r.min r.max ∨ ¬ Quantity.atMost r.max r.min) := by
  unfold read? at read
  split at read
  · simp only [Option.bind_eq_bind, Option.bind_eq_some_iff, Option.pure_def, Option.some.injEq] at read
    obtain ⟨lo, lower, hi, upper, rfl⟩ := read
    split
    · rename_i ordered
      exact ⟨⟨_, lower⟩, ⟨_, upper⟩, .inr (.inl ordered)⟩
    · rename_i reversed
      exact ⟨⟨_, upper⟩, ⟨_, lower⟩, .inr (.inr reversed)⟩
  · obtain ⟨a, single, rfl⟩ := Option.map_eq_some_iff.mp read
    exact ⟨⟨_, single⟩, ⟨_, single⟩, .inl rfl⟩

theorem ordered_of_read? {s : String} {r : Range UInt32} (read : read? s = some r) : r.min ≤ r.max := by
  obtain ⟨-, -, same | ordered | reversed⟩ := bounds_of_read? read
  · exact same ▸ UInt32.le_refl _
  · exact of_decide_eq_true ordered
  · exact UInt32.le_of_lt (UInt32.not_le.mp (fun le => reversed (decide_eq_true le)))

theorem proper_of_read? {s : String} {r : Range Float} (read : read? s = some r) : r.Proper := by
  obtain ⟨⟨_, lower⟩, ⟨_, upper⟩, ordered⟩ := bounds_of_read? read
  have finite := isFinite_of_readFinite? lower
  have finite' := isFinite_of_readFinite? upper
  refine ⟨finite, finite', ?_⟩
  obtain same | ordered | reversed := ordered
  · exact same ▸ Double.le_self finite
  · exact of_decide_eq_true ordered
  · exact Double.le_of_not_le finite' finite fun le => reversed (decide_eq_true le)

variable {r : Range Float} {x : Float}

theorem Proper.setMin (proper : r.Proper) (finite : x.isFinite) : (r.setMin x).Proper := by
  unfold Range.setMin
  split
  · exact ⟨finite, finite, Double.le_self finite⟩
  · rename_i inside
    refine ⟨finite, proper.max_finite, Double.le_of_not_lt proper.max_finite finite fun below => ?_⟩
    exact inside (decide_eq_true below)

theorem Proper.setMax (proper : r.Proper) (finite : x.isFinite) : (r.setMax x).Proper := by
  unfold Range.setMax
  split
  · exact ⟨finite, finite, Double.le_self finite⟩
  · rename_i inside
    refine ⟨proper.min_finite, finite, Double.le_of_not_lt finite proper.min_finite fun below => ?_⟩
    exact inside (decide_eq_true below)

end Range

/-! ## Sound changes -/

/-- A change to a field of the job that makes sense by itself. -/
def JobChange.Sound : JobChange → Prop
  | .width n | .height n => 1 ≤ n
  | .steps r => r.min ≤ r.max
  | .scale r | .strength r => r.Proper
  | .minScale x | .maxScale x | .minStrength x | .maxStrength x => x.isFinite
  | _ => True

/-- A change that makes sense by itself. -/
def Change.Sound : Change → Prop
  | .job c => c.Sound
  | .highres (.scaleFactor x) | .upscale (.amount x) => 0 < x
  | .upscale (.codeformer x) | .upscale (.gfpgan x) | .upscale (.sdStrength x) => InUnit x
  | .controlNet (.guidanceStart x) | .controlNet (.guidanceEnd x) => InUnit x
  | .detailer (.strength x) | .detailer (.confidence x) => InUnit x
  | .checkpoint first sweep | .highresCheckpoint first sweep => Sweeps first sweep
  | _ => True

/-- The settings with changes that may make no sense. -/
def Key.checked : List Key :=
  [.width, .height, .steps, .scale, .strength, .checkpoint, .highresCheckpoint, .highresScaleFactor, .upscaleAmount,
    .upscaleCodeformer, .upscaleGfpgan, .upscaleStrength, .controlNetGuidanceStart, .controlNetGuidanceEnd,
    .detailerStrength, .detailerConfidence]

theorem Change.sound_of_setting {c : Change} (free : c.setting ∉ Key.checked) : c.Sound := by
  cases c with
  | job c => cases c <;> first | trivial | exact absurd (List.elem_iff.mp rfl) free
  | highres c => cases c <;> first | trivial | exact absurd (List.elem_iff.mp rfl) free
  | upscale c => cases c <;> first | trivial | exact absurd (List.elem_iff.mp rfl) free
  | controlNet c => cases c <;> first | trivial | exact absurd (List.elem_iff.mp rfl) free
  | detailer c => cases c <;> first | trivial | exact absurd (List.elem_iff.mp rfl) free
  | checkpoint | highresCheckpoint => exact absurd (List.elem_iff.mp rfl) free
  | _ => trivial

namespace Draft.WellFormed

variable {d : Draft}

theorem makeJob (h : d.WellFormed) {c : JobChange} (sound : c.Sound) : ((Change.job c).make d).WellFormed := by
  cases c with
  | width n => exact { h with width := sound }
  | height n => exact { h with height := sound }
  | steps r => exact { h with steps := sound }
  | scale r => exact { h with scale := sound }
  | strength r => exact { h with strength := sound }
  | minScale x => exact { h with scale := h.scale.setMin sound }
  | maxScale x => exact { h with scale := h.scale.setMax sound }
  | minStrength x => exact { h with strength := h.strength.setMin sound }
  | maxStrength x => exact { h with strength := h.strength.setMax sound }
  | _ => exact { h with }

/-- A sound change keeps a draft well-formed. -/
theorem make (h : d.WellFormed) {c : Change} (sound : c.Sound) : (c.make d).WellFormed := by
  cases c with
  | job c => exact h.makeJob sound
  | iptc c => cases c <;> exact { h with }
  | highres c =>
    cases c with
    | scaleFactor x => exact { h with highresScaleFactor := sound }
    | _ => exact { h with }
  | upscale c =>
    cases c with
    | amount x => exact { h with upscaleAmount := sound }
    | codeformer x => exact { h with codeformer := sound }
    | gfpgan x => exact { h with gfpgan := sound }
    | sdStrength x => exact { h with sdStrength := sound }
    | _ => exact { h with }
  | controlNet c =>
    cases c with
    | guidanceStart x => exact { h with guidanceStart := sound }
    | guidanceEnd x => exact { h with guidanceEnd := sound }
    | _ => exact { h with }
  | detailer c =>
    cases c with
    | strength x => exact { h with detailerStrength := sound }
    | confidence x => exact { h with detailerConfidence := sound }
    | _ => exact { h with }
  | mode m => exact { h with mode := rfl }
  | checkpoint first sweep => exact { h with modelSweep := sound }
  | highresCheckpoint first sweep => exact { h with highresSweep := sound }
  | _ => exact { h with }

/-- The draft of the default settings is well-formed. -/
theorem ofDefaults : (Draft.ofDefaults {}).WellFormed where
  steps := by decide
  scale := ⟨by decide +kernel, by decide +kernel, by decide +kernel⟩
  strength := ⟨by decide +kernel, by decide +kernel, by decide +kernel⟩
  width := by decide
  height := by decide
  highresScaleFactor := by decide +kernel
  upscaleAmount := by decide +kernel
  codeformer := ⟨by decide +kernel, by decide +kernel⟩
  gfpgan := ⟨by decide +kernel, by decide +kernel⟩
  sdStrength := ⟨by decide +kernel, by decide +kernel⟩
  guidanceStart := ⟨by decide +kernel, by decide +kernel⟩
  guidanceEnd := ⟨by decide +kernel, by decide +kernel⟩
  detailerStrength := ⟨by decide +kernel, by decide +kernel⟩
  detailerConfidence := ⟨by decide +kernel, by decide +kernel⟩
  mode := rfl
  modelSweep := .inl rfl
  highresSweep := .inl rfl

end Draft.WellFormed

/-! ## Reading -/

namespace Directive

variable {key value : String}

theorem isFinite_of_number {x : Float} (read : number key value = .ok x) : x.isFinite := by
  unfold number at read
  split at read
  · rename_i y found
    cases read
    exact isFinite_of_readFinite? found
  · cases read

theorem read?_of_range {α : Type} [Quantity α] {r : Range α} (read : range key value = .ok r) :
    Range.read? value = some r := by
  unfold range at read
  split at read
  · rename_i found
    cases read
    exact found
  · cases read

/-- A value that is refused unless it has a property has the property when it is read. -/
theorem of_checked {α : Type} {r : Reading α} {p : α → Prop} [DecidablePred p] {e : α → DirectiveError} {a : α}
    (read : (r >>= fun a => if p a then .ok a else .error (e a)) = .ok a) : p a := by
  cases r with
  | error e => cases read
  | ok b =>
    change (if p b then Except.ok b else .error (e b)) = .ok a at read
    split at read
    · rename_i holds
      cases read
      exact holds
    · cases read

theorem pos_of_positive {x : Float} (read : positive key value = .ok x) : 0 < x :=
  of_checked read

theorem inUnit_of_unit {x : Float} (read : unit key value = .ok x) : InUnit x :=
  of_checked read

theorem one_le_of_dimension {n : UInt32} (read : dimension key value = .ok n) : 1 ≤ n := by
  unfold dimension at read
  cases given : number (α := UInt32) key value with
  | error e =>
    rw [given] at read
    cases read
  | ok m =>
    rw [given] at read
    change (if m = 0 then Except.error _ else Except.ok m) = .ok n at read
    split at read
    · cases read
    · rename_i nonzero
      cases read
      rw [UInt32.le_iff_toNat_le]
      rw [← UInt32.toNat_inj] at nonzero
      exact Nat.pos_of_ne_zero nonzero

theorem selectionOf_sweeps (found missing : List String) :
    Sweeps (selectionOf found missing).first (selectionOf found missing).sweep := by
  unfold selectionOf Sweeps
  dsimp only
  split
  · rename_i several
    exact .inr ⟨several, rfl⟩
  · exact .inl rfl

theorem sweeps_of_models {caps : Capabilities} {s : Selection} (read : models key value caps = .ok s) :
    Sweeps s.first s.sweep := by
  unfold models at read
  split at read
  · cases read
    exact .inl rfl
  · split at read
    · split at read
      · cases read
      · cases read
        exact selectionOf_sweeps _ _
    · dsimp only at read
      split at read
      · cases read
      · cases read
        exact selectionOf_sweeps _ _

/-- A value is read as a sound change, under every key. -/
theorem reads_sound (key value : String) (caps : Capabilities) (k : Key) :
    Reads (fun p => p.1.Sound) (read key value caps k) := by
  cases k with
  | width | height => exact .whole fun _ read => one_le_of_dimension read
  | steps => exact .whole fun _ read => Range.ordered_of_read? (read?_of_range read)
  | scale | strength => exact .whole fun _ read => Range.proper_of_read? (read?_of_range read)
  | minScale | maxScale | minStrength | maxStrength => exact .whole fun _ read => isFinite_of_number read
  | highresScaleFactor | upscaleAmount => exact .whole fun _ read => pos_of_positive read
  | upscaleCodeformer | upscaleGfpgan | upscaleStrength | controlNetGuidanceStart | controlNetGuidanceEnd
  | detailerStrength | detailerConfidence => exact .whole fun _ read => inUnit_of_unit read
  | checkpoint | highresCheckpoint => exact .selection fun _ read _ => sweeps_of_models read
  | upscaleFaceEnhance =>
    unfold read
    cases flag key value with
    | error e => exact .error e
    | ok b => cases b <;> exact .ok ⟨by decide +kernel, by decide +kernel⟩
  | _ => exact .of_setting fun _ _ same => Change.sound_of_setting (same ▸ by decide)

/-- No directive leads out of the well-formed drafts. -/
theorem applyAll_wellFormed {d : Draft} (h : d.WellFormed) (given : List (Capabilities × Directive)) :
    (applyAll given d).WellFormed := by
  refine applyAll_invariant d (fun g _ key value k p made d h => ?_) h
  exact h.make (reads_sound key value g.1 k p made)

/-- Whatever directives are given, with whatever the backend has reported by then, and whether they are taken over
or refused: a draft that starts from the default settings stays well-formed. -/
theorem wellFormed_of_defaults (given : List (Capabilities × Directive)) :
    (applyAll given (.ofDefaults {})).WellFormed :=
  applyAll_wellFormed .ofDefaults given

end Directive

end RenderFarm
