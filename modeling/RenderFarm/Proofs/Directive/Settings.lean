import RenderFarm.Directive.Apply

/-!
Which setting a directive is about. Every key stands for one setting, and a directive that is read under a key
changes that setting only; so changes to different settings can be made in either order, and a change that is
made again changes nothing more.
-/

namespace RenderFarm

/-- The setting that a key is about, named by one of its keys: both bounds of a range belong to the range, and
there are two ways to set how much faces are restored. -/
def Key.setting : Key → Key
  | .minScale | .maxScale => .scale
  | .minStrength | .maxStrength => .strength
  | .upscaleFaceEnhance => .upscaleGfpgan
  | k => k

/-- Whether a key names checkpoints, of which several may be given. -/
def Key.namesCheckpoints (k : Key) : Prop :=
  k = .checkpoint ∨ k = .highresCheckpoint

instance (k : Key) : Decidable k.namesCheckpoints :=
  inferInstanceAs (Decidable (_ ∨ _))

/-! ## Changes of one part of a job -/

namespace Range

variable {α : Type} [Quantity α]

theorem setMin_setMin (r : Range α) (a : α) : (r.setMin a).setMin a = r.setMin a := by
  unfold setMin
  by_cases below : Quantity.less r.max a <;> simp [below]

theorem setMax_setMax (r : Range α) (a : α) : (r.setMax a).setMax a = r.setMax a := by
  unfold setMax
  by_cases above : Quantity.less a r.min <;> simp [above]

end Range

namespace JobChange

/-- The setting that a change is about. -/
def setting : JobChange → Key
  | .width _ => .width
  | .height _ => .height
  | .seed _ => .seed
  | .steps _ => .steps
  | .scale _ | .minScale _ | .maxScale _ => .scale
  | .strength _ | .minStrength _ | .maxStrength _ => .strength
  | .samples _ => .samples
  | .batchSize _ => .batchSize
  | .clipSkip _ => .clipSkip
  | .negativePrompt _ => .negativePrompt
  | .sampler _ => .sampler
  | .vae _ => .vae
  | .styles _ => .style
  | .inputImage _ => .inputImage
  | .randomInputDir _ => .randomInputDir
  | .filename _ => .filename
  | .triggerPlacement _ => .triggerPlacement

theorem make_make (c : JobChange) (j : Job) : c.make (c.make j) = c.make j := by
  cases c with
  | minScale x => simp only [make, Range.setMin_setMin]
  | maxScale x => simp only [make, Range.setMax_setMax]
  | minStrength x => simp only [make, Range.setMin_setMin]
  | maxStrength x => simp only [make, Range.setMax_setMax]
  | _ => rfl

theorem make_comm {a b : JobChange} (apart : a.setting ≠ b.setting) (j : Job) :
    a.make (b.make j) = b.make (a.make j) := by
  cases a <;> cases b <;> first | exact absurd rfl apart | simp only [make]

end JobChange

namespace IptcChange

/-- The setting that a change is about. -/
def setting : IptcChange → Key
  | .title _ => .iptcTitle
  | .description _ => .iptcDescription
  | .keywords _ => .iptcKeywords
  | .copyright _ => .iptcCopyright

theorem make_comm {a b : IptcChange} (apart : a.setting ≠ b.setting) (i : Iptc) :
    a.make (b.make i) = b.make (a.make i) := by
  cases a <;> cases b <;> first | rfl | exact absurd rfl apart

end IptcChange

namespace HighresChange

/-- The setting that a change is about. -/
def setting : HighresChange → Key
  | .enabled _ => .highresFix
  | .scaleFactor _ => .highresScaleFactor
  | .steps _ => .highresSteps
  | .denoisingStrength _ => .highresDenoisingStrength
  | .upscaler _ => .highresUpscaler
  | .sampler _ => .highresSampler
  | .prompt _ => .highresPrompt
  | .negativePrompt _ => .highresNegativePrompt

theorem make_comm {a b : HighresChange} (apart : a.setting ≠ b.setting) (h : Highres) :
    a.make (b.make h) = b.make (a.make h) := by
  cases a <;> cases b <;> first | rfl | exact absurd rfl apart

end HighresChange

namespace UpscaleChange

/-- The setting that a change is about. -/
def setting : UpscaleChange → Key
  | .enabled _ => .useUpscale
  | .amount _ => .upscaleAmount
  | .method _ => .upscaleModel
  | .codeformer _ => .upscaleCodeformer
  | .gfpgan _ => .upscaleGfpgan
  | .keepSource _ => .upscaleKeepSource
  | .sdStrength _ => .upscaleStrength
  | .checkpoint _ => .upscaleCheckpoint
  | .sampler _ => .upscaleSampler
  | .steps _ => .upscaleSteps
  | .prompt _ => .upscalePrompt
  | .negativePrompt _ => .upscaleNegativePrompt

theorem make_comm {a b : UpscaleChange} (apart : a.setting ≠ b.setting) (u : Upscale) :
    a.make (b.make u) = b.make (a.make u) := by
  cases a <;> cases b <;> first | rfl | exact absurd rfl apart

end UpscaleChange

namespace ControlNetChange

/-- The setting that a change is about. -/
def setting : ControlNetChange → Key
  | .inputImage _ => .controlNetInputImage
  | .model _ => .controlNetModel
  | .preprocessor _ => .controlNetPreprocessor
  | .weight _ => .controlNetWeight
  | .guidanceStart _ => .controlNetGuidanceStart
  | .guidanceEnd _ => .controlNetGuidanceEnd
  | .pixelPerfect _ => .controlNetPixelPerfect
  | .lowVram _ => .controlNetLowVram
  | .controlMode _ => .controlNetMode

theorem make_comm {a b : ControlNetChange} (apart : a.setting ≠ b.setting) (c : ControlNet) :
    a.make (b.make c) = b.make (a.make c) := by
  cases a <;> cases b <;> first | rfl | exact absurd rfl apart

end ControlNetChange

namespace DetailerChange

/-- The setting that a change is about. -/
def setting : DetailerChange → Key
  | .model _ => .detailerModel
  | .prompt _ => .detailerPrompt
  | .negativePrompt _ => .detailerNegativePrompt
  | .strength _ => .detailerStrength
  | .confidence _ => .detailerConfidence

theorem make_comm {a b : DetailerChange} (apart : a.setting ≠ b.setting) (d : Detailer) :
    a.make (b.make d) = b.make (a.make d) := by
  cases a <;> cases b <;> first | rfl | exact absurd rfl apart

end DetailerChange

/-! ## Changes of a draft -/

namespace Change

/-- The setting that a change is about. -/
def setting : Change → Key
  | .job c => c.setting
  | .iptc c => c.setting
  | .highres c => c.setting
  | .upscale c => c.setting
  | .controlNet c => c.setting
  | .detailer c => c.setting
  | .mode _ => .mode
  | .checkpoint _ _ => .checkpoint
  | .highresCheckpoint _ _ => .highresCheckpoint
  | .repeats _ => .repeats
  | .nextTemplate _ => .nextTemplate
  | .delimiter _ => .delimiter

/-- A change that is made again changes nothing more. -/
theorem make_make (c : Change) (d : Draft) : c.make (c.make d) = c.make d := by
  cases c with
  | job c => simp only [make, JobChange.make_make]
  | iptc c => cases c <;> rfl
  | highres c => cases c <;> rfl
  | upscale c => cases c <;> rfl
  | controlNet c => cases c <;> rfl
  | detailer c => cases c <;> rfl
  | _ => rfl

/-- Changes to fields of the job itself leave its parts alone. -/
theorem make_job_comm {a : JobChange} {b : Change} (apart : a.setting ≠ b.setting) (d : Draft) :
    (job a).make (b.make d) = b.make ((job a).make d) := by
  cases b with
  | job b => simp only [make, JobChange.make_comm apart]
  | _ => cases a <;> rfl

/-- Changes to different settings can be made in either order. -/
theorem make_comm {a b : Change} (apart : a.setting ≠ b.setting) (d : Draft) :
    a.make (b.make d) = b.make (a.make d) := by
  by_cases ofJob : (∃ c, a = job c) ∨ ∃ c, b = job c
  · obtain ⟨c, rfl⟩ | ⟨c, rfl⟩ := ofJob
    · exact make_job_comm apart d
    · exact (make_job_comm apart.symm d).symm
  · cases a <;> cases b
    case iptc.iptc => simp only [make, IptcChange.make_comm apart]
    case highres.highres => simp only [make, HighresChange.make_comm apart]
    case upscale.upscale => simp only [make, UpscaleChange.make_comm apart]
    case controlNet.controlNet => simp only [make, ControlNetChange.make_comm apart]
    case detailer.detailer => simp only [make, DetailerChange.make_comm apart]
    -- The checkpoint of the second pass lies in the same part as the settings of that pass.
    case highres.highresCheckpoint a _ _ => cases a <;> rfl
    case highresCheckpoint.highres _ _ b => cases b <;> rfl
    all_goals first | rfl | exact absurd rfl apart | simp at ofJob

end Change

/-! ## Reading -/

namespace Directive

open Directive.read (done)

variable {α : Type} {P : Change × Option DirectiveError → Prop} {key value : String}

/-- What holds of everything that a value can be read as. -/
def Reads (P : Change × Option DirectiveError → Prop) (r : Reading (Change × Option DirectiveError)) : Prop :=
  ∀ p, r = .ok p → P p

namespace Reads

theorem ok {p : Change × Option DirectiveError} (h : P p) : Reads P (.ok p) := by
  rintro _ ⟨⟩
  exact h

theorem error (e : DirectiveError) : Reads P (.error e) := by
  rintro _ ⟨⟩

/-- A value that is read as a whole makes one change, and nothing is reported. -/
theorem whole {r : Reading α} {f : α → Change} (h : ∀ a, r = .ok a → P (f a, none)) :
    Reads P (done <$> f <$> r) := by
  cases r with
  | error e => exact error e
  | ok a => exact ok (h a rfl)

/-- A choice of checkpoints makes one change, whether it is taken over in full or in part. -/
theorem selection {r : Reading Selection} {f : Option String → List String → Change}
    (h : ∀ s, r = .ok s → ∀ report, P (f s.first s.sweep, report)) : Reads P (selectionChange key f <$> r) := by
  cases r with
  | error e => exact error e
  | ok s => exact ok (h s rfl _)

end Reads

/-- A value is read as a change of the setting that its key is about; only with checkpoints something may be
reported beside the change. -/
theorem reads_setting (key value : String) (caps : Capabilities) (k : Key) :
    Reads (fun p => p.1.setting = k.setting ∧ (¬ k.namesCheckpoints → p.2 = none)) (read key value caps k) := by
  have names : Key.checkpoint.namesCheckpoints ∧ Key.highresCheckpoint.namesCheckpoints := ⟨.inl rfl, .inr rfl⟩
  cases k with
  | checkpoint => exact .selection fun _ _ _ => ⟨rfl, fun others => absurd names.1 others⟩
  | highresCheckpoint => exact .selection fun _ _ _ => ⟨rfl, fun others => absurd names.2 others⟩
  | mode | delimiter | triggerPlacement | controlNetMode =>
    unfold read
    dsimp only
    split
    · exact .ok ⟨rfl, fun _ => rfl⟩
    · exact .error _
  | highresUpscaler =>
    unfold read
    dsimp only
    split
    · exact .ok ⟨rfl, fun _ => rfl⟩
    · exact .whole fun _ _ => ⟨rfl, fun _ => rfl⟩
  | upscaleFaceEnhance =>
    unfold read
    cases flag key value with
    | error e => exact .error e
    | ok b => exact .ok ⟨rfl, fun _ => rfl⟩
  | negativePrompt | nextTemplate | inputImage | randomInputDir | filename | iptcTitle | iptcDescription
  | iptcKeywords | iptcCopyright | highresPrompt | highresNegativePrompt | upscalePrompt
  | upscaleNegativePrompt | controlNetInputImage | detailerModel | detailerPrompt
  | detailerNegativePrompt => exact .ok ⟨rfl, fun _ => rfl⟩
  | _ => exact .whole fun _ _ => ⟨rfl, fun _ => rfl⟩

/-- What holds of all changes of a setting holds of what is read under its keys. -/
theorem Reads.of_setting {caps : Capabilities} {k : Key} (h : ∀ c report, c.setting = k.setting → P (c, report)) :
    Reads P (read key value caps k) :=
  fun p made => h p.1 p.2 (reads_setting key value caps k p made).1

end Directive

end RenderFarm
