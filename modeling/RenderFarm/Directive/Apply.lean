import RenderFarm.Capability
import RenderFarm.Directive.Change
import RenderFarm.Directive.Key
import RenderFarm.Directive.Line
import RenderFarm.Number.Layout
import RenderFarm.Text.Flag

/-!
What directives do. The value of a directive is read according to its key and checked against the backend's
lists, where an empty list accepts any name. A directive that is refused changes nothing; only a list of
checkpoints of which some are unknown is both reported and, as far as it is known, taken over.
-/

namespace RenderFarm

/-- Why a value does not fit its key, beyond its form. -/
inductive ValueFault where
  | unknownMode (word : String)
  | notQuoted
  | placement (fault : Placement.Fault)
  | notPositive (x : Float)
  | notUnit (x : Float)
  | zeroDimension
  | required
  | needsModelList
  | controlMode
deriving Repr

/-- The wording of a fault. -/
def ValueFault.message : ValueFault → String
  | .unknownMode word => Mode.unknownMessage word
  | .notQuoted => "value must be enclosed in double quotes"
  | .placement fault => fault.message
  | .notPositive x => NumberLayout.plain.write x ++ " must be greater than zero"
  | .notUnit x => NumberLayout.plain.write x ++ " must be between 0 and 1"
  | .zeroDimension => "must be greater than zero"
  | .required => "a value is required"
  | .needsModelList => "'all' needs the backend model list"
  | .controlMode => "expected balanced, prompt, or controlnet"

/-- Why a directive is not, or not fully, taken over. -/
inductive DirectiveError where
  | unknown (key : String)
  | notNumeric (key value : String)
  | notFlag (key value : String)
  | unavailable (key value : String)
  | invalid (key : String) (fault : ValueFault)
deriving Repr

/-- The wording of a refusal. -/
def DirectiveError.message : DirectiveError → String
  | .unknown key => "directive not recognized: " ++ key ++ " (it will be ignored)"
  | .notNumeric key value => key ++ " expects a number, got '" ++ value ++ "' (ignored)"
  | .notFlag key value => key ++ " expects yes or no, got '" ++ value ++ "' (ignored)"
  | .unavailable key value => key ++ ": '" ++ value ++ "' is not available on the render backend"
  | .invalid key fault => key ++ ": " ++ fault.message

namespace Directive

/-- Words that stand for no value at all. -/
def isNone (value : String) : Bool :=
  value.isEmpty || Text.eqIgnoringCase value "none" || Text.eqIgnoringCase value "default"

/-- A value, unless it is empty. -/
def text? (value : String) : Option String :=
  if value.isEmpty then none else some value

/-- A path, unless the value is empty. -/
def path? (value : String) : Option Path :=
  (text? value).map Path.mk

/-- What is read from a value: a result, or the refusal. -/
abbrev Reading (α : Type) := Except DirectiveError α

variable (key value : String)

/-- Reads a number. -/
def number {α : Type} [Quantity α] : Reading α :=
  match readFinite? value with
  | some a => .ok a
  | none => .error (.notNumeric key value)

/-- Reads a number or a word for none. -/
def optionalNumber {α : Type} [Quantity α] : Reading (Option α) :=
  if isNone value then .ok none else (number key value).map some

/-- Reads a range. -/
def range {α : Type} [Quantity α] : Reading (Range α) :=
  match Range.read? value with
  | some r => .ok r
  | none => .error (.notNumeric key value)

/-- Reads a number above zero. -/
def positive : Reading Float := do
  let x : Float ← number key value
  if x > 0 then .ok x else .error (.invalid key (.notPositive x))

/-- Reads a number from zero to one. -/
def unit : Reading Float := do
  let x : Float ← number key value
  if 0 ≤ x ∧ x ≤ 1 then .ok x else .error (.invalid key (.notUnit x))

/-- Reads a width or a height. -/
def dimension : Reading UInt32 := do
  let n : UInt32 ← number key value
  if n = 0 then .error (.invalid key .zeroDimension) else .ok n

/-- Reads a flag. -/
def flag : Reading Bool :=
  match Text.parseFlag? value with
  | some b => .ok b
  | none => .error (.notFlag key value)

/-- Finds a name in a list of the backend. An empty list accepts any name. -/
def choose (candidates : List String) : Reading String :=
  if value.isEmpty then .error (.invalid key .required)
  else if candidates.isEmpty then .ok value
  else
    match matchName? value candidates with
    | some name => .ok name
    | none => .error (.unavailable key value)

/-- Finds a name in a list of the backend, or reads a word for none. -/
def chooseOptional (candidates : List String) : Reading (Option String) :=
  if isNone value then .ok none else (choose key value candidates).map some

/-- Checkpoints named by a directive: the one to use, those to go through when there are several, and the
names that the backend does not know. -/
structure Selection where
  first : Option String := none
  sweep : List String := []
  missing : List String := []

/-- Sorts names into the titles that they are found under, without repetitions, and those not found. -/
def findAll (titles : List String) : List String → List String × List String → List String × List String
  | [], found => found
  | name :: names, (found, missing) =>
    match choose key name titles with
    | .ok title => findAll titles names (if title ∈ found then found else found ++ [title], missing)
    | .error _ => findAll titles names (found, missing ++ [name])

/-- The selection of the titles found. -/
def selectionOf (found missing : List String) : Selection :=
  { first := found.head?, sweep := if found.length > 1 then found else [], missing }

/-- Reads a list of checkpoints, the word for all of them, or a word for none. -/
def models (caps : Capabilities) : Reading Selection :=
  if isNone value then .ok {}
  else if Text.eqIgnoringCase value "all" then
    if caps.modelTitles.isEmpty then .error (.invalid key .needsModelList)
    else .ok (selectionOf caps.modelTitles [])
  else
    let (found, missing) := findAll key caps.modelTitles (Text.listItems ',' value) ([], [])
    if found.isEmpty then .error (.unavailable key value) else .ok (selectionOf found missing)

/-- Reads a list of styles, without repetitions. -/
def findStyles (names : List String) : List String → List String → Reading (List String)
  | [], found => .ok found
  | item :: items, found => do
    let style ← choose key item names
    findStyles names items (if style ∈ found then found else found ++ [style])

/-- Reads a list of styles or a word for none. -/
def styles (caps : Capabilities) : Reading (List String) :=
  if isNone value then .ok [] else findStyles key caps.styleNames (Text.listItems ',' value) []

/-- The change that a selection of checkpoints makes, and the report of the names left out. -/
def selectionChange (make : Option String → List String → Change) (s : Selection) :
    Change × Option DirectiveError :=
  (make s.first s.sweep,
    if s.missing.isEmpty then none else some (.unavailable key (", ".intercalate s.missing)))

/-- Reads an upscale method: a word for one that renders again, or the name of an upscaler. -/
def upscaleMethod (caps : Capabilities) : Reading UpscaleMethod :=
  let word := Text.lowerAscii value
  if word = "sd" then .ok .sd
  else if word = "ultimate" then .ok .ultimate
  else (choose key value caps.upscalers).map .upscaler

/-- Reads the change that the value makes under a key, with a report where it is only taken over in part.
The name of the key is used in reports. -/
def read (caps : Capabilities) : Key → Reading (Change × Option DirectiveError)
  | .width => done <$> (.job ∘ .width) <$> dimension key value
  | .height => done <$> (.job ∘ .height) <$> dimension key value
  | .seed => done <$> (.job ∘ .seed) <$> number key value
  | .steps => done <$> (.job ∘ .steps) <$> range key value
  | .scale => done <$> (.job ∘ .scale) <$> range key value
  | .minScale => done <$> (.job ∘ .minScale) <$> number key value
  | .maxScale => done <$> (.job ∘ .maxScale) <$> number key value
  | .strength => done <$> (.job ∘ .strength) <$> range key value
  | .minStrength => done <$> (.job ∘ .minStrength) <$> number key value
  | .maxStrength => done <$> (.job ∘ .maxStrength) <$> number key value
  | .samples => done <$> (.job ∘ .samples) <$> number key value
  | .batchSize => done <$> (.job ∘ .batchSize) <$> number key value
  | .clipSkip => done <$> (.job ∘ .clipSkip) <$> optionalNumber key value
  | .negativePrompt => .ok (done (.job (.negativePrompt value)))
  | .sampler => done <$> (.job ∘ .sampler) <$> choose key value caps.samplers
  | .checkpoint => selectionChange key .checkpoint <$> models key value caps
  | .vae => done <$> (.job ∘ .vae) <$> chooseOptional key value caps.vaes
  | .style => done <$> (.job ∘ .styles) <$> styles key value caps
  | .mode =>
    match Mode.read value with
    | .ok m => .ok (done (.mode m))
    | .error word => .error (.invalid key (.unknownMode word))
  | .repeats => done <$> .repeats <$> flag key value
  | .nextTemplate => .ok (done (.nextTemplate (path? value)))
  | .delimiter =>
    match Text.unquote? value with
    | some s => .ok (done (.delimiter s))
    | none => .error (.invalid key .notQuoted)
  | .inputImage => .ok (done (.job (.inputImage (path? value))))
  | .randomInputDir => .ok (done (.job (.randomInputDir (path? value))))
  | .filename => .ok (done (.job (.filename (text? value))))
  | .triggerPlacement =>
    match Placement.parse value with
    | .ok p => .ok (done (.job (.triggerPlacement p)))
    | .error fault => .error (.invalid key (.placement fault))
  | .iptcTitle => .ok (done (.iptc (.title value)))
  | .iptcDescription => .ok (done (.iptc (.description value)))
  | .iptcKeywords => .ok (done (.iptc (.keywords value)))
  | .iptcCopyright => .ok (done (.iptc (.copyright value)))
  | .highresFix => done <$> (.highres ∘ .enabled) <$> flag key value
  | .highresScaleFactor => done <$> (.highres ∘ .scaleFactor) <$> positive key value
  | .highresSteps => done <$> (.highres ∘ .steps) <$> number key value
  | .highresDenoisingStrength => done <$> (.highres ∘ .denoisingStrength) <$> number key value
  | .highresUpscaler =>
    if Text.startsWith (Text.lowerAscii value) "latent" then
      .ok (done (.highres (.upscaler value)))
    else done <$> (.highres ∘ .upscaler) <$> choose key value caps.upscalers
  | .highresCheckpoint => selectionChange key .highresCheckpoint <$> models key value caps
  | .highresSampler => done <$> (.highres ∘ .sampler) <$> chooseOptional key value caps.samplers
  | .highresPrompt => .ok (done (.highres (.prompt (text? value))))
  | .highresNegativePrompt => .ok (done (.highres (.negativePrompt (text? value))))
  | .useUpscale => done <$> (.upscale ∘ .enabled) <$> flag key value
  | .upscaleAmount => done <$> (.upscale ∘ .amount) <$> positive key value
  | .upscaleModel => done <$> (.upscale ∘ .method) <$> upscaleMethod key value caps
  | .upscaleCodeformer => done <$> (.upscale ∘ .codeformer) <$> unit key value
  | .upscaleGfpgan => done <$> (.upscale ∘ .gfpgan) <$> unit key value
  | .upscaleFaceEnhance =>
    (fun b => done (.upscale (.gfpgan (if b then 1.0 else 0.0)))) <$> flag key value
  | .upscaleKeepSource => done <$> (.upscale ∘ .keepSource) <$> flag key value
  | .upscaleStrength => done <$> (.upscale ∘ .sdStrength) <$> unit key value
  | .upscaleCheckpoint =>
    done <$> (.upscale ∘ .checkpoint) <$> chooseOptional key value caps.modelTitles
  | .upscaleSampler => done <$> (.upscale ∘ .sampler) <$> chooseOptional key value caps.samplers
  | .upscaleSteps => done <$> (.upscale ∘ .steps) <$> optionalNumber key value
  | .upscalePrompt => .ok (done (.upscale (.prompt (text? value))))
  | .upscaleNegativePrompt => .ok (done (.upscale (.negativePrompt (text? value))))
  | .controlNetInputImage => .ok (done (.controlNet (.inputImage (path? value))))
  | .controlNetModel =>
    done <$> (.controlNet ∘ .model) <$> chooseOptional key value caps.controlNetModels
  | .controlNetPreprocessor =>
    done <$> (.controlNet ∘ .preprocessor) <$> choose key value caps.controlNetPreprocessors
  | .controlNetWeight => done <$> (.controlNet ∘ .weight) <$> number key value
  | .controlNetGuidanceStart => done <$> (.controlNet ∘ .guidanceStart) <$> unit key value
  | .controlNetGuidanceEnd => done <$> (.controlNet ∘ .guidanceEnd) <$> unit key value
  | .controlNetPixelPerfect => done <$> (.controlNet ∘ .pixelPerfect) <$> flag key value
  | .controlNetLowVram => done <$> (.controlNet ∘ .lowVram) <$> flag key value
  | .controlNetMode =>
    match ControlMode.read? value with
    | some m => .ok (done (.controlNet (.controlMode m)))
    | none => .error (.invalid key .controlMode)
  | .detailerModel => .ok (done (.detailer (.model ((text? value).filter fun v => !isNone v))))
  | .detailerPrompt => .ok (done (.detailer (.prompt (text? value))))
  | .detailerNegativePrompt => .ok (done (.detailer (.negativePrompt (text? value))))
  | .detailerStrength => done <$> (.detailer ∘ .strength) <$> unit key value
  | .detailerConfidence => done <$> (.detailer ∘ .confidence) <$> unit key value
where
  /-- A change that is taken over in full. -/
  done (c : Change) : Change × Option DirectiveError := (c, none)

/-- The name of a key as it is looked up: without marks and blanks around it, in upper case. -/
def normalKey (key : String) : String :=
  Text.upperAscii (String.ofList (Chars.trim ((Chars.trim key.toList).dropWhile (· == '!'))))

/-- Reads the change that a directive makes. -/
def change (caps : Capabilities) (key value : String) : Reading (Change × Option DirectiveError) :=
  match Key.ofName? (normalKey key) with
  | some k => read (normalKey key) (Text.trim value) caps k
  | none => .error (.unknown (normalKey key))

/-- Applies a directive to a draft: the new draft, and what there is to report. -/
def apply (caps : Capabilities) (key value : String) (d : Draft) : Draft × Option DirectiveError :=
  match change caps key value with
  | .ok (c, report) => (c.make d, report)
  | .error e => (d, some e)

end Directive

end RenderFarm
