import RenderFarm.Proofs.Execution.Success

/-!
What becomes of a job on a backend that does not offer all that it asks for. Guidance and refinement that are not
offered are left out, and tiles give way to a plain second render; nothing else changes. So two jobs that come to
the same once this is done are executed alike: the device is called in the same way, the files end up the same, and
so does the report. The logs may differ, as each thing left out is warned of.
-/

namespace RenderFarm

/-- Whether a deed is a call of the device. -/
def Deed.isCall : Deed → Bool
  | .load _ _ => true
  | .dispatch _ _ _ _ => true
  | .persist _ _ _ _ _ _ _ _ => false

/-- Whether two sites are the same but for their logs and for the jobs that images were put away for. -/
structure Site.Alike {σ : Type} (s s' : Site σ) : Prop where
  device : s.device = s'.device
  files : s.files = s'.files
  calls : s.deeds.filter Deed.isCall = s'.deeds.filter Deed.isCall

namespace Site.Alike

variable {σ : Type} {s s' s'' : Site σ}

theorem refl (s : Site σ) : s.Alike s := ⟨rfl, rfl, rfl⟩

theorem symm (like : s.Alike s') : s'.Alike s :=
  ⟨like.device.symm, like.files.symm, like.calls.symm⟩

theorem trans (like : s.Alike s') (like' : s'.Alike s'') : s.Alike s'' :=
  ⟨like.device.trans like'.device, like.files.trans like'.files, like.calls.trans like'.calls⟩

/-- Deeds that are the same call, or none at all, leave the calls the same. -/
theorem calls_concat (like : s.Alike s') {deed deed' : Deed}
    (same : [deed].filter Deed.isCall = [deed'].filter Deed.isCall) :
    (s.deeds ++ [deed]).filter Deed.isCall = (s'.deeds ++ [deed']).filter Deed.isCall := by
  rw [List.filter_append, List.filter_append, like.calls, same]

end Site.Alike

namespace Work

variable {σ α β : Type} {w w' w'' : Work σ α} {f f' : α → Work σ β} {d : Renderer σ}

/-- Whether two steps end in the same way at sites that are alike, and leave them alike. -/
def Alike (w w' : Work σ α) : Prop :=
  ∀ s s', s.Alike s' → (w.perform s).1 = (w'.perform s').1 ∧ (w.perform s).2.Alike (w'.perform s').2

namespace Alike

theorem symm (like : Alike w w') : Alike w' w := by
  intro s s' near
  obtain ⟨same, near'⟩ := like s' s near.symm
  exact ⟨same.symm, near'.symm⟩

theorem trans (like : Alike w w') (like' : Alike w' w'') : Alike w w'' := by
  intro s s' near
  obtain ⟨same, near₁⟩ := like s s' near
  obtain ⟨same', near₂⟩ := like' s' s' (.refl s')
  exact ⟨same.trans same', near₁.trans near₂⟩

theorem pure (a : α) : Alike (Pure.pure a : Work σ α) (Pure.pure a) :=
  fun _ _ near => ⟨rfl, near⟩

theorem fail (e : JobError) : Alike (Work.fail e : Work σ α) (Work.fail e) :=
  fun _ _ near => ⟨rfl, near⟩

theorem bind (first : Alike w w') (next : ∀ a, Alike (f a) (f' a)) : Alike (w >>= f) (w' >>= f') := by
  intro s s' near
  obtain ⟨same, near'⟩ := first s s' near
  rcases result : w.perform s with ⟨e | a, t⟩
  · rcases result' : w'.perform s' with ⟨r, t'⟩
    rw [result, result'] at same near'
    obtain rfl : Except.error e = r := same
    rw [perform_bind_of_error result, perform_bind_of_error result']
    exact ⟨rfl, near'⟩
  · rcases result' : w'.perform s' with ⟨r, t'⟩
    rw [result, result'] at same near'
    obtain rfl : Except.ok a = r := same
    rw [perform_bind_of_ok result, perform_bind_of_ok result']
    exact next a t t' near'

/-- Logging makes no difference. -/
theorem note (d : Renderer σ) (level : LogLevel) (message : String) (fields : List (String × LogValue)) :
    Alike (Work.note d level message fields) (Pure.pure ()) :=
  fun _ _ near => ⟨rfl, near.device, near.files, near.calls⟩

/-- It makes no difference what is logged either. -/
theorem notes (d : Renderer σ) (level : LogLevel) (message : String) (fields fields' : List (String × LogValue)) :
    Alike (Work.note d level message fields) (Work.note d level message fields') :=
  (note d level message fields).trans (note d level message fields').symm

/-- A warning ahead of a step makes no difference. -/
theorem of_warn (message : String) (fields : List (String × LogValue)) (like : Alike w w') :
    Alike (Work.warn d message fields >>= fun _ => w) w' := by
  have warned : Alike (Work.warn d message fields >>= fun _ => w) (Pure.pure () >>= fun _ => w') :=
    (note d .warning message fields).bind fun _ => like
  exact warned

theorem files : Alike (Work.files : Work σ FileSystem) Work.files :=
  fun _ _ near => ⟨congrArg Except.ok near.files, near⟩

theorem loadedModel (d : Renderer σ) : Alike (Work.loadedModel d) (Work.loadedModel d) :=
  fun _ _ near => ⟨congrArg (fun x => Except.ok (d.loadedModel x)) near.device, near⟩

theorem encodeFile (path : Path) : Alike (Work.encodeFile path : Work σ String) (Work.encodeFile path) := by
  refine bind files fun fs => ?_
  cases fs.read path with
  | ok bytes => exact pure _
  | error fault => exact fail _

theorem dispatch (d : Renderer σ) (r : Backend.Request) : Alike (Work.dispatch d r) (Work.dispatch d r) := by
  intro s s' near
  rw [perform_dispatch, perform_dispatch, near.device, near.files]
  exact ⟨rfl, rfl, rfl, near.calls_concat rfl⟩

theorem loadModel (d : Renderer σ) (title : String) : Alike (Work.loadModel d title) (Work.loadModel d title) := by
  intro s s' near
  rw [perform_loadModel, perform_loadModel, near.device]
  exact ⟨rfl, rfl, near.files, near.calls_concat rfl⟩

/-- Jobs whose images get the same place in the output tree may take each other's place. -/
theorem persist {job job' : Job}
    (same : ∀ fs image facts root now, Output.persist fs job image facts root now =
      Output.persist fs job' image facts root now)
    (image : RenderedImage) (facts : Output.Facts) (root : Path) (now : Instant) :
    Alike (Work.persist job image facts root now : Work σ Path) (Work.persist job' image facts root now) := by
  intro s s' near
  rw [perform_persist, perform_persist, near.files, same]
  exact ⟨rfl, near.device, rfl, near.calls_concat rfl⟩

end Alike

end Work

/-! ## What a backend grants -/

/-- A job with other guidance, refinement and method of enlargement. -/
def Job.refit (controlNet : ControlNet) (detailer : Detailer) (method : UpscaleMethod) (job : Job) : Job :=
  { job with controlNet, detailer, upscale := { job.upscale with method } }

/-- An image gets the same place and the same record whatever else its job asks for. -/
theorem Output.persist_refit {controlNet : ControlNet} {detailer : Detailer} {method : UpscaleMethod} {job : Job}
    (fs : FileSystem) (image : RenderedImage) (facts : Facts) (root : Path) (now : Instant) :
    persist fs (job.refit controlNet detailer method) image facts root now =
      persist fs job image facts root now := by
  have folder : folder (job.refit controlNet detailer method) = folder job := rfl
  have record : record (job.refit controlNet detailer method) = record job := rfl
  have stem : stem (job.refit controlNet detailer method) = stem job := rfl
  have place : ∀ fs, place fs (job.refit controlNet detailer method) = place fs job := fun _ => rfl
  unfold persist
  simp only [folder, record, stem, place]

namespace Execution

open Work (Alike)

variable {σ : Type} {d : Renderer σ} {ctx : ExecutionContext} {job : Job} {caps caps' : Capabilities}
  {controlNet : ControlNet} {detailer : Detailer} {method : UpscaleMethod}

/-- The guidance that takes place on a backend. -/
def grantedControlNet (caps : Capabilities) (c : ControlNet) : Option ControlNet :=
  if allowsControlNet caps && c.isActive then some c else none

/-- The refinement that takes place on a backend. -/
def grantedDetailer (caps : Capabilities) (s : Detailer) : Option Detailer :=
  if allowsDetailer caps && s.isActive then some s else none

/-- The method that a backend enlarges by. -/
def grantedMethod (caps : Capabilities) (m : UpscaleMethod) : UpscaleMethod :=
  if m = .ultimate && !allowsUltimate caps then .sd else m

/-- Whether one backend grants a job what another one grants the job with other guidance, refinement and method. -/
structure SameGrants (caps caps' : Capabilities) (job : Job) (controlNet : ControlNet) (detailer : Detailer)
    (method : UpscaleMethod) : Prop where
  controlNet : grantedControlNet caps job.controlNet = grantedControlNet caps' controlNet
  detailer : grantedDetailer caps job.detailer = grantedDetailer caps' detailer
  method : grantedMethod caps job.upscale.method = grantedMethod caps' method
  tiles : tileUpscaler caps = tileUpscaler caps'

/-- A request with the guidance that is granted. -/
def guided (granted : Option ControlNet) (r : Backend.Generation) : Work σ Backend.Generation := do
  match granted with
  | none => return r
  | some c =>
    let image ← match c.inputImage with
      | some path => Work.encodeFile path
      | none => pure ""
    return r.addExtension controlNetExtension [(controlUnit c image).encode]

/-- A request with the refinement that is granted. -/
def refined (granted : Option Detailer) (r : Backend.Generation) : Backend.Generation :=
  match granted with
  | none => r
  | some s => r.addExtension detailerExtension (detailerUnit s).args

theorem guided_alike (granted : Option ControlNet) (r : Backend.Generation) :
    Alike (guided granted r : Work σ Backend.Generation) (guided granted r) := by
  unfold guided
  split
  · exact .pure r
  · dsimp only
    split
    · exact .bind (.encodeFile _) fun _ => .pure _
    · exact .bind (.pure _) fun _ => .pure _

/-- Guidance is added as far as it is granted. -/
theorem attachControlNet_alike (caps : Capabilities) (job : Job) (r : Backend.Generation) :
    Alike (attachControlNet d caps job r) (guided (grantedControlNet caps job.controlNet) r) := by
  unfold attachControlNet grantedControlNet Job.controlNet?
  cases active : job.controlNet.isActive with
  | false =>
    rw [Bool.and_false]
    exact .pure r
  | true =>
    rw [Bool.and_true]
    cases allowsControlNet caps with
    | false => exact .of_warn _ _ (.pure r)
    | true => exact guided_alike (some job.controlNet) r

/-- Refinement is added as far as it is granted. -/
theorem attachDetailer_alike (caps : Capabilities) (job : Job) (r : Backend.Generation) :
    Alike (attachDetailer d caps job r) (pure (refined (grantedDetailer caps job.detailer) r)) := by
  unfold attachDetailer grantedDetailer Job.detailer?
  cases active : job.detailer.isActive with
  | false =>
    rw [Bool.and_false]
    exact .pure r
  | true =>
    rw [Bool.and_true]
    cases allowsDetailer caps with
    | false => exact .of_warn _ _ (.pure r)
    | true => exact .pure _

/-- The method of an enlargement is the one that is granted. -/
theorem usableMethod_alike (caps : Capabilities) (m : UpscaleMethod) :
    Alike (usableMethod d caps m) (pure (grantedMethod caps m)) := by
  unfold usableMethod grantedMethod
  split
  · exact .of_warn _ _ (.pure _)
  · exact .pure _

/-! ## The same grants -/

section Refit

variable (same : SameGrants caps caps' job controlNet detailer method)

include same

theorem attachControlNet_refit (r : Backend.Generation) : Alike (attachControlNet d caps job r)
    (attachControlNet d caps' (job.refit controlNet detailer method) r) := by
  refine (attachControlNet_alike caps job r).trans ?_
  rw [same.controlNet]
  exact (attachControlNet_alike caps' (job.refit controlNet detailer method) r).symm

theorem attachDetailer_refit (r : Backend.Generation) : Alike (attachDetailer d caps job r)
    (attachDetailer d caps' (job.refit controlNet detailer method) r) := by
  refine (attachDetailer_alike caps job r).trans ?_
  rw [same.detailer]
  exact (attachDetailer_alike caps' (job.refit controlNet detailer method) r).symm

theorem usableMethod_refit : Alike (usableMethod d caps job.upscale.method) (usableMethod d caps' method) := by
  refine (usableMethod_alike caps job.upscale.method).trans ?_
  rw [same.method]
  exact (usableMethod_alike caps' method).symm

theorem primaryRequest_refit : Alike (primaryRequest d caps job)
    (primaryRequest d caps' (job.refit controlNet detailer method)) := by
  refine .bind (attachControlNet_refit same _) fun r => .bind (attachDetailer_refit same r) fun r' => ?_
  have image : (job.refit controlNet detailer method).inputImage = job.inputImage := rfl
  rw [image]
  split
  · exact .bind (.encodeFile _) fun _ => .pure _
  · exact .pure _

end Refit

theorem ensureModel_alike (wanted : Option String) : Alike (ensureModel d wanted) (ensureModel d wanted) := by
  unfold ensureModel
  split
  · exact .pure ()
  · refine .bind (.loadedModel d) fun loaded => ?_
    split
    · exact .pure ()
    · exact .loadModel d _

theorem sizeOr_alike (image : Path) (size : Image.Size) :
    Alike (sizeOr image size : Work σ Image.Size) (sizeOr image size) :=
  .bind .files fun _ => .pure _

section Course

variable (same : SameGrants ctx.capabilities caps' job controlNet detailer method)

/-- Images get the same place whatever is granted to their job. -/
theorem persist_refit (image : RenderedImage) (facts : Output.Facts) (root : Path) (now : Instant) :
    Alike (Work.persist job image facts root now : Work σ Path)
      (Work.persist (job.refit controlNet detailer method) image facts root now) :=
  .persist (fun fs image facts root now => (Output.persist_refit fs image facts root now).symm) image facts root now

theorem persistEnlarged_refit (model : Option String) (now : Instant) (size : Image.Size)
    (images : List RenderedImage) :
    Alike (persistEnlarged ctx job model now size images : Work σ (List Path))
      (persistEnlarged { ctx with capabilities := caps' } (job.refit controlNet detailer method) model now size
        images) := by
  induction images with
  | nil => exact .pure _
  | cons image images ih =>
    exact .bind (sizeOr_alike _ _) fun _ => .bind (persist_refit _ _ _ _) fun _ => .bind ih fun _ => .pure _

theorem keepSource_refit (image : RenderedImage) (facts : Output.Facts) (now : Instant) :
    Alike (keepSource ctx job job.upscale image facts now : Work σ (List Path))
      (keepSource { ctx with capabilities := caps' } (job.refit controlNet detailer method)
        { job.upscale with method } image facts now) := by
  unfold keepSource
  change Alike (if job.upscale.keepSource && job.rendersPrimary then _ else _)
    (if job.upscale.keepSource && job.rendersPrimary then _ else _)
  split
  · exact .bind (persist_refit _ _ _ _) fun _ => .pure _
  · exact .pure []

include same

theorem sources_refit : Alike (sources d ctx job)
    (sources d { ctx with capabilities := caps' } (job.refit controlNet detailer method)) := by
  unfold sources
  have primary : (job.refit controlNet detailer method).rendersPrimary = job.rendersPrimary := rfl
  have image : (job.refit controlNet detailer method).inputImage = job.inputImage := rfl
  rw [primary, image]
  split
  · exact .bind (primaryRequest_refit same) fun r => .dispatch d r
  · split
    · exact .fail _
    · exact .bind .files fun _ => .pure _

theorem enlarge_refit (model : Option String) (image : RenderedImage) (size : Image.Size) :
    Alike (enlarge d ctx job model job.upscale image size)
      (enlarge d { ctx with capabilities := caps' } (job.refit controlNet detailer method) model
        { job.upscale with method } image size) := by
  unfold enlarge
  refine .bind (.encodeFile _) fun encoded => .bind (usableMethod_refit same) fun granted => ?_
  split
  · exact .dispatch d _
  · refine .bind (ensureModel_alike _) fun _ => ?_
    unfold enlargingRequest
    rw [same.tiles]
    exact .bind (attachDetailer_refit same _) fun r => .bind (.notes d _ _ _ _) fun _ => .dispatch d _

theorem finishImage_refit (model : Option String) (now : Instant) (image : RenderedImage) :
    Alike (finishImage d ctx job model now image)
      (finishImage d { ctx with capabilities := caps' } (job.refit controlNet detailer method) model now image) := by
  unfold finishImage
  refine .bind (sizeOr_alike _ _) fun size => ?_
  by_cases enlarges : job.upscale.enabled
  · have on : job.upscale? = some job.upscale := if_pos enlarges
    have on' : (job.refit controlNet detailer method).upscale? = some { job.upscale with method } := if_pos enlarges
    rw [on, on']
    exact .bind (keepSource_refit _ _ _) fun kept => .bind (enlarge_refit same _ _ _) fun images =>
      .bind (persistEnlarged_refit _ _ _ _) fun _ => .pure _
  · have off : job.upscale? = none := if_neg enlarges
    have off' : (job.refit controlNet detailer method).upscale? = none := if_neg enlarges
    rw [off, off']
    exact .bind (persist_refit _ _ _ _) fun _ => .pure _

theorem finishImages_refit (model : Option String) (now : Instant) (images : List RenderedImage) :
    Alike (finishImages d ctx job model now images)
      (finishImages d { ctx with capabilities := caps' } (job.refit controlNet detailer method) model now
        images) := by
  induction images with
  | nil => exact .pure _
  | cons image images ih =>
    exact .bind (finishImage_refit same _ _ _) fun _ => .bind ih fun _ => .pure _

omit same in
/-- Trigger phrases have nothing to do with what is granted. -/
theorem insertTriggers_refit (triggers : TriggerRegistry) (model : Option String) :
    insertTriggers triggers model (job.refit controlNet detailer method) =
      (insertTriggers triggers model job).refit controlNet detailer method := by
  unfold insertTriggers
  change (if job.triggerPlacement = .off then _ else _) = _
  split
  · rfl
  · split <;> rfl

theorem SameGrants.insertTriggers (triggers : TriggerRegistry) (model : Option String) :
    SameGrants ctx.capabilities caps' (insertTriggers triggers model job) controlNet detailer method := by
  obtain ⟨prompt, highres, changed⟩ := insertTriggers_eq triggers model job
  rw [changed]
  exact ⟨same.controlNet, same.detailer, same.method, same.tiles⟩

theorem produce_refit (now : Instant) (wanted : Option String) :
    Alike (produce d ctx now wanted job)
      (produce d { ctx with capabilities := caps' } now wanted (job.refit controlNet detailer method)) := by
  unfold produce
  refine .bind (.loadedModel d) fun loaded => ?_
  dsimp only
  rw [insertTriggers_refit]
  have same' := same.insertTriggers ctx.triggers (wanted.or loaded)
  exact .bind (sources_refit same') fun images => finishImages_refit same' _ _ _

theorem course_refit (now : Instant) : Alike (course d ctx now job)
    (course d { ctx with capabilities := caps' } now (job.refit controlNet detailer method)) := by
  unfold course
  refine .bind ?_ fun _ => .bind (ensureModel_alike _) fun _ => produce_refit same _ _
  change Alike (noteMissingInput d job) (noteMissingInput d job)
  unfold noteMissingInput
  split
  · exact .notes d _ _ _ _
  · exact .pure ()

omit same in
theorem tidy_alike : Alike (tidy d) (tidy d) := by
  intro s s' near
  unfold tidy
  rw [Work.perform_bind_of_ok (Work.perform_get s), Work.perform_bind_of_ok (Work.perform_get s'), near.files]
  split
  · exact ⟨rfl, near.device, rfl, near.calls⟩
  · exact ⟨rfl, near.device, near.files, near.calls⟩

omit same in
theorem report_run (now : Instant) (elapsed : Nat) (s : Site σ) : (run d ctx now elapsed job s).1 =
    ⟨d.id, job.sequence, job.origin,
      ((course d ctx now job).perform (begun d job s)).1.mapError JobError.message⟩ := rfl

omit same in
/-- What is logged at the end makes no difference. -/
theorem run_alike_tidy (now : Instant) (elapsed : Nat) (s : Site σ) : (run d ctx now elapsed job s).2.Alike
    ((tidy d).perform ((course d ctx now job).perform (begun d job s)).2).2 := by
  unfold run
  dsimp only
  split <;> exact ⟨rfl, rfl, rfl⟩

/-- A settled job is executed alike. -/
theorem run_refit (now : Instant) (elapsed : Nat) (s : Site σ) :
    (run d ctx now elapsed job s).1 =
        (run d { ctx with capabilities := caps' } now elapsed (job.refit controlNet detailer method) s).1 ∧
      (run d ctx now elapsed job s).2.Alike
        (run d { ctx with capabilities := caps' } now elapsed (job.refit controlNet detailer method) s).2 := by
  obtain ⟨result, near⟩ := course_refit (d := d) same now (begun d job s) (begun d job s) (.refl _)
  constructor
  · rw [report_run, report_run, result]
    rfl
  · exact ((run_alike_tidy now elapsed s).trans (tidy_alike _ _ near).2).trans (run_alike_tidy now elapsed s).symm

omit same in
/-- What is left to chance has nothing to do with what is granted. -/
theorem settle_refit {γ : Type} [Generator γ] (fs : FileSystem) (g : γ) :
    (job.refit controlNet detailer method).settle fs g =
      (job.settle fs g).map fun r => (r.1.refit controlNet detailer method, r.2) := by
  unfold Job.settle Job.refit
  dsimp only
  obtain ⟨steps, g⟩ := job.steps.settle g
  cases job.scale.settle? g with
  | none => simp
  | some scale =>
    cases strengthened : job.strength.settle? scale.2 with
    | none => simp [strengthened]
    | some strength => simp [strengthened]

omit same in
/-- Settling a job leaves alone what its grants depend on. -/
theorem SameGrants.settle {γ : Type} [Generator γ] {fs : FileSystem} {g g' : γ} {settled : Job}
    (done : job.settle fs g = some (settled, g')) (same : SameGrants caps caps' job controlNet detailer method) :
    SameGrants caps caps' settled controlNet detailer method := by
  obtain ⟨steps, scale, strength, image, _, _, rfl⟩ := Job.settle_eq done
  exact ⟨same.controlNet, same.detailer, same.method, same.tiles⟩

end Course

end Execution

/-! ## The degraded job -/

/-- Whether two executions report the same and leave alike sites and the same generator behind, or both have no
result. -/
def SameExecution {σ γ : Type} : Option ((JobReport × Site σ) × γ) → Option ((JobReport × Site σ) × γ) → Prop :=
  Option.Rel fun r r' => r.1.1 = r'.1.1 ∧ r.1.2.Alike r'.1.2 ∧ r.2 = r'.2

/-- A job on a backend, and the job with other guidance, refinement and method on a backend that grants it the same,
are executed alike. -/
theorem execute_refit {σ γ : Type} [Generator γ] {d : Renderer σ} {ctx : ExecutionContext} {job : Job}
    {caps : Capabilities} {controlNet : ControlNet} {detailer : Detailer} {method : UpscaleMethod}
    (same : Execution.SameGrants ctx.capabilities caps job controlNet detailer method) (now : Instant)
    (elapsed : Nat) (s : Site σ) (g : γ) :
    SameExecution (execute d ctx now elapsed job s g)
      (execute d { ctx with capabilities := caps } now elapsed (job.refit controlNet detailer method) s g) := by
  unfold execute
  rw [Execution.settle_refit]
  cases done : job.settle s.files g with
  | none => exact .none
  | some r =>
    obtain ⟨report, near⟩ := Execution.run_refit (d := d) (same.settle done) now elapsed s
    exact .some ⟨report, near, rfl⟩

namespace Capabilities

/-- The guidance that is left of a job's on a backend; without a model there is none. -/
def reduceControlNet (caps : Capabilities) (c : ControlNet) : ControlNet :=
  if caps.controlNetAvailable then c else { c with model := none }

/-- The refinement that is left of a job's on a backend; without a model there is none. -/
def reduceDetailer (caps : Capabilities) (s : Detailer) : Detailer :=
  if caps.detailerAvailable then s else { s with model := none }

/-- The method that is left of a job's on a backend. -/
def reduceMethod (caps : Capabilities) (m : UpscaleMethod) : UpscaleMethod :=
  if m = .ultimate && !caps.ultimateAvailable then .sd else m

end Capabilities

/-- A job without what a backend does not offer. -/
def Job.degrade (caps : Capabilities) (job : Job) : Job :=
  job.refit (caps.reduceControlNet job.controlNet) (caps.reduceDetailer job.detailer)
    (caps.reduceMethod job.upscale.method)

namespace Execution

variable {caps caps' : Capabilities} {job : Job}

/-- A backend that is known grants a job what it grants the degraded job. -/
theorem sameGrants_degrade (known : ¬ caps.isEmpty) : SameGrants caps caps job
    (caps.reduceControlNet job.controlNet) (caps.reduceDetailer job.detailer)
    (caps.reduceMethod job.upscale.method) := by
  rw [Bool.not_eq_true] at known
  constructor
  · cases offered : caps.controlNetAvailable <;>
      simp [grantedControlNet, allowsControlNet, Capabilities.reduceControlNet, known, offered]
  · cases offered : caps.detailerAvailable <;>
      simp [grantedDetailer, allowsDetailer, Capabilities.reduceDetailer, known, offered]
  · by_cases tiled : job.upscale.method = .ultimate <;> cases offered : caps.ultimateAvailable <;>
      simp [grantedMethod, allowsUltimate, Capabilities.reduceMethod, known, tiled, offered]
  · rfl

/-- A backend of which nothing is known grants a job what one grants that offers everything. -/
theorem sameGrants_of_isEmpty (unknown : caps.isEmpty) (guides : caps'.controlNetAvailable)
    (refines : caps'.detailerAvailable) (tiles : caps'.ultimateAvailable)
    (upscalers : caps'.upscalers = caps.upscalers) :
    SameGrants caps caps' job job.controlNet job.detailer job.upscale.method := by
  constructor
  · simp [grantedControlNet, allowsControlNet, unknown, guides]
  · simp [grantedDetailer, allowsDetailer, unknown, refines]
  · simp [grantedMethod, allowsUltimate, unknown, tiles]
  · rw [tileUpscaler, tileUpscaler, upscalers]

end Execution

/-- A job on a backend that is known is executed like the job without what the backend does not offer: the device is
called in the same way with the same answers, and the report is the same. On a backend of which nothing is known, a
job is executed as on one that offers everything. -/
theorem execute_degrade {σ γ : Type} [Generator γ] (d : Renderer σ) (ctx : ExecutionContext) (now : Instant)
    (elapsed : Nat) (job : Job) (s : Site σ) (g : γ) :
    (¬ ctx.capabilities.isEmpty → SameExecution (execute d ctx now elapsed job s g)
      (execute d ctx now elapsed (job.degrade ctx.capabilities) s g)) ∧
    (ctx.capabilities.isEmpty → ∀ caps : Capabilities, caps.controlNetAvailable → caps.detailerAvailable →
      caps.ultimateAvailable → caps.upscalers = ctx.capabilities.upscalers →
        SameExecution (execute d ctx now elapsed job s g)
          (execute d { ctx with capabilities := caps } now elapsed job s g)) := by
  constructor
  · intro known
    exact execute_refit (Execution.sameGrants_degrade known) now elapsed s g
  · intro unknown caps guides refines tiles upscalers
    exact execute_refit (Execution.sameGrants_of_isEmpty unknown guides refines tiles upscalers) now elapsed s g

namespace Execution

/-- A backend of which nothing but a sampler is known. -/
def bareBackend : Capabilities where
  samplers := ["Euler a"]

/-- A backend that offers guidance, refinement and tiles. -/
def richBackend : Capabilities where
  samplers := ["Euler a"]
  txt2imgScripts := ["ADetailer"]
  img2imgScripts := ["Ultimate SD upscale", "ADetailer"]
  controlNetModels := ["canny"]

/-- A job that asks for all that a backend may not offer. -/
def demandingJob : Job where
  controlNet := { inputImage := some ⟨"pose.png"⟩, model := some "canny" }
  detailer := { model := some "face_yolov8n.pt" }
  upscale := { enabled := true, method := .ultimate }

end Execution

open Execution (studio emptyStudio bareBackend richBackend demandingJob)

/-- A demanding job is degraded on a bare backend, and left as it is on one that has not reported yet. -/
theorem studio_degrades :
    ¬ bareBackend.isEmpty ∧
      ((demandingJob.degrade bareBackend).controlNet?.isNone ∧ (demandingJob.degrade bareBackend).detailer?.isNone ∧
        (demandingJob.degrade bareBackend).upscale.method = .sd) ∧
      SameExecution
        (execute studio { capabilities := bareBackend } ⟨0, 0⟩ 0 demandingJob emptyStudio (⟨0⟩ : SplitMix))
        (execute studio { capabilities := bareBackend } ⟨0, 0⟩ 0 (demandingJob.degrade bareBackend) emptyStudio
          (⟨0⟩ : SplitMix)) ∧
      SameExecution (execute studio {} ⟨0, 0⟩ 0 demandingJob emptyStudio (⟨0⟩ : SplitMix))
        (execute studio { capabilities := richBackend } ⟨0, 0⟩ 0 demandingJob emptyStudio (⟨0⟩ : SplitMix)) := by
  refine ⟨by decide, by decide, ?_, ?_⟩
  · exact (execute_degrade studio { capabilities := bareBackend } ⟨0, 0⟩ 0 demandingJob emptyStudio
      (⟨0⟩ : SplitMix)).1 (by decide)
  · exact (execute_degrade studio {} ⟨0, 0⟩ 0 demandingJob emptyStudio (⟨0⟩ : SplitMix)).2 (by decide) richBackend
      (by decide) (by decide +kernel) (by decide +kernel) rfl

end RenderFarm
