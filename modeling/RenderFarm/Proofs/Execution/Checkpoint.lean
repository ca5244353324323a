import RenderFarm.Proofs.Execution.Success

/-!
Which checkpoint is loaded when a device is called in the course of a job. The first render takes place on the
checkpoint of the job, and each enlargement by a second render on its own; a checkpoint is only switched to when it
is not loaded, and a job ends once that fails.

What is loaded at some moment is read off the deeds until then, by having the device go through them again.
-/

namespace RenderFarm

open Execution (sameModel)

/-- Whether a checkpoint is loaded once a device has switched to it, and stays loaded while requests are sent. -/
structure Renderer.Steady {σ : Type} (d : Renderer σ) : Prop where
  loads : ∀ title x, (d.loadModel title x).1 = .ok () → d.loadedModel (d.loadModel title x).2 = some title
  dispatches : ∀ r x fs, d.loadedModel (d.dispatch r x fs).2.1 = d.loadedModel x

namespace Renderer

variable {σ : Type}

/-- The state of a device after a deed. -/
def next (d : Renderer σ) (x : σ) : Deed → σ
  | .load title _ => (d.loadModel title x).2
  | .dispatch r before _ _ => (d.dispatch r x before).2.1
  | .persist _ _ _ _ _ _ _ _ => x

/-- The state of a device after deeds. -/
def after (d : Renderer σ) (x : σ) (ds : List Deed) : σ :=
  ds.foldl d.next x

theorem after_append (d : Renderer σ) (x : σ) (ds ds' : List Deed) :
    d.after x (ds ++ ds') = d.after (d.after x ds) ds' :=
  List.foldl_append

/-- Whether the checkpoint that is loaded goes by a title. -/
def Holds (d : Renderer σ) (x : σ) (title : String) : Prop :=
  (d.loadedModel x).any fun loaded => sameModel loaded title

theorem holds_of_loadedModel {d : Renderer σ} {x : σ} {title : String} (loaded : d.loadedModel x = some title) :
    d.Holds x title := by
  rw [Holds, loaded, Option.any_some, sameModel, Text.eqIgnoringCase, Chars.eqIgnoringCase, beq_self_eq_true]

end Renderer

namespace Deed

/-- Whether a deed is a request. -/
def isDispatch : Deed → Bool
  | .load _ _ => false
  | .dispatch _ _ _ _ => true
  | .persist _ _ _ _ _ _ _ _ => false

/-- Whether a deed is a failure to switch the checkpoint. -/
def FailsToLoad : Deed → Prop
  | .load _ (.error _) => True
  | .load _ (.ok _) => False
  | .dispatch _ _ _ _ => False
  | .persist _ _ _ _ _ _ _ _ => False

end Deed

/-- Whether the calls of a device, from a state on, are in order. A request may want a checkpoint, which may depend
on what was done before. -/
structure Served {σ : Type} (d : Renderer σ) (x : σ) (want : List Deed → Backend.Request → Option String)
    (ds : List Deed) : Prop where
  /-- A request is sent when the checkpoint that it wants is loaded. -/
  requests : ∀ before r fs answer fs' later, ds = before ++ .dispatch r fs answer fs' :: later →
    ∀ title ∈ want before r, d.Holds (d.after x before) title
  /-- A checkpoint that is loaded is not switched to. -/
  loads : ∀ before title answer later, ds = before ++ .load title answer :: later →
    ¬ d.Holds (d.after x before) title
  /-- Nothing is done once a checkpoint cannot be switched to. -/
  ends : ∀ before title e later, ds = before ++ .load title (.error e) :: later → later = []

/-- An item of two lists is one of the first list or one of the second. -/
theorem split_append {α : Type} {xs ys before later : List α} {a : α} (same : xs ++ ys = before ++ a :: later) :
    (∃ rest, xs = before ++ a :: rest) ∨ ∃ start, before = xs ++ start ∧ ys = start ++ a :: later := by
  obtain ⟨start, rfl, rest⟩ | ⟨rest, rfl, tail⟩ := List.append_eq_append_iff.mp same
  · exact .inr ⟨start, rfl, rest⟩
  · cases rest with
    | nil => exact .inr ⟨[], by simp, by simpa using tail.symm⟩
    | cons b rest =>
      injection tail with head _
      exact .inl ⟨rest, by rw [head]⟩

/-- There is but one way to split a list of one item at an item. -/
theorem split_singleton {α : Type} {before later : List α} {a b : α} (same : [a] = before ++ b :: later) :
    before = [] ∧ a = b ∧ later = [] := by
  obtain ⟨rfl, tail⟩ | ⟨-, tail⟩ := List.singleton_eq_append_iff.mp same
  · injection tail with head none
    exact ⟨rfl, head.symm, none⟩
  · cases tail

namespace Served

variable {σ : Type} {d : Renderer σ} {x : σ} {want : List Deed → Backend.Request → Option String}
  {ds ds' : List Deed}

theorem nil : Served d x want [] where
  requests _ _ _ _ _ _ same := by simp at same
  loads _ _ _ _ same := by simp at same
  ends _ _ _ _ same := by simp at same

theorem request {r : Backend.Request} {fs fs' : FileSystem} {answer : Except DeviceError (List RenderedImage)}
    (wanted : ∀ title ∈ want [] r, d.Holds x title) : Served d x want [.dispatch r fs answer fs'] where
  requests before r' _ _ _ later same := by
    obtain ⟨rfl, deed, -⟩ := split_singleton same
    cases deed
    exact wanted
  loads before _ _ later same := by
    cases (split_singleton same).2.1
  ends _ _ _ _ same := (split_singleton same).2.2

theorem load {title : String} {answer : Except DeviceError Unit} (other : ¬ d.Holds x title) :
    Served d x want [.load title answer] where
  requests _ _ _ _ _ _ same := by
    cases (split_singleton same).2.1
  loads before title' _ later same := by
    obtain ⟨rfl, deed, -⟩ := split_singleton same
    cases deed
    exact other
  ends _ _ _ _ same := (split_singleton same).2.2

theorem put {job : Job} {image : RenderedImage} {facts : Output.Facts} {root : Path} {now : Instant}
    {fs fs' : FileSystem} {answer : Except StorageError Path} :
    Served d x want [.persist job image facts root now fs answer fs'] where
  requests _ _ _ _ _ _ same := by
    cases (split_singleton same).2.1
  loads _ _ _ _ same := by
    cases (split_singleton same).2.1
  ends _ _ _ _ same := (split_singleton same).2.2

/-- Deeds without a failure to switch the checkpoint are followed by others. -/
theorem append (first : Served d x want ds) (sound : ∀ deed ∈ ds, ¬ deed.FailsToLoad)
    (second : Served d (d.after x ds) (fun before => want (ds ++ before)) ds') : Served d x want (ds ++ ds') where
  requests before r fs answer fs' later same := by
    obtain ⟨rest, here⟩ | ⟨start, rfl, there⟩ := split_append same
    · exact first.requests before r fs answer fs' rest here
    · rw [Renderer.after_append]
      exact second.requests start r fs answer fs' later there
  loads before title answer later same := by
    obtain ⟨rest, here⟩ | ⟨start, rfl, there⟩ := split_append same
    · exact first.loads before title answer rest here
    · rw [Renderer.after_append]
      exact second.loads start title answer later there
  ends before title e later same := by
    obtain ⟨rest, here⟩ | ⟨start, rfl, there⟩ := split_append same
    · refine absurd trivial (sound (.load title (.error e)) ?_)
      rw [here]
      exact List.mem_append_right before List.mem_cons_self
    · exact second.ends start title e later there

end Served

/-! ## Steps that call a device in order -/

namespace Work

variable {σ α β : Type} {d : Renderer σ} {want : List Deed → Backend.Request → Option String} {w : Work σ α}
  {f : α → Work σ β} {s : Site σ} {P P' : α → List Deed → Site σ → Prop} {Q : β → List Deed → Site σ → Prop}

/-- Whether all that a step does is in order, and what can be said when it succeeds. A step that does not end the
job has not failed to switch the checkpoint. -/
def Serves (d : Renderer σ) (want : List Deed → Backend.Request → Option String) (w : Work σ α) (s : Site σ)
    (Q : α → List Deed → Site σ → Prop) : Prop :=
  ∃ ds, (w.perform s).2.deeds = s.deeds ++ ds ∧ (w.perform s).2.device = d.after s.device ds ∧
    Served d s.device want ds ∧
    ∀ a, (w.perform s).1 = .ok a → (∀ deed ∈ ds, ¬ deed.FailsToLoad) ∧ Q a ds (w.perform s).2

namespace Serves

theorem bind (first : Serves d want w s P)
    (next : ∀ a ds s', P a ds s' →
      Serves d (fun before => want (ds ++ before)) (f a) s' fun b ds' s'' => Q b (ds ++ ds') s'') :
    Serves d want (w >>= f) s Q := by
  obtain ⟨ds, done, device, served, post⟩ := first
  rcases result : w.perform s with ⟨e | a, s'⟩
  · rw [result] at done device
    refine ⟨ds, ?_, ?_, served, ?_⟩ <;> rw [perform_bind_of_error result]
    · exact done
    · exact device
    · intro b ended
      cases ended
  · rw [result] at done device post
    dsimp only at done device
    obtain ⟨sound, holds⟩ := post a rfl
    obtain ⟨ds', done', device', served', post'⟩ := next a ds s' holds
    rw [device] at device' served'
    refine ⟨ds ++ ds', ?_, ?_, served.append sound served', ?_⟩ <;> rw [perform_bind_of_ok result]
    · rw [done', done, List.append_assoc]
    · rw [device', Renderer.after_append]
    · intro b ended
      obtain ⟨sound', holds'⟩ := post' b ended
      refine ⟨fun deed mem => ?_, holds'⟩
      exact (List.mem_append.mp mem).elim (sound deed) (sound' deed)

theorem imp (ended : Serves d want w s P) (weaker : ∀ a ds s', P a ds s' → P' a ds s') :
    Serves d want w s P' := by
  obtain ⟨ds, done, device, served, post⟩ := ended
  exact ⟨ds, done, device, served, fun a ok => ⟨(post a ok).1, weaker a ds _ (post a ok).2⟩⟩

/-- A step that only logs does nothing. -/
theorem of_onlyLogs (quiet : OnlyLogs w) :
    Serves d want w s fun _ ds s' => ds = [] ∧ s'.device = s.device := by
  obtain ⟨log, same⟩ := quiet s
  have deeds : (w.perform s).2.deeds = s.deeds ++ [] := by rw [same, List.append_nil]
  have device : (w.perform s).2.device = s.device := by rw [same]
  exact ⟨[], deeds, device, .nil, fun _ _ => ⟨fun _ mem => (by cases mem), rfl, device⟩⟩

theorem pure {a : α} (post : P a [] s) : Serves d want (Pure.pure a) s P := by
  refine ⟨[], (List.append_nil _).symm, rfl, .nil, fun b ended => ?_⟩
  cases ended
  exact ⟨fun _ mem => (by cases mem), post⟩

/-- A step that only logs is followed by another one. -/
theorem after_onlyLogs (quiet : OnlyLogs w)
    (next : ∀ a s', s'.device = s.device → Serves d want (f a) s' Q) : Serves d want (w >>= f) s Q := by
  refine (of_onlyLogs quiet).bind fun a ds s' post => ?_
  obtain ⟨rfl, same⟩ := post
  exact next a s' same

theorem after_yields {R : α → Prop} (first : Yields w s R)
    (next : ∀ a log, R a → Serves d want (f a) { s with log } Q) : Serves d want (w >>= f) s Q := by
  obtain ⟨a, log, result, post⟩ := first
  rw [Serves, perform_bind_of_ok result]
  exact next a log post

/-- A step that does one thing does it in order if the deed is in order. -/
theorem of_deed {deed : Deed} (done : (w.perform s).2.deeds = s.deeds ++ [deed])
    (device : (w.perform s).2.device = d.next s.device deed) (served : Served d s.device want [deed])
    (post : ∀ a, (w.perform s).1 = .ok a → ¬ deed.FailsToLoad ∧ P a [deed] (w.perform s).2) :
    Serves d want w s P := by
  refine ⟨[deed], done, device, served, fun a ended => ?_⟩
  obtain ⟨sound, holds⟩ := post a ended
  exact ⟨fun other mem => List.mem_singleton.mp mem ▸ sound, holds⟩

/-- A request is in order when the checkpoint that it wants is loaded. -/
theorem dispatch {r : Backend.Request} (wanted : ∀ title ∈ want [] r, d.Holds s.device title) :
    Serves d want (Work.dispatch d r) s fun _ ds _ => ds.any Deed.isDispatch := by
  have deeds : ((Work.dispatch d r).perform s).2.deeds = s.deeds ++
      [.dispatch r s.files (d.dispatch r s.device s.files).1 (d.dispatch r s.device s.files).2.2] := by
    rw [perform_dispatch]
  have device : ((Work.dispatch d r).perform s).2.device = (d.dispatch r s.device s.files).2.1 := by
    rw [perform_dispatch]
  exact .of_deed deeds device (.request wanted) fun _ _ => ⟨id, rfl⟩

/-- Switching the checkpoint is in order unless it is loaded. It is loaded then. -/
theorem loadModel (steady : d.Steady) {title : String} (other : ¬ d.Holds s.device title) :
    Serves d want (Work.loadModel d title) s fun _ ds s' =>
      (¬ ds.any Deed.isDispatch) ∧ d.Holds s'.device title := by
  have deeds : ((Work.loadModel d title).perform s).2.deeds =
      s.deeds ++ [.load title (d.loadModel title s.device).1] := by rw [perform_loadModel]
  have device : ((Work.loadModel d title).perform s).2.device = (d.loadModel title s.device).2 := by
    rw [perform_loadModel]
  refine .of_deed deeds device (.load other) fun _ ended => ?_
  have loads := steady.loads title s.device
  rw [device]
  rw [perform_loadModel] at ended
  rcases answer : d.loadModel title s.device with ⟨e | _, x⟩
  · rw [answer] at ended
    cases ended
  · rw [answer] at loads
    exact ⟨id, Bool.false_ne_true, Renderer.holds_of_loadedModel (loads rfl)⟩

theorem persist (job : Job) (image : RenderedImage) (facts : Output.Facts) (root : Path) (now : Instant) :
    Serves d want (Work.persist job image facts root now) s fun _ _ _ => True := by
  have deeds : ((Work.persist job image facts root now : Work σ Path).perform s).2.deeds = s.deeds ++
      [.persist job image facts root now s.files (Output.persist s.files job image facts root now).1
        (Output.persist s.files job image facts root now).2] := by
    rw [perform_persist]
  have device : ((Work.persist job image facts root now : Work σ Path).perform s).2.device = s.device := by
    rw [perform_persist]
  exact .of_deed deeds device .put fun _ _ => ⟨id, trivial⟩

end Serves

end Work

/-! ## The course of a job -/

/-- The checkpoint that a request for an enlargement wants; an upscaler wants none. -/
def wantedToEnlarge (title : Option String) : Backend.Request → Option String
  | .txt2img _ => title
  | .img2img _ => title
  | .extra _ => none

/-- The checkpoint that a request of a job wants, after some deeds, when some checkpoint was loaded at the start.
The first request of a job that renders is that of its primary render. -/
def wantedFor (ctx : ExecutionContext) (job : Job) (start : Option String) (before : List Deed)
    (r : Backend.Request) : Option String :=
  if job.rendersPrimary && !before.any Deed.isDispatch then job.checkpoint.or ctx.defaultCheckpoint
  else wantedToEnlarge (job.upscale.checkpoint.or (job.checkpoint.or (ctx.defaultCheckpoint.or start))) r

namespace Execution

open Work (Serves)

variable {σ : Type} {d : Renderer σ} {ctx : ExecutionContext} {job : Job} {s : Site σ}
  {want : List Deed → Backend.Request → Option String}

/-- The checkpoint that is wanted is loaded in the end. -/
theorem serves_ensureModel (steady : d.Steady) (wanted : Option String) :
    Serves d want (ensureModel d wanted) s fun _ ds s' =>
      (¬ ds.any Deed.isDispatch) ∧ (∀ title ∈ wanted, d.Holds s'.device title) ∧
        (wanted = none → s'.device = s.device) := by
  unfold ensureModel
  cases wanted with
  | none => exact .pure ⟨by simp, by simp, fun _ => rfl⟩
  | some title =>
    refine .after_yields Work.yields_loadedModel fun loaded log same => ?_
    rw [same]
    split
    · rename_i held
      exact .pure ⟨by simp, fun _ mem => Option.mem_some_iff.mp mem ▸ held, nofun⟩
    · rename_i other
      have other : ¬ d.Holds ({ s with log } : Site σ).device title := other
      refine (Serves.loadModel steady other).imp fun _ ds s' post => ?_
      obtain ⟨silent, held⟩ := post
      exact ⟨silent, fun _ mem => Option.mem_some_iff.mp mem ▸ held, nofun⟩

theorem serves_persistEnlarged (model : Option String) (now : Instant) (size : Image.Size)
    (images : List RenderedImage) :
    Serves d want (persistEnlarged ctx job model now size images) s fun _ _ _ => True := by
  induction images generalizing s want with
  | nil => exact .pure trivial
  | cons image images ih =>
    exact .after_onlyLogs (onlyLogs_sizeOr _ _) fun _ _ _ => (Serves.persist _ _ _ _ _).bind fun _ _ _ _ =>
      ih.bind fun _ _ _ _ => .pure trivial

theorem serves_keepSource (settings : Upscale) (image : RenderedImage) (facts : Output.Facts) (now : Instant) :
    Serves d want (keepSource ctx job settings image facts now) s fun _ _ _ => True := by
  unfold keepSource
  split
  · exact (Serves.persist _ _ _ _ _).bind fun _ _ _ _ => .pure trivial
  · exact .pure trivial

section Enlarge

variable {model : Option String}

/-- An enlargement by a second render takes place on its own checkpoint. -/
theorem serves_enlarge (steady : d.Steady) (settings : Upscale) (image : RenderedImage) (size : Image.Size) :
    Serves d (fun _ => wantedToEnlarge (settings.checkpoint.or model))
      (enlarge d ctx job model settings image size) s fun _ _ _ => True := by
  unfold enlarge
  refine .after_onlyLogs (.encodeFile _) fun _ s _ => .after_onlyLogs (onlyLogs_usableMethod _ _) fun _ s _ => ?_
  split
  · exact (Serves.dispatch fun _ mem => absurd mem (Option.not_mem_none _)).imp fun _ _ _ _ => trivial
  · refine (serves_ensureModel steady _).bind fun _ ds t ⟨_, held, _⟩ => ?_
    refine .after_onlyLogs (onlyLogs_attachDetailer _ _) fun r t' same =>
      .after_onlyLogs (.note d _ _ _) fun _ t'' same' => ?_
    rw [← same, ← same'] at held
    exact (Serves.dispatch held).imp fun _ _ _ _ => trivial

theorem serves_finishImage (steady : d.Steady) (now : Instant) (image : RenderedImage) :
    Serves d (fun _ => wantedToEnlarge (job.upscale.checkpoint.or model))
      (finishImage d ctx job model now image) s fun _ _ _ => True := by
  unfold finishImage Job.upscale?
  refine .after_onlyLogs (onlyLogs_sizeOr _ _) fun _ _ _ => ?_
  split
  · exact (Serves.persist _ _ _ _ _).bind fun _ _ _ _ => .pure trivial
  · rename_i settings on
    obtain rfl : job.upscale = settings := by
      split at on
      · exact Option.some.inj on
      · cases on
    exact (serves_keepSource _ _ _ _).bind fun _ _ _ _ => (serves_enlarge steady _ _ _).bind fun _ _ _ _ =>
      (serves_persistEnlarged _ _ _ _).bind fun _ _ _ _ => .pure trivial

theorem serves_finishImages (steady : d.Steady) (now : Instant) (images : List RenderedImage) :
    Serves d (fun _ => wantedToEnlarge (job.upscale.checkpoint.or model))
      (finishImages d ctx job model now images) s fun _ _ _ => True := by
  induction images generalizing s with
  | nil => exact .pure trivial
  | cons image images ih =>
    exact (serves_finishImage steady _ _).bind fun _ _ _ _ => ih.bind fun _ _ _ _ => .pure trivial

end Enlarge

/-- The first render takes place when the checkpoint that it wants is loaded. -/
theorem serves_sources (held : job.rendersPrimary → ∀ r, ∀ title ∈ want [] r, d.Holds s.device title) :
    Serves d want (sources d ctx job) s fun _ ds _ => job.rendersPrimary → ds.any Deed.isDispatch := by
  unfold sources
  split
  · rename_i renders
    refine .after_onlyLogs (onlyLogs_primaryRequest _) fun r s' same => ?_
    rw [← same] at held
    exact (Serves.dispatch (held renders r)).imp fun _ _ _ sent _ => sent
  · rename_i other
    split
    · exact (Serves.of_onlyLogs (.fail _)).imp fun _ _ _ _ renders => absurd renders other
    · exact (Serves.of_onlyLogs (.bind .files fun _ => .pure _)).imp fun _ _ _ _ renders => absurd renders other

/-- Images are made and finished in order when the primary render finds its checkpoint loaded, and what is wanted
later is the checkpoint to enlarge on. -/
theorem serves_produce (steady : d.Steady) (now : Instant) (wanted : Option String)
    (held : job.rendersPrimary → ∀ r, ∀ title ∈ want [] r, d.Holds s.device title)
    (later : ∀ before r, (job.rendersPrimary → before.any Deed.isDispatch) →
      want before r = wantedToEnlarge (job.upscale.checkpoint.or (wanted.or (d.loadedModel s.device))) r) :
    Serves d want (produce d ctx now wanted job) s fun _ _ _ => True := by
  unfold produce
  refine .after_yields Work.yields_loadedModel fun loaded log same => ?_
  dsimp only
  rw [← rendersPrimary_insertTriggers ctx.triggers (wanted.or loaded)] at held later
  rw [← same, ← upscale_insertTriggers ctx.triggers (wanted.or loaded)] at later
  refine (serves_sources (by exact held)).bind fun images ds s' sent => ?_
  have enlarges : (fun before => want (ds ++ before)) = fun _ => wantedToEnlarge
      ((insertTriggers ctx.triggers (wanted.or loaded) job).upscale.checkpoint.or (wanted.or loaded)) := by
    funext before r
    exact later _ r fun renders => by rw [List.any_append, sent renders, Bool.true_or]
  rw [enlarges]
  exact serves_finishImages steady now images

/-- The calls of a device in the course of a job are in order. -/
theorem serves_course (steady : d.Steady) (now : Instant) :
    Serves d (wantedFor ctx job (d.loadedModel s.device)) (course d ctx now job) s fun _ _ _ => True := by
  unfold course
  refine .after_onlyLogs onlyLogs_noteMissingInput fun _ s₁ same => ?_
  refine (serves_ensureModel steady _).bind fun _ loads s₂ post => ?_
  obtain ⟨silent, held, still⟩ := post
  refine serves_produce steady now _ (fun renders r title mem => ?_) fun before r sent => ?_
  · rw [wantedFor, List.append_nil, renders, Bool.eq_false_iff.mpr silent] at mem
    rw [if_pos renders] at held
    exact held title mem
  · have past : ¬ (job.rendersPrimary && !(loads ++ before).any Deed.isDispatch) := by
      intro both
      obtain ⟨renders, unsent⟩ := (Bool.and_eq_true _ _).mp both
      rw [List.any_append, sent renders, Bool.or_true] at unsent
      cases unsent
    rw [wantedFor, if_neg past]
    have start : (job.checkpoint.or ctx.defaultCheckpoint).or (d.loadedModel s₂.device) =
        job.checkpoint.or (ctx.defaultCheckpoint.or (d.loadedModel s.device)) := by
      rw [← Option.or_assoc]
      -- If no checkpoint is wanted, none was switched to.
      cases wanted : job.checkpoint.or ctx.defaultCheckpoint with
      | some title => rfl
      | none =>
        rw [wanted, ite_self] at still
        rw [still rfl, same]
    rw [start]

/-- The calls of a device for a settled job are in order. -/
theorem run_serves (steady : d.Steady) (now : Instant) (elapsed : Nat) :
    (run d ctx now elapsed job s).2.device = d.after s.device (s.since (run d ctx now elapsed job s).2) ∧
      Served d s.device (wantedFor ctx job (d.loadedModel s.device)) (s.since (run d ctx now elapsed job s).2) := by
  have course : Serves d (wantedFor ctx job (d.loadedModel s.device)) (course d ctx now job) (begun d job s)
      fun _ _ _ => True := serves_course steady now
  obtain ⟨ds, done, device, served, _⟩ := course
  have deeds : _ = _ ++ s.since (run d ctx now elapsed job s).2 := deeds_course
  rw [deeds] at done
  obtain rfl := List.append_cancel_left done
  obtain ⟨files, log, same⟩ := site_run d ctx now elapsed job s
  have unchanged := congrArg Site.device same
  exact ⟨unchanged.trans device, served⟩

end Execution

/-- A job on a steady device. Its first render takes place on the checkpoint of the job or else on the default one,
an enlargement by a second render on its own or else on that one or else on the one that was loaded at the start, and
no checkpoint is switched to that is loaded. Nothing is done once a checkpoint cannot be switched to. -/
theorem execute_serves {σ γ : Type} [Generator γ] {d : Renderer σ} {ctx : ExecutionContext} {now : Instant}
    {elapsed : Nat} {job : Job} {s s' : Site σ} {g g' : γ} {report : JobReport} (steady : d.Steady)
    (executed : execute d ctx now elapsed job s g = some ((report, s'), g')) :
    s'.device = d.after s.device (s.since s') ∧
      Served d s.device (wantedFor ctx job (d.loadedModel s.device)) (s.since s') := by
  obtain ⟨⟨settled, g₁⟩, done, ran⟩ := Option.bind_eq_some_iff.mp executed
  cases ran
  -- Settling the job leaves alone which checkpoints it wants.
  have wants : wantedFor ctx settled = wantedFor ctx job := by
    obtain ⟨steps, scale, strength, image, _, _, rfl⟩ := Job.settle_eq done
    rfl
  rw [← wants]
  exact Execution.run_serves steady now elapsed

/-! ## A device that remembers its checkpoint -/

namespace Execution

/-- A device that puts an empty image into its scratch folder, whatever it is asked for, and switches to any
checkpoint. Its state is the checkpoint and the number of images. -/
def atelier : Renderer (Option String × Nat) where
  id := "0"
  scratchDir := ⟨"scratch"⟩
  loadedModel x := x.1
  dispatch r x fs :=
    let (images, n, fs) := studio.dispatch r x.2 fs
    (images, (x.1, n), fs)
  loadModel title x := (.ok (), some title, x.2)

theorem steady_atelier : atelier.Steady where
  loads _ _ _ := rfl
  dispatches _ _ _ := rfl

/-- The device before its first image, with some checkpoint. -/
def emptyAtelier : Site (Option String × Nat) :=
  { emptyStudio with device := (some "ink [1234]", 0) }

/-- A job that renders on the checkpoint that is loaded there, and enlarges on another one. -/
def inkJob : Job where
  checkpoint := some "Ink"
  upscale := { enabled := true, method := .sd, checkpoint := some "chalk" }
  filename := some "castle"

end Execution

open Execution (atelier emptyAtelier inkJob)

/-- The first checkpoint is loaded and the second one is switched to. -/
theorem atelier_serves :
    ∃ report s' g',
      execute atelier {} ⟨0, 0⟩ 0 inkJob emptyAtelier (⟨0⟩ : SplitMix) = some ((report, s'), g') ∧
        (emptyAtelier.since s').map Deed.isDispatch = [true, false, true, false] ∧
        Served atelier emptyAtelier.device (wantedFor {} inkJob (some "ink [1234]")) (emptyAtelier.since s') := by
  obtain ⟨⟨settled, g'⟩, done⟩ : ∃ r, inkJob.settle emptyAtelier.files (⟨0⟩ : SplitMix) = some r :=
    Job.exists_settle rfl rfl
  have executed : execute atelier {} ⟨0, 0⟩ 0 inkJob emptyAtelier (⟨0⟩ : SplitMix) =
      some (Execution.run atelier {} ⟨0, 0⟩ 0 settled emptyAtelier, g') := by
    rw [execute, done]
    rfl
  refine ⟨_, _, _, executed, ?_, (execute_serves Execution.steady_atelier executed).2⟩
  rw [Execution.settle_eq_drawn rfl done]
  decide +kernel

end RenderFarm
