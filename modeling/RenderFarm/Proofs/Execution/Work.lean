import RenderFarm.Proofs.Execution.Health

/-!
How the steps of a job end. Whatever comes of a step, it only adds to what was done. What more can be said of a
step, its result and the site that it leaves, may rest on all that the step does going well.
-/

namespace RenderFarm.Work

open FileSystem (Keeps)

variable {σ α β : Type} {w : Work σ α} {f : α → Work σ β} {s s' : Site σ} {d : Renderer σ}

@[simp] theorem perform_pure (a : α) (s : Site σ) : (pure a : Work σ α).perform s = (.ok a, s) := rfl

theorem perform_bind_of_ok {a : α} (first : w.perform s = (.ok a, s')) (f : α → Work σ β) :
    (w >>= f).perform s = (f a).perform s' := by
  change (ExceptT.bind w f s) = _
  change w s = _ at first
  unfold ExceptT.bind ExceptT.mk
  change (StateT.bind _ _ _) = _
  unfold StateT.bind
  simp only [bind, first]
  rfl

theorem perform_bind_of_error {e : JobError} (first : w.perform s = (.error e, s')) (f : α → Work σ β) :
    (w >>= f).perform s = (.error e, s') := by
  change (ExceptT.bind w f s) = _
  change w s = _ at first
  unfold ExceptT.bind ExceptT.mk
  change (StateT.bind _ _ _) = _
  unfold StateT.bind
  simp only [bind, first]
  rfl

/-! ## What was done -/

/-- Whether a step only adds to what was done. -/
def Grows (w : Work σ α) : Prop :=
  ∀ s, s.deeds <+: (w.perform s).2.deeds

/-- Whether a step only adds to the log. -/
def OnlyLogs (w : Work σ α) : Prop :=
  ∀ s, ∃ log, (w.perform s).2 = { s with log }

theorem OnlyLogs.grows (quiet : OnlyLogs w) : Grows w := by
  intro s
  obtain ⟨log, same⟩ := quiet s
  have kept : (w.perform s).2.deeds = s.deeds := by rw [same]
  exact kept ▸ List.prefix_rfl

theorem OnlyLogs.pure (a : α) : OnlyLogs (pure a : Work σ α) :=
  fun s => ⟨s.log, rfl⟩

theorem OnlyLogs.bind (first : OnlyLogs w) (next : ∀ a, OnlyLogs (f a)) : OnlyLogs (w >>= f) := by
  intro s
  obtain ⟨log, same⟩ := first s
  rcases result : w.perform s with ⟨e | a, s'⟩
  · rw [perform_bind_of_error result]
    exact ⟨log, by rw [← same, result]⟩
  · rw [perform_bind_of_ok result]
    obtain ⟨log', same'⟩ := next a s'
    rw [result] at same
    dsimp only at same
    rw [same']
    exact ⟨log', by rw [same]⟩

theorem OnlyLogs.fail (e : JobError) : OnlyLogs (fail e : Work σ α) :=
  fun s => ⟨s.log, rfl⟩

theorem OnlyLogs.note (d : Renderer σ) (level : LogLevel) (message : String) (fields : List (String × LogValue)) :
    OnlyLogs (note d level message fields) :=
  fun _ => ⟨_, rfl⟩

theorem OnlyLogs.warn (d : Renderer σ) (message : String) (fields : List (String × LogValue)) :
    OnlyLogs (warn d message fields) :=
  .note d .warning message fields

theorem OnlyLogs.files : OnlyLogs (files : Work σ FileSystem) :=
  fun s => ⟨s.log, rfl⟩

theorem OnlyLogs.loadedModel (d : Renderer σ) : OnlyLogs (loadedModel d) :=
  fun s => ⟨s.log, rfl⟩

theorem OnlyLogs.encodeFile (path : Path) : OnlyLogs (encodeFile path : Work σ String) := by
  refine .bind .files fun fs => ?_
  cases fs.read path with
  | ok bytes => exact .pure _
  | error fault => exact .fail _

theorem Grows.pure (a : α) : Grows (pure a : Work σ α) :=
  (OnlyLogs.pure a).grows

theorem Grows.bind (first : Grows w) (next : ∀ a, Grows (f a)) : Grows (w >>= f) := by
  intro s
  have begun := first s
  rcases result : w.perform s with ⟨e | a, s'⟩
  · rw [perform_bind_of_error result]
    rwa [result] at begun
  · rw [perform_bind_of_ok result]
    rw [result] at begun
    exact begun.trans (next a s')

/-! ## What the device and the output tree do -/

theorem perform_get (s : Site σ) : (get : Work σ (Site σ)).perform s = (.ok s, s) := rfl

theorem perform_dispatch (r : Backend.Request) (s : Site σ) :
    (dispatch d r).perform s =
      let (answer, device, files) := d.dispatch r s.device s.files
      (answer.mapError .device,
        { s with device, files, deeds := s.deeds ++ [.dispatch r s.files answer files] }) := by
  unfold dispatch
  rw [perform_bind_of_ok (perform_get s)]
  rcases d.dispatch r s.device s.files with ⟨e | images, device, files⟩ <;> rfl

theorem perform_loadModel (title : String) (s : Site σ) :
    (loadModel d title).perform s =
      let (answer, device) := d.loadModel title s.device
      (answer.mapError .device, { s with device, deeds := s.deeds ++ [.load title answer] }) := by
  unfold loadModel
  rw [perform_bind_of_ok (perform_get s)]
  rcases d.loadModel title s.device with ⟨e | _, device⟩ <;> rfl

theorem perform_persist (job : Job) (image : RenderedImage) (facts : Output.Facts) (root : Path) (now : Instant)
    (s : Site σ) :
    (persist job image facts root now).perform s =
      let (answer, files) := Output.persist s.files job image facts root now
      (answer.mapError .output,
        { s with files, deeds := s.deeds ++ [.persist job image facts root now s.files answer files] }) := by
  unfold persist
  rw [perform_bind_of_ok (perform_get s)]
  rcases Output.persist s.files job image facts root now with ⟨e | path, files⟩ <;> rfl

theorem Grows.dispatch (r : Backend.Request) : Grows (dispatch d r) := by
  intro s
  rw [perform_dispatch]
  exact List.prefix_append _ _

theorem Grows.loadModel (title : String) : Grows (loadModel d title) := by
  intro s
  rw [perform_loadModel]
  exact List.prefix_append _ _

theorem Grows.persist (job : Job) (image : RenderedImage) (facts : Output.Facts) (root : Path) (now : Instant) :
    Grows (persist job image facts root now : Work σ Path) := by
  intro s
  rw [perform_persist]
  exact List.prefix_append _ _

/-! ## How a step ends -/

/-- What can be said of the end of a step when all that it does meets a condition. -/
def Ends (Good : Deed → Prop) (w : Work σ α) (s : Site σ)
    (Q : Except JobError α → List Deed → Site σ → Prop) : Prop :=
  ∀ ds, (w.perform s).2.deeds = s.deeds ++ ds → (∀ deed ∈ ds, Good deed) → Q (w.perform s).1 ds (w.perform s).2

/-- Whether a step succeeds when all that it does meets a condition, and what can be said then. -/
def Succeeds (Good : Deed → Prop) (w : Work σ α) (s : Site σ) (Q : α → List Deed → Site σ → Prop) : Prop :=
  Ends Good w s fun r ds s' => ∃ a, r = .ok a ∧ Q a ds s'

/-- Whether a step fails when all that it does meets a condition, and what can be said of the reason then. -/
def Fails (Good : Deed → Prop) (w : Work σ α) (s : Site σ) (Q : JobError → List Deed → Prop) : Prop :=
  Ends Good w s fun r ds _ => ∃ e, r = .error e ∧ Q e ds

/-- Whether a step succeeds without doing anything, and what can be said of its result then. -/
def Yields (w : Work σ α) (s : Site σ) (Q : α → Prop) : Prop :=
  ∃ a log, w.perform s = (.ok a, { s with log }) ∧ Q a

section Rules

variable {Good : Deed → Prop} {P : α → List Deed → Site σ → Prop}
  {Q : Except JobError β → List Deed → Site σ → Prop}

theorem Ends.imp {P Q : Except JobError α → List Deed → Site σ → Prop} (ended : Ends Good w s P)
    (weaker : ∀ r ds s', P r ds s' → Q r ds s') : Ends Good w s Q :=
  fun ds done good => weaker _ ds _ (ended ds done good)

/-- A step is followed by another one if it succeeds, and what they do is put together. -/
theorem Ends.bind {P : Except JobError α → List Deed → Site σ → Prop} (first : Ends Good w s P) (grows : Grows w)
    (grows' : ∀ a, Grows (f a)) (failed : ∀ e ds s', P (.error e) ds s' → Q (.error e) ds s')
    (next : ∀ a ds s', P (.ok a) ds s' → Ends Good (f a) s' fun r ds' s'' => Q r (ds ++ ds') s'') :
    Ends Good (w >>= f) s Q := by
  intro ds done good
  -- All that is done splits into what the first step did and what the second one added.
  obtain ⟨begun, added⟩ := grows s
  rcases result : w.perform s with ⟨e | a, s'⟩
  · rw [result] at added
    rw [perform_bind_of_error result, ← added] at done
    obtain rfl := List.append_cancel_left done
    have ended := first begun (by rw [result, added]) good
    rw [result] at ended
    rw [perform_bind_of_error result]
    exact failed e begun s' ended
  · rw [result] at added
    obtain ⟨continued, added'⟩ := grows' a s'
    rw [perform_bind_of_ok result, ← added', ← added, List.append_assoc] at done
    obtain rfl := List.append_cancel_left done
    have ended := first begun (by rw [result, added])
      fun deed mem => good deed (List.mem_append_left _ mem)
    rw [result] at ended
    rw [perform_bind_of_ok result]
    exact next a begun s' ended continued added'.symm fun deed mem => good deed (List.mem_append_right _ mem)

theorem Succeeds.bind (first : Succeeds Good w s P) (grows : Grows w) (grows' : ∀ a, Grows (f a))
    (next : ∀ a ds s', P a ds s' → Ends Good (f a) s' fun r ds' s'' => Q r (ds ++ ds') s'') :
    Ends Good (w >>= f) s Q := by
  refine Ends.bind first grows grows' (fun e ds s' post => ?_) fun a ds s' post => ?_
  · obtain ⟨_, failed, _⟩ := post
    cases failed
  · obtain ⟨_, same, post⟩ := post
    cases same
    exact next a ds s' post

/-- A failure ends what would have followed. -/
theorem Fails.bind {R : JobError → List Deed → Prop} (first : Fails Good w s R) (grows : Grows w)
    (grows' : ∀ a, Grows (f a)) : Fails Good (w >>= f) s R := by
  refine Ends.bind first grows grows' (fun e ds s' post => ?_) fun a ds s' post => ?_
  · obtain ⟨_, same, post⟩ := post
    cases same
    exact ⟨e, rfl, post⟩
  · obtain ⟨_, failed, _⟩ := post
    cases failed

/-- A step that does nothing leaves it to the next one what is done. -/
theorem Yields.bind {R : α → Prop} (first : Yields w s R)
    (next : ∀ a log, R a → Ends Good (f a) { s with log } Q) : Ends Good (w >>= f) s Q := by
  obtain ⟨a, log, result, post⟩ := first
  intro ds done good
  rw [perform_bind_of_ok result] at done ⊢
  exact next a log post ds done good

theorem Succeeds.strict {Good' : Deed → Prop} (ended : Succeeds Good w s P)
    (stricter : ∀ deed, Good' deed → Good deed) : Succeeds Good' w s P :=
  fun ds done good => ended ds done fun deed mem => stricter deed (good deed mem)

/-- What a step does meets the condition that its end rests on. -/
theorem Succeeds.good (ended : Succeeds Good w s P) :
    Succeeds Good w s fun a ds s' => P a ds s' ∧ ∀ deed ∈ ds, Good deed := by
  intro ds done good
  obtain ⟨a, same, post⟩ := ended ds done good
  exact ⟨a, same, post, good⟩

theorem Succeeds.imp {P' : α → List Deed → Site σ → Prop} (ended : Succeeds Good w s P)
    (weaker : ∀ a ds s', P a ds s' → P' a ds s') : Succeeds Good w s P' :=
  fun ds done good => (ended ds done good).imp fun a ⟨same, post⟩ => ⟨same, weaker a ds _ post⟩

theorem Fails.imp {R R' : JobError → List Deed → Prop} (ended : Fails Good w s R)
    (weaker : ∀ e ds, R e ds → R' e ds) : Fails Good w s R' :=
  fun ds done good => (ended ds done good).imp fun e ⟨same, post⟩ => ⟨same, weaker e ds post⟩

theorem Succeeds.pure {a : α} (post : P a [] s) : Succeeds Good (pure a) s P := by
  intro ds done _
  obtain rfl : ds = [] := by simpa using done
  exact ⟨a, rfl, post⟩

theorem Yields.pure {R : α → Prop} {a : α} (post : R a) : Yields (pure a) s R :=
  ⟨a, s.log, rfl, post⟩

theorem Yields.done (a : α) : Yields (Pure.pure a) s fun _ => True :=
  .pure trivial

theorem Yields.trans {R : α → Prop} {S : β → Prop} (first : Yields w s R)
    (next : ∀ a log, R a → Yields (f a) { s with log } S) : Yields (w >>= f) s S := by
  obtain ⟨a, log, result, post⟩ := first
  obtain ⟨b, log', result', post'⟩ := next a log post
  exact ⟨b, log', by rw [perform_bind_of_ok result, result'], post'⟩

end Rules

/-! ## Single steps -/

theorem yields_note (level : LogLevel) (message : String) (fields : List (String × LogValue)) :
    Yields (note d level message fields) s fun _ => True :=
  ⟨(), _, rfl, trivial⟩

theorem yields_files : Yields files s (· = s.files) :=
  ⟨s.files, s.log, rfl, rfl⟩

theorem yields_loadedModel : Yields (loadedModel d) s (· = d.loadedModel s.device) :=
  ⟨_, s.log, rfl, rfl⟩

/-- A file that is there can be sent along. -/
theorem yields_encodeFile {path : Path} (file : s.files.isFile path) :
    Yields (encodeFile path) s fun _ => True := by
  obtain ⟨bytes, read⟩ := FileSystem.read_of_isFile file
  refine yields_files.trans fun fs log same => ?_
  rw [same, read]
  exact .done _

/-- A file that is gone cannot be sent along. -/
theorem fails_encodeFile (Good : Deed → Prop) {path : Path} {l : Location} (leads : s.files.locate path = .ok l)
    (gone : s.files.get? l = none) :
    Fails Good (encodeFile path : Work σ String) s fun e ds => e = .unreadable path .notFound ∧ ds = [] := by
  refine yields_files.bind fun fs log same => ?_
  rw [same, FileSystem.read_of_free leads gone]
  intro ds done _
  change s.deeds = s.deeds ++ ds at done
  obtain rfl : ds = [] := by simpa using done
  exact ⟨_, rfl, rfl, rfl⟩

theorem succeeds_loadModel (title : String) :
    Succeeds (Deed.Healthy d.scratchDir) (loadModel d title) s fun _ ds s' =>
      ds = [.load title (.ok ())] ∧ s'.files = s.files := by
  intro ds done good
  rw [perform_loadModel] at done ⊢
  rcases answer : d.loadModel title s.device with ⟨e | _, device⟩
  all_goals
    rw [answer] at done
    obtain rfl := List.append_cancel_left done
    have healthy := good _ List.mem_cons_self
  · cases healthy
  · exact ⟨(), rfl, rfl, rfl⟩

theorem succeeds_dispatch (r : Backend.Request) :
    Succeeds (Deed.Healthy d.scratchDir) (dispatch d r) s fun images ds s' =>
      ds = [.dispatch r s.files (.ok images) s'.files] ∧
        FreshImages d.scratchDir s.files s'.files images := by
  intro ds done good
  rw [perform_dispatch] at done ⊢
  rcases answer : d.dispatch r s.device s.files with ⟨e | images, device, files⟩
  all_goals
    rw [answer] at done
    obtain rfl := List.append_cancel_left done
    have healthy := good _ List.mem_cons_self
  · cases healthy
  · exact ⟨images, rfl, rfl, healthy⟩

/-- An image that is there gets into the output tree. -/
theorem succeeds_persist {scratch : Path} {job : Job} {image : RenderedImage} {facts : Output.Facts}
    {root : Path} {now : Instant} {l : Location} (leads : s.files.locate image.path = .ok l)
    (file : s.files.isFile image.path) :
    Succeeds (Deed.Healthy scratch) (persist job image facts root now) s fun path ds s' =>
      ds = [.persist job image facts root now s.files (.ok path) s'.files] ∧
        Output.persist s.files job image facts root now = (.ok path, s'.files) ∧ s'.files.isFile path ∧
        Keeps s.files s'.files [l] ∧
        ∀ dir, ¬ job.inputImage.any (·.sameAs image.path) →
          Output.Avoids s.files job image facts root now dir → s.files.locate dir = .ok l.dropLast →
            s'.files.get? l = none := by
  intro ds done good
  rw [perform_persist] at done ⊢
  obtain rfl := List.append_cancel_left done
  have healthy := good _ List.mem_cons_self
  obtain ⟨path, files, stored, there, kept, gone⟩ := Output.persist_of_writable leads file healthy
  rw [stored]
  exact ⟨path, rfl, rfl, rfl, there, kept, gone⟩

end RenderFarm.Work
