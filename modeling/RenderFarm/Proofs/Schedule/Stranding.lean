import RenderFarm.Proofs.Schedule.Bootstrap

/-!
What a template that cannot be read does to a run. The template before it stays in place, with its queues,
but a run that dispatches starts to drain even though jobs of that template still wait. Those jobs are
stranded: no device gets them any more, and the run does not come to rest either.
-/

namespace RenderFarm

namespace Scheduler

variable {γ : Type}

/-- Jobs wait in the main queue of a run that drains. -/
def Stranded (s : Scheduler γ) : Prop :=
  s.phase = .draining ∧ s.queue.main ≠ []

/-- The user wishes for a template that cannot be read, while jobs of the one before it wait for a device. -/
def Strands (s : Scheduler γ) (c : Command) : Prop :=
  ∃ path e, c = .loadTemplate path ∧ Template.load s.files path = .error e ∧ s.bootstrap = .done ∧
    s.phase = .dispatching ∧ s.queue.main ≠ []

/-- Everything that a run makes its jobs from is as it was before, and so are the jobs that wait. -/
def Undisturbed (s t : Scheduler γ) : Prop :=
  t.template = s.template ∧ t.control = s.control ∧ t.sweep = s.sweep ∧ t.wildcards = s.wildcards ∧
    t.lastPassJobs = s.lastPassJobs ∧ t.queue = s.queue

theorem undisturbed_beginDraining (s : Scheduler γ) : s.Undisturbed s.beginDraining := by
  unfold beginDraining
  split <;> exact ⟨rfl, rfl, rfl, rfl, rfl, rfl⟩

theorem not_stranded_start (settings : RunSettings) (devices : List String) (files : FileSystem) (g : γ) :
    ¬ (start settings devices files g).Stranded := by
  rintro ⟨_, waiting⟩
  exact waiting (congrArg (fun b => b.queue.main) (books_start settings devices files g))

theorem stranded_settle (s : Scheduler γ) : s.settle.Stranded ↔ s.Stranded := by
  have queue : s.settle.queue = s.queue := congrArg Books.queue (books_settle s)
  unfold Stranded
  rw [queue, phase_settle]
  split
  · rename_i settled
    obtain ⟨_, empty, _⟩ := settled
    have main : s.queue.main = [] := by
      simp only [WorkQueue.isEmpty, Bool.and_eq_true, List.isEmpty_iff] at empty
      exact empty.1
    simp [main]
  · rfl

variable [Generator γ]

/-- A template that cannot be read leaves a run undisturbed. -/
theorem undisturbed_loadTemplate {s : Scheduler γ} {path : Path} {e : StorageError}
    (unread : Template.load s.files path = .error e) : s.Undisturbed (s.loadTemplate path) := by
  rw [loadTemplate_error unread]
  exact undisturbed_beginDraining (s.note _)

theorem not_stranded_advanceRun {s : Scheduler γ} (dispatching : s.phase = .dispatching)
    (empty : s.queue.main = []) : ¬ s.advanceRun.Stranded := by
  rintro ⟨draining, waiting⟩
  obtain dispatches | ⟨_, same⟩ := advanceRun_of_dispatching dispatching
  · rw [dispatches] at draining
    cases draining
  · rw [same] at waiting
    exact waiting empty

theorem not_stranded_refilled {s : Scheduler γ} (dispatching : s.phase = .dispatching) :
    ¬ s.refilled.Stranded := by
  unfold refilled
  split
  · rename_i empty
    exact not_stranded_advanceRun dispatching (List.isEmpty_iff.mp empty)
  · rintro ⟨draining, _⟩
    rw [dispatching] at draining
    cases draining

/-- Taking a job strands none. -/
theorem Hands.not_stranded {s t : Scheduler γ} {job : Option Job} (calm : ¬ s.Stranded)
    (h : s.Hands job t) : ¬ t.Stranded := by
  cases h with
  | priority | held => exact calm
  | dry _ _ dispatching _ => exact not_stranded_refilled dispatching
  | main _ _ dispatching first =>
    rintro ⟨draining, _⟩
    exact not_stranded_refilled dispatching ⟨draining, by simp [first]⟩

/-- While the run does not dispatch, the main queue is left alone. -/
theorem Hands.resting {s t : Scheduler γ} {job : Option Job} (h : s.Hands job t)
    (resting : s.phase ≠ .dispatching) :
    t.phase = s.phase ∧ t.queue.main = s.queue.main ∧ t.discarded = s.discarded := by
  cases h with
  | priority | held => exact ⟨rfl, rfl, rfl⟩
  | main _ _ dispatching _ => exact absurd dispatching resting
  | dry _ _ dispatching _ => exact absurd dispatching resting

/-- Giving out work strands no job. -/
theorem not_stranded_dispatch {s : Scheduler γ} (calm : ¬ s.Stranded) : ¬ s.dispatch.Stranded := by
  unfold dispatch
  split
  · exact calm
  · split
    · rw [stranded_settle]
      exact startJobs_invariant (P := fun t => ¬ t.Stranded) (fun calm hands => hands.not_stranded calm)
        (fun _ _ calm => calm) _ calm
    · exact calm
    · split <;> exact calm

/-- When no job waits, a template strands none, whether it can be read or not. -/
theorem not_stranded_loadTemplate {s : Scheduler γ} (empty : s.queue.main = []) (path : Path) :
    ¬ (s.loadTemplate path).Stranded := by
  rintro ⟨draining, waiting⟩
  cases read : Template.load s.files path with
  | error e =>
    rw [(undisturbed_loadTemplate read).2.2.2.2.2] at waiting
    exact waiting empty
  | ok t =>
    rw [phase_loadTemplate_ok read] at draining
    split at draining <;> cases draining

theorem not_stranded_loadPending {s : Scheduler γ} (empty : s.queue.main = []) :
    ¬ s.loadPending.Stranded := by
  unfold loadPending
  split
  · rename_i path _
    exact not_stranded_loadTemplate (s := { s with pendingTemplate := none }) empty path
  · rintro ⟨_, waiting⟩
    exact waiting empty

/-- A message strands jobs only by a template that cannot be read. -/
theorem not_stranded_handle {s : Scheduler γ} {c : Command} (calm : ¬ s.Stranded) (harmless : ¬ s.Strands c)
    (early : ∀ slot result, c = .capabilitiesDiscovered slot result → s.queue.main = []) :
    ¬ (s.handle c).Stranded := by
  cases c with
  | deviceReady _ | deviceFailed _ _ | jobFinished _ _ | pause | resume => exact calm
  | shutdown => rintro ⟨⟨⟩, _⟩
  | enqueueUpscale image =>
    obtain ⟨phase, _, main, _⟩ := phase_enqueueUpscale image s
    rintro ⟨draining, waiting⟩
    exact calm ⟨phase.symm.trans draining, main ▸ waiting⟩
  | capabilitiesDiscovered slot result =>
    obtain ⟨t, same, books, _, _⟩ := finishBootstrap_eq slot result s
    -- Nothing can wait before this answer, as templates are only loaded after it.
    have empty : t.queue.main = [] :=
      (congrArg (fun b => b.queue.main) books).trans (early slot result rfl)
    dsimp only [handle]
    rw [same]
    exact not_stranded_loadPending empty
  | loadTemplate path =>
    dsimp only [handle]
    split
    · rename_i done
      by_cases empty : s.queue.main = []
      · exact not_stranded_loadTemplate empty path
      · rintro ⟨draining, _⟩
        cases read : Template.load s.files path with
        | error e =>
          rw [loadTemplate_error read, phase_beginDraining] at draining
          split at draining
          · rename_i dispatching
            exact harmless ⟨path, e, rfl, read, done, dispatching, empty⟩
          · exact calm ⟨draining, empty⟩
        | ok t =>
          rw [phase_loadTemplate_ok read] at draining
          split at draining <;> cases draining
    · exact calm

/-- A template that cannot be read strands the jobs that wait for a device. -/
theorem stranded_handle {s : Scheduler γ} {c : Command} (h : s.Strands c) : (s.handle c).Stranded := by
  obtain ⟨path, e, rfl, unread, done, dispatching, waiting⟩ := h
  dsimp only [handle]
  rw [if_pos done, loadTemplate_error unread]
  obtain ⟨draining, same⟩ := beginDraining_of_dispatching (s := s.note _) dispatching
  exact ⟨draining, same ▸ waiting⟩

/-- Stranded jobs stay where they are when work is given out. -/
theorem stranded_dispatch {s : Scheduler γ} (h : s.Stranded) : s.dispatch.Stranded := by
  unfold dispatch
  split
  · exact h
  · split
    · rw [stranded_settle]
      refine startJobs_invariant (P := Stranded) (fun h hands => ?_) (fun _ _ h => h) _ h
      obtain ⟨phase, main, _⟩ := hands.resting (by simp [h.1])
      exact ⟨phase.trans h.1, main ▸ h.2⟩
    · exact h
    · split <;> exact h

end Scheduler

/-! ## What becomes of the stranded jobs -/

namespace Scheduler

variable {γ : Type} {s t : Scheduler γ} {thrown jobs : List Job}

/-- Some jobs do not reach a device: they wait for ever, or they were thrown out after some others. -/
def Forsaken (thrown jobs : List Job) (s : Scheduler γ) : Prop :=
  ((s.phase = .draining ∨ s.phase = .shuttingDown) ∧ s.queue.main = jobs ∧ s.discarded = thrown) ∨
    thrown ++ jobs <+: s.discarded

/-- It is a matter of the phase, the main queue and the jobs thrown out only. -/
theorem Forsaken.of_same (h : s.Forsaken thrown jobs)
    (phase : s.phase = .draining ∨ s.phase = .shuttingDown → t.phase = s.phase)
    (main : t.queue.main = s.queue.main) (discarded : t.discarded = s.discarded) :
    t.Forsaken thrown jobs := by
  obtain ⟨resting, waits, before⟩ | out := h
  · exact .inl ⟨phase resting ▸ resting, main.trans waits, discarded.trans before⟩
  · exact .inr (discarded ▸ out)

theorem settle_forsaken (waiting : jobs ≠ []) (h : s.Forsaken thrown jobs) : s.settle.Forsaken thrown jobs := by
  have books := books_settle s
  obtain ⟨resting, main, discarded⟩ | out := h
  · have unsettled : s.settle.phase = s.phase := by
      rw [phase_settle, if_neg]
      rintro ⟨_, empty, _⟩
      simp only [WorkQueue.isEmpty, Bool.and_eq_true, List.isEmpty_iff] at empty
      exact waiting (main.symm.trans empty.1)
    refine .inl ⟨unsettled ▸ resting, ?_, (congrArg Books.discarded books).trans discarded⟩
    exact (congrArg (fun b => b.queue.main) books).trans main
  · have same : s.settle.discarded = s.discarded := congrArg Books.discarded books
    exact .inr (same ▸ out)

variable [Generator γ]


theorem Hands.forsaken {job : Option Job} (h : s.Forsaken thrown jobs) (hands : s.Hands job t) : t.Forsaken thrown jobs := by
  obtain ⟨resting, main, discarded⟩ | out := h
  · have still : s.phase ≠ .dispatching := by
      rcases resting with draining | down
      · simp [draining]
      · simp [down]
    obtain ⟨phase, same, discarded'⟩ := hands.resting still
    exact .inl ⟨phase ▸ resting, same.trans main, discarded'.trans discarded⟩
  · exact .inr (out.trans hands.discarded)

theorem dispatch_forsaken (waiting : jobs ≠ []) (h : s.Forsaken thrown jobs) :
    s.dispatch.Forsaken thrown jobs := by
  unfold dispatch
  split
  · exact h
  · split
    · refine settle_forsaken waiting ?_
      exact startJobs_invariant (P := Forsaken thrown jobs) (fun h hands => hands.forsaken h)
        (fun _ _ h => h) _ h
    · exact h
    · split <;> exact h

/-- A template that is read throws out the jobs that wait; one that cannot be read changes nothing for them. -/
theorem loadTemplate_forsaken (h : s.Forsaken thrown jobs) (path : Path) :
    (s.loadTemplate path).Forsaken thrown jobs := by
  obtain ⟨resting, main, discarded⟩ | out := h
  · cases read : Template.load s.files path with
    | error e =>
      have books := books_loadTemplate_error read
      have still : (s.loadTemplate path).phase = s.phase := by
        rw [loadTemplate_error read, phase_beginDraining]
        rcases resting with draining | down
        · simp [draining]
        · simp [down]
      refine .inl ⟨still ▸ resting, ?_, (congrArg Books.discarded books).trans discarded⟩
      exact (congrArg (fun b => b.queue.main) books).trans main
    | ok t =>
      obtain ⟨supplied, books⟩ := books_loadTemplate_ok read
      have out : (s.loadTemplate path).discarded = s.discarded ++ s.queue.main :=
        congrArg Books.discarded books
      rw [discarded, main] at out
      exact .inr (out ▸ List.prefix_refl _)
  · exact .inr (out.trans (refills_loadTemplate path s).discarded)

theorem handle_forsaken (c : Command) (h : s.Forsaken thrown jobs) : (s.handle c).Forsaken thrown jobs := by
  cases c with
  | deviceReady _ | deviceFailed _ _ | jobFinished _ _ | pause | resume => exact h
  | shutdown =>
    obtain ⟨_, waits⟩ | out := h
    · exact .inl ⟨.inr rfl, waits⟩
    · exact .inr out
  | enqueueUpscale image =>
    obtain ⟨phase, _, main, discarded⟩ := phase_enqueueUpscale image s
    exact h.of_same (fun _ => phase) main discarded
  | loadTemplate path =>
    dsimp only [handle]
    split
    · exact loadTemplate_forsaken h path
    · exact h
  | capabilitiesDiscovered slot result =>
    obtain ⟨t, same, books, _, phase⟩ := finishBootstrap_eq slot result s
    have bootstrapped : t.Forsaken thrown jobs := by
      refine h.of_same ?_ (congrArg (fun b => b.queue.main) books) (congrArg Books.discarded books)
      intro resting
      rw [phase, if_neg]
      rcases resting with draining | down
      · simp [draining]
      · simp [down]
    dsimp only [handle]
    rw [same]
    unfold loadPending
    split
    · rename_i path _
      exact loadTemplate_forsaken (s := { t with pendingTemplate := none }) bootstrapped path
    · exact bootstrapped

end Scheduler

/-! ## Runs -/

namespace Live

open Scheduler

variable {γ : Type} [Generator γ] {l : Live γ}

/-- An event strands jobs just when it is the wish for a template that cannot be read. -/
theorem stranded_step (ordered : l.scheduler.Ordered l.pending) (calm : ¬ l.scheduler.Stranded) (e : Event) :
    (l.step e).scheduler.Stranded ↔ ∃ c, e = .message c ∧ l.scheduler.Strands c := by
  constructor
  · intro stranded
    cases e with
    | touch files => exact absurd stranded calm
    | tick => exact absurd stranded (not_stranded_dispatch calm)
    | message c =>
      by_cases strands : l.scheduler.Strands c
      · exact ⟨c, rfl, strands⟩
      · dsimp only [step] at stranded
        split at stranded
        · rename_i accepted
          refine absurd stranded (not_stranded_dispatch (not_stranded_handle calm strands ?_))
          rintro slot result rfl
          have requested := ordered.requested (accepted (.discover slot) rfl)
          exact ordered.empty (by simp [requested])
        · exact absurd stranded calm
  · rintro ⟨c, rfl, strands⟩
    have accepted : l.Accepts c := by
      obtain ⟨path, _, rfl, _⟩ := strands
      rintro call ⟨⟩
    dsimp only [step]
    rw [if_pos accepted]
    exact stranded_dispatch (stranded_handle strands)

/-- Jobs are stranded along a run just when somewhere along it such a wish came. -/
theorem stranded_run (ordered : l.scheduler.Ordered l.pending) (calm : ¬ l.scheduler.Stranded)
    (events : List Event) :
    (∃ before, before <+: events ∧ (l.run before).scheduler.Stranded) ↔
      ∃ before c after, events = before ++ .message c :: after ∧ (l.run before).scheduler.Strands c := by
  induction events generalizing l with
  | nil =>
    constructor
    · rintro ⟨before, inside, stranded⟩
      rw [List.prefix_nil.mp inside] at stranded
      exact absurd stranded calm
    · rintro ⟨before, c, after, split, _⟩
      simp at split
  | cons e events ih =>
    have here := stranded_step ordered calm e
    -- Either the first event strands jobs, or the run that is left starts without stranded ones.
    by_cases stranded : (l.step e).scheduler.Stranded
    · obtain ⟨c, rfl, strands⟩ := here.mp stranded
      constructor
      · intro _
        exact ⟨[], c, events, rfl, strands⟩
      · intro _
        exact ⟨[.message c], by simp, stranded⟩
    · have further := ih (run_ordered ordered [e]) stranded
      constructor
      · rintro ⟨before, inside, later⟩
        cases before with
        | nil => exact absurd later calm
        | cons first rest =>
          obtain ⟨rfl, within⟩ := List.cons_prefix_cons.mp inside
          obtain ⟨before, c, after, rfl, strands⟩ := further.mp ⟨rest, within, later⟩
          exact ⟨first :: before, c, after, rfl, strands⟩
      · rintro ⟨before, c, after, split, strands⟩
        cases before with
        | nil =>
          obtain ⟨rfl, rfl⟩ : e = .message c ∧ events = after := by simpa using split
          exact absurd (here.mpr ⟨c, rfl, strands⟩) stranded
        | cons first rest =>
          obtain ⟨rfl, rfl⟩ : e = first ∧ events = rest ++ .message c :: after := by simpa using split
          obtain ⟨before, inside, later⟩ := further.mpr ⟨rest, c, after, rfl, strands⟩
          exact ⟨e :: before, List.cons_prefix_cons.mpr ⟨rfl, inside⟩, later⟩

/-- Stranded jobs never reach a device, whatever happens afterwards. -/
theorem forsaken_run (stranded : l.scheduler.Stranded) (events : List Event) :
    (l.run events).scheduler.Forsaken l.scheduler.discarded l.scheduler.queue.main := by
  refine run_scheduler_invariant (P := Forsaken l.scheduler.discarded l.scheduler.queue.main)
    (fun c h => handle_forsaken c h) (fun h => dispatch_forsaken stranded.2 h) (fun _ h => h) ?_ events
  exact .inl ⟨.inl stranded.1, rfl, rfl⟩

/-- What a template that cannot be read does to a run. It leaves everything but the phase as it was, and the
phase too unless the run dispatches. Jobs are stranded just when such a template is wished for while they
wait in a run that dispatches, and from then on no device gets them. -/
theorem failed_load_strands (settings : RunSettings) (devices : List String) (files : FileSystem) (g : γ)
    (events : List Event) :
    (∀ path e, (reached settings devices files g events).bootstrap = .done →
      Template.load (reached settings devices files g events).files path = .error e →
      (reached settings devices files g events).Undisturbed
          ((reached settings devices files g events).handle (.loadTemplate path)) ∧
        (((reached settings devices files g events).handle (.loadTemplate path)).phase =
            (reached settings devices files g events).phase ↔
          (reached settings devices files g events).phase ≠ .dispatching)) ∧
    ((∃ before, before <+: events ∧ (reached settings devices files g before).Stranded) ↔
      ∃ before c after, events = before ++ .message c :: after ∧
        (reached settings devices files g before).Strands c) ∧
    ((reached settings devices files g events).Stranded → ∀ later,
      (reached settings devices files g (events ++ later)).Forsaken
        (reached settings devices files g events).discarded
        (reached settings devices files g events).queue.main) := by
  refine ⟨?_, ?_, ?_⟩
  · intro path e done unread
    have loads : (reached settings devices files g events).handle (.loadTemplate path) =
        (reached settings devices files g events).loadTemplate path := if_pos done
    rw [loads]
    refine ⟨undisturbed_loadTemplate unread, ?_⟩
    rw [loadTemplate_error unread, phase_beginDraining]
    split
    · rename_i dispatching
      have dispatching : (reached settings devices files g events).phase = .dispatching := dispatching
      simp [dispatching]
    · rename_i resting
      exact ⟨fun _ => resting, fun _ => rfl⟩
  · exact stranded_run (Scheduler.start_ordered settings devices files g)
      (not_stranded_start settings devices files g) events
  · intro stranded later
    have onwards := forsaken_run (l := (start settings devices files g).run events) stranded later
    rw [← run_append] at onwards
    exact onwards

/-- A template of two prompts, and nothing else. -/
def twoPrompts : FileSystem where
  entries := [(["two.txt"], .file "[prompts]\na\nb".toUTF8)]
  workingDirectory := []

/-- A run on one device that has started on the first of the two prompts, after some more events. -/
def onTwoPrompts (later : List Event) : Scheduler SplitMix :=
  reached { outputRoot := ⟨"out"⟩, wildcardDir := ⟨"wildcards"⟩, triggerFile := ⟨"triggers.txt"⟩ } ["a"]
    twoPrompts ⟨0⟩
    ([.message (.deviceReady 0), .message (.capabilitiesDiscovered 0 (.ok {})),
      .message (.loadTemplate ⟨"two.txt"⟩)] ++ later)

/-- A template that does not exist ends the supply of work although the second prompt waits, and that prompt
still waits when the device has nothing more to do. -/
theorem missing_template_strands_prompt :
    (onTwoPrompts []).bootstrap = .done ∧ (onTwoPrompts []).phase = .dispatching ∧
      (Template.load (onTwoPrompts []).files ⟨"missing.txt"⟩).toOption = none ∧
      ((onTwoPrompts []).handle (.loadTemplate ⟨"missing.txt"⟩)).phase = .draining ∧
      (onTwoPrompts [.message (.loadTemplate ⟨"missing.txt"⟩)]).phase = .draining ∧
      (onTwoPrompts [.message (.loadTemplate ⟨"missing.txt"⟩)]).queue.main.length = 1 ∧
      (onTwoPrompts [.message (.loadTemplate ⟨"missing.txt"⟩),
        .message (.jobFinished 0 ⟨"a", 1, .template, .ok []⟩)]).slots.map Slot.state = [.idle] ∧
      (onTwoPrompts [.message (.loadTemplate ⟨"missing.txt"⟩),
        .message (.jobFinished 0 ⟨"a", 1, .template, .ok []⟩)]).queue.main.length = 1 := by
  decide +kernel

/-- Nothing else of the run is disturbed by it. -/
theorem missing_template_leaves_rest :
    (onTwoPrompts []).Undisturbed ((onTwoPrompts []).handle (.loadTemplate ⟨"missing.txt"⟩)) := by
  have done : (onTwoPrompts []).bootstrap = .done := by decide +kernel
  cases read : Template.load (onTwoPrompts []).files ⟨"missing.txt"⟩ with
  | error e => exact ((failed_load_strands _ _ _ _ _).1 _ e done read).1
  | ok t =>
    have unread : (Template.load (onTwoPrompts []).files ⟨"missing.txt"⟩).toOption = none := by
      decide +kernel
    rw [read] at unread
    cases unread

end Live

end RenderFarm
