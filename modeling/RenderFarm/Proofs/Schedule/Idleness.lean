import RenderFarm.Proofs.Schedule.Gating
import RenderFarm.Proofs.Schedule.Stranding
import RenderFarm.Proofs.Schedule.Watch

/-!
What it means that a run shows itself idle. The run has nothing to do when it comes to rest, and nothing comes
from a template as long as it is idle. But it still takes and starts requests for enlargements, and it does not
become anything other than idle by them.
-/

namespace RenderFarm

/-- Nothing waits, and no device is at work. -/
def RunStatus.Quiet (status : RunStatus) : Prop :=
  status.mainQueue = 0 ∧ status.priorityQueue = 0 ∧
    ∀ d ∈ status.slots, d.state ≠ .busy ∧ d.state ≠ .discovering

instance (status : RunStatus) : Decidable status.Quiet :=
  inferInstanceAs (Decidable (_ ∧ _))

namespace Books

/-- Nothing comes into the main queue or leaves it; requests may come in, and jobs may end. -/
structure Unfed (b c : Books) : Prop where
  main : c.queue.main = b.queue.main
  supplied : c.supplied = b.supplied
  discarded : c.discarded = b.discarded
  requested : b.requested <+: c.requested
  ended : b.jobsDone + b.jobsFailed ≤ c.jobsDone + c.jobsFailed

variable {b c d : Books}

theorem Unfed.refl (b : Books) : b.Unfed b :=
  ⟨rfl, rfl, rfl, List.prefix_refl _, Nat.le_refl _⟩

theorem Unfed.of_eq (same : c = b) : b.Unfed c :=
  same ▸ .refl b

theorem Unfed.trans (h : b.Unfed c) (h' : c.Unfed d) : b.Unfed d where
  main := h'.main.trans h.main
  supplied := h'.supplied.trans h.supplied
  discarded := h'.discarded.trans h.discarded
  requested := h.requested.trans h'.requested
  ended := Nat.le_trans h.ended h'.ended

theorem unfed_request (job : Job) (b : Books) : b.Unfed (b.request job) :=
  ⟨rfl, rfl, rfl, List.prefix_append _ _, Nat.le_refl _⟩

theorem unfed_setState (slot : Nat) (state : SlotState) (b : Books) : b.Unfed (b.setState slot state) :=
  ⟨rfl, rfl, rfl, List.prefix_refl _, Nat.le_refl _⟩

theorem unfed_finish (slot : Nat) (success : Bool) (b : Books) : b.Unfed (b.finish slot success) := by
  refine ⟨rfl, rfl, rfl, List.prefix_refl _, ?_⟩
  cases success <;> simp [finish]

end Books

namespace Scheduler

variable {γ : Type} {s t : Scheduler γ}

/-- A run that was idle, and whose main queue was left alone since. -/
def Idled (s t : Scheduler γ) : Prop :=
  s.phase = .idle ∧ s.books.Unfed t.books

theorem Idled.trans {u : Scheduler γ} (h : s.Idled t) (h' : t.Idled u) : s.Idled u :=
  ⟨h.1, h.2.trans h'.2⟩

variable [Generator γ]

theorem loadTemplate_idled {path : Path} (idle : (s.loadTemplate path).phase = .idle) :
    s.Idled (s.loadTemplate path) := by
  cases read : Template.load s.files path with
  | error e =>
    rw [loadTemplate_error read, phase_beginDraining] at idle
    split at idle
    · cases idle
    · exact ⟨idle, .of_eq (books_loadTemplate_error read)⟩
  | ok t =>
    rw [phase_loadTemplate_ok read] at idle
    split at idle <;> cases idle

/-- No message makes a run idle, and if it stays so its main queue is left alone. -/
theorem handle_idled {c : Command} (idle : (s.handle c).phase = .idle) : s.Idled (s.handle c) := by
  cases c with
  | pause | resume => exact ⟨idle, .refl _⟩
  | shutdown => cases idle
  | deviceReady _ | deviceFailed _ _ => exact ⟨idle, Books.unfed_setState _ _ _⟩
  | jobFinished slot report => exact ⟨idle, Books.unfed_finish _ _ _⟩
  | enqueueUpscale image =>
    refine ⟨(phase_enqueueUpscale image s).1.symm.trans idle, ?_⟩
    obtain same | ⟨job, added⟩ := books_enqueueUpscale image s
    · exact .of_eq same
    · exact (Books.unfed_request job _).trans (.of_eq added)
  | loadTemplate path =>
    by_cases done : s.bootstrap = .done
    · have loads : s.handle (.loadTemplate path) = s.loadTemplate path := if_pos done
      rw [loads] at idle ⊢
      exact loadTemplate_idled idle
    · have waits : s.handle (.loadTemplate path) = { s with pendingTemplate := some path } := if_neg done
      rw [waits] at idle ⊢
      exact ⟨idle, .refl _⟩
  | capabilitiesDiscovered slot result =>
    obtain ⟨t, same, books, _, phase⟩ := finishBootstrap_eq slot result s
    have taken : t.phase = .idle → s.Idled t := by
      intro idle
      rw [phase] at idle
      split at idle
      · cases idle
      · exact ⟨idle, (Books.unfed_setState slot .idle _).trans (.of_eq books)⟩
    dsimp only [handle] at idle ⊢
    rw [same] at idle ⊢
    unfold loadPending at idle ⊢
    split at idle
    · obtain ⟨still, unfed⟩ := loadTemplate_idled idle
      exact ⟨(taken still).1, (taken still).2.trans unfed⟩
    · exact taken idle

/-- Handing out a job does not make a run idle either. -/
theorem Hands.idled {job : Option Job} (h : s.Hands job t) (idle : t.phase = .idle) : s.Idled t := by
  have awake : s.phase = .dispatching → s.refilled.phase ≠ .idle := by
    intro dispatching
    unfold refilled
    split
    · obtain goesOn | ⟨drains, _⟩ := advanceRun_of_dispatching dispatching
      · simp [goesOn]
      · simp [drains]
    · simp [dispatching]
  cases h with
  | priority first => exact ⟨idle, ⟨rfl, rfl, rfl, List.prefix_refl _, Nat.le_refl _⟩⟩
  | held => exact ⟨idle, .refl _⟩
  | main _ _ dispatching _ => exact absurd idle (awake dispatching)
  | dry _ _ dispatching _ => exact absurd idle (awake dispatching)

/-- Giving out jobs does not make a run idle. -/
theorem startJobs_idled {bound : Nat} (idle : (s.startJobs bound).phase = .idle) :
    s.Idled (s.startJobs bound) := by
  have begun : ∀ (t : Scheduler γ) slot job, t.books.Unfed (t.startJob slot job).books :=
    fun t slot job => ⟨rfl, rfl, rfl, List.prefix_refl _, Nat.le_refl _⟩
  refine startJobs_invariant (P := fun t => t.phase = .idle → s.Idled t) (fun before hands idle => ?_)
    (fun {t} slot job before idle => ?_) bound (fun idle => ⟨idle, .refl _⟩) idle
  · have handed := hands.idled idle
    exact (before handed.1).trans handed
  · exact ⟨(before idle).1, (before idle).2.trans (begun t slot job)⟩

/-- A run comes to rest: it is idle, and has nothing to do. -/
def AtRest (s : Scheduler γ) : Prop :=
  s.phase = .idle ∧ s.status.Quiet

omit [Generator γ] in
theorem atRest_of_settled (settled : s.phase = .draining ∧ s.queue.isEmpty ∧ !s.anyBusy) : s.settle.AtRest := by
  have books := books_settle s
  have queue : s.settle.queue = s.queue := congrArg Books.queue books
  have slots : s.settle.slots = s.slots := congrArg Books.slots books
  have idle : s.settle.phase = .idle := by rw [phase_settle, if_pos settled]
  obtain ⟨_, empty, quiet⟩ := settled
  simp only [WorkQueue.isEmpty, Bool.and_eq_true, List.isEmpty_iff] at empty
  refine ⟨idle, ?_, ?_, ?_⟩
  · simp [status, queue, empty.1]
  · simp [status, queue, empty.2]
  · intro d mem
    have free : d ∈ s.slots := slots ▸ mem
    simp only [anyBusy, Bool.not_eq_true', List.any_eq_false] at quiet
    simpa using quiet d free

/-- When a run is idle after work was given out, it has just come to rest, or it was idle before. -/
theorem dispatch_idled (idle : s.dispatch.phase = .idle) : s.dispatch.AtRest ∨ s.Idled s.dispatch := by
  unfold dispatch at idle ⊢
  split at idle
  · rename_i down
    rw [down] at idle
    cases idle
  · rename_i up
    rw [if_neg up]
    split at idle
    · by_cases settled : (s.startJobs s.slots.length).phase = .draining ∧
          (s.startJobs s.slots.length).queue.isEmpty ∧ !(s.startJobs s.slots.length).anyBusy
      · exact .inl (atRest_of_settled settled)
      · rw [phase_settle, if_neg settled] at idle
        obtain ⟨before, unfed⟩ := startJobs_idled idle
        exact .inr ⟨before, unfed.trans (.of_eq (books_settle _))⟩
    · exact .inr ⟨idle, .refl _⟩
    · split at idle
      · exact .inr ⟨idle, ⟨rfl, rfl, rfl, List.prefix_refl _, Nat.le_refl _⟩⟩
      · exact .inr ⟨idle, .refl _⟩

/-- Before it is known what the backend offers, a run is in no phase but the first, unless it is shut down. -/
def Early (s : Scheduler γ) : Prop :=
  s.bootstrap ≠ .done → s.phase = .bootstrapping ∨ s.phase = .shuttingDown

theorem handle_early (h : s.Early) (c : Command) : (s.handle c).Early := by
  intro early
  cases c with
  | deviceReady _ | deviceFailed _ _ | jobFinished _ _ | pause | resume => exact h early
  | shutdown => exact .inr rfl
  | capabilitiesDiscovered slot result => exact absurd (bootstrap_loadPending _) early
  | enqueueUpscale image =>
    obtain ⟨phase, bootstrap, _⟩ := phase_enqueueUpscale image s
    rw [handle, bootstrap] at early
    rw [handle, phase]
    exact h early
  | loadTemplate path =>
    have before : s.bootstrap ≠ .done := by
      rwa [bootstrap_handle fun _ _ => Command.noConfusion] at early
    have waits : s.handle (.loadTemplate path) = { s with pendingTemplate := some path } := if_neg before
    rw [waits]
    exact h before

theorem dispatch_early (h : s.Early) : s.dispatch.Early := by
  intro early
  unfold dispatch at early ⊢
  split
  · rename_i down
    exact .inr down
  · rename_i up
    rw [if_neg up] at early
    split at early
    · rename_i done
      rw [bootstrap_settle, (startJobs_asks_nothing _ s).1] at early
      exact absurd done early
    · exact h early
    · rename_i pending
      have before := h (by simp [pending])
      split
      · exact before
      · exact before

end Scheduler

/-! ## Runs -/

namespace Live

open Scheduler

variable {γ : Type} [Generator γ] {l : Live γ} {settings : RunSettings} {devices : List String}
  {files : FileSystem} {g : γ} {events : List Event}

/-- When a run is idle after an event, it has just come to rest, or it was idle before. -/
theorem step_idled {e : Event} (idle : (l.step e).scheduler.phase = .idle) :
    (l.step e).scheduler.AtRest ∨ l.scheduler.Idled (l.step e).scheduler := by
  cases e with
  | touch files => exact .inr ⟨idle, .refl _⟩
  | tick => exact dispatch_idled idle
  | message c =>
    unfold step at idle ⊢
    dsimp only at idle ⊢
    split at idle
    · rename_i accepted
      rw [if_pos accepted]
      obtain rest | before := dispatch_idled idle
      · exact .inl rest
      · exact .inr ((handle_idled before.1).trans before)
    · rename_i refused
      rw [if_neg refused]
      exact .inr ⟨idle, .refl _⟩

/-- A run that is idle came to rest at some time, and was idle ever since. -/
theorem run_idled (awake : l.scheduler.phase ≠ .idle) (idle : (l.run events).scheduler.phase = .idle) :
    ∃ before after, events = before ++ after ∧ (l.run before).scheduler.AtRest ∧
      (∀ since, since <+: after → (l.run (before ++ since)).scheduler.phase = .idle) ∧
      (l.run before).scheduler.books.Unfed (l.run events).scheduler.books := by
  induction events using List.reverseRecOn with
  | nil => exact absurd idle awake
  | append_singleton events e ih =>
    have last : l.run (events ++ [e]) = (l.run events).step e := by rw [run_append, run_cons, run_nil]
    rw [last] at idle
    obtain rest | ⟨still, unfed⟩ := step_idled idle
    · refine ⟨events ++ [e], [], by simp, last ▸ rest, ?_, .refl _⟩
      intro since inside
      rw [List.prefix_nil.mp inside, List.append_nil, last, rest.1]
    · obtain ⟨before, after, rfl, rest, all, earlier⟩ := ih still
      refine ⟨before, after ++ [e], by simp, rest, fun since inside => ?_, ?_⟩
      · obtain rfl | inside := List.prefix_concat_iff.mp inside
        · rw [← List.append_assoc, last, idle]
        · exact all since inside
      · rw [last]
        exact earlier.trans unfed

/-- A run that is idle asks no device what the backend offers. -/
theorem not_discovering_of_idle (idle : (reached settings devices files g events).phase = .idle) :
    ∀ d ∈ (reached settings devices files g events).slots, d.state ≠ .discovering := by
  have early : (reached settings devices files g events).Early :=
    run_scheduler_invariant (P := Early) (fun c h => handle_early h c) dispatch_early (fun _ h => h)
      (fun _ => .inl (start_fresh settings devices files g).phase) events
  have done : (reached settings devices files g events).bootstrap = .done := by
    by_cases done : (reached settings devices files g events).bootstrap = .done
    · exact done
    · have phase := early done
      simp [idle] at phase
  intro d mem discovering
  obtain ⟨slot, inside, rfl⟩ := List.getElem_of_mem mem
  have sound := run_sound settings devices files g events
  -- A device that is telling has an open call, so it was asked and has not answered.
  have asked : .discover slot ∈ ((start settings devices files g).run events).pending := by
    refine (sound.calls.mem_iff (.discover slot)).mpr ?_
    change ((reached settings devices files g events).slots[slot]?).map Slot.state = some .discovering
    rw [List.getElem?_eq_getElem inside, Option.map_some, discovering]
  have requested := (run_ordered (start_ordered settings devices files g) events).requested asked
  rw [reached, requested] at done
  cases done

/-- What has happened to a run since it came to rest, when it was idle all the time: some enlargements were asked
for, and some of them have ended. -/
structure Since (rest now : Scheduler γ) (asked : List Job) (finished : Nat) : Prop where
  quiet : rest.status.Quiet
  requested : now.requested = rest.requested ++ asked
  ended : now.jobsDone + now.jobsFailed = rest.jobsDone + rest.jobsFailed + finished
  /-- The others wait or are under way. -/
  others : asked.length = finished + now.queue.priority.length + now.slots.countP fun d => d.state == .busy

omit [Generator γ] in
/-- When all jobs are accounted for, and the main queue had no part in what happened since a run came to rest, the
requests that were made since then have ended, wait, or are under way. -/
theorem since_of_conserves {l l' : Live γ} (account : l.Conserves) (account' : l'.Conserves)
    (quiet : l.scheduler.status.Quiet) (unfed : l.scheduler.books.Unfed l'.scheduler.books) :
    l'.scheduler.queue.main = [] ∧ ∃ asked finished, Since l.scheduler l'.scheduler asked finished := by
  obtain ⟨main, waiting, working⟩ := quiet
  obtain ⟨asked, requested⟩ := unfed.requested
  obtain ⟨finished, ended⟩ := Nat.exists_eq_add_of_le unfed.ended
  have empty : l'.scheduler.queue.main = [] := unfed.main.trans (List.length_eq_zero_iff.mp main)
  refine ⟨empty, asked, finished, ⟨main, waiting, working⟩, requested.symm, ended, ?_⟩
  have free : l.scheduler.slots.countP (fun d => d.state == .busy) = 0 := by
    rw [List.countP_eq_zero]
    intro d mem
    simpa using (working d mem).1
  have total := account.total
  have total' := account'.total
  have supplied : l'.scheduler.supplied = l.scheduler.supplied := unfed.supplied
  have discarded : l'.scheduler.discarded = l.scheduler.discarded := unfed.discarded
  have came : l'.scheduler.requested.length = l.scheduler.requested.length + asked.length := by
    rw [← List.length_append]
    exact congrArg List.length requested.symm
  simp only [status] at main waiting
  simp only [Scheduler.books] at ended
  rw [main, waiting, free] at total
  rw [supplied, discarded, empty, came, List.length_nil] at total'
  omega

omit [Generator γ] in
/-- A run without jobs of a template has nothing to do just when all requests have ended. -/
theorem Since.quiet_iff {rest now : Scheduler γ} {asked : List Job} {finished : Nat}
    (h : Since rest now asked finished) (main : now.queue.main = [])
    (telling : ∀ d ∈ now.slots, d.state ≠ .discovering) : now.status.Quiet ↔ asked.length = finished := by
  have others := h.others
  constructor
  · rintro ⟨_, waiting, working⟩
    have free : now.slots.countP (fun d => d.state == .busy) = 0 := by
      rw [List.countP_eq_zero]
      intro d mem
      simpa using (working d mem).1
    simp only [status] at waiting
    omega
  · intro all
    have free : now.slots.countP (fun d => d.state == .busy) = 0 := by omega
    have waiting : now.queue.priority.length = 0 := by omega
    refine ⟨by simp [status, main], waiting, fun d mem => ⟨?_, telling d mem⟩⟩
    simpa using List.countP_eq_zero.mp free d mem

omit [Generator γ] in
theorem phase_of_shown {s : Scheduler γ} (shown : s.status.phase = .phase .idle) : s.phase = .idle := by
  unfold status at shown
  split at shown
  · cases shown
  · exact ShownPhase.phase.inj shown

/-- A run that is idle has no jobs of a template. What it has to do are those requests that were made since it came
to rest and have not ended. -/
theorem idle_since (idle : (onward settings devices files g events).scheduler.phase = .idle) :
    (onward settings devices files g events).scheduler.queue.main = [] ∧
      ∃ before after asked finished, events = before ++ after ∧
        (∀ since, since <+: after →
          (onward settings devices files g (before ++ since)).scheduler.phase = .idle) ∧
        Since (onward settings devices files g before).scheduler (onward settings devices files g events).scheduler
          asked finished := by
  have awake : (start settings devices files g).scheduler.phase ≠ .idle := by
    have phase := (start_fresh settings devices files g).phase
    simp [start, phase]
  obtain ⟨before, after, split, rest, all, unfed⟩ := run_idled awake idle
  -- The run is not at rest before its first pass.
  cases before with
  | nil => exact absurd rest.1 awake
  | cons first before =>
    obtain ⟨rfl, rfl⟩ : .tick = first ∧ events = before ++ after := by simpa using split
    obtain ⟨main, asked, finished, since⟩ := since_of_conserves (run_conserves settings devices files g _)
      (run_conserves settings devices files g _) rest.2 unfed
    exact ⟨main, before, after, asked, finished, rfl, all, since⟩

/-- When a run shows itself idle, it has no jobs of a template, and no device tells what the backend offers. If
being idle ends the run, there is nothing else to do either. Otherwise the run has come to rest before, and is idle
since; what it has to do are the requests that were made since then and have not ended, so it has nothing to do
just when all of them have. -/
theorem idle_shown_since_rest (settings : RunSettings) (devices : List String) (files : FileSystem) (g : γ)
    (events : List Event) (idle : (Watch.shown settings devices files g events).phase = .phase .idle) :
    (Watch.shown settings devices files g events).mainQueue = 0 ∧
    (∀ d ∈ (Watch.shown settings devices files g events).slots, d.state ≠ .discovering) ∧
    (settings.exitWhenIdle = true → (Watch.shown settings devices files g events).Quiet) ∧
    ∃ before after asked finished, before ++ after <+: events ∧
      Watch.shown settings devices files g events =
        (onward settings devices files g (before ++ after)).scheduler.status ∧
      (∀ since, since <+: after →
        (onward settings devices files g (before ++ since)).scheduler.phase = .idle) ∧
      Since (onward settings devices files g before).scheduler
        (onward settings devices files g (before ++ after)).scheduler asked finished ∧
      ((Watch.shown settings devices files g events).Quiet ↔ asked.length = finished) := by
  obtain first | ⟨until', inside, notYet, shown⟩ := Watch.shows_shown settings devices files g events
  · rw [first] at idle
    cases idle
  rw [shown] at idle ⊢
  have idle := phase_of_shown idle
  obtain ⟨main, before, after, asked, finished, rfl, all, since⟩ := idle_since idle
  have telling := not_discovering_of_idle idle
  refine ⟨by simp [status, main], telling, fun exits => ?_, before, after, asked, finished, inside, rfl, all, since,
    since.quiet_iff main telling⟩
  -- The run would have ended when it came to rest.
  have none : after = [] := by
    by_cases none : after = []
    · exact none
    · refine absurd (all [] List.nil_prefix) ?_
      rw [List.append_nil]
      exact notYet exits before (List.prefix_append _ _) (by simpa using none)
  rw [none, List.append_nil]
  exact since.quiet

/-- A run on one device without a template, and two requests to enlarge an image. -/
def twoRequests : List Event :=
  [.message (.deviceReady 0), .message (.capabilitiesDiscovered 0 (.ok {})),
    .message (.enqueueUpscale ⟨"a.png"⟩), .message (.enqueueUpscale ⟨"a.png"⟩)]

/-- The run shows itself idle although its device works on the first request and the second one waits. -/
theorem idle_shown_over_requests :
    (Watch.shown imageSettings ["a"] oneImage (⟨0⟩ : SplitMix) twoRequests).phase = .phase .idle ∧
      (Watch.shown imageSettings ["a"] oneImage (⟨0⟩ : SplitMix) twoRequests).slots.map Slot.state = [.busy] ∧
      (Watch.shown imageSettings ["a"] oneImage (⟨0⟩ : SplitMix) twoRequests).priorityQueue = 1 := by
  decide +kernel

/-- It has come to rest, and two requests are open since. -/
theorem requests_open_since_rest :
    (Watch.shown imageSettings ["a"] oneImage (⟨0⟩ : SplitMix) twoRequests).phase = .phase .idle ∧
      (Watch.shown imageSettings ["a"] oneImage (⟨0⟩ : SplitMix) twoRequests).mainQueue = 0 ∧
      ∃ before after asked finished, before ++ after <+: twoRequests ∧
        Since (onward imageSettings ["a"] oneImage (⟨0⟩ : SplitMix) before).scheduler
          (onward imageSettings ["a"] oneImage (⟨0⟩ : SplitMix) (before ++ after)).scheduler asked finished ∧
        asked.length ≠ finished := by
  have idle : (Watch.shown imageSettings ["a"] oneImage (⟨0⟩ : SplitMix) twoRequests).phase = .phase .idle := by
    decide +kernel
  have open' : ¬ (Watch.shown imageSettings ["a"] oneImage (⟨0⟩ : SplitMix) twoRequests).Quiet := by decide +kernel
  obtain ⟨main, _, _, before, after, asked, finished, inside, _, _, since, quiet⟩ :=
    idle_shown_since_rest imageSettings ["a"] oneImage (⟨0⟩ : SplitMix) twoRequests idle
  exact ⟨idle, main, before, after, asked, finished, inside, since, fun all => open' (quiet.mpr all)⟩

end Live

end RenderFarm
