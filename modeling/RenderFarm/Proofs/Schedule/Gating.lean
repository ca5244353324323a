import RenderFarm.Proofs.Schedule.Starts

/-!
When a job may start. The backend is asked what it offers once, and no job starts before the answer is known
or after the run was told to shut down; a device starts a job only when it is ready and has nothing else to
do; the main queue has to wait for the priority queue, and the priority queue for nothing but a device.
-/

namespace RenderFarm

namespace Live

variable {γ : Type} [Generator γ] {l : Live γ} {events : List Event} {c : Command} {e : Event}

/-- A message arrived in the course of some events. -/
def Took (l : Live γ) (events : List Event) (c : Command) : Prop :=
  ∃ before after, events = before ++ .message c :: after ∧ (l.run before).Accepts c

theorem took_append (took : l.Took events c) (later : List Event) : l.Took (events ++ later) c := by
  obtain ⟨before, after, rfl, accepted⟩ := took
  exact ⟨before, after ++ later, by simp, accepted⟩

theorem took_last (accepted : (l.run events).Accepts c) : l.Took (events ++ [.message c]) c :=
  ⟨events, [], rfl, accepted⟩

theorem took_cons (took : (l.step e).Took events c) : l.Took (e :: events) c := by
  obtain ⟨before, after, rfl, accepted⟩ := took
  exact ⟨e :: before, after, rfl, accepted⟩

theorem took_concat (took : l.Took (events ++ [e]) c) : l.Took events c ∨ e = .message c := by
  obtain ⟨before, after, split, accepted⟩ := took
  obtain rfl | ⟨after, last, rfl⟩ := List.eq_nil_or_concat after
  · exact .inr (List.singleton_inj.mp (List.append_inj' split rfl).2)
  · rw [List.concat_eq_append, ← List.cons_append, ← List.append_assoc] at split
    exact .inl ⟨before, after, (List.append_inj' split rfl).1, accepted⟩

/-- What comes about only by certain messages holds after some events only if such a message arrived. -/
theorem run_since {I P : Live γ → Prop} {C : Command → Prop} (kept : ∀ l e, I l → I (l.step e))
    (since : ∀ l e, I l → P (l.step e) → P l ∨ ∃ c, C c ∧ e = .message c ∧ l.Accepts c)
    (invariant : I l) (before : ¬ P l) (after : P (l.run events)) : ∃ c, C c ∧ l.Took events c := by
  induction events generalizing l with
  | nil => exact absurd after before
  | cons e events ih =>
    by_cases now : P (l.step e)
    · obtain here | ⟨c, holds, rfl, accepted⟩ := since l e invariant now
      · exact absurd here before
      · exact ⟨c, holds, [], events, rfl, accepted⟩
    · obtain ⟨c, holds, took⟩ := ih (kept l e invariant) now after
      exact ⟨c, holds, took_cons took⟩

end Live

namespace Scheduler

variable {γ : Type} {s t : Scheduler γ} {slot : Nat}

/-- A device that can be used: it has started up and has not failed. -/
def Usable (s : Scheduler γ) (slot : Nat) : Prop :=
  ∃ d, s.slots[slot]? = some d ∧ d.state ≠ .starting ∧ d.state ≠ .failed

theorem usable_of_idle (idle : s.idleSlot? = some slot) : s.Usable slot := by
  obtain ⟨d, found, state⟩ := idleSlot?_some idle
  exact ⟨d, found, by simp [state], by simp [state]⟩

/-- A change to one device leaves the others as usable as they were. -/
theorem usable_of_modify {i : Nat} {f : Slot → Slot} (slots : t.slots = s.slots.modify i f)
    (usable : t.Usable slot) (other : slot = i → s.Usable slot) : s.Usable slot := by
  by_cases same : slot = i
  · exact other same
  · obtain ⟨d, found, state⟩ := usable
    rw [slots, List.getElem?_modify_ne _ _ (Ne.symm same)] at found
    exact ⟨d, found, state⟩

/-- A device that has a question or a job to answer can be used. -/
theorem usable_of_open {pending : List Call} (sound : s.books.Sound pending) {call : Call}
    (isOpen : call ∈ pending) (started : call.state ≠ .starting) : s.Usable call.slot := by
  obtain ⟨d, found, state⟩ := sound.calls.exists_slot isOpen
  exact ⟨d, found, state ▸ started, state ▸ call.state_ne_failed⟩

variable [Generator γ]

/-- A device becomes usable only by reporting ready. -/
theorem usable_handle {pending : List Call} (sound : s.books.Sound pending) {c : Command}
    (accepted : ∀ call ∈ c.answered?, call ∈ pending) (usable : (s.handle c).Usable slot) :
    s.Usable slot ∨ c = .deviceReady slot := by
  have of_same : (s.handle c).slots = s.slots → s.Usable slot := by
    intro same
    unfold Usable at usable ⊢
    rwa [same] at usable
  cases c with
  | pause | resume | shutdown => exact .inl usable
  | deviceReady i =>
    by_cases same : slot = i
    · exact .inr (same ▸ rfl)
    · exact .inl (usable_of_modify rfl usable fun eq => absurd eq same)
  | deviceFailed i error =>
    refine .inl (usable_of_modify rfl usable ?_)
    rintro rfl
    obtain ⟨d, found, _, failed⟩ := usable
    have changed : (s.slots.modify slot fun d => { d with state := .failed })[slot]? = some d := found
    rw [List.getElem?_modify_eq] at changed
    obtain ⟨_, _, rfl⟩ := Option.map_eq_some_iff.mp changed
    exact absurd rfl failed
  | capabilitiesDiscovered i result =>
    refine .inl (usable_of_modify (refills_finishBootstrap i result s).slots usable ?_)
    rintro rfl
    exact usable_of_open sound (accepted (.discover slot) rfl) (by simp [Call.state])
  | jobFinished i report =>
    refine .inl (usable_of_modify rfl usable ?_)
    rintro rfl
    exact usable_of_open sound (accepted (.execute slot) rfl) (by simp [Call.state])
  | loadTemplate path =>
    refine .inl (of_same ?_)
    dsimp only [handle]
    split
    · exact (refills_loadTemplate path s).slots
    · rfl
  | enqueueUpscale image =>
    refine .inl (of_same ?_)
    obtain same | ⟨job, added⟩ := books_enqueueUpscale image s
    · exact congrArg Books.slots same
    · exact congrArg Books.slots added

theorem Hands.usable {job : Option Job} (h : s.Hands job t) : t.Usable slot ↔ s.Usable slot := by
  unfold Usable
  rw [h.slots]

/-- Giving out work makes no device usable. -/
theorem usable_dispatch (usable : s.dispatch.Usable slot) : s.Usable slot := by
  unfold dispatch at usable
  split at usable
  · exact usable
  · split at usable
    · refine (starts_keep (P := fun t => t.Usable slot → s.Usable slot) (fun h hands now => h (hands.usable.mp now))
        (fun {t i} job h idle now => h (usable_of_modify rfl now ?_)) s.slots.length (fun now => now)).1 ?_
      · rintro rfl
        exact usable_of_idle idle
      · have settled : (s.startJobs s.slots.length).settle.slots = (s.startJobs s.slots.length).slots :=
          congrArg Books.slots (books_settle _)
        unfold Usable at usable ⊢
        rwa [settled] at usable
    · exact usable
    · split at usable
      · rename_i i idle
        refine usable_of_modify rfl usable ?_
        rintro rfl
        exact usable_of_idle idle
      · exact usable

/-- A run that is being shut down loads templates, but gives out no work of them. -/
theorem loadTemplate_of_shuttingDown (down : s.phase = .shuttingDown) (path : Path) :
    (s.loadTemplate path).phase = .shuttingDown := by
  cases read : Template.load s.files path with
  | error e =>
    rw [loadTemplate_error read, phase_beginDraining, phase_note, if_neg (by simp [down]), down]
  | ok template => rw [phase_loadTemplate_ok read, if_pos down]

theorem handle_of_shuttingDown (down : s.phase = .shuttingDown) (c : Command) :
    (s.handle c).phase = .shuttingDown := by
  cases c with
  | deviceReady _ | deviceFailed _ _ | jobFinished _ _ | pause | resume => exact down
  | shutdown => rfl
  | enqueueUpscale image => exact (phase_enqueueUpscale image s).1.trans down
  | loadTemplate path =>
    dsimp only [handle]
    split
    · exact loadTemplate_of_shuttingDown down path
    · exact down
  | capabilitiesDiscovered i result =>
    obtain ⟨t, same, _, _, phase⟩ := finishBootstrap_eq i result s
    rw [if_neg (by simp [down]), down] at phase
    dsimp only [handle]
    rw [same]
    unfold loadPending
    split
    · rename_i path _
      exact loadTemplate_of_shuttingDown (s := { t with pendingTemplate := none }) phase path
    · exact phase

/-- A job of the main queue is looked for only while the run dispatches, is not held and has no other job to
give out; it is the oldest of the queue, which is refilled first if it is empty. -/
theorem Hands.of_main {job : Job} (h : s.Hands (some job) t)
    (main : t.queue.priority.length = s.queue.priority.length) :
    s.paused = false ∧ s.phase = .dispatching ∧ s.queue.priority = [] ∧
      ∃ rest, s.refilled.queue.main = job :: rest ∧
        t = { s.refilled with queue := { s.refilled.queue with main := rest } } := by
  cases h with
  | priority first => simp [first] at main
  | main empty free dispatching first => exact ⟨free, dispatching, empty, _, first, rfl⟩

/-- The oldest job of the priority queue starts first, whatever the run is doing otherwise. -/
theorem starts_of_priority {job : Job} {rest : List Job} (idle : s.idleSlot? = some slot)
    (first : s.queue.priority = job :: rest) (bound : Nat) :
    ∃ more, s.starts (bound + 1) = ⟨s, slot, job⟩ :: more := by
  have found : s.nextJob = (some job, { s with queue := { s.queue with priority := rest } }) := by
    unfold nextJob WorkQueue.popPriority?
    rw [first]
  unfold starts
  rw [idle]
  dsimp only
  rw [found]
  exact ⟨_, rfl⟩

/-- How often the backend was asked what it offers, set against how far the bootstrap is. -/
def AsksOnce (s : Scheduler γ) : Prop :=
  (s.orders.map Order.call).countP Call.asks ≤ if s.bootstrap = .pending then 0 else 1

theorem handle_asksOnce (h : s.AsksOnce) (c : Command) : (s.handle c).AsksOnce := by
  unfold AsksOnce at h ⊢
  rw [orders_handle]
  by_cases answer : ∃ i result, c = .capabilitiesDiscovered i result
  · obtain ⟨i, result, rfl⟩ := answer
    have done : (s.handle (.capabilitiesDiscovered i result)).bootstrap = .done := bootstrap_loadPending _
    rw [done, if_neg (by decide)]
    refine Nat.le_trans h ?_
    split <;> decide
  · rw [bootstrap_handle fun i result same => answer ⟨i, result, same⟩]
    exact h

theorem dispatch_asksOnce (h : s.AsksOnce) : s.dispatch.AsksOnce := by
  unfold dispatch
  split
  · exact h
  · split
    · obtain ⟨bootstrap, given, orders, none⟩ := startJobs_asks_nothing s.slots.length s
      have settled : (s.startJobs s.slots.length).settle.orders = s.orders ++ given :=
        (congrArg Books.orders (books_settle _)).trans orders
      unfold AsksOnce at h ⊢
      rw [settled, bootstrap_settle, bootstrap, List.map_append, List.countP_append, none]
      exact h
    · exact h
    · rename_i pending
      split
      · rename_i i _
        have question : (s.requestDiscovery i).orders = s.orders ++ [.discover i] := rfl
        have asked : (s.requestDiscovery i).bootstrap = .requested := rfl
        unfold AsksOnce at h ⊢
        rw [pending, if_pos rfl] at h
        rw [question, asked, List.map_append, List.countP_append]
        simpa [Order.call, Call.asks] using h
      · exact h

end Scheduler

namespace Live

open Scheduler

variable {γ : Type} [Generator γ] {l : Live γ} {events : List Event}

/-- What is the case when a job starts at an event that comes after some others. -/
structure Gated (l : Live γ) (before : List Event) (e : Event) (st : Start γ) : Prop where
  /-- It is known what the backend offers. -/
  discovered : ∃ slot result, l.Took (before ++ [e]) (.capabilitiesDiscovered slot result)
  /-- The device has reported ready. -/
  ready : l.Took (before ++ [e]) (.deviceReady st.slot)
  /-- The device is not starting up, telling what it offers, busy or failed. -/
  free : (st.moment.slots[st.slot]?).map Slot.state = some .idle
  /-- A job of the main queue starts only while the run is not held and dispatches, and no request waits. -/
  turn : st.fromMain → st.moment.paused = false ∧ st.moment.phase = .dispatching ∧
    st.moment.queue.priority = []
  /-- The run was not told to shut down. -/
  up : ¬ l.Took (before ++ [e]) .shutdown

/-- Work is given out after a message that can arrive, or when some time has passed. -/
theorem given_cases {e : Event} {st : Start γ} (mem : st ∈ l.given e) :
    ∃ s, st ∈ s.given ∧ (s = l.scheduler ∧ e = .tick ∨
      ∃ c, s = l.scheduler.handle c ∧ e = .message c ∧ l.Accepts c) := by
  cases e with
  | touch files => cases mem
  | tick => exact ⟨_, mem, .inl ⟨rfl, rfl⟩⟩
  | message c =>
    by_cases accepted : l.Accepts c
    · simp only [given, if_pos accepted] at mem
      exact ⟨_, mem, .inr ⟨c, rfl, rfl, accepted⟩⟩
    · simp only [given, if_neg accepted] at mem
      cases mem

/-- When the run knows what the backend offers, it was told so. -/
theorem took_answer (start : l.scheduler.bootstrap ≠ .done) (done : (l.run events).scheduler.bootstrap = .done) :
    ∃ c, (∃ slot result, c = .capabilitiesDiscovered slot result) ∧ l.Took events c := by
  refine run_since (I := fun _ => True) (P := fun l => l.scheduler.bootstrap = .done) (fun _ _ _ => trivial)
    (fun l e _ now => ?_) trivial start done
  have kept : ∀ s : Scheduler γ, s.dispatch.bootstrap = .done → s.bootstrap = .done := by
    intro s now
    unfold dispatch at now
    split at now
    · exact now
    · split at now
      · assumption
      · exact now
      · split at now
        · cases now
        · exact now
  cases e with
  | touch files => exact .inl now
  | tick => exact .inl (kept _ now)
  | message c =>
    dsimp only [step] at now
    split at now
    · rename_i accepted
      by_cases answer : ∃ slot result, c = .capabilitiesDiscovered slot result
      · exact .inr ⟨c, answer, rfl, accepted⟩
      · refine .inl ?_
        rw [← bootstrap_handle fun slot result same => answer ⟨slot, result, same⟩]
        exact kept _ now
    · exact .inl now

/-- When a device can be used, it has reported ready. -/
theorem took_ready {slot : Nat} (sound : l.scheduler.books.Sound l.pending) (start : ¬ l.scheduler.Usable slot)
    (usable : (l.run events).scheduler.Usable slot) : ∃ c, c = .deviceReady slot ∧ l.Took events c := by
  refine run_since (I := fun l => l.scheduler.books.Sound l.pending) (P := fun l => l.scheduler.Usable slot)
    (fun l e sound => run_keeps (I := fun s pending => s.books.Sound pending) handle_sound dispatch_gives
      (fun _ h => h) sound [e])
    (fun l e sound now => ?_) sound start usable
  cases e with
  | touch files => exact .inl now
  | tick => exact .inl (usable_dispatch now)
  | message c =>
    dsimp only [step] at now
    split at now
    · rename_i accepted
      obtain here | ready := usable_handle sound accepted (usable_dispatch now)
      · exact .inl here
      · exact .inr ⟨c, ready, rfl, accepted⟩
    · exact .inl now

/-- A run that was told to shut down never does anything else. -/
theorem phase_of_took_shutdown (took : l.Took events .shutdown) :
    (l.run events).scheduler.phase = .shuttingDown := by
  obtain ⟨before, after, rfl, accepted⟩ := took
  have dispatched : ∀ {s : Scheduler γ}, s.phase = .shuttingDown → s.dispatch.phase = .shuttingDown := by
    intro s down
    unfold dispatch
    rw [if_pos down, down]
  rw [run_append, run_cons]
  refine run_scheduler_invariant (P := fun s => s.phase = .shuttingDown)
    (fun c down => handle_of_shuttingDown down c) dispatched (fun _ down => down) ?_ after
  dsimp only [step]
  rw [if_pos accepted]
  exact dispatched rfl

/-- Before an event, the run knows what it needs for the jobs that it starts then. -/
theorem gated_of_mem {settings : RunSettings} {devices : List String} {files : FileSystem} {g : γ}
    {before : List Event} {e : Event} {st : Start γ}
    (mem : st ∈ ((start settings devices files g).run before).given e) :
    (start settings devices files g).Gated before e st := by
  have sound := run_sound settings devices files g before
  have sound₀ := start_sound settings devices files g
  have fresh : (start settings devices files g).scheduler.bootstrap ≠ .done := by
    have unasked : (Scheduler.start settings devices files g).bootstrap = .pending := by
      unfold Scheduler.start
      dsimp only
      split <;> rfl
    simp [start, unasked]
  have unready : ¬ (start settings devices files g).scheduler.Usable st.slot := by
    rintro ⟨d, found, started, _⟩
    have slots : (start settings devices files g).scheduler.slots = devices.map fun id => { id } :=
      congrArg Books.slots (books_start settings devices files g)
    rw [slots, List.getElem?_map] at found
    obtain ⟨id, _, rfl⟩ := Option.map_eq_some_iff.mp found
    exact started rfl
  obtain ⟨s, work, came⟩ := given_cases mem
  obtain ⟨up, done, started⟩ := given_of_mem work
  obtain ⟨_, within⟩ := starts_keep (P := fun t => t.Usable st.slot → s.Usable st.slot)
    (fun h hands now => h (hands.usable.mp now))
    (fun {t i} job h idle now => h (usable_of_modify rfl now fun same => same ▸ usable_of_idle idle))
    s.slots.length fun now => now
  obtain ⟨usable, idle, hands⟩ := within st started
  have usable := usable (usable_of_idle idle)
  refine ⟨?_, ?_, ?_, ?_, ?_⟩
  · have earlier : ((start settings devices files g).run before).scheduler.bootstrap = .done →
        ∃ slot result, (start settings devices files g).Took (before ++ [e])
          (.capabilitiesDiscovered slot result) := by
      intro done
      obtain ⟨_, ⟨slot, result, rfl⟩, took⟩ := took_answer fresh done
      exact ⟨slot, result, took_append took [e]⟩
    obtain ⟨rfl, _⟩ | ⟨c, rfl, rfl, accepted⟩ := came
    · exact earlier done
    · by_cases answer : ∃ slot result, c = .capabilitiesDiscovered slot result
      · obtain ⟨slot, result, rfl⟩ := answer
        exact ⟨slot, result, took_last accepted⟩
      · rw [bootstrap_handle fun slot result same => answer ⟨slot, result, same⟩] at done
        exact earlier done
  · have earlier : ((start settings devices files g).run before).scheduler.Usable st.slot →
        (start settings devices files g).Took (before ++ [e]) (.deviceReady st.slot) := by
      intro usable
      obtain ⟨_, rfl, took⟩ := took_ready sound₀ unready usable
      exact took_append took [e]
    obtain ⟨rfl, _⟩ | ⟨c, rfl, rfl, accepted⟩ := came
    · exact earlier usable
    · obtain before | rfl := usable_handle sound accepted usable
      · exact earlier before
      · exact took_last accepted
  · obtain ⟨d, found, state⟩ := idleSlot?_some idle
    simp [found, state]
  · intro main
    obtain ⟨free, dispatching, empty, _⟩ := hands.of_main (by simpa [Start.fromMain] using main)
    exact ⟨free, dispatching, empty⟩
  · intro took
    obtain earlier | now := took_concat took
    · have down := phase_of_took_shutdown earlier
      obtain ⟨rfl, _⟩ | ⟨c, rfl, _, _⟩ := came
      · exact up down
      · exact up (handle_of_shuttingDown down c)
    · obtain ⟨_, tick⟩ | ⟨c, rfl, same, _⟩ := came
      · rw [now] at tick
        cases tick
      · rw [now] at same
        cases same
        exact up rfl

/-- When jobs start, in every order of events: the backend is asked at most once what it offers; every job
that a device is told to execute is accounted for, and none starts before it may; and whatever the run is
doing otherwise, the oldest request starts as soon as there is an idle device. -/
theorem starts_are_gated (settings : RunSettings) (devices : List String) (files : FileSystem) (g : γ)
    (events : List Event) :
    ((reached settings devices files g events).orders.map Order.call).countP Call.asks ≤ 1 ∧
    (reached settings devices files g events).orders.filterMap Order.start? =
      ((start settings devices files g).starts events).map (fun st => (st.slot, st.job)) ∧
    (∀ before e after, events = before ++ e :: after →
      ∀ st ∈ ((start settings devices files g).run before).given e,
        (start settings devices files g).Gated before e st) ∧
    (∀ s : Scheduler γ, s.bootstrap = .done → s.phase ≠ .shuttingDown → (∃ d ∈ s.slots, d.state = .idle) →
      ∀ job rest, s.queue.priority = job :: rest → ∃ slot more,
        (s.slots[slot]?).map Slot.state = some .idle ∧
        s.dispatch.orders.filterMap Order.start? = s.orders.filterMap Order.start? ++ (slot, job) :: more) := by
  refine ⟨?_, ?_, ?_, ?_⟩
  · have asks : (reached settings devices files g events).AsksOnce := by
      refine run_scheduler_invariant (P := AsksOnce) (fun c h => handle_asksOnce h c) dispatch_asksOnce
        (fun _ h => h) ?_ events
      have none : (start settings devices files g).scheduler.orders = [] :=
        congrArg Books.orders (books_start settings devices files g)
      unfold AsksOnce
      rw [none]
      exact Nat.zero_le _
    refine Nat.le_trans asks ?_
    split <;> decide
  · have account := orders_run (start settings devices files g) events
    have none : (start settings devices files g).scheduler.orders = [] :=
      congrArg Books.orders (books_start settings devices files g)
    rw [none] at account
    exact account
  · rintro before e after rfl st mem
    exact gated_of_mem mem
  · rintro s done up ⟨d, mem, idle⟩ job rest first
    obtain ⟨slot, found⟩ : ∃ slot, s.idleSlot? = some slot := by
      cases found : s.idleSlot? with
      | some slot => exact ⟨slot, rfl⟩
      | none =>
        have busy := List.findIdx?_eq_none_iff.mp found d mem
        simp [idle] at busy
    obtain ⟨d', here, state⟩ := idleSlot?_some found
    obtain ⟨n, length⟩ : ∃ n, s.slots.length = n + 1 :=
      Nat.exists_eq_succ_of_ne_zero (Nat.ne_of_gt (List.length_pos_of_mem mem))
    obtain ⟨more, starts⟩ := starts_of_priority found first n
    refine ⟨slot, more.map fun st => (st.slot, st.job), by simp [here, state], ?_⟩
    rw [orders_dispatch, Scheduler.given, if_pos ⟨up, done⟩, length, starts]
    rfl

/-- One image, and nothing else. -/
def oneImage : FileSystem where
  entries := [(["a.png"], .file .empty)]
  workingDirectory := []

/-- Where a run works on it. -/
def imageSettings : RunSettings :=
  { outputRoot := ⟨"out"⟩, wildcardDir := ⟨"wildcards"⟩, triggerFile := ⟨"triggers.txt"⟩ }

/-- A run on one device that has no template, and is held. -/
def heldRun : List Event :=
  [.message (.deviceReady 0), .message (.capabilitiesDiscovered 0 (.ok {})), .message .pause]

/-- The run has come to rest and is held, but starts the enlargement that is asked for. -/
theorem held_run_starts_request :
    (reached imageSettings ["a"] oneImage (⟨0⟩ : SplitMix) heldRun).paused = true ∧
      (reached imageSettings ["a"] oneImage (⟨0⟩ : SplitMix) heldRun).phase = .idle ∧
      (∃ st, ((start imageSettings ["a"] oneImage (⟨0⟩ : SplitMix)).run heldRun).given
          (.message (.enqueueUpscale ⟨"a.png"⟩)) = [st] ∧
        (start imageSettings ["a"] oneImage (⟨0⟩ : SplitMix)).Gated heldRun
          (.message (.enqueueUpscale ⟨"a.png"⟩)) st) ∧
      ∃ job slot more,
        ((reached imageSettings ["a"] oneImage (⟨0⟩ : SplitMix) heldRun).handle
          (.enqueueUpscale ⟨"a.png"⟩)).dispatch.orders.filterMap Order.start? = (slot, job) :: more := by
  have gated := starts_are_gated imageSettings ["a"] oneImage (⟨0⟩ : SplitMix)
    (heldRun ++ [.message (.enqueueUpscale ⟨"a.png"⟩)])
  refine ⟨by decide +kernel, by decide +kernel, ?_, ?_⟩
  · obtain ⟨st, only⟩ := List.length_eq_one_iff.mp (by decide +kernel :
      (((start imageSettings ["a"] oneImage (⟨0⟩ : SplitMix)).run heldRun).given
        (.message (.enqueueUpscale ⟨"a.png"⟩))).length = 1)
    exact ⟨st, only, gated.2.2.1 heldRun _ [] rfl st (by simp [only])⟩
  · generalize request : (reached imageSettings ["a"] oneImage (⟨0⟩ : SplitMix) heldRun).handle
      (.enqueueUpscale ⟨"a.png"⟩) = s
    have done : s.bootstrap = .done := request ▸ by decide +kernel
    have up : s.phase ≠ .shuttingDown := request ▸ by decide +kernel
    have idle : ∃ d ∈ s.slots, d.state = .idle := request ▸ by decide +kernel
    have waits : s.queue.priority.length = 1 := request ▸ by decide +kernel
    have quiet : s.orders.filterMap Order.start? = [] :=
      List.length_eq_zero_iff.mp (request ▸ by decide +kernel)
    obtain ⟨job, first⟩ := List.length_eq_one_iff.mp waits
    obtain ⟨slot, more, _, started⟩ := gated.2.2.2 s done up idle job [] first
    exact ⟨job, slot, more, by rw [started, quiet, List.nil_append]⟩

end Live

end RenderFarm
