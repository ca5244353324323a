import RenderFarm.Proofs.Schedule.Live

/-!
The books of a run: its devices, its queues, the orders that were given, and the jobs that came in and went
out. Most of what a scheduler does leaves them as they are; the rest is a few entries, one for each way in
which a job moves.
-/

namespace RenderFarm

/-- What a run keeps account of. -/
structure Books where
  slots : List Slot
  queue : WorkQueue Job
  orders : List Order
  supplied : List Job
  requested : List Job
  discarded : List Job
  jobsDone : Nat
  jobsFailed : Nat

/-- The books of a run. -/
def Scheduler.books {γ : Type} (s : Scheduler γ) : Books :=
  ⟨s.slots, s.queue, s.orders, s.supplied, s.requested, s.discarded, s.jobsDone, s.jobsFailed⟩

namespace Books

/-- Jobs come into the main queue. -/
def supply (jobs : List Job) (b : Books) : Books :=
  { b with queue := b.queue.extendMain jobs, supplied := b.supplied ++ jobs }

/-- The main queue is thrown away. -/
def discard (b : Books) : Books :=
  { b with queue := b.queue.clearMain, discarded := b.discarded ++ b.queue.main }

/-- A job comes into the priority queue. -/
def request (job : Job) (b : Books) : Books :=
  { b with queue := b.queue.pushPriority job, requested := b.requested ++ [job] }

/-- What a device is doing changes. -/
def setState (slot : Nat) (state : SlotState) (b : Books) : Books :=
  { b with slots := b.slots.modify slot fun d => { d with state } }

/-- A device is asked what the backend offers. -/
def ask (slot : Nat) (b : Books) : Books :=
  { b.setState slot .discovering with orders := b.orders ++ [.discover slot] }

/-- A device starts a job. -/
def begin (slot : Nat) (job : Job) (context : ExecutionContext) (b : Books) : Books :=
  { b with
    slots := b.slots.modify slot fun d => { d with state := .busy, currentJob := some job.sequence }
    orders := b.orders ++ [.execute slot job context] }

/-- A device ends a job, well or not. -/
def finish (slot : Nat) (success : Bool) (b : Books) : Books :=
  { b with
    slots := b.slots.modify slot fun d =>
      { d with state := .idle, currentJob := none, jobsDone := d.jobsDone + 1 }
    jobsDone := if success then b.jobsDone + 1 else b.jobsDone
    jobsFailed := if success then b.jobsFailed else b.jobsFailed + 1 }

/-- A job leaves the queues: the oldest one of the priority queue, or else the oldest one of the main
queue. -/
inductive Takes : Books → Job → Books → Prop where
  | priority {b : Books} {job : Job} {rest : List Job} (h : b.queue.priority = job :: rest) :
      Takes b job { b with queue := { b.queue with priority := rest } }
  | main {b : Books} {job : Job} {rest : List Job} (hp : b.queue.priority = [])
      (h : b.queue.main = job :: rest) : Takes b job { b with queue := { b.queue with main := rest } }

/-- Only the main queue is worked on: jobs come in, or all of them are thrown away, any number of times. -/
inductive Refills : Books → Books → Prop where
  | refl (b : Books) : Refills b b
  | supply {b c : Books} (jobs : List Job) (h : Refills b c) : Refills b (c.supply jobs)
  | discard {b c : Books} (h : Refills b c) : Refills b c.discard

theorem Refills.trans {b c d : Books} (hbc : Refills b c) (hcd : Refills c d) : Refills b d := by
  induction hcd with
  | refl => exact hbc
  | supply jobs _ ih => exact ih.supply jobs
  | discard _ ih => exact ih.discard

theorem Refills.priority {b c : Books} (h : Refills b c) : c.queue.priority = b.queue.priority := by
  induction h with
  | refl => rfl
  | supply jobs _ ih => exact ih
  | discard _ ih => exact ih

theorem Refills.slots {b c : Books} (h : Refills b c) : c.slots = b.slots := by
  induction h with
  | refl => rfl
  | supply jobs _ ih => exact ih
  | discard _ ih => exact ih

theorem Refills.orders {b c : Books} (h : Refills b c) : c.orders = b.orders := by
  induction h with
  | refl => rfl
  | supply jobs _ ih => exact ih
  | discard _ ih => exact ih

theorem Refills.discarded {b c : Books} (h : Refills b c) : b.discarded <+: c.discarded := by
  induction h with
  | refl => exact List.prefix_refl _
  | supply jobs _ ih => exact ih
  | discard _ ih => exact ih.trans (List.prefix_append _ _)

/-- No order is given when a job leaves the queues. -/
theorem Takes.orders {b c : Books} {job : Job} (h : Takes b job c) : c.orders = b.orders := by
  cases h <;> rfl

end Books

namespace Scheduler

open Books Compile

variable {γ : Type}

@[simp] theorem books_note (e : LogEvent) (s : Scheduler γ) : (s.note e).books = s.books := rfl

@[simp] theorem books_rebuildContext (s : Scheduler γ) : s.rebuildContext.books = s.books := rfl

@[simp] theorem books_setState (slot : Nat) (state : SlotState) (s : Scheduler γ) :
    (s.setState slot state).books = s.books.setState slot state := rfl

@[simp] theorem books_beginDraining (s : Scheduler γ) : s.beginDraining.books = s.books := by
  unfold beginDraining
  split <;> rfl

@[simp] theorem books_takeCompiled (t : Template) (c : Compiled) (s : Scheduler γ) :
    (s.takeCompiled t c).books = s.books.supply c.jobs := rfl

@[simp] theorem books_discardPending (s : Scheduler γ) : s.discardPending.books = s.books.discard := by
  unfold discardPending
  dsimp only
  split <;> rfl

@[simp] theorem books_reloadWildcards (s : Scheduler γ) : s.reloadWildcards.books = s.books := by
  unfold reloadWildcards
  split <;> rfl

@[simp] theorem books_startJob (slot : Nat) (job : Job) (s : Scheduler γ) :
    (s.startJob slot job).books = s.books.begin slot job s.context := rfl

@[simp] theorem books_requestDiscovery (slot : Nat) (s : Scheduler γ) :
    (s.requestDiscovery slot).books = s.books.ask slot := rfl

@[simp] theorem books_settle (s : Scheduler γ) : s.settle.books = s.books := by
  unfold settle
  split <;> rfl

@[simp] theorem books_learnCapabilities (slot : Nat) (r : Except String Capabilities) (s : Scheduler γ) :
    (s.learnCapabilities slot r).2.books = s.books := by
  cases r <;> rfl

@[simp] theorem books_syncTriggers (caps : Capabilities) (s : Scheduler γ) :
    (s.syncTriggers caps).books = s.books := by
  unfold syncTriggers
  split
  · rfl
  · split
    · rfl
    · dsimp only
      split <;> rfl

@[simp] theorem books_finishJob (slot : Nat) (report : JobReport) (s : Scheduler γ) :
    (s.finishJob slot report).books = s.books.finish slot report.success := rfl

/-- A run starts with empty books. -/
theorem books_start (settings : RunSettings) (devices : List String) (files : FileSystem) (g : γ) :
    (start settings devices files g).books = ⟨devices.map fun id => { id }, {}, [], [], [], [], 0, 0⟩ := by
  unfold start
  dsimp only
  split <;> rfl

/-- A request for an enlargement is queued, unless there is no such image. -/
theorem books_enqueueUpscale (image : Path) (s : Scheduler γ) :
    (s.enqueueUpscale image).books = s.books ∨
      ∃ job, (s.enqueueUpscale image).books = s.books.request job := by
  unfold enqueueUpscale
  dsimp only
  split
  · exact .inl rfl
  · exact .inr ⟨_, rfl⟩

variable [Generator γ]

/-- A pass over a template brings in the jobs that it was compiled to. -/
theorem books_compilePass (t : Template) (s : Scheduler γ) :
    ∃ jobs, (s.compilePass t).books = s.books.supply jobs := by
  unfold compilePass
  dsimp only
  split <;> exact ⟨_, rfl⟩

theorem refills_compilePass (t : Template) (s : Scheduler γ) :
    Refills s.books (s.compilePass t).books := by
  obtain ⟨jobs, h⟩ := books_compilePass t s
  rw [h]
  exact (Refills.refl _).supply jobs

/-- A pass refills the main queue of every run that keeps the same books. -/
theorem refills_compilePass_of {s t : Scheduler γ} (same : t.books = s.books) (template : Template) :
    Refills s.books (t.compilePass template).books :=
  same ▸ refills_compilePass template t

/-- A template that is read throws out the jobs that wait, and brings in its own. -/
theorem books_loadTemplate_ok {s : Scheduler γ} {path : Path} {t : Template}
    (read : Template.load s.files path = .ok t) :
    ∃ jobs, (s.loadTemplate path).books = s.books.discard.supply jobs := by
  have emptied : s.reloadWildcards.discardPending.books = s.books.discard := by simp
  unfold loadTemplate
  rw [read]
  rw [← emptied]
  dsimp only
  split <;> exact books_compilePass t _

/-- One that cannot be read leaves the books as they are. -/
theorem books_loadTemplate_error {s : Scheduler γ} {path : Path} {e : StorageError}
    (unread : Template.load s.files path = .error e) : (s.loadTemplate path).books = s.books := by
  unfold loadTemplate
  rw [unread]
  simp

theorem refills_loadTemplate (path : Path) (s : Scheduler γ) :
    Refills s.books (s.loadTemplate path).books := by
  cases read : Template.load s.files path with
  | error e =>
    rw [books_loadTemplate_error read]
    exact .refl _
  | ok t =>
    obtain ⟨jobs, same⟩ := books_loadTemplate_ok read
    rw [same]
    exact ((Refills.refl _).discard).supply jobs

/-- A template refills the main queue of every run that keeps the same books. -/
theorem refills_loadTemplate_of {s t : Scheduler γ} (same : t.books = s.books) (path : Path) :
    Refills s.books (t.loadTemplate path).books :=
  same ▸ refills_loadTemplate path t

theorem refills_advanceRun (s : Scheduler γ) : Refills s.books s.advanceRun.books := by
  have drained : Refills s.books s.beginDraining.books := by simpa using Refills.refl s.books
  unfold advanceRun
  cases s.template with
  | none => exact drained
  | some template =>
    dsimp only
    split
    · exact drained
    · split
      · exact refills_compilePass template s
      · rcases s.sweep.advance with ⟨sweep, outcome⟩
        cases outcome <;> dsimp only
        case highres => exact refills_compilePass_of (by rfl) template
        case model => exact refills_compilePass_of (by rfl) template
        case complete =>
          split
          · exact refills_compilePass_of (by rfl) template
          · split
            · exact refills_loadTemplate_of (by rfl) _
            · exact drained

theorem refills_loadPending (s : Scheduler γ) : Refills s.books s.loadPending.books := by
  unfold loadPending
  split
  · rename_i path _
    exact refills_loadTemplate_of (t := { s with pendingTemplate := none }) rfl path
  · exact Refills.refl _

/-- The end of the bootstrap frees the device that was asked, and may bring in a template. -/
theorem refills_finishBootstrap (slot : Nat) (r : Except String Capabilities) (s : Scheduler γ) :
    Refills (s.books.setState slot .idle) (s.finishBootstrap slot r).books := by
  unfold finishBootstrap
  dsimp only
  refine Refills.trans ?_ (refills_loadPending _)
  have same : ((s.learnCapabilities slot r).2.syncTriggers (s.learnCapabilities slot r).1).books =
      s.books := by simp
  rw [← same]
  exact Refills.refl _

/-- Reacting to a message gives no order by itself. -/
theorem orders_handle (c : Command) (s : Scheduler γ) : (s.handle c).orders = s.orders := by
  cases c with
  | deviceReady _ | deviceFailed _ _ | jobFinished _ _ | pause | resume | shutdown => rfl
  | capabilitiesDiscovered slot result => exact (refills_finishBootstrap slot result s).orders
  | loadTemplate path =>
    dsimp only [handle]
    split
    · exact (refills_loadTemplate path s).orders
    · rfl
  | enqueueUpscale image =>
    obtain same | ⟨job, added⟩ := books_enqueueUpscale image s
    · exact congrArg Books.orders same
    · exact congrArg Books.orders added

/-- The run with its main queue filled up, if it was empty. -/
def refilled (s : Scheduler γ) : Scheduler γ :=
  if s.queue.main.isEmpty then s.advanceRun else s

theorem refills_refilled (s : Scheduler γ) : Refills s.books s.refilled.books := by
  unfold refilled
  split
  · exact refills_advanceRun s
  · exact .refl _

/-- How a job is handed out, or none. -/
inductive Hands (s : Scheduler γ) : Option Job → Scheduler γ → Prop where
  /-- Requests go first, whatever the run is doing. -/
  | priority {job : Job} {rest : List Job} (first : s.queue.priority = job :: rest) :
      Hands s (some job) { s with queue := { s.queue with priority := rest } }
  /-- The main queue is out of reach. -/
  | held (empty : s.queue.priority = []) (held : s.paused = true ∨ s.phase ≠ .dispatching) : Hands s none s
  | main {job : Job} {rest : List Job} (empty : s.queue.priority = []) (free : s.paused = false)
      (dispatching : s.phase = .dispatching) (first : s.refilled.queue.main = job :: rest) :
      Hands s (some job) { s.refilled with queue := { s.refilled.queue with main := rest } }
  /-- There is no more work to do. -/
  | dry (empty : s.queue.priority = []) (free : s.paused = false) (dispatching : s.phase = .dispatching)
      (spent : s.refilled.queue.main = []) : Hands s none s.refilled

theorem nextJob_hands (s : Scheduler γ) : s.Hands s.nextJob.1 s.nextJob.2 := by
  unfold nextJob WorkQueue.popPriority?
  cases first : s.queue.priority with
  | cons job rest => exact .priority first
  | nil =>
    dsimp only
    split
    · rename_i held
      exact .held first (by simpa using held)
    · rename_i free
      obtain ⟨free, dispatching⟩ : s.paused = false ∧ s.phase = .dispatching := by simpa using free
      have priority : s.refilled.queue.priority = [] := (refills_refilled s).priority.trans first
      have filled : (if s.queue.main.isEmpty then s.advanceRun else s) = s.refilled := rfl
      rw [filled]
      unfold WorkQueue.pop?
      rw [priority]
      cases waiting : s.refilled.queue.main with
      | nil => exact .dry first free dispatching waiting
      | cons job rest =>
        simpa only [priority] using Hands.main first free dispatching waiting

/-- When a job is handed out, the main queue may have been filled up before, and the job leaves its queue. -/
theorem Hands.takes {s t : Scheduler γ} {job : Job} (h : s.Hands (some job) t) :
    ∃ b, Refills s.books b ∧ Takes b job t.books := by
  cases h with
  | priority first => exact ⟨s.books, .refl _, .priority first⟩
  | main empty _ _ first =>
    have refills := refills_refilled s
    exact ⟨_, refills, .main (refills.priority.trans empty) first⟩

/-- When no job is handed out, the main queue may still have been worked on. -/
theorem Hands.refills {s t : Scheduler γ} (h : s.Hands none t) : Refills s.books t.books := by
  cases h with
  | held => exact .refl _
  | dry => exact refills_refilled s

/-- No order is given when a job is handed out. -/
theorem Hands.orders {s t : Scheduler γ} {job : Option Job} (h : s.Hands job t) : t.orders = s.orders := by
  cases job with
  | none => exact h.refills.orders
  | some job =>
    obtain ⟨b, refills, takes⟩ := h.takes
    exact takes.orders.trans refills.orders

/-- Jobs that were thrown out stay so. -/
theorem Hands.discarded {s t : Scheduler γ} {job : Option Job} (h : s.Hands job t) :
    s.discarded <+: t.discarded := by
  cases h with
  | priority | held => exact List.prefix_refl _
  | main | dry => exact (refills_refilled s).discarded

/-- Giving out one job after another keeps what each of them keeps. -/
theorem startJobs_invariant {P : Scheduler γ → Prop}
    (next : ∀ {s t : Scheduler γ} {job : Option Job}, P s → s.Hands job t → P t)
    (start : ∀ {s : Scheduler γ} (slot : Nat) (job : Job), P s → P (s.startJob slot job))
    (bound : Nat) {s : Scheduler γ} (h : P s) : P (s.startJobs bound) := by
  induction bound generalizing s with
  | zero => exact h
  | succ bound ih =>
    have hands := nextJob_hands s
    unfold startJobs
    split
    · exact h
    · rename_i slot _
      split
      · rename_i t none
        rw [none] at hands
        exact next h hands
      · rename_i job t some
        rw [some] at hands
        exact ih (start slot job (next h hands))

end Scheduler

/-! ## Runs -/

namespace Live

variable {γ : Type} {I : Scheduler γ → List Call → Prop} {l : Live γ}

/-- What holds next to the calls that new orders open holds of the run that follows them. -/
theorem follow_keeps {s : Scheduler γ}
    (h : ∃ given, s.orders = l.scheduler.orders ++ given ∧ I s (l.pending ++ given.map Order.call)) :
    I (l.follow s).scheduler (l.follow s).pending := by
  obtain ⟨given, orders, holds⟩ := h
  unfold follow
  rw [orders, List.drop_left]
  exact holds

variable [Generator γ]

/-- What holds of a run and its open calls, and is kept by every message that can arrive, by giving out work
and by a change of the files, holds all along the run. -/
theorem run_keeps
    (handled : ∀ {s pending} (c : Command), I s pending → (∀ call ∈ c.answered?, call ∈ pending) →
      I (s.handle c) (c.closes pending))
    (dispatched : ∀ {s pending}, I s pending →
      ∃ given, s.dispatch.orders = s.orders ++ given ∧ I s.dispatch (pending ++ given.map Order.call))
    (touched : ∀ {s pending} (files : FileSystem), I s pending → I { s with files } pending)
    (h : I l.scheduler l.pending) (events : List Event) :
    I (l.run events).scheduler (l.run events).pending := by
  refine run_invariant (P := fun l => I l.scheduler l.pending) (fun l e h => ?_) h events
  cases e with
  | touch files => exact touched files h
  | tick => exact follow_keeps (dispatched h)
  | message c =>
    dsimp only [step]
    split
    · rename_i accepted
      have given := dispatched (handled c h accepted)
      rw [Scheduler.orders_handle] at given
      exact follow_keeps (l := { l with pending := c.closes l.pending }) given
    · exact h

end Live

end RenderFarm
