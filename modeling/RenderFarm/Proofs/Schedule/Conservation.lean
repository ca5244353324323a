import Mathlib.Algebra.GroupWithZero.Nat
import RenderFarm.Proofs.Schedule.Books

/-!
No job is lost and none is made up: whatever comes into the queues of a run is thrown out of them, waits in
them, is under way on a device, or has ended there. That this holds in every order of events rests on what
the devices were told and have not answered yet: those calls are exactly what the devices are seen doing.
-/

namespace RenderFarm

namespace Call

/-- A call is known by its device and by what the device is doing. -/
theorem eq_of_slot_of_state {c d : Call} (slot : c.slot = d.slot) (state : c.state = d.state) : c = d := by
  cases c <;> cases d <;> simp_all [Call.slot, Call.state]

/-- A device that has nothing to do is not being called. -/
theorem state_ne_idle (c : Call) : c.state ≠ .idle := by
  cases c <;> simp [state]

/-- Neither is one that cannot be used. -/
theorem state_ne_failed (c : Call) : c.state ≠ .failed := by
  cases c <;> simp [state]

end Call

/-! ## Lists with one changed element -/

section Modify

variable {α : Type} {as : List α} {i : Nat} {a : α}

/-- A count changes by what it says of the changed element. -/
theorem countP_modify (p : α → Bool) (f : α → α) (found : as[i]? = some a) :
    (as.modify i f).countP p + (if p a then 1 else 0) = as.countP p + (if p (f a) then 1 else 0) := by
  obtain ⟨inside, rfl⟩ := List.getElem?_eq_some_iff.mp found
  obtain ⟨before, b, after, split, length, changed⟩ := List.exists_of_modify f inside
  have here : as[i] = b := by simp [split, ← length]
  rw [changed, here, split]
  simp only [List.countP_append, List.countP_cons]
  omega

/-- A sum changes by the measure of the changed element. -/
theorem sum_map_modify (m : α → Nat) (f : α → α) (found : as[i]? = some a) :
    ((as.modify i f).map m).sum + m a = (as.map m).sum + m (f a) := by
  obtain ⟨inside, rfl⟩ := List.getElem?_eq_some_iff.mp found
  obtain ⟨before, b, after, split, length, changed⟩ := List.exists_of_modify f inside
  have here : as[i] = b := by simp [split, ← length]
  rw [changed, here, split]
  simp only [List.map_append, List.map_cons, List.sum_append, List.sum_cons]
  omega

/-- What holds of all elements and is kept by the change holds of all elements afterwards. -/
theorem forall_mem_modify {P : α → Prop} {f : α → α} (h : ∀ b ∈ as, P b) (found : as[i]? = some a)
    (kept : P a → P (f a)) : ∀ b ∈ as.modify i f, P b := by
  obtain ⟨inside, rfl⟩ := List.getElem?_eq_some_iff.mp found
  obtain ⟨before, b, after, split, length, changed⟩ := List.exists_of_modify f inside
  have here : as[i] = b := by simp [split, ← length]
  rw [here] at kept
  rw [changed]
  rw [split] at h
  simp only [List.forall_mem_append, List.forall_mem_cons] at h ⊢
  exact ⟨h.1, kept h.2.1, h.2.2⟩

end Modify

/-! ## The open calls -/

/-- The open calls are what the devices are doing, each of them once. -/
def Tally (slots : List Slot) (pending : List Call) : Prop :=
  ∀ call, pending.count call = if (slots[call.slot]?).map Slot.state = some call.state then 1 else 0

namespace Tally

variable {slots : List Slot} {pending : List Call}

/-- A call is open as long as its device is seen working on it. -/
theorem mem_iff (h : Tally slots pending) (call : Call) :
    call ∈ pending ↔ (slots[call.slot]?).map Slot.state = some call.state := by
  rw [← List.count_pos_iff, h call]
  split <;> simp_all

/-- The device of an open call. -/
theorem exists_slot (h : Tally slots pending) {call : Call} (isOpen : call ∈ pending) :
    ∃ d, slots[call.slot]? = some d ∧ d.state = call.state := by
  simpa [Option.map_eq_some_iff] using (h.mem_iff call).mp isOpen

/-- An answer closes its call, when the device does nothing afterwards. -/
theorem answer (h : Tally slots pending) {call : Call} (isOpen : call ∈ pending) {f : Slot → Slot}
    {state : SlotState} (becomes : ∀ d, (f d).state = state) (resting : ∀ other : Call, other.state ≠ state) :
    Tally (slots.modify call.slot f) (pending.erase call) := by
  intro other
  obtain ⟨d, found, before⟩ := h.exists_slot isOpen
  by_cases same : other.slot = call.slot
  · have closed : (pending.erase call).count other = 0 := by
      rw [List.count_erase, h other, same, found]
      by_cases eq : call = other
      · simp [← eq, before]
      · have different : call.state ≠ other.state := fun state => eq (Call.eq_of_slot_of_state same.symm state)
        simp [before, different]
    have after : ((slots.modify call.slot f)[other.slot]?).map Slot.state = some state := by
      simp [same, found, becomes]
    rw [closed, after, if_neg]
    simpa using (resting other).symm
  · have different : call ≠ other := fun eq => same (eq ▸ rfl)
    rw [List.count_erase_of_ne (Ne.symm different), h other, List.getElem?_modify_ne _ _ (Ne.symm same)]

/-- An idle device can be called. -/
theorem call (h : Tally slots pending) {c : Call} {d : Slot} (found : slots[c.slot]? = some d)
    (idle : d.state = .idle) {f : Slot → Slot} (becomes : ∀ d, (f d).state = c.state) :
    Tally (slots.modify c.slot f) (pending ++ [c]) := by
  intro other
  rw [List.count_append, List.count_singleton]
  by_cases same : other.slot = c.slot
  · have quiet : pending.count other = 0 := by
      rw [h other, same, found, if_neg]
      simpa [idle] using other.state_ne_idle.symm
    have after : ((slots.modify c.slot f)[other.slot]?).map Slot.state = some c.state := by
      simp [same, found, becomes]
    rw [quiet, after]
    by_cases eq : c = other
    · simp [eq]
    · have different : c.state ≠ other.state := fun state => eq (Call.eq_of_slot_of_state same.symm state)
      simp [eq, different]
  · have different : c ≠ other := fun eq => same (eq ▸ rfl)
    rw [h other, List.getElem?_modify_ne _ _ (Ne.symm same)]
    simp [different]

end Tally

/-! ## The books -/

namespace Books

/-- The jobs that devices were told to execute, oldest first. -/
def executed (b : Books) : List Job :=
  b.orders.filterMap Order.job?

/-- The number of devices that execute a job. -/
def busy (b : Books) : Nat :=
  b.slots.countP fun d => d.state == .busy

/-- A job that leaves the queues leaves the books as they are otherwise, and the other jobs stay queued. -/
theorem Takes.perm {b c : Books} {job : Job} (h : Takes b job c) :
    ∃ queue : WorkQueue Job, c = { b with queue } ∧
      (job :: (queue.main ++ queue.priority)).Perm (b.queue.main ++ b.queue.priority) := by
  cases h with
  | priority first => exact ⟨_, rfl, first ▸ List.perm_middle.symm⟩
  | main none first => exact ⟨_, rfl, first ▸ List.Perm.refl _⟩

/-- Books that are in order, next to the calls that are open. -/
structure Sound (b : Books) (pending : List Call) : Prop where
  calls : Tally b.slots pending
  current : ∀ d ∈ b.slots, d.currentJob.isSome ↔ d.state = .busy
  jobs : (b.executed ++ (b.discarded ++ (b.queue.main ++ b.queue.priority))).Perm (b.supplied ++ b.requested)
  started : b.executed.length = b.busy + b.jobsDone + b.jobsFailed
  counters : (b.slots.map Slot.jobsDone).sum = b.jobsDone + b.jobsFailed

namespace Sound

variable {b c : Books} {pending : List Call}

theorem supply (h : b.Sound pending) (jobs : List Job) : (b.supply jobs).Sound pending := by
  refine ⟨h.calls, h.current, ?_, h.started, h.counters⟩
  have out : (b.executed ++ (b.discarded ++ (b.queue.main ++ jobs ++ b.queue.priority))).Perm
      (b.executed ++ (b.discarded ++ (b.queue.main ++ b.queue.priority)) ++ jobs) := by
    simp only [List.append_assoc]
    exact ((List.perm_append_comm.append_left _).append_left _).append_left _
  have into : (b.supplied ++ b.requested ++ jobs).Perm (b.supplied ++ jobs ++ b.requested) := by
    simp only [List.append_assoc]
    exact List.perm_append_comm.append_left _
  exact out.trans ((h.jobs.append_right jobs).trans into)

theorem discard (h : b.Sound pending) : b.discard.Sound pending := by
  refine ⟨h.calls, h.current, ?_, h.started, h.counters⟩
  have same : b.executed ++ (b.discarded ++ b.queue.main ++ ([] ++ b.queue.priority)) =
      b.executed ++ (b.discarded ++ (b.queue.main ++ b.queue.priority)) := by
    simp only [List.append_assoc, List.nil_append]
  exact same ▸ h.jobs

theorem request (h : b.Sound pending) (job : Job) : (b.request job).Sound pending := by
  refine ⟨h.calls, h.current, ?_, h.started, h.counters⟩
  have added := h.jobs.append_right [job]
  simp only [List.append_assoc] at added
  exact added

theorem refill (h : b.Sound pending) (refills : Refills b c) : c.Sound pending := by
  induction refills with
  | refl => exact h
  | supply jobs _ ih => exact ih.supply jobs
  | discard _ ih => exact ih.discard

/-- A device that answers a call other than a job is idle, or cannot be used. -/
theorem answer (h : b.Sound pending) {call : Call} (isOpen : call ∈ pending) (rests : call.state ≠ .busy)
    {state : SlotState} (resting : ∀ other : Call, other.state ≠ state) (free : state ≠ .busy) :
    (b.setState call.slot state).Sound (pending.erase call) := by
  obtain ⟨d, found, before⟩ := h.calls.exists_slot isOpen
  have notBusy : d.state ≠ .busy := before ▸ rests
  refine ⟨h.calls.answer isOpen (fun _ => rfl) resting, ?_, h.jobs, ?_, ?_⟩
  · refine forall_mem_modify h.current found fun now => ?_
    simp only [now, notBusy, free]
  · have count := countP_modify (fun d => d.state == .busy) (fun d => { d with state }) found
    have same : (b.setState call.slot state).busy = b.busy := by
      simpa [busy, setState, notBusy, free] using count
    rw [same]
    exact h.started
  · have sum := sum_map_modify Slot.jobsDone (fun d => { d with state }) found
    exact (Nat.add_right_cancel sum).trans h.counters

/-- A device that ends its job is idle, and the job is counted. -/
theorem finish (h : b.Sound pending) {slot : Nat} (isOpen : .execute slot ∈ pending) (success : Bool) :
    (b.finish slot success).Sound (pending.erase (.execute slot)) := by
  obtain ⟨d, found, wasBusy⟩ : ∃ d, b.slots[slot]? = some d ∧ d.state = .busy :=
    h.calls.exists_slot isOpen
  refine ⟨h.calls.answer isOpen (fun _ => rfl) Call.state_ne_idle, ?_, h.jobs, ?_, ?_⟩
  · exact forall_mem_modify h.current found fun _ => by simp
  · have count := countP_modify (fun d => d.state == .busy)
      (fun d => { d with state := .idle, currentJob := none, jobsDone := d.jobsDone + 1 }) found
    have freed : (b.finish slot success).busy + 1 = b.busy := by
      simpa [busy, Books.finish, wasBusy] using count
    have started : (b.finish slot success).executed.length = b.busy + b.jobsDone + b.jobsFailed := h.started
    rw [started, ← freed]
    cases success <;> simp only [Books.finish, if_true, Bool.false_eq_true, if_false] <;> omega
  · have sum := sum_map_modify Slot.jobsDone
      (fun d => { d with state := .idle, currentJob := none, jobsDone := d.jobsDone + 1 }) found
    have counters := h.counters
    dsimp only at sum
    cases success <;> simp only [Books.finish, if_true, Bool.false_eq_true, if_false] <;> omega

/-- An idle device can be asked what the backend offers. -/
theorem ask (h : b.Sound pending) {slot : Nat} {d : Slot} (found : b.slots[slot]? = some d)
    (idle : d.state = .idle) : (b.ask slot).Sound (pending ++ [.discover slot]) := by
  have same : (b.ask slot).executed = b.executed := by
    simp [Books.ask, executed, Order.job?]
  refine ⟨h.calls.call (c := .discover slot) found idle fun _ => rfl, ?_, ?_, ?_, ?_⟩
  · exact forall_mem_modify h.current found fun now => by simp [now, idle]
  · rw [same]
    exact h.jobs
  · have count := countP_modify (fun d => d.state == .busy) (fun d => { d with state := .discovering }) found
    have unchanged : (b.ask slot).busy = b.busy := by
      simpa [busy, Books.ask, setState, idle] using count
    rw [same, unchanged]
    exact h.started
  · have sum := sum_map_modify Slot.jobsDone (fun d => { d with state := .discovering }) found
    exact (Nat.add_right_cancel sum).trans h.counters

/-- An idle device can be given a job that leaves the queues. -/
theorem take (h : b.Sound pending) {job : Job} (takes : Takes b job c) {slot : Nat} {d : Slot}
    (found : b.slots[slot]? = some d) (idle : d.state = .idle) (context : ExecutionContext) :
    (c.begin slot job context).Sound (pending ++ [.execute slot]) := by
  obtain ⟨queue, rfl, moved⟩ := takes.perm
  have one : (({ b with queue } : Books).begin slot job context).executed = b.executed ++ [job] := by
    simp [Books.begin, executed, Order.job?]
  refine ⟨h.calls.call (c := .execute slot) found idle fun _ => rfl, ?_, ?_, ?_, ?_⟩
  · exact forall_mem_modify h.current found fun _ => by simp
  · have out : (b.executed ++ [job] ++ (b.discarded ++ (queue.main ++ queue.priority))).Perm
        (b.executed ++ (b.discarded ++ job :: (queue.main ++ queue.priority))) := by
      rw [List.append_assoc, List.singleton_append]
      exact List.perm_middle.symm.append_left _
    rw [one]
    exact (out.trans ((moved.append_left _).append_left _)).trans h.jobs
  · have count := countP_modify (fun d => d.state == .busy)
      (fun d => { d with state := .busy, currentJob := some job.sequence }) found
    have added : (({ b with queue } : Books).begin slot job context).busy = b.busy + 1 := by
      simpa [busy, Books.begin, idle] using count
    have started := h.started
    rw [one, added]
    simp only [List.length_append, List.length_singleton, Books.begin]
    omega
  · have sum := sum_map_modify Slot.jobsDone
      (fun d => { d with state := .busy, currentJob := some job.sequence }) found
    exact (Nat.add_right_cancel sum).trans h.counters

end Sound

end Books

/-! ## Giving out work -/

namespace Scheduler

open Books

variable {γ : Type}

/-- The first idle device is one of the devices, and idle. -/
theorem idleSlot?_some {s : Scheduler γ} {slot : Nat} (h : s.idleSlot? = some slot) :
    ∃ d, s.slots[slot]? = some d ∧ d.state = .idle := by
  obtain ⟨inside, idle, _⟩ := List.findIdx?_eq_some_iff_getElem.mp h
  exact ⟨s.slots[slot], List.getElem?_eq_getElem inside, by simpa using idle⟩

/-- Work was given out: some orders are new, and the books are in order with the calls that they open. -/
def Gives (s t : Scheduler γ) (pending : List Call) : Prop :=
  ∃ given, t.orders = s.orders ++ given ∧ t.books.Sound (pending ++ given.map Order.call)

variable {s t : Scheduler γ} {pending : List Call}

/-- The books stay in order when no order is given. -/
theorem Gives.none (h : t.books.Sound pending) (orders : t.orders = s.orders) : s.Gives t pending :=
  ⟨[], by simpa using orders, by simpa using h⟩

/-- The books stay in order when one order is given. -/
theorem Gives.one {order : Order} (orders : t.orders = s.orders ++ [order])
    (h : t.books.Sound (pending ++ [order.call])) : s.Gives t pending :=
  ⟨[order], orders, h⟩

/-- Orders can be given one after another. -/
theorem Gives.cons {u : Scheduler γ} {order : Order} (orders : t.orders = s.orders ++ [order])
    (h : t.Gives u (pending ++ [order.call])) : s.Gives u pending := by
  obtain ⟨given, more, sound⟩ := h
  refine ⟨order :: given, ?_, ?_⟩
  · rw [more, orders, List.append_assoc, List.singleton_append]
  · simpa using sound

variable [Generator γ]

theorem startJobs_gives (bound : Nat) (h : s.books.Sound pending) : s.Gives (s.startJobs bound) pending := by
  induction bound generalizing s pending with
  | zero => exact .none h rfl
  | succ bound ih =>
    have hands := nextJob_hands s
    unfold startJobs
    split
    · exact .none h rfl
    · rename_i slot free
      obtain ⟨d, found, idle⟩ := idleSlot?_some free
      split
      · rename_i t none
        rw [none] at hands
        -- The queues may have been refilled even though no job was found.
        exact .none (h.refill hands.refills) hands.refills.orders
      · rename_i job t some
        rw [some] at hands
        obtain ⟨b, refills, takes⟩ := hands.takes
        have sound : (t.startJob slot job).books.Sound (pending ++ [.execute slot]) := by
          rw [books_startJob]
          exact (h.refill refills).take takes (refills.slots ▸ found) idle t.context
        have orders : (t.startJob slot job).orders = s.orders ++ [.execute slot job t.context] :=
          congrArg (· ++ [_]) hands.orders
        exact .cons orders (ih sound)

theorem dispatch_gives (h : s.books.Sound pending) : s.Gives s.dispatch pending := by
  unfold dispatch
  split
  · exact .none h rfl
  · split
    · obtain ⟨given, orders, sound⟩ := startJobs_gives s.slots.length h
      refine ⟨given, ?_, ?_⟩
      · exact (congrArg Books.orders (books_settle _)).trans orders
      · rw [books_settle]
        exact sound
    · exact .none h rfl
    · split
      · rename_i slot free
        obtain ⟨d, found, idle⟩ := idleSlot?_some free
        exact .one rfl (h.ask found idle)
      · exact .none h rfl

/-! ## Messages -/

/-- A message keeps the books in order once the call that it answers is closed. -/
theorem handle_sound (c : Command) (h : s.books.Sound pending)
    (accepted : ∀ call ∈ c.answered?, call ∈ pending) : (s.handle c).books.Sound (c.closes pending) := by
  cases c with
  | pause | resume | shutdown => exact h
  | loadTemplate path =>
    dsimp only [handle]
    split
    · exact h.refill (refills_loadTemplate path s)
    · exact h
  | enqueueUpscale image =>
    obtain same | ⟨job, added⟩ := books_enqueueUpscale image s
    · exact same ▸ h
    · exact added ▸ h.request job
  | deviceReady slot =>
    have isOpen : .start slot ∈ pending := accepted _ rfl
    exact h.answer isOpen (by simp [Call.state]) Call.state_ne_idle (by decide)
  | deviceFailed slot error =>
    have isOpen : .start slot ∈ pending := accepted _ rfl
    exact h.answer isOpen (by simp [Call.state]) Call.state_ne_failed (by decide)
  | capabilitiesDiscovered slot result =>
    have isOpen : .discover slot ∈ pending := accepted _ rfl
    have freed := h.answer isOpen (by simp [Call.state]) Call.state_ne_idle (by decide)
    exact freed.refill (refills_finishBootstrap slot result s)
  | jobFinished slot report =>
    have isOpen : .execute slot ∈ pending := accepted _ rfl
    exact h.finish isOpen report.success

end Scheduler

/-! ## Runs -/

namespace Live

variable {γ : Type}

/-- The devices of a run at its start are exactly those that were told to start up. -/
theorem start_tally (devices : List String) :
    Tally (devices.map fun id => { id }) ((List.range devices.length).map .start) := by
  intro call
  have once : ((List.range devices.length).map Call.start).Nodup :=
    List.Pairwise.map _ (fun _ _ different same => different (Call.start.inj same)) List.nodup_range
  have told : call ∈ (List.range devices.length).map Call.start ↔
      ((devices.map fun id => ({ id } : Slot))[call.slot]?).map Slot.state = some call.state := by
    cases call with
    | start slot => by_cases inside : slot < devices.length <;> simp [Call.slot, Call.state, inside]
    | discover slot | execute slot => simp [Call.slot, Call.state]
  simp only [once.count, told]

theorem start_sound (settings : RunSettings) (devices : List String) (files : FileSystem) (g : γ) :
    (Scheduler.start settings devices files g).books.Sound ((List.range devices.length).map .start) := by
  rw [Scheduler.books_start]
  have nobody : (devices.map fun id => ({ id } : Slot)).countP (fun d => d.state == .busy) = 0 := by
    simp
  have nothing : ((devices.map fun id => ({ id } : Slot)).map Slot.jobsDone).sum = 0 := by
    simp [Function.comp_def, List.map_const']
  exact ⟨start_tally devices, by simp, List.Perm.nil, nobody.symm, nothing⟩

/-- A run in which no job is lost and none is made up. -/
structure Conserves (l : Live γ) : Prop where
  /-- The jobs that came into the queues are those that were thrown out, wait, are under way or have ended. -/
  total : l.scheduler.supplied.length + l.scheduler.requested.length =
    l.scheduler.discarded.length + l.scheduler.queue.main.length + l.scheduler.queue.priority.length +
      l.scheduler.slots.countP (fun d => d.state == .busy) + l.scheduler.jobsDone + l.scheduler.jobsFailed
  /-- Each job that came in was either given to a device, once, or thrown out, or it waits. -/
  once : (l.scheduler.orders.filterMap Order.job? ++
    (l.scheduler.discarded ++ (l.scheduler.queue.main ++ l.scheduler.queue.priority))).Perm
      (l.scheduler.supplied ++ l.scheduler.requested)
  /-- The busy devices are those with an open call to execute a job, and they have just one. -/
  outstanding : ∀ slot, l.pending.count (.execute slot) =
    if (l.scheduler.slots[slot]?).map Slot.state = some .busy then 1 else 0
  /-- They are also those that name a job. -/
  current : ∀ d ∈ l.scheduler.slots, d.currentJob.isSome ↔ d.state = .busy
  /-- The devices have ended as many jobs as the run counts. -/
  counters : (l.scheduler.slots.map Slot.jobsDone).sum = l.scheduler.jobsDone + l.scheduler.jobsFailed

variable [Generator γ]

theorem run_sound (settings : RunSettings) (devices : List String) (files : FileSystem) (g : γ)
    (events : List Event) :
    ((start settings devices files g).run events).scheduler.books.Sound
      ((start settings devices files g).run events).pending :=
  run_keeps (I := fun s pending => s.books.Sound pending) Scheduler.handle_sound Scheduler.dispatch_gives
    (fun _ h => h) (start_sound settings devices files g) events

/-- No job is lost or made up, for any devices and files and in every order of events. -/
theorem run_conserves (settings : RunSettings) (devices : List String) (files : FileSystem) (g : γ)
    (events : List Event) : ((start settings devices files g).run events).Conserves := by
  have sound := run_sound settings devices files g events
  refine ⟨?_, sound.jobs, fun slot => sound.calls (.execute slot), sound.current, sound.counters⟩
  -- Counting the jobs gives the total, with those under way counted by the busy devices.
  have lengths := sound.jobs.length_eq
  have started := sound.started
  simp only [List.length_append, Scheduler.books, Books.busy] at lengths started
  omega

end Live

end RenderFarm
