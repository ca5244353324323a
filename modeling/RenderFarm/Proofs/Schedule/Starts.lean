import RenderFarm.Proofs.Schedule.Conservation
import RenderFarm.Proofs.Schedule.Bootstrap

/-!
The jobs that a run starts, one after another, each with the state that the run was in when the job was looked
for. Giving out work passes through many such states, so what is said of a job at its start is said here.
-/

namespace RenderFarm

/-- A job that goes to a device. -/
structure Start (γ : Type) where
  /-- The run when the job was looked for. -/
  moment : Scheduler γ
  slot : Nat
  job : Job

/-- The device and the job of an order to execute one. -/
def Order.start? : Order → Option (Nat × Job)
  | .discover _ => none
  | .execute slot job _ => some (slot, job)

namespace Start

variable {γ : Type} [Generator γ]

/-- Whether the job comes from the main queue: the priority queue is as long as it was before. -/
def fromMain (st : Start γ) : Bool :=
  st.moment.nextJob.2.queue.priority.length == st.moment.queue.priority.length

/-- The jobs among some starts that come from the main queue. -/
def mains (starts : List (Start γ)) : List Job :=
  (starts.filter fromMain).map job

@[simp] theorem mains_nil : mains ([] : List (Start γ)) = [] := rfl

theorem mains_cons (st : Start γ) (starts : List (Start γ)) :
    mains (st :: starts) = (if st.fromMain then [st.job] else []) ++ mains starts := by
  cases main : st.fromMain <;> simp [mains, main]

theorem mains_append (before after : List (Start γ)) : mains (before ++ after) = mains before ++ mains after := by
  simp [mains]

end Start

namespace Scheduler

open Books

variable {γ : Type} [Generator γ]

/-- The jobs that are started when at most a number of them are given out. -/
def starts : Nat → Scheduler γ → List (Start γ)
  | 0, _ => []
  | bound + 1, s =>
    match s.idleSlot? with
    | none => []
    | some slot =>
      match s.nextJob with
      | (none, _) => []
      | (some job, t) => ⟨s, slot, job⟩ :: starts bound (t.startJob slot job)

/-- The jobs that are started when work is given out. -/
def given (s : Scheduler γ) : List (Start γ) :=
  if s.phase ≠ .shuttingDown ∧ s.bootstrap = .done then s.starts s.slots.length else []

variable {s t : Scheduler γ}

/-- Handing out a job changes no device. -/
theorem Hands.slots {job : Option Job} (h : s.Hands job t) : t.slots = s.slots := by
  cases h with
  | priority | held => rfl
  | main | dry => exact (refills_refilled s).slots

theorem Hands.idleSlot? {job : Option Job} (h : s.Hands job t) : t.idleSlot? = s.idleSlot? := by
  unfold Scheduler.idleSlot?
  rw [h.slots]

/-- How jobs are given out, at most a number of them: one after another, until no device is idle or no job is
handed out. -/
inductive GivesOut : Nat → Scheduler γ → List (Start γ) → Scheduler γ → Prop where
  | bound (s : Scheduler γ) : GivesOut 0 s [] s
  | busy {n : Nat} {s : Scheduler γ} (busy : s.idleSlot? = none) : GivesOut (n + 1) s [] s
  | dry {n slot : Nat} {s t : Scheduler γ} (idle : s.idleSlot? = some slot) (hands : s.Hands none t) :
      GivesOut (n + 1) s [] t
  | one {n slot : Nat} {s t u : Scheduler γ} {job : Job} {later : List (Start γ)} (idle : s.idleSlot? = some slot)
      (found : s.nextJob = (some job, t)) (hands : s.Hands (some job) t)
      (more : GivesOut n (t.startJob slot job) later u) : GivesOut (n + 1) s (⟨s, slot, job⟩ :: later) u

theorem givesOut (bound : Nat) (s : Scheduler γ) : GivesOut bound s (s.starts bound) (s.startJobs bound) := by
  induction bound generalizing s with
  | zero => exact .bound s
  | succ bound ih =>
    have hands := nextJob_hands s
    unfold startJobs starts
    cases idle : s.idleSlot? with
    | none => exact .busy idle
    | some slot =>
      dsimp only
      cases found : s.nextJob with
      | mk job t =>
        rw [found] at hands
        cases job with
        | none => exact .dry idle hands
        | some job => exact .one idle found hands (ih _)

/-- What holds before work is given out, and is kept by each job that goes to an idle device, holds whenever a
job is looked for and afterwards. -/
theorem starts_keep {P : Scheduler γ → Prop}
    (next : ∀ {s t : Scheduler γ} {job : Option Job}, P s → s.Hands job t → P t)
    (start : ∀ {s : Scheduler γ} {slot : Nat} (job : Job), P s → s.idleSlot? = some slot →
      P (s.startJob slot job))
    (bound : Nat) (h : P s) :
    P (s.startJobs bound) ∧ ∀ st ∈ s.starts bound, P st.moment ∧ st.moment.idleSlot? = some st.slot ∧
      st.moment.Hands (some st.job) st.moment.nextJob.2 := by
  have gives := s.givesOut bound
  generalize s.starts bound = given, s.startJobs bound = u at gives ⊢
  induction gives with
  | bound | busy => exact ⟨h, by simp⟩
  | dry _ hands => exact ⟨next h hands, by simp⟩
  | one idle found hands _ ih =>
    obtain ⟨kept, later⟩ := ih (start _ (next h hands) (hands.idleSlot?.trans idle))
    refine ⟨kept, List.forall_mem_cons.mpr ⟨⟨h, idle, ?_⟩, later⟩⟩
    rw [found]
    exact hands

/-- The jobs that are started are those that devices are told to execute. -/
theorem orders_startJobs (bound : Nat) (s : Scheduler γ) :
    (s.startJobs bound).orders.filterMap Order.start? =
      s.orders.filterMap Order.start? ++ (s.starts bound).map fun st => (st.slot, st.job) := by
  have gives := s.givesOut bound
  generalize s.starts bound = given, s.startJobs bound = u at gives ⊢
  induction gives with
  | bound | busy => simp
  | dry _ hands =>
    rw [hands.orders]
    simp
  | @one _ slot s t _ job _ _ _ hands _ ih =>
    have one : (t.startJob slot job).orders = s.orders ++ [.execute slot job t.context] :=
      congrArg (· ++ [_]) hands.orders
    simp [ih, one, Order.start?]

theorem orders_dispatch (s : Scheduler γ) :
    s.dispatch.orders.filterMap Order.start? =
      s.orders.filterMap Order.start? ++ s.given.map fun st => (st.slot, st.job) := by
  unfold dispatch given
  by_cases down : s.phase = .shuttingDown
  · simp [down]
  · rw [if_neg down]
    cases bootstrap : s.bootstrap with
    | done =>
      have settled : (s.startJobs s.slots.length).settle.orders = (s.startJobs s.slots.length).orders :=
        congrArg Books.orders (books_settle _)
      simp [down, settled, orders_startJobs]
    | requested => simp
    | pending =>
      cases s.idleSlot? with
      | none => simp
      | some slot =>
        have question : (s.requestDiscovery slot).orders = s.orders ++ [.discover slot] := rfl
        simp [question, Order.start?]

/-- Work is given out only after the bootstrap and before the shutdown. -/
theorem given_of_mem {st : Start γ} (mem : st ∈ s.given) :
    s.phase ≠ .shuttingDown ∧ s.bootstrap = .done ∧ st ∈ s.starts s.slots.length := by
  unfold given at mem
  split at mem
  · rename_i open'
    exact ⟨open'.1, open'.2, mem⟩
  · cases mem

end Scheduler

namespace Live

open Scheduler

variable {γ : Type} [Generator γ]

/-- The jobs that are started at an event. -/
def given (l : Live γ) : Event → List (Start γ)
  | .message c => if l.Accepts c then (l.scheduler.handle c).given else []
  | .tick => l.scheduler.given
  | .touch _ => []

/-- The jobs that are started at some events, one after another. -/
def starts (l : Live γ) : List Event → List (Start γ)
  | [] => []
  | e :: events => l.given e ++ (l.step e).starts events

/-- The jobs of the main queue that devices get, in order. -/
def mainJobs (l : Live γ) (events : List Event) : List Job :=
  Start.mains (l.starts events)

theorem starts_append (l : Live γ) (before after : List Event) :
    l.starts (before ++ after) = l.starts before ++ (l.run before).starts after := by
  induction before generalizing l with
  | nil => rfl
  | cons e before ih => simp [starts, ih]

/-- One more event hands out what is started at it. -/
theorem mainJobs_concat (l : Live γ) (events : List Event) (e : Event) :
    l.mainJobs (events ++ [e]) = l.mainJobs events ++ Start.mains ((l.run events).given e) := by
  simp [mainJobs, starts_append, starts, Start.mains_append]

theorem orders_step (l : Live γ) (e : Event) :
    (l.step e).scheduler.orders.filterMap Order.start? =
      l.scheduler.orders.filterMap Order.start? ++ (l.given e).map fun st => (st.slot, st.job) := by
  cases e with
  | touch files => simp [step, given]
  | tick => exact orders_dispatch l.scheduler
  | message c =>
    unfold step given
    dsimp only
    split
    · have handled := orders_dispatch (l.scheduler.handle c)
      rw [orders_handle] at handled
      exact handled
    · simp

/-- The starts of a run are all that devices were told to execute. -/
theorem orders_run (l : Live γ) (events : List Event) :
    (l.run events).scheduler.orders.filterMap Order.start? =
      l.scheduler.orders.filterMap Order.start? ++ (l.starts events).map fun st => (st.slot, st.job) := by
  induction events generalizing l with
  | nil => simp [starts]
  | cons e events ih => simp [starts, ih, orders_step]

end Live

end RenderFarm
