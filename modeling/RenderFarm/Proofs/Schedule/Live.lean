import RenderFarm.Schedule.Run

/-!
A run together with the calls to its devices that are still open. Devices answer each call at most once and
in any order, the user may wish for anything at any moment, and files may change under the run. After every
message the scheduler reacts and gives out work, which opens new calls.
-/

namespace RenderFarm

/-- A call to a device that it has not answered yet. -/
inductive Call where
  /-- Start up, and tell when it can be used. -/
  | start (slot : Nat)
  | discover (slot : Nat)
  | execute (slot : Nat)
deriving DecidableEq

namespace Call

/-- The device that is called. -/
def slot : Call → Nat
  | .start slot => slot
  | .discover slot => slot
  | .execute slot => slot

/-- What the device is doing as long as the call is open. -/
def state : Call → SlotState
  | .start _ => .starting
  | .discover _ => .discovering
  | .execute _ => .busy

end Call

/-- The call that an order opens. -/
def Order.call : Order → Call
  | .discover slot => .discover slot
  | .execute slot _ _ => .execute slot

/-- The job of an order to execute one. -/
def Order.job? : Order → Option Job
  | .discover _ => none
  | .execute _ job _ => some job

/-- The call that a message answers; a wish of the user answers none. -/
def Command.answered? : Command → Option Call
  | .deviceReady slot => some (.start slot)
  | .deviceFailed slot _ => some (.start slot)
  | .capabilitiesDiscovered slot _ => some (.discover slot)
  | .jobFinished slot _ => some (.execute slot)
  | .loadTemplate _ => none
  | .enqueueUpscale _ => none
  | .pause => none
  | .resume => none
  | .shutdown => none

/-- The open calls without the one that a message answers. -/
def Command.closes (c : Command) (pending : List Call) : List Call :=
  match c.answered? with
  | none => pending
  | some call => pending.erase call

/-- What can happen to a run. -/
inductive Event where
  | message (c : Command)
  /-- Some time passes without a message. -/
  | tick
  /-- Somebody changes the files. -/
  | touch (files : FileSystem)

/-- A run with its open calls. -/
structure Live (γ : Type) where
  scheduler : Scheduler γ
  pending : List Call

namespace Live

variable {γ : Type}

/-- A run at its start, when every device has been told to start up. -/
def start (settings : RunSettings) (devices : List String) (files : FileSystem) (g : γ) : Live γ where
  scheduler := .start settings devices files g
  pending := (List.range devices.length).map .start

/-- The run with another scheduler; the orders that this one has given since then are open calls. -/
def follow (l : Live γ) (s : Scheduler γ) : Live γ where
  scheduler := s
  pending := l.pending ++ (s.orders.drop l.scheduler.orders.length).map Order.call

/-- Whether a message can arrive: one that answers a call needs that call to be open. -/
def Accepts (l : Live γ) (c : Command) : Prop :=
  ∀ call ∈ c.answered?, call ∈ l.pending

instance (l : Live γ) (c : Command) : Decidable (l.Accepts c) :=
  inferInstanceAs (Decidable (∀ call ∈ c.answered?, call ∈ l.pending))

variable [Generator γ]

/-- The run after the scheduler has reacted to a message and given out work. -/
def react (l : Live γ) (c : Command) : Live γ :=
  { l with pending := c.closes l.pending }.follow (l.scheduler.handle c).dispatch

/-- What an event does. An answer to a call that is not open cannot happen. -/
def step (l : Live γ) : Event → Live γ
  | .message c => if l.Accepts c then l.react c else l
  | .tick => l.follow l.scheduler.dispatch
  | .touch files => { l with scheduler := { l.scheduler with files } }

/-- The run after some events. -/
def run (l : Live γ) (events : List Event) : Live γ :=
  events.foldl step l

@[simp] theorem run_nil (l : Live γ) : l.run [] = l := rfl

@[simp] theorem run_cons (l : Live γ) (e : Event) (events : List Event) :
    l.run (e :: events) = (l.step e).run events := rfl

/-- The scheduler of a run after some events. -/
def reached (settings : RunSettings) (devices : List String) (files : FileSystem) (g : γ)
    (events : List Event) : Scheduler γ :=
  ((start settings devices files g).run events).scheduler

theorem run_append (l : Live γ) (before after : List Event) :
    l.run (before ++ after) = (l.run before).run after :=
  List.foldl_append

/-- What every event keeps holds all along a run. -/
theorem run_invariant {P : Live γ → Prop} (kept : ∀ l e, P l → P (l.step e)) {l : Live γ} (h : P l)
    (events : List Event) : P (l.run events) := by
  induction events generalizing l with
  | nil => exact h
  | cons e events ih => exact ih (kept l e h)

/-- What every message, every giving out of work and every change of the files keeps holds of the scheduler
all along a run. -/
theorem run_scheduler_invariant {P : Scheduler γ → Prop}
    (handled : ∀ {s} (c : Command), P s → P (s.handle c)) (dispatched : ∀ {s}, P s → P s.dispatch)
    (touched : ∀ {s} (files : FileSystem), P s → P { s with files }) {l : Live γ} (h : P l.scheduler)
    (events : List Event) : P (l.run events).scheduler := by
  refine run_invariant (P := fun l => P l.scheduler) (fun l e h => ?_) h events
  cases e with
  | touch files => exact touched files h
  | tick => exact dispatched h
  | message c =>
    dsimp only [step]
    split
    · exact dispatched (handled c h)
    · exact h

end Live

end RenderFarm
