import RenderFarm.Proofs.Schedule.Timing

/-!
What a run shows of itself. A pass over the run shows its status anew, after every message and whenever some
time has passed, until the run ends. What is shown is always the status of the run as it goes on regardless of
any end; and a run that is to end once it has nothing to do shows itself idle only once.
-/

namespace RenderFarm

/-- A run that is watched, with the calls to its devices that are still open. -/
structure Watch (γ : Type) where
  run : Run γ
  pending : List Call

namespace Scheduler

variable {γ : Type} [Generator γ]

/-- The settings of a run never change. -/
theorem settings_handle (c : Command) (s : Scheduler γ) : (s.handle c).settings = s.settings := by
  have loaded : ∀ (path : Path) (t : Scheduler γ), (t.loadTemplate path).settings = t.settings :=
    fun path t => congrArg Basis.settings (basis_loadTemplate path t)
  cases c with
  | deviceReady _ | deviceFailed _ _ | jobFinished _ _ | pause | resume | shutdown => rfl
  | enqueueUpscale image =>
    dsimp only [handle, enqueueUpscale]
    split <;> rfl
  | loadTemplate path =>
    dsimp only [handle]
    split
    · exact loaded path s
    · rfl
  | capabilitiesDiscovered slot result =>
    have learnt : (s.learnCapabilities slot result).2.settings = s.settings := by cases result <;> rfl
    have synced : ∀ (caps : Capabilities) (t : Scheduler γ), (t.syncTriggers caps).settings = t.settings := by
      intro caps t
      unfold syncTriggers
      split
      · rfl
      · split
        · rfl
        · dsimp only
          split <;> rfl
    dsimp only [handle, finishBootstrap, loadPending]
    split
    · rw [loaded]
      exact (synced _ _).trans learnt
    · exact (synced _ _).trans learnt

theorem settings_dispatch (s : Scheduler γ) : s.dispatch.settings = s.settings :=
  congrArg Basis.settings (basis_dispatch s)

end Scheduler

namespace Run

variable {γ : Type} [Generator γ]

/-- The scheduler after it has reacted to a message, if there is one. -/
def reacted (r : Run γ) (c : Option Command) : Scheduler γ :=
  c.elim r.scheduler r.scheduler.handle

/-- What a pass over a run that goes on comes to. Either the run ends without a device and shows nothing new. Or
it shows the status after work was given out; then it ends, or it goes on and is not idle if that were its
end. -/
theorem proceed_cases (r : Run γ) (c : Option Command) :
    ((r.proceed c).ended.isSome ∧ (r.proceed c).status = r.status) ∨
    ((r.proceed c).ended.isSome ∧ (r.proceed c).status = (r.reacted c).dispatch.status) ∨
    (r.proceed c = { r with scheduler := (r.reacted c).dispatch, status := (r.reacted c).dispatch.status } ∧
      ((r.reacted c).dispatch.settings.exitWhenIdle = true → (r.reacted c).dispatch.phase ≠ .idle)) := by
  have reacted : r.proceed c = { r with scheduler := r.reacted c }.proceed none := by cases c <;> rfl
  rw [reacted]
  unfold proceed
  dsimp only
  split
  · exact .inl ⟨rfl, rfl⟩
  · split
    · exact .inr (.inl ⟨rfl, rfl⟩)
    · split
      · exact .inr (.inl ⟨rfl, rfl⟩)
      · rename_i goesOn
        refine .inr (.inr ⟨rfl, fun exits idle => goesOn ?_⟩)
        simp [exits, idle]

end Run

namespace Watch

variable {γ : Type}

/-- The run apart from what it shows. -/
def live (w : Watch γ) : Live γ :=
  ⟨w.run.scheduler, w.pending⟩

variable [Generator γ]

/-- The run after a pass; the orders given in it are open calls. -/
def pass (w : Watch γ) (c : Option Command) : Watch γ where
  run := w.run.pass c
  pending := c.elim w.pending (·.closes w.pending) ++
    ((w.run.pass c).scheduler.orders.drop w.run.scheduler.orders.length).map Order.call

/-- A run at its start, after a first pass, when every device has been told to start up. -/
def start (settings : RunSettings) (devices : List String) (files : FileSystem) (g : γ) : Watch γ :=
  ({ run := { scheduler := .start settings devices files g }
     pending := (List.range devices.length).map .start } : Watch γ).pass none

/-- What an event does. An answer to a call that is not open cannot happen. -/
def step (w : Watch γ) : Event → Watch γ
  | .message c => if w.live.Accepts c then w.pass (some c) else w
  | .tick => w.pass none
  | .touch files => { w with run := { w.run with scheduler := { w.run.scheduler with files } } }

/-- The run after some events. -/
def after (w : Watch γ) (events : List Event) : Watch γ :=
  events.foldl step w

/-- What a run shows after some events. -/
def shown (settings : RunSettings) (devices : List String) (files : FileSystem) (g : γ) (events : List Event) :
    RunStatus :=
  ((start settings devices files g).after events).run.status

end Watch

namespace Live

variable {γ : Type} [Generator γ] {settings : RunSettings} {devices : List String} {files : FileSystem} {g : γ}
  {events : List Event}

/-- A run after its first pass and some events, as it goes on regardless of any end. -/
def onward (settings : RunSettings) (devices : List String) (files : FileSystem) (g : γ) (events : List Event) :
    Live γ :=
  (start settings devices files g).run (.tick :: events)

theorem onward_concat (e : Event) :
    onward settings devices files g (events ++ [e]) = (onward settings devices files g events).step e := by
  unfold onward
  rw [← List.cons_append, run_append, run_cons, run_nil]

theorem settings_onward (events : List Event) :
    (onward settings devices files g events).scheduler.settings = settings := by
  refine run_scheduler_invariant (P := fun s => s.settings = settings)
    (fun c same => (Scheduler.settings_handle c _).trans same)
    (fun same => (Scheduler.settings_dispatch _).trans same) (fun _ same => same) ?_ _
  change (Scheduler.start settings devices files g).settings = settings
  unfold Scheduler.start
  dsimp only
  split <;> rfl

/-- Before some events are over, the run was not idle, if that were its end. -/
def NotYetIdle (settings : RunSettings) (devices : List String) (files : FileSystem) (g : γ) (events : List Event) :
    Prop :=
  settings.exitWhenIdle = true → ∀ before, before <+: events → before ≠ events →
    (onward settings devices files g before).scheduler.phase ≠ .idle

/-- A status that is shown: the one from the start, or that of the run at some time. -/
def Shows (settings : RunSettings) (devices : List String) (files : FileSystem) (g : γ) (events : List Event)
    (status : RunStatus) : Prop :=
  status = {} ∨ ∃ before, before <+: events ∧ NotYetIdle settings devices files g before ∧
    status = (onward settings devices files g before).scheduler.status

theorem Shows.append {status : RunStatus} (h : Shows settings devices files g events status)
    (later : List Event) : Shows settings devices files g (events ++ later) status := by
  refine h.imp_right ?_
  rintro ⟨before, inside, rest⟩
  exact ⟨before, inside.trans (List.prefix_append _ _), rest⟩

end Live

namespace Watch

open Live (onward Shows NotYetIdle)

variable {γ : Type} [Generator γ] {settings : RunSettings} {devices : List String} {files : FileSystem} {g : γ}
  {events : List Event}

/-- How a watched run is related to the run that goes on regardless. -/
inductive Follows (settings : RunSettings) (devices : List String) (files : FileSystem) (g : γ)
    (events : List Event) (w : Watch γ) : Prop where
  | going (going : w.run.ended = none) (same : w.live = onward settings devices files g events)
      (shown : w.run.status = (onward settings devices files g events).scheduler.status)
      (awake : settings.exitWhenIdle = true → ∀ before, before <+: events →
        (onward settings devices files g before).scheduler.phase ≠ .idle)
  | ended (ended : w.run.ended.isSome) (shows : Shows settings devices files g events w.run.status)

/-- What a pass does to a run that has not ended. Either the run ends and shows nothing new, or it shows the
status of the run that goes on; then it ends, or it goes on itself and is not idle if that were its end. -/
theorem pass_cases {w : Watch γ} (going : w.run.ended = none) {c : Option Command} {e : Event}
    (stepped : w.live.step e = { w.live with pending := c.elim w.pending (·.closes w.pending) }.follow
      (w.run.reacted c).dispatch) :
    ((w.pass c).run.ended.isSome ∧ (w.pass c).run.status = w.run.status) ∨
    ((w.pass c).run.ended.isSome ∧ (w.pass c).run.status = (w.live.step e).scheduler.status) ∨
    ((w.pass c).run.ended = none ∧ (w.pass c).live = w.live.step e ∧
      (w.pass c).run.status = (w.live.step e).scheduler.status ∧
      ((w.live.step e).scheduler.settings.exitWhenIdle = true → (w.live.step e).scheduler.phase ≠ .idle)) := by
  have goes : (w.pass c).run = w.run.proceed c := by simp [pass, Run.pass, going]
  have reached : (w.live.step e).scheduler = (w.run.reacted c).dispatch := by rw [stepped]; rfl
  rw [reached]
  obtain ⟨ended, same⟩ | ⟨ended, shown⟩ | ⟨on, awake⟩ := w.run.proceed_cases c
  · exact .inl ⟨goes ▸ ended, (congrArg Run.status goes).trans same⟩
  · exact .inr (.inl ⟨goes ▸ ended, (congrArg Run.status goes).trans shown⟩)
  · refine .inr (.inr ⟨?_, ?_, ?_, awake⟩)
    · exact (congrArg Run.ended (goes.trans on)).trans going
    · have scheduler : (w.run.pass c).scheduler = (w.run.reacted c).dispatch :=
        congrArg Run.scheduler (goes.trans on)
      rw [stepped]
      simp only [live, pass, Live.follow, scheduler]
    · exact congrArg Run.status (goes.trans on)

/-- A pass relates a run that has not ended to the run after the event. -/
theorem follows_pass {w : Watch γ} (going : w.run.ended = none) {c : Option Command} {e : Event}
    (stepped : w.live.step e = { w.live with pending := c.elim w.pending (·.closes w.pending) }.follow
      (w.run.reacted c).dispatch)
    (onward : w.live.step e = onward settings devices files g events)
    (unchanged : Shows settings devices files g events w.run.status)
    (awake : NotYetIdle settings devices files g events) :
    Follows settings devices files g events (w.pass c) := by
  obtain ⟨ended, same⟩ | ⟨ended, shown⟩ | ⟨going, same, shown, idle⟩ := pass_cases going stepped
  · exact .ended ended (same ▸ unchanged)
  · exact .ended ended (.inr ⟨events, List.prefix_refl _, awake, onward ▸ shown⟩)
  · refine .going going (same.trans onward) (onward ▸ shown) fun exits before inside => ?_
    by_cases whole : before = events
    · rw [whole, ← onward]
      refine idle ?_
      rw [onward, Live.settings_onward]
      exact exits
    · exact awake exits before inside whole

theorem follows_start : Follows settings devices files g [] (start settings devices files g) := by
  refine follows_pass rfl (e := .tick) rfl rfl (.inl rfl) ?_
  exact fun _ before inside strict => absurd (List.prefix_nil.mp inside) strict

/-- A run that has ended shows nothing new. -/
theorem follows_step_of_ended {w : Watch γ} (ended : w.run.ended.isSome)
    (shows : Shows settings devices files g events w.run.status) (e : Event) :
    Follows settings devices files g (events ++ [e]) (w.step e) := by
  have stays : ∀ c, (w.pass c).run = w.run := fun c => by simp [pass, Run.pass, ended]
  cases e with
  | touch files => exact .ended ended (shows.append _)
  | tick => exact .ended (stays none ▸ ended) (stays none ▸ shows.append _)
  | message c =>
    dsimp only [step]
    split
    · exact .ended (stays (some c) ▸ ended) (stays (some c) ▸ shows.append _)
    · exact .ended ended (shows.append _)

theorem follows_step {w : Watch γ} (h : Follows settings devices files g events w) (e : Event) :
    Follows settings devices files g (events ++ [e]) (w.step e) := by
  cases h with
  | ended ended shows => exact follows_step_of_ended ended shows e
  | going going same shown awake =>
    have strict : ∀ before, before <+: events ++ [e] → before ≠ events ++ [e] → before <+: events :=
      fun before inside strict => (List.prefix_concat_iff.mp inside).resolve_left strict
    have unchanged : Shows settings devices files g (events ++ [e]) w.run.status :=
      .append (.inr ⟨events, List.prefix_refl _, fun exits before inside _ => awake exits before inside, shown⟩) _
    have notYet : NotYetIdle settings devices files g (events ++ [e]) :=
      fun exits before inside whole => awake exits before (strict before inside whole)
    have onward : w.live.step e = onward settings devices files g (events ++ [e]) := by
      rw [same, Live.onward_concat]
    -- An event without a pass shows nothing new, and the run is as idle as before.
    have still : ∀ u : Watch γ, u.run.ended = none → u.live = w.live.step e → u.run.status = w.run.status →
        (w.live.step e).scheduler.status = w.live.scheduler.status →
        (w.live.step e).scheduler.phase = w.live.scheduler.phase →
        Follows settings devices files g (events ++ [e]) u := by
      intro u on same' shown' status phase
      refine .going on (same'.trans onward) ?_ fun exits before inside => ?_
      · rw [shown', shown, ← same, ← status, onward]
      · obtain rfl | earlier := List.prefix_concat_iff.mp inside
        · rw [← onward, phase, same]
          exact awake exits events (List.prefix_refl _)
        · exact awake exits before earlier
    cases e with
    | tick => exact follows_pass going rfl onward unchanged notYet
    | message c =>
      dsimp only [step]
      split
      · rename_i accepted
        refine follows_pass going (c := some c) ?_ onward unchanged notYet
        simp only [Live.step, if_pos accepted]
        rfl
      · rename_i refused
        have nothing : w.live.step (.message c) = w.live := if_neg refused
        exact still w going nothing.symm rfl (by rw [nothing]) (by rw [nothing])
    | touch files => exact still _ going rfl rfl rfl rfl

/-- What is shown of a run is its status at some time, or the one from before its first pass. -/
theorem shows_shown (settings : RunSettings) (devices : List String) (files : FileSystem) (g : γ)
    (events : List Event) : Shows settings devices files g events (shown settings devices files g events) := by
  have follows : Follows settings devices files g events ((start settings devices files g).after events) := by
    induction events using List.reverseRecOn with
    | nil => exact follows_start
    | append_singleton before e ih =>
      have last := follows_step ih e
      unfold after at last ⊢
      rwa [List.foldl_concat]
  cases follows with
  | ended _ shows => exact shows
  | going _ _ shown awake =>
    exact .inr ⟨events, List.prefix_refl _, fun exits before inside _ => awake exits before inside, shown⟩

end Watch

end RenderFarm
