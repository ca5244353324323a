import RenderFarm.Proofs.Schedule.Timing

/-!
No device is kept waiting. Giving out work goes on until every device is busy, the run is held, or there are no
more jobs to come; so whenever a run is not held, an idle device means that the main queue has no more to give.
-/

namespace RenderFarm

namespace Scheduler

variable {γ : Type} [Generator γ] {s t u : Scheduler γ} {reads : FileSystem}

/-- Nothing more comes from the main queue, as long as the run is left to itself. -/
def Spent (s : Scheduler γ) : Prop :=
  ∀ n, s.upcoming n = []

/-- Unless it is held, a run that has been told what the backend offers has no idle device, or it has no more
jobs for it. -/
def Fed (s : Scheduler γ) : Prop :=
  s.bootstrap = .done → s.paused = false → s.idleSlot? = none ∨ s.Spent

/-- When no job is handed out, the run is held or has no more jobs. -/
theorem Hands.spent (h : s.Hands none t) : t.paused = true ∨ t.Spent := by
  cases h with
  | held _ held => exact held.imp_right fun ended n => upcoming_nil (fun now => absurd now ended) n
  | dry _ _ dispatching spent => exact .inr (upcoming_spent dispatching spent)

/-- Giving out jobs ends because no device is idle any more, or because there is none to hand out. -/
theorem startJobs_fed {bound : Nat} (enough : s.slots.countP (fun d => d.state == .idle) ≤ bound) :
    (s.startJobs bound).idleSlot? = none ∨ (s.startJobs bound).paused = true ∨ (s.startJobs bound).Spent := by
  have gives := s.givesOut bound
  generalize s.starts bound = given, s.startJobs bound = u at gives ⊢
  induction gives with
  | bound s =>
    refine .inl (List.findIdx?_eq_none_iff.mpr ?_)
    simpa [List.countP_eq_zero] using enough
  | busy none => exact .inl none
  | dry _ hands => exact .inr hands.spent
  | @one _ slot s t _ job _ idle _ hands _ ih =>
    refine ih ?_
    obtain ⟨d, here, state⟩ := idleSlot?_some (hands.idleSlot?.trans idle)
    have one := countP_modify (fun d : Slot => d.state == .idle)
      (fun d => { d with state := .busy, currentJob := some job.sequence }) here
    have slots : (t.startJob slot job).slots =
        t.slots.modify slot fun d => { d with state := .busy, currentJob := some job.sequence } := rfl
    rw [hands.slots] at one slots
    rw [slots]
    simp [state] at one
    omega

omit [Generator γ] in
theorem slots_settle (s : Scheduler γ) : s.settle.slots = s.slots := by
  unfold settle
  split <;> rfl

/-- The end of a run brings nothing more. -/
theorem Spent.settle (h : s.Spent) : s.settle.Spent := by
  unfold Scheduler.settle
  split
  · exact upcoming_nil fun now => nomatch now
  · exact h

/-- After work is given out, no device waits for it without a reason. -/
theorem dispatch_fed (s : Scheduler γ) : s.dispatch.Fed := by
  intro done free
  by_cases down : s.phase = .shuttingDown
  · exact .inr (upcoming_nil fun now => by simp [dispatch, down] at now)
  have ready : s.bootstrap = .done := by
    cases waits : s.bootstrap with
    | done => rfl
    | requested => simp [dispatch, down, waits] at done
    | pending =>
      rw [dispatch, if_neg down, waits] at done
      cases idle : s.idleSlot? with
      | none => simp [idle, waits] at done
      | some slot => simp [idle, requestDiscovery] at done
  rw [dispatch, if_neg down, ready] at free ⊢
  have held : (s.startJobs s.slots.length).paused = false :=
    (congrArg Basis.paused (basis_settle _)).symm.trans free
  rw [idleSlot?, slots_settle]
  rcases startJobs_fed (s := s) List.countP_le_length with busy | paused | spent
  · exact .inl busy
  · exact absurd paused (by simp [held])
  · exact .inr spent.settle

/-- Changed files that answer as before change nothing. -/
theorem Fed.touch (h : s.Fed) {files : FileSystem} (known : s.Known reads)
    (known' : { s with files }.Known reads) : { s with files }.Fed := by
  have same : s.supply = { s with files }.supply := rfl
  intro done free
  refine (h done free).imp_right fun spent n => ?_
  rw [← upcoming_congr same known known', spent]

end Scheduler

namespace Live

open Scheduler

variable {γ : Type} [Generator γ] {settings : RunSettings} {caps : Capabilities} {reads files : FileSystem} {g : γ}
  {devices : List String} {events : List Event}

/-- All along a steady run that is not held, an idle device means that there are no more jobs in the main
queue, and none to come. -/
theorem run_fed (steady : Steady settings caps reads (start settings devices files g) events) :
    ((start settings devices files g).run events).scheduler.Fed := by
  induction events using List.reverseRecOn with
  | nil => exact fun done => absurd done (start_fresh settings devices files g).bootstrap
  | append_singleton before e ih =>
    have fed := ih steady.of_append
    have onward := run_onward steady.of_append
    have onward' := run_onward steady
    rw [run_append] at onward' ⊢
    generalize (start settings devices files g).run before = l at fed onward onward' ⊢
    cases e with
    | touch files =>
      cases onward with
      | before fresh => exact fun done => absurd done fresh.bootstrap
      | after done _ _ _ known =>
        cases onward' with
        | before fresh => exact absurd done fresh.bootstrap
        | after _ _ _ _ known' => exact fed.touch known known'
    | tick => exact dispatch_fed l.scheduler
    | message c =>
      rw [run_cons, run_nil, step]
      split
      · exact dispatch_fed (l.scheduler.handle c)
      · exact fed

end Live

end RenderFarm
