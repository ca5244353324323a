import Mathlib.Algebra.Order.Floor.Div
import RenderFarm.Device.Readiness

/-!
What a wait for a process does, moment by moment. A wait that takes down what it is told goes on as it would without.
With probes that take no time it goes through fixed moments, an interval apart and the last one at the deadline; at
each of them it looks at whether it was called off, at whether the process has ended, and probes, in this order.
-/

namespace RenderFarm

/-- Something that a wait was told at a moment. -/
inductive Told where
  /-- Whether the process has ended, and with which exit code. -/
  | process (moment : Nat) (exit : Option (Option Int))
  /-- Whether a probe was answered. -/
  | probe (moment : Nat) (answers : Bool)
deriving DecidableEq, Repr

/-- What a wait is told at a moment at which it goes on. -/
def Told.nothing (moment : Nat) : List Told :=
  [.process moment none, .probe moment false]

namespace Patience

variable {w : Patience} {k m : Nat}

/-- The moments of the probes: those an interval apart that are before the deadline, and the deadline. -/
def moments (w : Patience) : List Nat :=
  (List.range (w.timeout ⌈/⌉ w.interval)).map (· * w.interval) ++ [w.timeout]

theorem length_moments (w : Patience) : w.moments.length = w.timeout ⌈/⌉ w.interval + 1 := by
  rw [moments, List.length_append, List.length_map, List.length_range, List.length_singleton]

theorem before_timeout_iff (positive : 0 < w.interval) : k < w.timeout ⌈/⌉ w.interval ↔ k * w.interval < w.timeout := by
  rw [← not_le, ceilDiv_le_iff_le_mul positive, not_le, Nat.mul_comm]

/-- Up to the last one, a moment comes that many intervals after the start, or at the deadline if that is sooner. -/
theorem getElem?_moments (positive : 0 < w.interval) (further : k < w.moments.length) :
    w.moments[k]? = some (min (k * w.interval) w.timeout) := by
  rw [moments]
  rcases Nat.lt_or_ge k (w.timeout ⌈/⌉ w.interval) with before | last
  · rw [List.getElem?_append_left (by simpa using before), List.getElem?_map, List.getElem?_range before,
      min_eq_left ((before_timeout_iff positive).mp before).le]
    rfl
  · rw [length_moments] at further
    obtain rfl : k = w.timeout ⌈/⌉ w.interval := by omega
    rw [min_eq_right (not_lt.mp fun late => lt_irrefl _ ((before_timeout_iff positive).mpr late)),
      List.getElem?_append_right (by simp)]
    simp

/-- A moment is the deadline, and the last one, or the next one comes after an interval, or at the deadline if that
is sooner. -/
theorem moments_step (positive : 0 < w.interval) (due : w.moments[k]? = some m) :
    m = w.timeout ∧ w.moments.length = k + 1 ∨
      m < w.timeout ∧ w.moments[k + 1]? = some (min (m + w.interval) w.timeout) := by
  have further := (List.getElem?_eq_some_iff.mp due).1
  rw [getElem?_moments positive further, Option.some_inj] at due
  subst due
  rcases Nat.lt_or_ge (k + 1) w.moments.length with more | last
  · have sooner := (before_timeout_iff positive).mp (Nat.lt_of_succ_lt_succ (length_moments w ▸ more))
    rw [getElem?_moments positive more, min_eq_left sooner.le, Nat.succ_mul]
    exact .inr ⟨sooner, rfl⟩
  · rw [length_moments] at last further ⊢
    have late := mt (before_timeout_iff positive).mpr (Nat.not_lt_of_le (Nat.le_of_succ_le_succ last))
    exact .inl ⟨min_eq_right (not_lt.mp late), Nat.le_antisymm last further⟩

end Patience

/-- The end of a wait without what was taken down. -/
def Waited.plain {σ : Type} (run : Waited (σ × List Told)) : Waited σ :=
  { run with state := run.state.1 }

namespace Startup

variable {σ : Type}

/-- A wait that takes down what it is told. -/
def recorded (p : Startup σ) : Startup (σ × List Told) where
  exited? now s :=
    let (exit, s') := p.exited? now s.1
    (exit, s', s.2 ++ [.process now exit])
  probe now s :=
    let (answers, took, s') := p.probe now s.1
    (answers, took, s', s.2 ++ [.probe now answers])
  cancelledAt? := p.cancelledAt?

theorem cancelledAt?_recorded (p : Startup σ) : p.recorded.cancelledAt? = p.cancelledAt? := rfl

theorem exited?_recorded (p : Startup σ) (now : Nat) (s : σ) (told : List Told) :
    p.recorded.exited? now (s, told) =
      ((p.exited? now s).1, (p.exited? now s).2, told ++ [.process now (p.exited? now s).1]) := rfl

theorem probe_recorded (p : Startup σ) (now : Nat) (s : σ) (told : List Told) :
    p.recorded.probe now (s, told) =
      ((p.probe now s).1, (p.probe now s).2.1, (p.probe now s).2.2, told ++ [.probe now (p.probe now s).1]) := rfl

variable {p : Startup σ} {w : Patience} {n m : Nat} {s : σ} {told : List Told}

/-- Whether a wait was not called off by a moment. -/
def Open (p : Startup σ) (m : Nat) : Prop :=
  ∀ t ∈ p.cancelledAt?, m < t

/-- How a wait ends that went on at a number of moments: with what it is told at last, with which outcome, and when. -/
inductive Ending (p : Startup σ) (w : Patience) : Nat → List Told → Readiness → Nat → Prop
  /-- It was called off by the next moment. Nothing more is asked then. -/
  | cancelled {n m t : Nat} (due : w.moments[n]? = some m) (called : p.cancelledAt? = some t) (inTime : t ≤ m) :
    Ending p w n [] .cancelled t
  /-- At the next moment the process has ended. It is not probed then. -/
  | exited {n m : Nat} {code : Option Int} (due : w.moments[n]? = some m) (isOpen : p.Open m) :
    Ending p w n [.process m (some code)] (.exited code) m
  /-- At the next moment the process answers. -/
  | ready {n m : Nat} (due : w.moments[n]? = some m) (isOpen : p.Open m) :
    Ending p w n [.process m none, .probe m true] .ready m
  /-- There is no next moment. -/
  | timedOut : Ending p w w.moments.length [] .timedOut w.timeout

/-- What a wait does from the moment with a number on: it goes on at some moments, none of them after it was called off,
and ends. -/
def Ran (p : Startup σ) (w : Patience) (k : Nat) (told : List Told) (run : Waited (σ × List Told)) : Prop :=
  ∃ n last, Ending p w n last run.outcome run.time ∧ k ≤ n ∧ (∀ m ∈ (w.moments.take n).drop k, p.Open m) ∧
    run.state.2 = told ++ ((w.moments.take n).drop k).flatMap Told.nothing ++ last

variable {k : Nat} {run : Waited (σ × List Told)}

theorem Ran.of_ending {last : List Told} (ending : Ending p w k last run.outcome run.time)
    (recorded : run.state.2 = told ++ last) : Ran p w k told run := by
  have past : (w.moments.take k).drop k = [] := List.drop_eq_nil_of_le (List.length_take_le ..)
  refine ⟨k, last, ending, le_rfl, ?_, ?_⟩
  · rw [past]
    exact List.forall_mem_nil _
  · rw [past, recorded, List.flatMap_nil, List.append_nil]

theorem Ran.step (due : w.moments[k]? = some m) (isOpen : p.Open m)
    (rest : Ran p w (k + 1) (told ++ Told.nothing m) run) : Ran p w k told run := by
  obtain ⟨n, last, ending, further, isOpen', recorded⟩ := rest
  have now : (w.moments.take n).drop k = m :: (w.moments.take n).drop (k + 1) := by
    have due : (w.moments.take n)[k]? = some m := by rwa [List.getElem?_take_of_lt further]
    obtain ⟨some, rfl⟩ := List.getElem?_eq_some_iff.mp due
    exact List.drop_eq_getElem_cons some
  refine ⟨n, last, ending, Nat.le_of_succ_le further, ?_, ?_⟩
  · rw [now]
    exact List.forall_mem_cons.mpr ⟨isOpen, isOpen'⟩
  · rw [now, recorded, List.flatMap_cons]
    simp only [List.append_assoc]

/-! ## One moment -/

variable {interval deadline now t : Nat} {s₁ s₂ : σ} {answers : Bool}

theorem any_le_iff : p.cancelledAt?.any (· ≤ m) ↔ ¬ p.Open m := by
  simp [Open, Option.any_eq_true]

theorem filter_le_eq_some (called : p.cancelledAt?.filter (· ≤ m) = some t) : p.cancelledAt? = some t ∧ t ≤ m := by
  obtain ⟨called, inTime⟩ := Option.filter_eq_some_iff.mp called
  exact ⟨called, of_decide_eq_true inTime⟩

theorem filter_le_eq_none_iff : p.cancelledAt?.filter (· ≤ m) = none ↔ p.Open m := by
  simp [Open, Option.filter_eq_none_iff]

/-- A moment at which a wait was not called off and the process runs, with a probe that takes no time. -/
theorem waitFrom_recorded_round (positive : 0 < interval) (isOpen : p.Open now)
    (runs : p.exited? now s = (none, s₁)) (probed : p.probe now s₁ = (answers, 0, s₂)) :
    p.recorded.waitFrom interval deadline now (s, told) =
      if answers then ⟨.ready, now, s₂, told ++ [.process now none, .probe now true]⟩
      else if deadline ≤ now then ⟨.timedOut, now, s₂, told ++ Told.nothing now⟩
      else
        match p.cancelledAt?.filter (· ≤ min (now + interval) deadline) with
        | some t => ⟨.cancelled, t, s₂, told ++ Told.nothing now⟩
        | none =>
          p.recorded.waitFrom interval deadline (min (now + interval) deadline) (s₂, told ++ Told.nothing now) := by
  have running : ¬ p.cancelledAt?.any (· ≤ now) := fun called => any_le_iff.mp called isOpen
  have quiet : p.cancelledAt?.filter (· < now) = none := by
    simp only [Option.filter_eq_none_iff, decide_eq_true_eq]
    exact fun t mem => (isOpen t mem).not_gt
  have whole : pause interval 0 (deadline - now) = min interval (deadline - now) := by
    rw [pause, if_neg fun none => positive.ne' none.1]
  rw [waitFrom, cancelledAt?_recorded, if_neg running]
  simp only [exited?_recorded, probe_recorded, runs, probed, Nat.add_zero, quiet, whole, List.append_assoc]
  cases answers with
  | true => rfl
  | false =>
    by_cases late : deadline ≤ now
    · rw [if_pos late, if_pos late]
      rfl
    · have clipped : now + min interval (deadline - now) = min (now + interval) deadline := by omega
      rw [if_neg late, if_neg late, clipped]
      rfl

/-- From a moment on by which a wait was not called off before. Every further moment is one fewer to come. -/
theorem ran (positive : 0 < w.interval) (instant : ∀ t s, (p.probe t s).2.1 = 0) (due : w.moments[k]? = some m)
    (before : ∀ t ∈ p.cancelledAt?, m ≤ t) (s : σ) (told : List Told) :
    Ran p w k told (p.recorded.waitFrom w.interval w.timeout m (s, told)) := by
  have further := (List.getElem?_eq_some_iff.mp due).1
  induction gap : w.moments.length - k generalizing k m s told with
  | zero => omega
  | succ gap ih =>
    by_cases isOpen : p.Open m
    swap
    · obtain ⟨t, called, late⟩ : ∃ t, p.cancelledAt? = some t ∧ t ≤ m := by simpa [Open] using isOpen
      obtain rfl : m = t := Nat.le_antisymm (before t called) late
      rw [waitFrom, cancelledAt?_recorded, if_pos (any_le_iff.mpr isOpen)]
      exact .of_ending (.cancelled due called le_rfl) (List.append_nil _).symm
    rcases process : p.exited? m s with ⟨_ | code, s₁⟩
    · rcases probed : p.probe m s₁ with ⟨answers, took, s₂⟩
      obtain rfl : took = 0 := by simpa [probed] using instant m s₁
      rw [waitFrom_recorded_round positive isOpen process probed]
      cases answers with
      | true => exact .of_ending (.ready due isOpen) rfl
      | false =>
        refine .step due isOpen ?_
        rw [if_neg Bool.false_ne_true]
        obtain ⟨rfl, last⟩ | ⟨sooner, due'⟩ := Patience.moments_step positive due
        · rw [if_pos le_rfl, ← last]
          exact .of_ending .timedOut (List.append_nil _).symm
        · rw [if_neg (not_le.mpr sooner)]
          split
          · rename_i t called
            obtain ⟨called, inTime⟩ := filter_le_eq_some called
            exact .of_ending (.cancelled due' called inTime) (List.append_nil _).symm
          · rename_i quiet
            have isOpen' := filter_le_eq_none_iff.mp quiet
            exact ih due' (fun t mem => (isOpen' t mem).le) s₂ _ (List.getElem?_eq_some_iff.mp due').1 (by omega)
    · rw [waitFrom, cancelledAt?_recorded, if_neg fun called => any_le_iff.mp called isOpen]
      simp only [exited?_recorded, process]
      exact .of_ending (.exited due isOpen) rfl

/-! ## The whole wait -/

variable {last : List Told} {outcome : Readiness} {time : Nat}

/-- A process that runs and never answers. -/
def silent : Startup Unit where
  exited? _ _ := (none, ())
  probe _ _ := (false, 0, ())

end Startup

end RenderFarm
