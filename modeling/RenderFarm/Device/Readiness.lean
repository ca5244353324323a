/-!
Waiting for a render process to be ready. The process is probed at intervals until it answers, ends, or runs
out of time, or the wait is called off. Before each probe it is asked whether the wait was called off and
whether the process has ended. Times are in milliseconds from the start.
-/

namespace RenderFarm

/-- How the wait for a process ends. -/
inductive Readiness where
  | ready
  /-- The process has ended, with its exit code if it had one. -/
  | exited (code : Option Int)
  | timedOut
  | cancelled
deriving DecidableEq, Repr

/-- What a wait is told, with a state that goes along. -/
structure Startup (σ : Type) where
  /-- At a moment: whether the process has ended, and with which exit code. -/
  exited? : Nat → σ → Option (Option Int) × σ
  /-- At a moment: whether the process answers a probe, and how long it takes to know. -/
  probe : Nat → σ → Bool × Nat × σ
  /-- When the wait is called off. -/
  cancelledAt? : Option Nat := none

/-- How often to probe, and how long. -/
structure Patience where
  interval : Nat := 5000
  timeout : Nat := 300000
deriving Repr

/-- The end of a wait. -/
structure Waited (σ : Type) where
  outcome : Readiness
  /-- The moment of the end. -/
  time : Nat
  state : σ

namespace Startup

variable {σ : Type}

/-- How long to wait before the next probe, at most up to the deadline. Time goes on, so it is not nothing
at all after a probe that took no time. -/
def pause (interval took left : Nat) : Nat :=
  min (if interval = 0 ∧ took = 0 then 1 else interval) left

/-- Probes from a moment on. -/
def waitFrom (p : Startup σ) (interval deadline now : Nat) (s : σ) : Waited σ :=
  if p.cancelledAt?.any (· ≤ now) then ⟨.cancelled, now, s⟩
  else
    match p.exited? now s with
    | (some code, s) => ⟨.exited code, now, s⟩
    | (none, s) =>
      let (answers, took, s) := p.probe now s
      match p.cancelledAt?.filter (· < now + took) with
      | some t => ⟨.cancelled, t, s⟩
      | none =>
        if answers then ⟨.ready, now + took, s⟩
        else if deadline ≤ now + took then ⟨.timedOut, now + took, s⟩
        else
          let next := now + took + pause interval took (deadline - (now + took))
          match p.cancelledAt?.filter (· ≤ next) with
          | some t => ⟨.cancelled, t, s⟩
          | none => p.waitFrom interval deadline next s
termination_by deadline - now
decreasing_by
  simp only [pause]
  split <;> omega

/-- Waits for a process from its start. -/
def wait (p : Startup σ) (patience : Patience) (s : σ) : Waited σ :=
  p.waitFrom patience.interval patience.timeout 0 s

end Startup

end RenderFarm
