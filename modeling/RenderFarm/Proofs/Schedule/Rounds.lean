import RenderFarm.Proofs.Compile.Plain
import RenderFarm.Proofs.Schedule.Progress
import RenderFarm.Proofs.Sweep

/-!
The rounds of a sweep. When nothing is left to chance, every pass over a template makes the same jobs, in the
checkpoints of its pair and with its seeds moved on. So the main queue gives out round after round, each of them
with every pair of checkpoints once.
-/

namespace RenderFarm

open Compile (Compiled Context stamp)

/-- The seed of a round. A negative one, which lets the backend choose, is the same in all rounds. -/
def seedOfRound (base : Int64) (r : Nat) : Int64 :=
  if base < 0 then base else Int64.ofInt (base.toInt + r)

/-- As long as it can be counted, the seed of a round is so many more. -/
theorem toInt_seedOfRound {base : Int64} {r : Nat} (fixed : ¬ base < 0) (counted : base.toInt + r < 2 ^ 63) :
    (seedOfRound base r).toInt = base.toInt + r := by
  have positive : 0 ≤ base.toInt := by simpa [Int64.lt_iff_toInt_lt] using fixed
  rw [seedOfRound, if_neg fixed]
  exact Int64.toInt_ofInt_of_le (by omega) counted

theorem seedForLoop_ofNat (base : Int64) (r : Nat) : seedForLoop base (Int64.ofNat r) = seedOfRound base r := by
  unfold seedForLoop seedOfRound
  rw [Int64.ofInt_add, Int64.ofInt_toInt]
  rfl

namespace Compile.Compiled

/-- The number of passes in a round of the sweep that a pass asks for. -/
def span (c : Compiled) : Nat :=
  Sweep.span c.control.modelSweep c.control.highresSweep

/-- The jobs of a round: those of the pass, once for every pair of checkpoints. -/
def roundJobs (c : Compiled) (r : Nat) : List Job :=
  (Sweep.pairsOf c.control.modelSweep c.control.highresSweep).zipIdx.flatMap fun (pair, k) =>
    c.jobs.map fun job =>
      { pair.dress job with
        seed := seedOfRound job.seed r, loopIndex := UInt32.ofNat (r * c.span + k) }

/-- The sweep in one of its passes. -/
def sweepAt (c : Compiled) (p : Nat) : Sweep :=
  .atPass c.control.modelSweep c.control.highresSweep p

/-- The jobs of a pass of the sweep. -/
def passJobs (c : Compiled) (p : Nat) : List Job :=
  c.jobs.map (stamp (c.sweepAt p).overrides (c.sweepAt p).loops (c.sweepAt p).seedOffset)

variable {c : Compiled}

theorem span_pos (c : Compiled) : 0 < c.span :=
  Sweep.span_pos _ _

theorem sweepAt_zero (c : Compiled) : c.sweepAt 0 = .ofLists c.control.modelSweep c.control.highresSweep :=
  Sweep.atPass_zero _ _

/-- Where the sweep goes on after a pass. -/
theorem advance_sweepAt (c : Compiled) (p : Nat) :
    (¬ c.span ∣ p + 1 ∧ (c.sweepAt p).advance.2 ≠ .complete ∧
        (c.sweepAt p).advance.1.recordLoop = c.sweepAt (p + 1)) ∨
      (c.span ∣ p + 1 ∧ (c.sweepAt p).advance.2 = .complete ∧
        (c.sweepAt p).restart.recordLoop = c.sweepAt (p + 1)) :=
  Sweep.advance_atPass _ _ p

theorem length_passJobs (c : Compiled) (p : Nat) : (c.passJobs p).length = c.jobs.length :=
  List.length_map _

/-- A pass is a part of its round. -/
theorem passJobs_of_round {r k : Nat} (within : k < c.span) (counted : r * c.span + k < 2 ^ 32) :
    c.passJobs (r * c.span + k) =
      c.jobs.map fun job =>
        { (c.sweepAt k).overrides.dress job with
          seed := seedOfRound job.seed r, loopIndex := UInt32.ofNat (r * c.span + k) } := by
  have overrides : (c.sweepAt (r * c.span + k)).overrides = (c.sweepAt k).overrides :=
    Sweep.overrides_atPass _ _ r k
  have offset : (c.sweepAt (r * c.span + k)).seedOffset = Int64.ofNat r := by
    refine (Sweep.seedOffset_atPass counted).trans (congrArg Int64.ofNat ?_)
    change (r * c.span + k) / c.span = r
    rw [Nat.mul_comm, Nat.mul_add_div c.span_pos, Nat.div_eq_of_lt within, Nat.add_zero]
  rw [passJobs, overrides, offset]
  refine List.map_congr_left fun job _ => ?_
  rw [stamp, seedForLoop_ofNat]
  rfl

/-- A round goes through its passes. -/
theorem roundJobs_eq {r : Nat} (counted : (r + 1) * c.span ≤ 2 ^ 32) :
    c.roundJobs r = (List.range c.span).flatMap fun k => c.passJobs (r * c.span + k) := by
  have numbered : (Sweep.pairsOf c.control.modelSweep c.control.highresSweep).zipIdx =
      (List.range c.span).map fun k => ((c.sweepAt k).overrides, k) := by
    rw [Sweep.pairsOf_eq]
    exact List.ext_getElem (by simp [span]) fun k _ _ => by simp [sweepAt]
  rw [roundJobs, numbered, List.flatMap_map]
  refine List.flatMap_congr fun k mem => ?_
  have within : k < c.span := List.mem_range.mp mem
  rw [Nat.succ_mul] at counted
  exact (passJobs_of_round within (by omega)).symm

theorem roundJobs_zero (counted : c.span ≤ 2 ^ 32) :
    c.roundJobs 0 = (List.range c.span).flatMap c.passJobs := by
  rw [roundJobs_eq (by simpa using counted)]
  simp

/-- Rounds go through the passes that they consist of. -/
theorem rounds_eq {rounds : Nat} (counted : rounds * c.span ≤ 2 ^ 32) :
    (List.range rounds).flatMap c.roundJobs = (List.range (rounds * c.span)).flatMap c.passJobs := by
  rw [range_mul, List.flatMap_assoc]
  refine List.flatMap_congr fun r mem => ?_
  have before : (r + 1) * c.span ≤ rounds * c.span := Nat.mul_le_mul_right _ (List.mem_range.mp mem)
  rw [roundJobs_eq (before.trans counted), List.flatMap_map]

/-- A round has every job of the pass for every pair. -/
theorem length_roundJobs (c : Compiled) (r : Nat) :
    (c.roundJobs r).length =
      max c.control.modelSweep.length 1 * max c.control.highresSweep.length 1 * c.jobs.length := by
  simp [roundJobs, List.length_flatMap, Sweep.pairsOf_eq, Sweep.span]

end Compile.Compiled

/-- What the first pass over the template of a run is compiled from. -/
def RunSettings.firstContext (settings : RunSettings) (caps : Capabilities) (reads : FileSystem)
    (template : Template) : Context where
  template := template
  defaults := settings.jobDefaults
  capabilities := caps
  wildcards := (WildcardTable.load reads settings.wildcardDir).toOption.getD {}
  queueDepth := settings.queueDepth
  files := reads

/-- A template that makes the jobs of its first pass in every pass, and that none comes after. -/
structure Sweeping {γ : Type} [Generator γ] (settings : RunSettings) (caps : Capabilities) (reads : FileSystem)
    (g : γ) (template : Template) (first : Compiled) : Prop where
  initial : ∃ path, settings.initialTemplate = some path ∧ Template.load reads path = .ok template
  plain : (settings.firstContext caps reads template).Plain g
  made : (Compile.compile (settings.firstContext caps reads template) g).1 = first
  last : first.control.nextTemplate = none
  jobs : first.jobs ≠ []

namespace Scheduler

variable {γ : Type} [Generator γ] {settings : RunSettings} {caps : Capabilities} {reads : FileSystem} {g : γ}
  {template : Template} {first : Compiled} {s : Scheduler γ}

/-- A run on the template, somewhere in a sweep, with jobs that are still to be handed out. -/
structure WorksOn (_w : Sweeping settings caps reads g template first) (control : RunControl) (sweep : Sweep)
    (count : Nat) (rest : List Job) (s : Scheduler γ) : Prop where
  files : s.files = reads
  supply : s.supply =
    { settings, capabilities := caps, template := some template, control, sweep, lastPassJobs := count
      wildcards := (settings.firstContext caps reads template).wildcards, random := g, main := rest
      dispatching := true }

/-- A run in a pass over the template, by the number of the pass over all rounds. -/
def InPass (w : Sweeping settings caps reads g template first) (p : Nat) (rest : List Job)
    (s : Scheduler γ) : Prop :=
  s.WorksOn w first.control (first.sweepAt p) first.jobs.length rest

variable {w : Sweeping settings caps reads g template first} {control : RunControl} {sweep : Sweep}
  {count p : Nat} {rest : List Job}

/-- Whenever the template is compiled, the jobs are those of the first pass, stamped with the sweep. -/
theorem WorksOn.compile (h : s.WorksOn w control sweep count rest) :
    s.compile template =
      ({ first with jobs := first.jobs.map (stamp sweep.overrides sweep.loops sweep.seedOffset) }, g) := by
  have settings' : s.settings = settings := congrArg Supply.settings h.supply
  have caps' : s.capabilities = caps := congrArg Supply.capabilities h.supply
  have wildcards : s.wildcards = _ := congrArg Supply.wildcards h.supply
  have sweep' : s.sweep = sweep := congrArg Supply.sweep h.supply
  have random : s.random = g := congrArg Supply.random h.supply
  unfold Scheduler.compile
  rw [settings', caps', wildcards, sweep', random, h.files, ← w.made]
  exact (Compile.compile_stamped w.plain rfl rfl _ _ _).1

/-- Compiling the template in a pass makes the jobs of the pass. -/
theorem WorksOn.takes (h : s.WorksOn w control (first.sweepAt p) count []) :
    ((s.drawn template).takeCompiled template (s.compile template).1).InPass w p (first.passJobs p) := by
  refine ⟨h.files, ?_⟩
  rw [supply_takeCompiled, supply_drawn, h.compile, h.supply, List.length_map]
  rfl

/-- A pass in the course of the sweep compiles the template once. -/
theorem WorksOn.compilePass (h : s.WorksOn w control (first.sweepAt p) count []) :
    (s.compilePass template).InPass w p (first.passJobs p) := by
  have sweep : s.sweep = first.sweepAt p := congrArg Supply.sweep h.supply
  have active : s.sweep.isActive = asksForSweep first.control := by
    rw [sweep]
    rfl
  rw [compilePass_eq, active, h.compile, if_neg (by simp), ← congrArg Prod.fst h.compile]
  exact h.takes

/-- The first pass compiles the template a second time, if it asks for a sweep. -/
theorem WorksOn.compileFirst (h : s.WorksOn w control {} count []) :
    (s.compilePass template).InPass w 0 (first.passJobs 0) := by
  by_cases asks : asksForSweep first.control
  · have sweep : s.sweep = {} := congrArg Supply.sweep h.supply
    have swept : ((s.drawn template).startSweep first.control).WorksOn w control (first.sweepAt 0) count [] := by
      refine ⟨h.files, ?_⟩
      rw [supply_startSweep, supply_drawn, h.compile, h.supply, first.sweepAt_zero]
    rw [compilePass_eq, sweep, h.compile, if_pos (by simp [asks, Sweep.isActive])]
    exact swept.takes
  · have none : first.control.modelSweep = [] ∧ first.control.highresSweep = [] := by
      simpa [asksForSweep] using asks
    have ready : s.WorksOn w control (first.sweepAt 0) count [] := by
      refine ⟨h.files, ?_⟩
      rw [h.supply, first.sweepAt_zero, none.1, none.2]
      rfl
    exact ready.compilePass

/-! ## From pass to pass -/

theorem WorksOn.dispatching (h : s.WorksOn w control sweep count rest) : s.phase = .dispatching := by
  simpa [Scheduler.supply] using congrArg Supply.dispatching h.supply

/-- The jobs of a pass are handed out one after the other. -/
theorem WorksOn.upcoming (h : s.WorksOn w control sweep count rest) :
    ∃ t : Scheduler γ, t.WorksOn w control sweep count [] ∧
      ∀ n, s.upcoming (rest.length + n) = rest ++ t.upcoming n := by
  induction rest generalizing s with
  | nil => exact ⟨s, h, fun n => by simp⟩
  | cons job rest ih =>
    have main : s.queue.main = job :: rest := congrArg Supply.main h.supply
    have same : s.refilled = s := by rw [refilled, if_neg (by simp [main])]
    obtain ⟨t, reached, later⟩ := ih (s := { s with queue := { s.queue with main := rest } })
      ⟨h.files, congrArg (fun x : Supply γ => { x with main := rest }) h.supply⟩
    refine ⟨t, reached, fun n => ?_⟩
    rw [List.length_cons, Nat.succ_add, upcoming_cons h.dispatching (by rw [same, main]), same, later]
    rfl

/-- What comes after a pass: the next one, or nothing after the last pass of a round that is not repeated. -/
theorem InPass.advanceRun (h : s.InPass w p []) :
    ((first.control.repeats ∨ ¬ first.span ∣ p + 1) ∧
        s.advanceRun.InPass w (p + 1) (first.passJobs (p + 1))) ∨
      (¬ first.control.repeats ∧ first.span ∣ p + 1 ∧ s.advanceRun = s.beginDraining) := by
  have control : s.control = first.control := congrArg Supply.control h.supply
  have sweep : s.sweep = first.sweepAt p := congrArg Supply.sweep h.supply
  have count : s.lastPassJobs = first.jobs.length := congrArg Supply.lastPassJobs h.supply
  have jobs : s.lastPassJobs ≠ 0 := fun none => w.jobs (List.length_eq_zero_iff.mp (count.symm.trans none))
  have mode : s.control.mode ≠ .random := by
    rw [control, ← w.made, Compile.compile_control w.plain, w.plain.mode]
    exact nofun
  rw [advanceRun_of_swept (congrArg Supply.template h.supply) jobs mode, sweep,
    congrArg RunControl.repeats control, congrArg RunControl.nextTemplate control, w.last]
  -- A sweep that moves on, and one that starts again, are both at the next pass.
  have next : ∀ {v : Scheduler γ}, v.files = reads →
      v.supply = { s.supply with sweep := first.sweepAt (p + 1) } →
      (v.compilePass template).InPass w (p + 1) (first.passJobs (p + 1)) := by
    intro v files supply
    have ready : v.WorksOn w first.control (first.sweepAt (p + 1)) first.jobs.length [] :=
      ⟨files, supply.trans (by rw [h.supply])⟩
    exact ready.compilePass
  obtain ⟨inside, step, sweep'⟩ | ⟨last, step, sweep'⟩ := first.advance_sweepAt p
  · rw [if_pos step, sweep']
    exact .inl ⟨.inr inside, next h.files rfl⟩
  · rw [if_neg (not_not_intro step), sweep']
    by_cases repeats : first.control.repeats
    · rw [if_pos repeats]
      exact .inl ⟨.inl repeats, next h.files rfl⟩
    · rw [if_neg repeats]
      exact .inr ⟨repeats, last, rfl⟩

theorem InPass.refilled (h : s.InPass w p []) : s.refilled = s.advanceRun := by
  have main : s.queue.main = [] := congrArg Supply.main h.supply
  rw [Scheduler.refilled, if_pos (by simp [main])]

/-- After the last pass of a round that is not repeated nothing comes. -/
theorem InPass.spent (h : s.InPass w p []) (once : ¬ first.control.repeats) (last : first.span ∣ p + 1) :
    s.Spent := by
  obtain ⟨more, _⟩ | ⟨_, _, drains⟩ := h.advanceRun
  · exact absurd last (more.resolve_left once)
  · have main : s.queue.main = [] := congrArg Supply.main h.supply
    refine upcoming_nil fun _ => ?_
    rw [h.refilled, drains, (beginDraining_of_dispatching h.dispatching).2]
    exact main

/-- What comes next is in the main queue, or comes into it with the next pass. -/
theorem InPass.upcoming_next (h : s.InPass w p []) (next : s.advanceRun.InPass w (p + 1) (first.passJobs (p + 1)))
    (n : Nat) : s.upcoming n = s.advanceRun.upcoming n := by
  have main : s.advanceRun.queue.main = first.passJobs (p + 1) := congrArg Supply.main next.supply
  have still : s.advanceRun.refilled = s.advanceRun := by
    rw [Scheduler.refilled, if_neg]
    simpa [main, Compiled.passJobs] using w.jobs
  cases n with
  | zero => rfl
  | succ n => rw [upcoming, upcoming, if_pos h.dispatching, if_pos next.dispatching, still, h.refilled]

/-- Passes follow each other as long as the round goes on or is repeated. -/
theorem InPass.upcoming (h : s.InPass w 0 (first.passJobs 0)) (k : Nat)
    (more : first.control.repeats ∨ k < first.span) :
    ∃ t : Scheduler γ, t.InPass w k (first.passJobs k) ∧
      ∀ n, s.upcoming (k * first.jobs.length + n) = (List.range k).flatMap first.passJobs ++ t.upcoming n := by
  induction k with
  | zero => exact ⟨s, h, fun n => by simp⟩
  | succ k ih =>
    obtain ⟨t, here, before⟩ := ih (more.imp_right Nat.lt_of_succ_lt)
    obtain ⟨u, finished, during⟩ : ∃ u : Scheduler γ, u.InPass w k [] ∧ _ := WorksOn.upcoming here
    obtain ⟨_, next⟩ | ⟨once, last, _⟩ := finished.advanceRun
    · refine ⟨u.advanceRun, next, fun n => ?_⟩
      rw [first.length_passJobs] at during
      rw [Nat.succ_mul, Nat.add_assoc, before, during, finished.upcoming_next next, List.range_succ,
        List.flatMap_append]
      simp
    · exact absurd (Nat.le_of_dvd (Nat.succ_pos k) last) (Nat.not_le_of_lt (more.resolve_left once))

/-- A round that is not repeated is all there is. -/
theorem InPass.upcoming_once (h : s.InPass w 0 (first.passJobs 0)) (once : ¬ first.control.repeats) (n : Nat) :
    s.upcoming (first.span * first.jobs.length + n) = (List.range first.span).flatMap first.passJobs := by
  obtain ⟨k, span⟩ := Nat.exists_eq_add_one.mpr first.span_pos
  obtain ⟨t, here, before⟩ := h.upcoming k (.inr (by omega))
  obtain ⟨u, finished, during⟩ : ∃ u : Scheduler γ, u.InPass w k [] ∧ _ := WorksOn.upcoming here
  have ended : u.Spent := finished.spent once (by rw [span])
  rw [first.length_passJobs] at during
  rw [span, Nat.succ_mul, Nat.add_assoc, before, during, ended, List.range_succ, List.flatMap_append]
  simp

/-- Rounds that are repeated never end. -/
theorem InPass.upcoming_unbounded (h : s.InPass w 0 (first.passJobs 0)) (repeats : first.control.repeats)
    (n : Nat) : ∃ m, n < (s.upcoming m).length := by
  obtain ⟨t, _, before⟩ := h.upcoming (n + 1) (.inl repeats)
  have some : 0 < first.jobs.length := List.length_pos_iff.mpr w.jobs
  have most : n + 1 ≤ (n + 1) * first.jobs.length := Nat.le_mul_of_pos_right _ some
  have length := congrArg List.length (before 0)
  simp only [List.length_append, List.length_flatMap, Compiled.length_passJobs, List.map_const',
    List.length_range, List.sum_replicate_nat, Scheduler.upcoming, List.length_nil] at length
  exact ⟨_, (Nat.lt_of_succ_le most).trans_eq length.symm⟩

/-- Loading the template makes the first pass of the first round. -/
theorem informed_inPass (w : Sweeping settings caps reads g template first) :
    (informed settings caps reads g).loadPending.InPass w 0 (first.passJobs 0) := by
  obtain ⟨path, waits, read⟩ := w.initial
  have loads : (informed settings caps reads g).loadPending =
      ({ informed settings caps reads g with pendingTemplate := none }).loadTemplate path := by
    rw [loadPending, informed, waits]
  obtain ⟨v, loaded, basis, supply⟩ :=
    loadTemplate_ok (s := { informed settings caps reads g with pendingTemplate := none }) read
  have ready : v.WorksOn w {} {} 0 [] := ⟨congrArg Basis.files basis, supply⟩
  rw [loads, loaded]
  exact ready.compileFirst

/-! ## How far a run is -/

variable {ref : Scheduler γ} {handed : List Job}

/-- What has been handed out is where the rounds begin. -/
theorem InPass.comparable (h : ref.InPass w 0 (first.passJobs 0)) (ahead : ref.Ahead handed s) (rounds : Nat)
    (more : first.control.repeats ∨ rounds ≤ 1) (counted : rounds * first.span ≤ 2 ^ 32) :
    handed <+: (List.range rounds).flatMap first.roundJobs ∨
      (List.range rounds).flatMap first.roundJobs <+: handed := by
  have here : handed = ref.upcoming handed.length := by simpa [Scheduler.upcoming] using (ahead 0).symm
  have there : ∃ n, (List.range rounds).flatMap first.roundJobs = ref.upcoming n := by
    rw [Compiled.rounds_eq counted]
    by_cases repeats : first.control.repeats
    · obtain ⟨_, _, before⟩ := h.upcoming (rounds * first.span) (.inl repeats)
      exact ⟨_, by simpa [Scheduler.upcoming] using (before 0).symm⟩
    · obtain rfl | rfl : rounds = 0 ∨ rounds = 1 := by have := more.resolve_left repeats; omega
      · exact ⟨0, by simp [Scheduler.upcoming]⟩
      · exact ⟨_, by simpa using (h.upcoming_once repeats 0).symm⟩
  obtain ⟨n, there⟩ := there
  rw [there, here]
  exact upcoming_comparable _ n ref

/-- When nothing more comes, the one round is handed out, and it is not repeated. -/
theorem InPass.all_of_spent (h : ref.InPass w 0 (first.passJobs 0)) (ahead : ref.Ahead handed s) (spent : s.Spent) :
    ¬ first.control.repeats ∧ (first.span ≤ 2 ^ 32 → handed = first.roundJobs 0) := by
  have all : ∀ n, ref.upcoming (handed.length + n) = handed := fun n => by rw [ahead, spent, List.append_nil]
  have once : ¬ first.control.repeats := by
    intro repeats
    obtain ⟨m, longer⟩ := h.upcoming_unbounded repeats handed.length
    have most := (upcoming_mono m handed.length ref).length_le
    rw [Nat.add_comm, all] at most
    omega
  refine ⟨once, fun counted => ?_⟩
  rw [← all (first.span * first.jobs.length), Nat.add_comm, h.upcoming_once once, Compiled.roundJobs_zero counted]

/-- A round that is not repeated is all that is ever handed out. -/
theorem InPass.within_once (h : ref.InPass w 0 (first.passJobs 0)) (ahead : ref.Ahead handed s)
    (once : ¬ first.control.repeats) (counted : first.span ≤ 2 ^ 32) : handed <+: first.roundJobs 0 := by
  refine ⟨s.upcoming (first.span * first.jobs.length), ?_⟩
  rw [← ahead, Nat.add_comm, h.upcoming_once once, Compiled.roundJobs_zero counted]

end Scheduler

namespace Live

open Scheduler

variable {γ : Type} [Generator γ] {settings : RunSettings} {caps : Capabilities} {reads files : FileSystem} {g : γ}
  {template : Template} {first : Compiled} {devices : List String} {events : List Event}

/-- How far a run is in the rounds of a sweep, when it has handed out some jobs of the main queue. -/
structure InRounds (first : Compiled) (handed : List Job) (s : Scheduler γ) : Prop where
  /-- A round has the jobs of the pass for every pair. -/
  size : ∀ r, (first.roundJobs r).length =
    max first.control.modelSweep.length 1 * max first.control.highresSweep.length 1 * first.jobs.length
  /-- Seeds that are fixed are so many more as rounds have been completed. -/
  seeds : ∀ (base : Int64) (r : Nat), ¬ base < 0 → base.toInt + r < 2 ^ 63 →
    (seedOfRound base r).toInt = base.toInt + r
  /-- The jobs are handed out round after round. -/
  inOrder : ∀ rounds, first.control.repeats ∨ rounds ≤ 1 → rounds * first.span ≤ 2 ^ 32 →
    handed <+: (List.range rounds).flatMap first.roundJobs ∨
      (List.range rounds).flatMap first.roundJobs <+: handed
  /-- A round that is not repeated is all that is handed out. -/
  once : ¬ first.control.repeats → first.span ≤ 2 ^ 32 → handed <+: first.roundJobs 0
  /-- The run ends when this round is handed out, and not before. -/
  ended : s.phase = .draining ∨ s.phase = .idle →
    ¬ first.control.repeats ∧ (first.span ≤ 2 ^ 32 → handed = first.roundJobs 0)
  /-- A run that is not held keeps all devices busy until then. -/
  fed : s.bootstrap = .done → s.paused = false →
    s.idleSlot? = none ∨ ¬ first.control.repeats ∧ (first.span ≤ 2 ^ 32 → handed = first.roundJobs 0)

/-- A run on a template that leaves nothing to chance goes through the rounds of its sweep, every pair of
checkpoints once in each of them. -/
theorem run_inRounds (sweeping : Sweeping settings caps reads g template first)
    (steady : Steady settings caps reads (start settings devices files g) events) :
    InRounds first ((start settings devices files g).mainJobs events)
      ((start settings devices files g).run events).scheduler := by
  have onward := run_onward steady
  have fed := run_fed steady
  have begins := informed_inPass sweeping
  generalize (start settings devices files g).mainJobs events = handed at onward ⊢
  generalize ((start settings devices files g).run events).scheduler = s at onward fed ⊢
  cases onward with
  | before fresh none =>
    subst none
    exact ⟨first.length_roundJobs, fun _ _ => toInt_seedOfRound, fun _ _ _ => .inl List.nil_prefix,
      fun _ _ => List.nil_prefix, by simp [fresh.phase], fun done => absurd done fresh.bootstrap⟩
  | after done _ _ _ _ ahead =>
    refine ⟨first.length_roundJobs, fun _ _ => toInt_seedOfRound, begins.comparable ahead,
      begins.within_once ahead, fun ended => ?_, fun done free => ?_⟩
    · exact begins.all_of_spent ahead (upcoming_nil fun now => by simp [now] at ended)
    · exact (fed done free).imp_right (begins.all_of_spent ahead)

/-- A template for studies in two checkpoints, and as many for the second pass, again and again. -/
def studies : FileSystem where
  entries := [(["studies.txt"], .file
    "[config]\nCKPT_FILE = ink, oil\nHIGHRES_CKPT_FILE = soft, sharp\nSEED = 5\nREPEAT = yes\n[prompts]\ncat\ndog".toUTF8)]
  workingDirectory := []

/-- What the template is read as. -/
def studyTemplate : Template where
  path := some ⟨"studies.txt"⟩
  config := ["CKPT_FILE = ink, oil", "HIGHRES_CKPT_FILE = soft, sharp", "SEED = 5", "REPEAT = yes"]
  sections := [{ tokens := ["cat", "dog"], minPick := 1, maxPick := 1, delimiter := " " }]

def studySettings : RunSettings :=
  { outputRoot := ⟨"out"⟩, wildcardDir := ⟨"wildcards"⟩, triggerFile := ⟨"triggers.txt"⟩
    initialTemplate := some ⟨"studies.txt"⟩ }

/-- A run on one device that ends eight jobs. -/
def studyRun : List Event :=
  [.message (.deviceReady 0), .message (.capabilitiesDiscovered 0 (.error "unknown"))] ++
    List.replicate 8 (.message (.jobFinished 0 ⟨"a", 1, .template, .ok []⟩))

theorem studies_sweeping :
    Sweeping studySettings {} studies (⟨0⟩ : SplitMix) studyTemplate
      (Compile.compile (studySettings.firstContext {} studies studyTemplate) (⟨0⟩ : SplitMix)).1 where
  initial := ⟨⟨"studies.txt"⟩, rfl, by decide +kernel⟩
  plain := ⟨by decide +kernel, by decide, by decide +kernel, by decide +kernel⟩
  made := rfl
  last := by decide +kernel
  jobs := List.ne_nil_of_length_pos (by decide +kernel)

/-- The second round begins when the first one has gone through all pairs. -/
theorem studies_in_rounds :
    ((start studySettings ["a"] studies (⟨0⟩ : SplitMix)).mainJobs studyRun).map
        (fun job => (job.prompt, job.checkpoint, job.highres.checkpoint, job.seed)) =
      [("cat", some "ink", some "soft", 5), ("dog", some "ink", some "soft", 5),
        ("cat", some "ink", some "sharp", 5), ("dog", some "ink", some "sharp", 5),
        ("cat", some "oil", some "soft", 5), ("dog", some "oil", some "soft", 5),
        ("cat", some "oil", some "sharp", 5), ("dog", some "oil", some "sharp", 5),
        ("cat", some "ink", some "soft", 6)] ∧
      InRounds (Compile.compile (studySettings.firstContext {} studies studyTemplate) (⟨0⟩ : SplitMix)).1
        ((start studySettings ["a"] studies (⟨0⟩ : SplitMix)).mainJobs studyRun)
        ((start studySettings ["a"] studies (⟨0⟩ : SplitMix)).run studyRun).scheduler := by
  have steady : Steady studySettings {} studies (start studySettings ["a"] studies (⟨0⟩ : SplitMix)) studyRun :=
    steady_of_untouched (by simp [studyRun]) (by simp [studyRun]) (by simp [studyRun, offered, Except.toOption]) rfl
      (by simp [studyRun])
  exact ⟨by decide +kernel, run_inRounds studies_sweeping steady⟩

end Live

end RenderFarm
