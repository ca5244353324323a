import Mathlib.Data.List.Induction
import RenderFarm.Proofs.Schedule.Supply

/-!
The order in which jobs of the main queue are handed out. From any moment on it is told by the supply of the
run alone: however devices come and go, requests cut in or the run is held, it stays at some point of one and
the same sequence. So two runs that are given the same answers are never at odds.
-/

namespace RenderFarm

open Books

namespace Scheduler

variable {γ : Type} [Generator γ] {s t u ref : Scheduler γ} {reads : FileSystem}

/-- The next jobs of the main queue, if they are handed out with nothing in between. -/
def upcoming : Nat → Scheduler γ → List Job
  | 0, _ => []
  | n + 1, s =>
    if s.phase = .dispatching then
      match s.refilled.queue.main with
      | [] => []
      | job :: rest => job :: upcoming n { s.refilled with queue := { s.refilled.queue with main := rest } }
    else []

theorem upcoming_cons {job : Job} {rest : List Job} (dispatching : s.phase = .dispatching)
    (first : s.refilled.queue.main = job :: rest) (n : Nat) :
    s.upcoming (n + 1) =
      job :: upcoming n { s.refilled with queue := { s.refilled.queue with main := rest } } := by
  rw [upcoming, if_pos dispatching, first]

theorem upcoming_nil (dried : s.phase = .dispatching → s.refilled.queue.main = []) (n : Nat) :
    s.upcoming n = [] := by
  cases n with
  | zero => rfl
  | succ n =>
    rw [upcoming]
    split
    · rename_i dispatching
      rw [dried dispatching]
    · rfl

/-- The supply and the answers of the files tell what comes. -/
theorem upcoming_congr (same : s.supply = u.supply) (h : s.Known reads) (h' : u.Known reads) (n : Nat) :
    s.upcoming n = u.upcoming n := by
  induction n generalizing s u with
  | zero => rfl
  | succ n ih =>
    by_cases dispatching : s.phase = .dispatching
    · have filled := refilled_supply same h h' dispatching
      have main : u.refilled.queue.main = s.refilled.queue.main := (congrArg Supply.main filled).symm
      have dispatching' : u.phase = .dispatching := (dispatching_of_supply same).mp dispatching
      cases waiting : s.refilled.queue.main with
      | nil => rw [upcoming_nil fun _ => waiting, upcoming_nil fun _ => main.trans waiting]
      | cons job rest =>
        rw [upcoming_cons dispatching waiting, upcoming_cons dispatching' (main.trans waiting)]
        refine congrArg (job :: ·) (ih ?_ (h.refilled.of_same rfl rfl rfl) (h'.refilled.of_same rfl rfl rfl))
        exact congrArg (fun x : Supply γ => { x with main := rest }) filled
    · have dispatching' : u.phase ≠ .dispatching := fun now => dispatching ((dispatching_of_supply same).mpr now)
      rw [upcoming_nil fun now => absurd now dispatching, upcoming_nil fun now => absurd now dispatching']

theorem upcoming_mono (n m : Nat) (s : Scheduler γ) : s.upcoming n <+: s.upcoming (n + m) := by
  induction n generalizing s with
  | zero => exact List.nil_prefix
  | succ n ih =>
    rw [Nat.succ_add, upcoming, upcoming]
    split
    · split
      · exact List.prefix_refl _
      · exact List.cons_prefix_cons.mpr ⟨rfl, ih _⟩
    · exact List.prefix_refl _

theorem upcoming_comparable (n m : Nat) (s : Scheduler γ) :
    s.upcoming n <+: s.upcoming m ∨ s.upcoming m <+: s.upcoming n := by
  obtain ⟨k, rfl⟩ | ⟨k, rfl⟩ := (Nat.le_total n m).imp Nat.exists_eq_add_of_le Nat.exists_eq_add_of_le
  · exact .inl (upcoming_mono n k s)
  · exact .inr (upcoming_mono m k s)

/-! ## The end of the supply -/

/-- A pass that leaves the main queue empty made no jobs. -/
theorem compilePass_spent {template : Template} :
    (s.compilePass template).queue.main = [] → (s.compilePass template).lastPassJobs = 0 := by
  have none : ∀ (v : Scheduler γ) (compiled : Compile.Compiled),
      (v.takeCompiled template compiled).queue.main = [] → (v.takeCompiled template compiled).lastPassJobs = 0 :=
    fun v compiled spent => List.length_eq_zero_iff.mpr (List.append_eq_nil_iff.mp spent).2
  rw [compilePass_eq]
  split <;> exact none _ _

/-- When nothing comes after a pass, the run drains, or the next pass made no jobs. -/
theorem advanceRun_spent (dispatching : s.phase = .dispatching) :
    s.advanceRun.queue.main = [] → s.advanceRun.phase ≠ .dispatching ∨ s.advanceRun.lastPassJobs = 0 := by
  have drained : ∀ {v : Scheduler γ}, v.phase = .dispatching → v.beginDraining.phase ≠ .dispatching := by
    intro v now
    simp [(beginDraining_of_dispatching now).1]
  have loaded : ∀ {v : Scheduler γ} (path : Path), v.phase = .dispatching → (v.loadTemplate path).queue.main = [] →
      (v.loadTemplate path).phase ≠ .dispatching ∨ (v.loadTemplate path).lastPassJobs = 0 := by
    intro v path now
    cases read : Template.load v.files path with
    | error e =>
      rw [loadTemplate_error read]
      exact fun _ => .inl (drained (v := v.note _) now)
    | ok template =>
      obtain ⟨w, compiled, _⟩ := loadTemplate_ok read
      rw [compiled]
      exact fun spent => .inr (compilePass_spent spent)
  by_cases ends : s.template = none ∨ s.lastPassJobs = 0
  · rw [advanceRun_of_spent ends]
    exact fun _ => .inl (drained dispatching)
  obtain ⟨missing, jobs⟩ := not_or.mp ends
  obtain ⟨template, current⟩ := Option.ne_none_iff_exists'.mp missing
  by_cases mode : s.control.mode = .random
  · rw [advanceRun_of_random current jobs mode]
    exact fun spent => .inr (compilePass_spent spent)
  rw [advanceRun_of_swept current jobs mode]
  split
  · exact fun spent => .inr (compilePass_spent spent)
  · split
    · exact fun spent => .inr (compilePass_spent spent)
    · split
      · exact loaded (v := s.note _) _ dispatching
      · exact fun _ => .inl (drained dispatching)

/-- After a supply that has run out nothing comes. -/
theorem upcoming_spent (dispatching : s.phase = .dispatching) (spent : s.refilled.queue.main = []) (n : Nat) :
    s.refilled.upcoming n = [] := by
  have advanced : s.refilled = s.advanceRun := by
    unfold refilled at spent ⊢
    split
    · rfl
    · rename_i waiting
      rw [if_neg waiting] at spent
      exact absurd (by rw [spent]; rfl) waiting
  refine upcoming_nil (fun now => ?_) n
  rw [advanced] at spent now ⊢
  have none := (advanceRun_spent dispatching spent).resolve_left (absurd now)
  have last : s.advanceRun.refilled = s.advanceRun.beginDraining := by
    unfold refilled
    rw [spent]
    exact advanceRun_of_spent (.inr none)
  rw [last, (beginDraining_of_dispatching now).2]
  exact spent

/-! ## Handing out jobs -/

theorem Hands.known {job : Option Job} (h : s.Hands job t) (known : s.Known reads) : t.Known reads := by
  cases h with
  | priority | held => exact known.of_same rfl rfl rfl
  | main | dry => exact known.refilled.of_same rfl rfl rfl

/-- A run has handed out some jobs of the main queue, and is so far in what comes after `ref`. -/
def Ahead (ref : Scheduler γ) (handed : List Job) (s : Scheduler γ) : Prop :=
  ∀ n, ref.upcoming (handed.length + n) = handed ++ s.upcoming n

variable {handed : List Job}

theorem Ahead.of_supply (h : ref.Ahead handed s) (same : s.supply = u.supply) (known : s.Known reads)
    (known' : u.Known reads) : ref.Ahead handed u := by
  intro n
  rw [h n, upcoming_congr same known known']

theorem Ahead.take (h : ref.Ahead handed s) {job : Job} (took : ∀ n, s.upcoming (n + 1) = job :: t.upcoming n) :
    ref.Ahead (handed ++ [job]) t := by
  intro n
  rw [List.length_append, List.length_singleton, Nat.add_assoc, Nat.add_comm 1 n, h, took, List.append_assoc]
  rfl

/-- When no job is handed out, the run stays where it is. -/
theorem Ahead.none (h : ref.Ahead handed s) (hands : s.Hands none t) : ref.Ahead handed t := by
  cases hands with
  | held => exact h
  | dry _ _ dispatching spent =>
    intro n
    rw [h n, upcoming_spent dispatching spent, upcoming_nil fun _ => spent]

/-- A job that is handed out is the next one, if it comes from the main queue. -/
theorem Ahead.some (h : ref.Ahead handed s) (known : s.Known reads) {job : Job} (hands : s.Hands (some job) t) :
    ref.Ahead (handed ++ if t.queue.priority.length == s.queue.priority.length then [job] else []) t := by
  cases hands with
  | priority first =>
    rw [if_neg (by simp [first]), List.append_nil]
    exact h.of_supply rfl known (known.of_same rfl rfl rfl)
  | main empty free dispatching first =>
    have kept : s.refilled.queue.priority = s.queue.priority := (refills_refilled s).priority
    rw [if_pos (by simp [kept])]
    exact h.take fun n => upcoming_cons dispatching first n

theorem startJobs_ahead (known : s.Known reads) (h : ref.Ahead handed s) (bound : Nat) :
    (s.startJobs bound).Known reads ∧
      ref.Ahead (handed ++ Start.mains (s.starts bound)) (s.startJobs bound) := by
  have gives := s.givesOut bound
  generalize s.starts bound = given, s.startJobs bound = u at gives ⊢
  induction gives generalizing handed with
  | bound | busy => exact ⟨known, by simpa using h⟩
  | dry _ hands => exact ⟨hands.known known, by simpa using h.none hands⟩
  | @one _ slot s t _ job _ _ found hands _ ih =>
    have taken : t.Known reads := hands.known known
    have started : (t.startJob slot job).Known reads := taken.of_same rfl rfl rfl
    have further := (h.some known hands).of_supply (supply_startJob slot job t).symm taken started
    rw [Start.mains_cons, ← List.append_assoc]
    unfold Start.fromMain
    rw [found]
    exact ih started further

/-! ## The beginning -/

/-- What a run is told of the backend, nothing if the question failed. -/
def offered (result : Except String Capabilities) : Capabilities :=
  result.toOption.getD {}

omit [Generator γ] in
theorem learnCapabilities_fst (slot : Nat) (result : Except String Capabilities) (s : Scheduler γ) :
    (s.learnCapabilities slot result).1 = offered result := by
  cases result <;> rfl

/-- The run that has just been told what the backend offers, without any devices. -/
def informed (settings : RunSettings) (caps : Capabilities) (reads : FileSystem) (g : γ) : Scheduler γ :=
  { settings, slots := [], capabilities := caps, pendingTemplate := settings.initialTemplate
    bootstrap := .done, phase := .dispatching, random := g, files := reads }

/-- A run that has not been told yet what the backend offers, and has a template to begin with. -/
structure Fresh (settings : RunSettings) (g : γ) (s : Scheduler γ) : Prop where
  bootstrap : s.bootstrap ≠ .done
  phase : s.phase = .bootstrapping
  pending : s.pendingTemplate = settings.initialTemplate
  supply : s.supply = { settings, random := g }

omit [Generator γ] in
theorem start_fresh (settings : RunSettings) (devices : List String) (files : FileSystem) (g : γ) :
    (start settings devices files g).Fresh settings g := by
  unfold start
  dsimp only
  split <;> exact ⟨by simp [note, rebuildContext], rfl, rfl, rfl⟩

/-- The end of the bootstrap tells the run what the backend offers, and loads the template that waits. -/
theorem finishBootstrap_supply (slot : Nat) (result : Except String Capabilities) (s : Scheduler γ) :
    ∃ t : Scheduler γ, s.finishBootstrap slot result = t.loadPending ∧ t.bootstrap = .done ∧
      t.pendingTemplate = s.pendingTemplate ∧
      t.phase = (if s.phase = .bootstrapping then .dispatching else s.phase) ∧
      t.supply = { s.supply with
        capabilities := offered result, dispatching := t.phase == .dispatching } := by
  have learnt : (s.learnCapabilities slot result).2.supply = s.supply ∧
      (s.learnCapabilities slot result).2.phase = s.phase ∧
      (s.learnCapabilities slot result).2.pendingTemplate = s.pendingTemplate := by
    cases result <;> exact ⟨rfl, rfl, rfl⟩
  have synced : ∀ (caps : Capabilities) (v : Scheduler γ), (v.syncTriggers caps).supply = v.supply ∧
      (v.syncTriggers caps).phase = v.phase ∧ (v.syncTriggers caps).pendingTemplate = v.pendingTemplate := by
    intro caps v
    unfold syncTriggers
    split
    · exact ⟨rfl, rfl, rfl⟩
    · split
      · exact ⟨rfl, rfl, rfl⟩
      · dsimp only
        split <;> exact ⟨rfl, rfl, rfl⟩
  obtain ⟨supply, phase, pending⟩ := synced (offered result) (s.learnCapabilities slot result).2
  rw [learnt.1] at supply
  rw [learnt.2.1] at phase
  rw [learnt.2.2] at pending
  unfold finishBootstrap
  dsimp only
  rw [learnCapabilities_fst]
  generalize (s.learnCapabilities slot result).2.syncTriggers (offered result) = v at supply phase pending ⊢
  refine ⟨_, rfl, rfl, pending, ?_, ?_⟩
  · rw [← phase]
    rfl
  · rw [← supply]
    rfl

/-- The template that waits for the bootstrap is loaded the same in two runs with the same supply. -/
theorem loadPending_supply (same : s.supply = u.supply) (pending : u.pendingTemplate = s.pendingTemplate)
    (known : s.Known reads) (known' : u.Known reads) (dispatching : s.phase = .dispatching)
    (consulted : ∀ path ∈ s.pendingTemplate, s.basis.Consults reads path) :
    s.loadPending.supply = u.loadPending.supply ∧ s.loadPending.Known reads ∧ u.loadPending.Known reads ∧
      s.loadPending.pendingTemplate = none := by
  unfold loadPending
  rw [pending]
  cases waits : s.pendingTemplate with
  | none => exact ⟨same, known, known', waits⟩
  | some path =>
    have consulted := consulted path waits
    dsimp only
    refine ⟨?_, ?_, ?_, ?_⟩
    · exact loadTemplate_supply (s := { s with pendingTemplate := none }) (u := { u with pendingTemplate := none })
        same dispatching known.answers known'.answers consulted
    · exact Known.loadTemplate (s := { s with pendingTemplate := none }) ⟨known.answers, known.template⟩ consulted
    · exact Known.loadTemplate (s := { u with pendingTemplate := none }) ⟨known'.answers, known'.template⟩
        (consults_of_supply same consulted)
    · exact congrArg Basis.pendingTemplate (basis_loadTemplate path { s with pendingTemplate := none })

/-! ## One event after another -/

/-- How far a run has come that is given certain answers: it waits for the bootstrap, or it is somewhere in
what comes after it. -/
inductive Onward (settings : RunSettings) (caps : Capabilities) (reads : FileSystem) (g : γ) (handed : List Job)
    (s : Scheduler γ) : Prop where
  | before (fresh : s.Fresh settings g) (none : handed = [])
  | after (done : s.bootstrap = .done) (loaded : s.pendingTemplate = none) (same : s.settings = settings)
      (told : s.capabilities = caps) (known : s.Known reads)
      (ahead : (informed settings caps reads g).loadPending.Ahead handed s)

variable {settings : RunSettings} {caps : Capabilities} {g : γ}

/-- What leaves the supply alone leaves a run where it is. -/
theorem Onward.of_supply (h : s.Onward settings caps reads g handed) (supply : u.supply = s.supply)
    (bootstrap : u.bootstrap = s.bootstrap) (phase : u.phase = s.phase)
    (pending : u.pendingTemplate = s.pendingTemplate) (answers : u.files.Answers settings caps reads) :
    u.Onward settings caps reads g handed := by
  cases h with
  | before fresh none =>
    exact .before ⟨bootstrap ▸ fresh.bootstrap, phase ▸ fresh.phase, pending ▸ fresh.pending,
      supply ▸ fresh.supply⟩ none
  | after done loaded same told known ahead =>
    have same' : u.settings = settings := (congrArg Supply.settings supply).trans same
    have told' : u.capabilities = caps := (congrArg Supply.capabilities supply).trans told
    have known' : u.Known reads := by
      refine known.of_supply supply ?_
      unfold Basis.Answers basis
      rwa [same', told']
    exact .after (bootstrap.trans done) (pending.trans loaded) same' told' known'
      (ahead.of_supply supply.symm known known')

theorem basis_dispatch (s : Scheduler γ) : s.dispatch.basis = s.basis := by
  have started : (s.startJobs s.slots.length).basis = s.basis :=
    startJobs_invariant (P := fun t => t.basis = s.basis) (fun same hands => hands.basis.trans same)
      (fun _ _ same => same) _ rfl
  unfold dispatch
  split
  · rfl
  · split
    · exact (basis_settle _).trans started
    · rfl
    · split <;> rfl

theorem dispatch_onward (h : s.Onward settings caps reads g handed) :
    s.dispatch.Onward settings caps reads g (handed ++ Start.mains s.given) := by
  unfold dispatch given
  by_cases down : s.phase = .shuttingDown
  · simpa [down] using h
  rw [if_neg down]
  cases h with
  | before fresh none =>
    rw [if_neg fun working => fresh.bootstrap working.2, none]
    cases waits : s.bootstrap with
    | done => exact absurd waits fresh.bootstrap
    | requested => exact .before fresh rfl
    | pending =>
      cases s.idleSlot? with
      | none => exact .before fresh rfl
      | some slot => exact .before ⟨by simp [requestDiscovery], fresh.phase, fresh.pending, fresh.supply⟩ rfl
  | after done loaded same told known ahead =>
    rw [if_pos ⟨down, done⟩, done]
    dsimp only
    obtain ⟨known', ahead'⟩ := startJobs_ahead known ahead s.slots.length
    have settled : (s.startJobs s.slots.length).settle.basis = s.basis := by
      have basis := basis_dispatch s
      unfold dispatch at basis
      rwa [if_neg down, done] at basis
    have known'' := known'.of_same (basis_settle _) (congrArg Supply.template (supply_settle _))
      (congrArg Supply.control (supply_settle _))
    refine .after ?_ ?_ ?_ ?_ known'' (ahead'.of_supply (supply_settle _).symm known' known'')
    · rw [bootstrap_settle, (startJobs_asks_nothing _ s).1, done]
    · exact (congrArg Basis.pendingTemplate settled).trans loaded
    · exact (congrArg Basis.settings settled).trans same
    · exact (congrArg Basis.capabilities settled).trans told

/-- The answer to the question for the backend's offer starts what comes after the bootstrap. -/
theorem finishBootstrap_onward (fresh : s.Fresh settings g) (slot : Nat) (result : Except String Capabilities)
    (answers : (s.finishBootstrap slot result).files.Answers settings (offered result) reads) :
    (s.finishBootstrap slot result).Onward settings (offered result) reads g [] := by
  obtain ⟨t, same, done, pending, phase, supply⟩ := finishBootstrap_supply slot result s
  rw [if_pos fresh.phase] at phase
  rw [fresh.supply, phase] at supply
  have kept : t.loadPending.files = t.files ∧ t.loadPending.settings = t.settings ∧
      t.loadPending.capabilities = t.capabilities := by
    unfold loadPending
    split
    · rename_i path _
      have basis := basis_loadTemplate path { t with pendingTemplate := none }
      exact ⟨congrArg Basis.files basis, congrArg Basis.settings basis, congrArg Basis.capabilities basis⟩
    · exact ⟨rfl, rfl, rfl⟩
  have settings' : t.settings = settings := congrArg Supply.settings supply
  have told : t.capabilities = offered result := congrArg Supply.capabilities supply
  have template : t.template = none := congrArg Supply.template supply
  rw [same, kept.1] at answers
  have known : t.Known reads := by
    refine ⟨?_, by simp [template]⟩
    unfold Basis.Answers basis
    rwa [settings', told]
  have known' : (informed settings (offered result) reads g).Known reads :=
    ⟨⟨rfl, fun _ _ => ⟨rfl, rfl, rfl, rfl, rfl, rfl⟩⟩, by simp [informed]⟩
  obtain ⟨together, loaded, loaded', pending'⟩ := loadPending_supply supply (fresh.pending.symm.trans pending.symm)
    known known' phase fun path waits => by
      unfold Basis.Consults basis
      rw [settings', told]
      exact .initial (fresh.pending ▸ pending ▸ waits)
  rw [same]
  refine .after ?_ pending' (kept.2.1.trans settings') (kept.2.2.trans told) loaded fun n => ?_
  · rw [bootstrap_loadPending, done]
  · rw [upcoming_congr together loaded loaded']
    simp

/-- Any other message leaves the main queue as it is. -/
theorem handle_onward {c : Command} (h : s.Onward settings caps reads g handed)
    (kept : ∀ path, c ≠ .loadTemplate path) (up : c ≠ .shutdown)
    (told : ∀ slot result, c = .capabilitiesDiscovered slot result → offered result = caps ∧ s.bootstrap ≠ .done)
    (answers : (s.handle c).files.Answers settings caps reads) :
    (s.handle c).Onward settings caps reads g handed := by
  cases c with
  | deviceReady _ | deviceFailed _ _ | jobFinished _ _ | pause | resume =>
    exact h.of_supply rfl rfl rfl rfl answers
  | shutdown => exact absurd rfl up
  | loadTemplate path => exact absurd rfl (kept path)
  | enqueueUpscale image =>
    have only : (s.enqueueUpscale image).supply = s.supply ∧
        (s.enqueueUpscale image).pendingTemplate = s.pendingTemplate := by
      unfold enqueueUpscale
      dsimp only
      split <;> exact ⟨rfl, rfl⟩
    obtain ⟨phase, bootstrap, _⟩ := phase_enqueueUpscale image s
    exact h.of_supply only.1 bootstrap phase only.2 answers
  | capabilitiesDiscovered slot result =>
    obtain ⟨rfl, early⟩ := told slot result rfl
    cases h with
    | after done => exact absurd done early
    | before fresh none =>
      rw [none]
      exact finishBootstrap_onward fresh slot result answers

end Scheduler

namespace Live

open Scheduler

variable {γ : Type} [Generator γ]

/-- A run that is left to itself, in a world that gives certain answers: no template is put in place of the
one it has, it is not shut down, the backend offers what it offers in every such run, and the files answer
the questions of the supply always the same. -/
structure Steady (settings : RunSettings) (caps : Capabilities) (reads : FileSystem) (l : Live γ)
    (events : List Event) : Prop where
  kept : ∀ path, .message (.loadTemplate path) ∉ events
  up : .message .shutdown ∉ events
  told : ∀ slot result, .message (.capabilitiesDiscovered slot result) ∈ events → offered result = caps
  answers : ∀ before, before <+: events → (l.run before).scheduler.files.Answers settings caps reads

variable {settings : RunSettings} {caps : Capabilities} {reads : FileSystem} {g : γ} {l : Live γ}
  {events : List Event}

theorem Steady.of_append {later : List Event} (h : Steady settings caps reads l (events ++ later)) :
    Steady settings caps reads l events where
  kept path mem := h.kept path (List.mem_append_left later mem)
  up mem := h.up (List.mem_append_left later mem)
  told slot result mem := h.told slot result (List.mem_append_left later mem)
  answers before start := h.answers before (start.trans (List.prefix_append events later))

/-- All along a steady run, the jobs of the main queue that it has handed out are the first ones of those that
come after the bootstrap of any such run. -/
theorem run_onward {devices : List String} {files : FileSystem}
    (steady : Steady settings caps reads (start settings devices files g) events) :
    ((start settings devices files g).run events).scheduler.Onward settings caps reads g
      ((start settings devices files g).mainJobs events) := by
  induction events using List.reverseRecOn with
  | nil => exact .before (start_fresh settings devices files g) rfl
  | append_singleton before e ih =>
    have onward := ih steady.of_append
    have ordered := run_ordered (l := start settings devices files g) (start_ordered settings devices files g) before
    have answers := steady.answers _ (List.prefix_refl _)
    have here : ∀ c, .message c = e → .message c ∈ before ++ [e] := by
      rintro c rfl
      simp
    rw [mainJobs_concat, run_append]
    rw [run_append] at answers
    generalize (start settings devices files g).run before = l at onward ordered answers ⊢
    have dispatched : ∀ {s : Scheduler γ}, s.dispatch.files.Answers settings caps reads →
        s.files.Answers settings caps reads := by
      intro s answers
      have kept : s.dispatch.files = s.files := congrArg Basis.files (basis_dispatch s)
      rwa [kept] at answers
    cases e with
    | touch files =>
      rw [given, Start.mains_nil, List.append_nil]
      exact onward.of_supply (u := { l.scheduler with files }) rfl rfl rfl rfl answers
    | tick => exact dispatch_onward onward
    | message c =>
      rw [run_cons, run_nil, step] at answers ⊢
      rw [given]
      by_cases accepted : l.Accepts c
      · rw [if_pos accepted] at answers ⊢
        rw [if_pos accepted]
        refine dispatch_onward (handle_onward onward ?_ ?_ ?_ (dispatched answers))
        · rintro path rfl
          exact steady.kept path (here _ rfl)
        · rintro rfl
          exact steady.up (here _ rfl)
        · rintro slot result rfl
          have asked := ordered.requested (accepted _ rfl)
          exact ⟨steady.told slot result (here _ rfl), by simp [asked]⟩
      · rw [if_neg accepted, if_neg accepted, Start.mains_nil, List.append_nil]
        exact onward

/-- The order in which jobs of the main queue are handed out does not depend on timing: of two steady runs
with the same settings and random numbers, on whatever devices and with whatever reports, requests and
pauses, one hands out what the other does, and perhaps more. -/
theorem mainJobs_comparable {devices devices' : List String} {files files' : FileSystem} {events' : List Event}
    (steady : Steady settings caps reads (start settings devices files g) events)
    (steady' : Steady settings caps reads (start settings devices' files' g) events') :
    (start settings devices files g).mainJobs events <+: (start settings devices' files' g).mainJobs events' ∨
      (start settings devices' files' g).mainJobs events' <+: (start settings devices files g).mainJobs events := by
  have first : ∀ {devices files events}, Steady settings caps reads (start settings devices files g) events →
      ∃ n, (start settings devices files g).mainJobs events =
        (informed settings caps reads g).loadPending.upcoming n := by
    intro devices files events steady
    cases run_onward steady with
    | before fresh none => exact ⟨0, none⟩
    | after done loaded same told known ahead => exact ⟨_, by simpa [upcoming] using (ahead 0).symm⟩
  obtain ⟨n, jobs⟩ := first steady
  obtain ⟨m, jobs'⟩ := first steady'
  rw [jobs, jobs']
  exact upcoming_comparable n m _

/-- A message changes no file, unless the backend has checkpoints whose trigger phrases are to be kept. -/
theorem files_handle {s : Scheduler γ} {c : Command}
    (bare : ∀ slot result, c = .capabilitiesDiscovered slot result → (offered result).models = []) :
    (s.handle c).files = s.files := by
  have loaded : ∀ (path : Path) (v : Scheduler γ), (v.loadTemplate path).files = v.files :=
    fun path v => congrArg Basis.files (basis_loadTemplate path v)
  cases c with
  | deviceReady _ | deviceFailed _ _ | jobFinished _ _ | pause | resume | shutdown => rfl
  | enqueueUpscale image =>
    dsimp only [handle, enqueueUpscale]
    split <;> rfl
  | loadTemplate path =>
    dsimp only [handle]
    split
    · exact loaded path s
    · rfl
  | capabilitiesDiscovered slot result =>
    have bare := bare slot result rfl
    have pending : ∀ v : Scheduler γ, v.loadPending.files = v.files := by
      intro v
      unfold loadPending
      split
      · exact loaded _ _
      · rfl
    have quiet : (s.learnCapabilities slot result).2.syncTriggers (s.learnCapabilities slot result).1 =
        (s.learnCapabilities slot result).2 := by
      rw [learnCapabilities_fst, syncTriggers, if_pos (by simp [bare])]
    dsimp only [handle, finishBootstrap]
    rw [pending, quiet]
    cases result <;> rfl

theorem files_run
    (bare : ∀ slot result, .message (.capabilitiesDiscovered slot result) ∈ events → (offered result).models = [])
    (untouched : ∀ files, .touch files ∉ events) : (l.run events).scheduler.files = l.scheduler.files := by
  induction events generalizing l with
  | nil => rfl
  | cons e events ih =>
    have dispatched : ∀ s : Scheduler γ, s.dispatch.files = s.files :=
      fun s => congrArg Basis.files (basis_dispatch s)
    have later := ih (l := l.step e) (fun slot result mem => bare slot result (List.mem_cons_of_mem e mem))
      fun files mem => untouched files (List.mem_cons_of_mem e mem)
    refine later.trans ?_
    cases e with
    | touch files => exact absurd List.mem_cons_self (untouched files)
    | tick => exact dispatched _
    | message c =>
      rw [step]
      split
      · refine (dispatched _).trans (files_handle ?_)
        rintro slot result rfl
        exact bare slot result List.mem_cons_self
      · rfl

/-- Where nobody changes a file, the files answer as they did at first. -/
theorem steady_of_untouched {devices : List String} {files : FileSystem}
    (kept : ∀ path, .message (.loadTemplate path) ∉ events) (up : .message .shutdown ∉ events)
    (told : ∀ slot result, .message (.capabilitiesDiscovered slot result) ∈ events → offered result = caps)
    (bare : caps.models = []) (untouched : ∀ files, .touch files ∉ events) :
    Steady settings caps files (start settings devices files g) events := by
  refine ⟨kept, up, told, fun before initial => ?_⟩
  have mem : ∀ {e}, e ∈ before → e ∈ events := fun here => initial.subset here
  have first : (start settings devices files g).scheduler.files = files := by
    unfold start Scheduler.start
    dsimp only
    split <;> rfl
  rw [files_run (fun slot result here => told slot result (mem here) ▸ bare) fun files here =>
    untouched files (mem here), first]
  exact ⟨rfl, fun _ _ => ⟨rfl, rfl, rfl, rfl, rfl, rfl⟩⟩

/-- A template that picks colours at random, and nothing else. -/
def colours : FileSystem where
  entries := [(["colours.txt"], .file "[config]\nMODE = random\n[prompts]\nred\ngreen\nblue".toUTF8)]
  workingDirectory := []

/-- Where a run works on it, two jobs at a time. -/
def colourSettings : RunSettings :=
  { outputRoot := ⟨"out"⟩, wildcardDir := ⟨"wildcards"⟩, triggerFile := ⟨"triggers.txt"⟩, queueDepth := 2
    initialTemplate := some ⟨"colours.txt"⟩ }

/-- A run on one device that is held for a while and fails its first job. -/
def slowRun : List Event :=
  [.message (.deviceReady 0), .message .pause, .message (.capabilitiesDiscovered 0 (.ok {})), .message .resume,
    .message (.jobFinished 0 ⟨"a", 1, .template, .error "lost"⟩)]

/-- A run on two devices, the second of which is faster. -/
def fastRun : List Event :=
  [.message (.deviceReady 1), .message (.deviceReady 0), .tick,
    .message (.capabilitiesDiscovered 1 (.error "unknown")),
    .message (.jobFinished 1 ⟨"c", 2, .template, .ok []⟩)]

/-- The slow run hands out the first two of the three colours that the fast one does. -/
theorem slow_run_follows_fast_run :
    ((start colourSettings ["a"] colours (⟨0⟩ : SplitMix)).mainJobs slowRun).map Job.prompt = ["blue", "green"] ∧
      ((start colourSettings ["b", "c"] colours (⟨0⟩ : SplitMix)).mainJobs fastRun).map Job.prompt =
        ["blue", "green", "red"] ∧
      (start colourSettings ["a"] colours (⟨0⟩ : SplitMix)).mainJobs slowRun <+:
        (start colourSettings ["b", "c"] colours (⟨0⟩ : SplitMix)).mainJobs fastRun := by
  have slow : Steady colourSettings {} colours (start colourSettings ["a"] colours (⟨0⟩ : SplitMix)) slowRun :=
    steady_of_untouched (by simp [slowRun]) (by simp [slowRun]) (by simp [slowRun, offered, Except.toOption]) rfl
      (by simp [slowRun])
  have fast : Steady colourSettings {} colours (start colourSettings ["b", "c"] colours (⟨0⟩ : SplitMix))
      fastRun :=
    steady_of_untouched (by simp [fastRun]) (by simp [fastRun]) (by simp [fastRun, offered, Except.toOption]) rfl
      (by simp [fastRun])
  have two : ((start colourSettings ["a"] colours (⟨0⟩ : SplitMix)).mainJobs slowRun).map Job.prompt =
      ["blue", "green"] := by decide +kernel
  have three : ((start colourSettings ["b", "c"] colours (⟨0⟩ : SplitMix)).mainJobs fastRun).map Job.prompt =
      ["blue", "green", "red"] := by decide +kernel
  refine ⟨two, three, (mainJobs_comparable slow fast).resolve_right fun more => ?_⟩
  have longer := more.length_le
  rw [← List.length_map Job.prompt, three, ← List.length_map Job.prompt, two] at longer
  exact absurd longer (by decide)

end Live

end RenderFarm
