import RenderFarm.Proofs.Schedule.Books

/-!
How a run moves from phase to phase. Only three things change the phase: a template that is read starts the
supply of work again, the end of the supply drains the run, and a drained run comes to rest.
-/

namespace RenderFarm.Scheduler

variable {γ : Type}

@[simp] theorem phase_note (e : LogEvent) (s : Scheduler γ) : (s.note e).phase = s.phase := rfl

@[simp] theorem bootstrap_note (e : LogEvent) (s : Scheduler γ) : (s.note e).bootstrap = s.bootstrap := rfl

/-- The end of the supply of work drains a run that dispatches, and nothing else. -/
theorem phase_beginDraining (s : Scheduler γ) :
    s.beginDraining.phase = if s.phase = .dispatching then .draining else s.phase := by
  unfold beginDraining
  split <;> rfl

/-- A run that loses its supply of work drains with its queues as they were. -/
theorem beginDraining_of_dispatching {s : Scheduler γ} (dispatching : s.phase = .dispatching) :
    s.beginDraining.phase = .draining ∧ s.beginDraining.queue = s.queue := by
  refine ⟨?_, congrArg Books.queue (books_beginDraining s)⟩
  rw [phase_beginDraining, if_pos dispatching]

@[simp] theorem bootstrap_beginDraining (s : Scheduler γ) : s.beginDraining.bootstrap = s.bootstrap := by
  unfold beginDraining
  split <;> rfl

@[simp] theorem phase_discardPending (s : Scheduler γ) : s.discardPending.phase = s.phase := by
  unfold discardPending
  dsimp only
  split <;> rfl

@[simp] theorem bootstrap_discardPending (s : Scheduler γ) : s.discardPending.bootstrap = s.bootstrap := by
  unfold discardPending
  dsimp only
  split <;> rfl

@[simp] theorem phase_reloadWildcards (s : Scheduler γ) : s.reloadWildcards.phase = s.phase := by
  unfold reloadWildcards
  split <;> rfl

@[simp] theorem bootstrap_reloadWildcards (s : Scheduler γ) :
    s.reloadWildcards.bootstrap = s.bootstrap := by
  unfold reloadWildcards
  split <;> rfl

/-- A drained run comes to rest once nothing waits and no device is at work. -/
theorem phase_settle (s : Scheduler γ) :
    s.settle.phase = if s.phase = .draining ∧ s.queue.isEmpty ∧ !s.anyBusy then .idle else s.phase := by
  unfold settle
  by_cases drained : s.phase = .draining ∧ s.queue.isEmpty ∧ !s.anyBusy
  · rw [if_pos (by simpa [and_assoc] using drained), if_pos drained]
  · rw [if_neg (by simpa [and_assoc] using drained), if_neg drained]

@[simp] theorem bootstrap_settle (s : Scheduler γ) : s.settle.bootstrap = s.bootstrap := by
  unfold settle
  split <;> rfl

theorem phase_syncTriggers (caps : Capabilities) (s : Scheduler γ) :
    (s.syncTriggers caps).phase = s.phase := by
  unfold syncTriggers
  split
  · rfl
  · split
    · rfl
    · dsimp only
      split <;> rfl

theorem phase_learnCapabilities (slot : Nat) (r : Except String Capabilities) (s : Scheduler γ) :
    (s.learnCapabilities slot r).2.phase = s.phase := by
  cases r <;> rfl

theorem phase_enqueueUpscale (image : Path) (s : Scheduler γ) :
    (s.enqueueUpscale image).phase = s.phase ∧ (s.enqueueUpscale image).bootstrap = s.bootstrap ∧
      (s.enqueueUpscale image).queue.main = s.queue.main ∧
      (s.enqueueUpscale image).discarded = s.discarded := by
  unfold enqueueUpscale
  dsimp only
  split <;> exact ⟨rfl, rfl, rfl, rfl⟩

variable [Generator γ]

/-- A pass over a template keeps the phase. -/
@[simp] theorem phase_compilePass (t : Template) (s : Scheduler γ) : (s.compilePass t).phase = s.phase := by
  unfold compilePass
  dsimp only
  split <;> rfl

@[simp] theorem bootstrap_compilePass (t : Template) (s : Scheduler γ) :
    (s.compilePass t).bootstrap = s.bootstrap := by
  unfold compilePass
  dsimp only
  split <;> rfl

/-- A template that cannot be read ends the supply of work. -/
theorem loadTemplate_error {s : Scheduler γ} {path : Path} {e : StorageError}
    (unread : Template.load s.files path = .error e) :
    s.loadTemplate path =
      (s.note (.error "Failed to load template"
        [("template", .shown path.text), ("error", .shown e.message)])).beginDraining := by
  unfold loadTemplate
  rw [unread]

/-- A template that is read starts the supply of work again, unless the run is being shut down. -/
theorem phase_loadTemplate_ok {s : Scheduler γ} {path : Path} {t : Template}
    (read : Template.load s.files path = .ok t) :
    (s.loadTemplate path).phase = if s.phase = .shuttingDown then .shuttingDown else .dispatching := by
  unfold loadTemplate
  rw [read]
  simp only [phase_compilePass]
  cases phase : s.phase <;> simp [phase]

@[simp] theorem bootstrap_loadTemplate (path : Path) (s : Scheduler γ) :
    (s.loadTemplate path).bootstrap = s.bootstrap := by
  unfold loadTemplate
  dsimp only
  split
  · simp
  · rw [bootstrap_compilePass]
    split <;> simp

/-- At the end of the bootstrap the run dispatches, and loads the template that waits for it. -/
theorem finishBootstrap_eq (slot : Nat) (r : Except String Capabilities) (s : Scheduler γ) :
    ∃ t : Scheduler γ, s.finishBootstrap slot r = t.loadPending ∧
      t.books = s.books.setState slot .idle ∧ t.bootstrap = .done ∧
      t.phase = if s.phase = .bootstrapping then .dispatching else s.phase := by
  unfold finishBootstrap
  dsimp only
  refine ⟨_, rfl, ?_, rfl, ?_⟩
  · have same : ((s.learnCapabilities slot r).2.syncTriggers (s.learnCapabilities slot r).1).books =
        s.books := by simp
    rw [← same]
    rfl
  · have same : ((s.learnCapabilities slot r).2.syncTriggers (s.learnCapabilities slot r).1).phase =
        s.phase := by simp [phase_syncTriggers, phase_learnCapabilities]
    rw [← same]
    rfl

/-- When a run that dispatches loads a template, it goes on dispatching, or it drains with its queues as they
were. -/
theorem loadTemplate_of_dispatching {s : Scheduler γ} (dispatching : s.phase = .dispatching) (path : Path) :
    (s.loadTemplate path).phase = .dispatching ∨
      (s.loadTemplate path).phase = .draining ∧ (s.loadTemplate path).queue = s.queue := by
  cases read : Template.load s.files path with
  | error e =>
    rw [loadTemplate_error read]
    exact .inr (beginDraining_of_dispatching (s := s.note _) dispatching)
  | ok t =>
    refine .inl ?_
    rw [phase_loadTemplate_ok read, if_neg (by simp [dispatching])]

/-- When a pass is over, the run goes on dispatching, or it drains with its queues as they were. -/
theorem advanceRun_of_dispatching {s : Scheduler γ} (dispatching : s.phase = .dispatching) :
    s.advanceRun.phase = .dispatching ∨ s.advanceRun.phase = .draining ∧ s.advanceRun.queue = s.queue := by
  have drained := beginDraining_of_dispatching dispatching
  unfold advanceRun
  split
  · exact .inr drained
  · split
    · exact .inr drained
    · split
      · exact .inl (by simpa using dispatching)
      · split
        · exact .inl (by simpa using dispatching)
        · exact .inl (by simpa using dispatching)
        · split
          · exact .inl (by simpa using dispatching)
          · split
            · exact loadTemplate_of_dispatching (s := s.note _) dispatching _
            · exact .inr drained

@[simp] theorem bootstrap_advanceRun (s : Scheduler γ) : s.advanceRun.bootstrap = s.bootstrap := by
  unfold advanceRun
  repeat' split
  all_goals simp

end RenderFarm.Scheduler
