import RenderFarm.Proofs.Schedule.Phase

/-!
How a run gets to know what the backend offers. One device is asked, once, and until it has answered no job
of a template comes into the queues.
-/

namespace RenderFarm

/-- Whether a call asks what the backend offers. -/
def Call.asks : Call → Bool
  | .discover _ => true
  | .start _ => false
  | .execute _ => false

/-- Closing a call takes away a question just when the call is one. -/
theorem countP_asks_erase {pending : List Call} {call : Call} (isOpen : call ∈ pending) :
    (pending.erase call).countP Call.asks + (if call.asks then 1 else 0) = pending.countP Call.asks := by
  rw [(List.perm_cons_erase isOpen).countP_eq, List.countP_cons]

/-- A message other than the answer to the question leaves it open. -/
theorem countP_asks_closes {pending : List Call} {c : Command}
    (other : ∀ slot result, c ≠ .capabilitiesDiscovered slot result)
    (accepted : ∀ call ∈ c.answered?, call ∈ pending) :
    (c.closes pending).countP Call.asks = pending.countP Call.asks := by
  cases c with
  | pause | resume | shutdown | loadTemplate _ | enqueueUpscale _ => rfl
  | capabilitiesDiscovered slot result => exact absurd rfl (other slot result)
  | deviceReady _ | deviceFailed _ _ | jobFinished _ _ => exact countP_asks_erase (accepted _ rfl)

namespace Scheduler

variable {γ : Type}

/-- The bootstrap of a run that has some open calls: there is a question among them just as long as it was
asked and not answered, and before the answer the main queue is empty. -/
structure Ordered (s : Scheduler γ) (pending : List Call) : Prop where
  asked : pending.countP Call.asks = if s.bootstrap = .requested then 1 else 0
  empty : s.bootstrap ≠ .done → s.queue.main = []

variable {s : Scheduler γ} {pending : List Call}

/-- While the question is open, it was asked. -/
theorem Ordered.requested (h : s.Ordered pending) {slot : Nat} (isOpen : .discover slot ∈ pending) :
    s.bootstrap = .requested := by
  have positive : 0 < pending.countP Call.asks := List.countP_pos_iff.mpr ⟨_, isOpen, rfl⟩
  rw [h.asked] at positive
  by_cases requested : s.bootstrap = .requested
  · exact requested
  · rw [if_neg requested] at positive
    exact absurd positive (Nat.lt_irrefl 0)

theorem start_ordered (settings : RunSettings) (devices : List String) (files : FileSystem) (g : γ) :
    (start settings devices files g).Ordered ((List.range devices.length).map .start) := by
  have unasked : (start settings devices files g).bootstrap = .pending := by
    unfold start
    dsimp only
    split <;> rfl
  have empty : (start settings devices files g).queue = {} :=
    congrArg Books.queue (books_start settings devices files g)
  refine ⟨?_, fun _ => by rw [empty]⟩
  rw [unasked, List.countP_map]
  simp [Function.comp_def, Call.asks]

variable [Generator γ]

@[simp] theorem bootstrap_loadPending (s : Scheduler γ) : s.loadPending.bootstrap = s.bootstrap := by
  unfold loadPending
  split <;> simp

/-- Only the answer to the question changes how far the bootstrap is. -/
theorem bootstrap_handle {c : Command} (other : ∀ slot result, c ≠ .capabilitiesDiscovered slot result) :
    (s.handle c).bootstrap = s.bootstrap := by
  cases c with
  | deviceReady _ | deviceFailed _ _ | jobFinished _ _ | pause | resume | shutdown => rfl
  | capabilitiesDiscovered slot result => exact absurd rfl (other slot result)
  | enqueueUpscale image => exact (phase_enqueueUpscale image s).2.1
  | loadTemplate path =>
    dsimp only [handle]
    split
    · exact bootstrap_loadTemplate path s
    · rfl

/-- Before the bootstrap is done, nothing else brings a job into the main queue. -/
theorem main_handle {c : Command} (other : ∀ slot result, c ≠ .capabilitiesDiscovered slot result)
    (early : s.bootstrap ≠ .done) : (s.handle c).queue.main = s.queue.main := by
  cases c with
  | deviceReady _ | deviceFailed _ _ | jobFinished _ _ | pause | resume | shutdown => rfl
  | capabilitiesDiscovered slot result => exact absurd rfl (other slot result)
  | enqueueUpscale image => exact (phase_enqueueUpscale image s).2.2.1
  | loadTemplate path =>
    dsimp only [handle]
    rw [if_neg early]

@[simp] theorem bootstrap_refilled (s : Scheduler γ) : s.refilled.bootstrap = s.bootstrap := by
  unfold refilled
  split <;> simp

theorem Hands.bootstrap {t : Scheduler γ} {job : Option Job} (h : s.Hands job t) :
    t.bootstrap = s.bootstrap := by
  cases h with
  | priority | held => rfl
  | main | dry => exact bootstrap_refilled s

/-- Giving out jobs asks nothing. -/
theorem startJobs_asks_nothing (bound : Nat) (s : Scheduler γ) :
    (s.startJobs bound).bootstrap = s.bootstrap ∧
      ∃ given, (s.startJobs bound).orders = s.orders ++ given ∧ (given.map Order.call).countP Call.asks = 0 := by
  refine startJobs_invariant (P := fun t => t.bootstrap = s.bootstrap ∧
    ∃ given, t.orders = s.orders ++ given ∧ (given.map Order.call).countP Call.asks = 0)
    ?_ ?_ bound ⟨rfl, [], by simp, rfl⟩
  · rintro t u job ⟨bootstrap, given, orders, none⟩ hands
    exact ⟨hands.bootstrap.trans bootstrap, given, hands.orders.trans orders, none⟩
  · rintro t slot job ⟨bootstrap, given, orders, none⟩
    refine ⟨bootstrap, given ++ [.execute slot job t.context], ?_, ?_⟩
    · rw [← List.append_assoc, ← orders]
      rfl
    · simp [none, Order.call, Call.asks]

/-- Giving out work keeps the bootstrap in order, and may ask the question. -/
theorem dispatch_ordered (h : s.Ordered pending) :
    ∃ given, s.dispatch.orders = s.orders ++ given ∧ s.dispatch.Ordered (pending ++ given.map Order.call) := by
  unfold dispatch
  split
  · exact ⟨[], by simp, by simpa using h⟩
  · split
    · rename_i done
      obtain ⟨bootstrap, given, orders, none⟩ := startJobs_asks_nothing s.slots.length s
      refine ⟨given, ?_, ?_, ?_⟩
      · exact (congrArg Books.orders (books_settle _)).trans orders
      · rw [List.countP_append, none, h.asked, bootstrap_settle, bootstrap]
        rfl
      · intro early
        rw [bootstrap_settle, bootstrap] at early
        exact absurd done early
    · exact ⟨[], by simp, by simpa using h⟩
    · rename_i early
      split
      · rename_i slot _
        refine ⟨[.discover slot], rfl, ?_, fun _ => h.empty (by simp [early])⟩
        rw [List.countP_append, h.asked, if_neg (by simp [early])]
        rfl
      · exact ⟨[], by simp, by simpa using h⟩

/-- A message keeps the bootstrap in order once the call that it answers is closed. -/
theorem handle_ordered (c : Command) (h : s.Ordered pending)
    (accepted : ∀ call ∈ c.answered?, call ∈ pending) : (s.handle c).Ordered (c.closes pending) := by
  -- Only the answer to the question closes a call that asks it.
  by_cases answer : ∃ slot result, c = .capabilitiesDiscovered slot result
  · obtain ⟨slot, result, rfl⟩ := answer
    have isOpen : .discover slot ∈ pending := accepted _ rfl
    have done : (s.handle (.capabilitiesDiscovered slot result)).bootstrap = .done :=
      bootstrap_loadPending _
    have closed := countP_asks_erase isOpen
    rw [h.asked, if_pos (h.requested isOpen)] at closed
    refine ⟨?_, fun early => absurd done early⟩
    rw [done]
    exact Nat.add_right_cancel closed
  · have other : ∀ slot result, c ≠ .capabilitiesDiscovered slot result :=
      fun slot result same => answer ⟨slot, result, same⟩
    refine ⟨?_, ?_⟩
    · rw [countP_asks_closes other accepted, h.asked, bootstrap_handle other]
    · intro early
      rw [bootstrap_handle other] at early
      rw [main_handle other early]
      exact h.empty early

end Scheduler

namespace Live

variable {γ : Type} [Generator γ]

theorem run_ordered {l : Live γ} (h : l.scheduler.Ordered l.pending) (events : List Event) :
    (l.run events).scheduler.Ordered (l.run events).pending :=
  run_keeps (I := Scheduler.Ordered) Scheduler.handle_ordered Scheduler.dispatch_ordered
    (fun _ h => ⟨h.asked, h.empty⟩) h events

end Live

end RenderFarm
