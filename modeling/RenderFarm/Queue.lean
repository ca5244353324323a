/-!
Work that waits: a main queue and a priority queue that always goes first. Both hand out their oldest item,
and only the main queue is ever cleared.
-/

namespace RenderFarm

/-- Which queue an item was taken from. -/
inductive Lane where
  | priority
  | main
deriving DecidableEq, Repr

/-- Two queues, each with its oldest item first. -/
structure WorkQueue (α : Type) where
  main : List α := []
  priority : List α := []
deriving DecidableEq, Repr

namespace WorkQueue

variable {α : Type}

/-- Puts an item at the end of the main queue. -/
def pushMain (q : WorkQueue α) (a : α) : WorkQueue α :=
  { q with main := q.main ++ [a] }

/-- Puts items at the end of the main queue. -/
def extendMain (q : WorkQueue α) (as : List α) : WorkQueue α :=
  { q with main := q.main ++ as }

/-- Puts an item at the end of the priority queue. -/
def pushPriority (q : WorkQueue α) (a : α) : WorkQueue α :=
  { q with priority := q.priority ++ [a] }

/-- Takes the oldest priority item. -/
def popPriority? (q : WorkQueue α) : Option (α × WorkQueue α) :=
  match q.priority with
  | a :: rest => some (a, { q with priority := rest })
  | [] => none

/-- Takes the oldest priority item, or else the oldest item of the main queue. -/
def pop? (q : WorkQueue α) : Option (α × Lane × WorkQueue α) :=
  match q.priority, q.main with
  | a :: rest, _ => some (a, .priority, { q with priority := rest })
  | [], a :: rest => some (a, .main, { q with main := rest })
  | [], [] => none

/-- Empties the main queue. -/
def clearMain (q : WorkQueue α) : WorkQueue α :=
  { q with main := [] }

/-- Whether nothing waits. -/
def isEmpty (q : WorkQueue α) : Bool :=
  q.main.isEmpty && q.priority.isEmpty

end WorkQueue

end RenderFarm
