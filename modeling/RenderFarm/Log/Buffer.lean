import RenderFarm.Log.Event

/-!
The latest lines of a log. A buffer holds at least one line, and a full one drops its oldest line for a new
one.
-/

namespace RenderFarm

/-- The latest lines, oldest first. -/
structure LogBuffer where
  capacity : Nat
  lines : List String := []
  capacity_pos : 0 < capacity := by decide
  length_le : lines.length ≤ capacity := by simp

namespace LogBuffer

/-- An empty buffer for a number of lines, at least one. -/
def ofCapacity (n : Nat) : LogBuffer where
  capacity := max n 1
  capacity_pos := by omega
  length_le := Nat.zero_le _

/-- The lines with one more, without the oldest when the buffer is full. -/
def pushed (b : LogBuffer) (line : String) : List String :=
  (if b.lines.length = b.capacity then b.lines.tail else b.lines) ++ [line]

theorem length_pushed_le (b : LogBuffer) (line : String) : (b.pushed line).length ≤ b.capacity := by
  have := b.capacity_pos
  have := b.length_le
  unfold pushed
  split <;> simp <;> omega

/-- The buffer with one more line. -/
def push (b : LogBuffer) (line : String) : LogBuffer :=
  { b with lines := b.pushed line, length_le := b.length_pushed_le line }

/-- The buffer with the line of an event, if it has one. -/
def record (b : LogBuffer) (e : LogEvent) : LogBuffer :=
  match e.line? with
  | some line => b.push line
  | none => b

end LogBuffer

end RenderFarm
