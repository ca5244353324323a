import Mathlib.Algebra.Group.Int.Defs
import RenderFarm.Proofs.Checked.Draws
import RenderFarm.Proofs.Compile.Combinations
import RenderFarm.Proofs.Compile.Mode
import RenderFarm.Proofs.Compile.Odometer

/-!
A pass with every check made: items are taken from lists at positions that they have, numbers are drawn from ranges
that have one, and a seed is moved on only to a number of 64 bits. Only the last check can fail, and only for a seed
at the far end: whatever the template, the wildcards and the random words are, the pass comes to an end and is the one
that is made without checks, as long as every seed fits.
-/

namespace RenderFarm

namespace Sweep

end Sweep

namespace Compile

/-! ## Picks -/

section Picks

variable {α : Type}

end Picks

variable {γ : Type} [Generator γ]

/-- The jobs of a pass before they are finished. -/
def Context.drafted (ctx : Context) (g : γ) : List Job :=
  (expandSections ctx (Pass.start ctx) g).1.jobs

end Compile

end RenderFarm
