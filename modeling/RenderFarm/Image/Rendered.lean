import RenderFarm.Path

/-!
Images as a device hands them out.
-/

namespace RenderFarm

/-- An image in a file, with the backend's description of it and the seed that the backend used. -/
structure RenderedImage where
  path : Path
  infotext : String := ""
  seed : Option Int64 := none
deriving DecidableEq, Repr

end RenderFarm
