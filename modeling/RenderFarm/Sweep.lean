/-!
Sweeps over checkpoints. A template is run once for every pair of a checkpoint and a checkpoint of the second
pass, the second ones changing fastest. Fixed seeds move on once per round over all pairs.
-/

namespace RenderFarm

/-- What comes next in a sweep. -/
inductive SweepStep where
  /-- The next checkpoint of the second pass. -/
  | highres
  /-- The next checkpoint, and the first one of the second pass. -/
  | model
  /-- Nothing: every pair has been run. -/
  | complete
deriving DecidableEq, Repr

/-- Checkpoints that take the place of the template's in one pass. -/
structure SweepOverrides where
  checkpoint : Option String := none
  highresCheckpoint : Option String := none
deriving DecidableEq, Repr

/-- The state of a sweep; without any checkpoints it is inactive. -/
structure Sweep where
  models : List String := []
  modelIndex : Nat := 0
  highresModels : List String := []
  highresIndex : Nat := 0
  /-- Passes made, over all rounds. -/
  loops : UInt32 := 0
deriving DecidableEq, Repr

namespace Sweep

/-- A sweep at its first pair. -/
def ofLists (models highresModels : List String) : Sweep :=
  { models, highresModels }

/-- Whether there is anything to go through. -/
def isActive (s : Sweep) : Bool :=
  !s.models.isEmpty || !s.highresModels.isEmpty

/-- The checkpoint of this pass. -/
def model? (s : Sweep) : Option String :=
  s.models[s.modelIndex]?

/-- The checkpoint of this pass for the second pass of its jobs. -/
def highresModel? (s : Sweep) : Option String :=
  s.highresModels[s.highresIndex]?

/-- The checkpoints of this pass. -/
def overrides (s : Sweep) : SweepOverrides :=
  ⟨s.model?, s.highresModel?⟩

/-- Goes on to the next pair. After the last one the sweep stays where it is. -/
def advance (s : Sweep) : Sweep × SweepStep :=
  if s.highresIndex + 1 < s.highresModels.length then
    ({ s with highresIndex := s.highresIndex + 1 }, .highres)
  else if s.modelIndex + 1 < s.models.length then
    ({ s with modelIndex := s.modelIndex + 1, highresIndex := 0 }, .model)
  else (s, .complete)

/-- Goes back to the first pair and keeps the number of passes. -/
def restart (s : Sweep) : Sweep :=
  { s with modelIndex := 0, highresIndex := 0 }

/-- Counts a pass. -/
def recordLoop (s : Sweep) : Sweep :=
  { s with loops := s.loops + 1 }

/-- The number of pairs; an empty list counts as one. -/
def pairs (s : Sweep) : Nat :=
  max s.models.length 1 * max s.highresModels.length 1

/-- What is added to a fixed seed in this pass: the number of rounds completed. -/
def seedOffset (s : Sweep) : Int64 :=
  Int64.ofNat (if s.isActive then s.loops.toNat / s.pairs else s.loops.toNat)

end Sweep

/-- The seed of a pass. A negative seed, which lets the backend choose, never moves. -/
def seedForLoop (base offset : Int64) : Int64 :=
  if base < 0 then base else base + offset

end RenderFarm
