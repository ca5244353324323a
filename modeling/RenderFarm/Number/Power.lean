/-!
Powers of two and of ten as natural numbers: the bounds of fixed-width words, the place values of binary and
of decimal digits.
-/

namespace RenderFarm

/-- Two to a natural power. -/
def twoTo (n : Nat) : Nat :=
  Nat.pow 2 n

/-- Ten to a natural power. -/
def tenTo (n : Nat) : Nat :=
  Nat.pow 10 n

@[simp]
theorem twoTo_pos (n : Nat) : 0 < twoTo n :=
  Nat.two_pow_pos n

@[simp]
theorem tenTo_pos (n : Nat) : 0 < tenTo n :=
  Nat.pow_pos (by decide)

theorem twoTo_add (m n : Nat) : twoTo (m + n) = twoTo m * twoTo n :=
  Nat.pow_add 2 m n

theorem tenTo_add (m n : Nat) : tenTo (m + n) = tenTo m * tenTo n :=
  Nat.pow_add 10 m n

end RenderFarm
