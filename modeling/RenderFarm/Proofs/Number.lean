import RenderFarm.Job.Range

/-!
Comparing doubles. Finite doubles compare in one of three ways, and the other way round when they are exchanged;
so of two of them one is at most the other.
-/

namespace RenderFarm.Double

open Float.Model (UnpackedFloat)

/-- Exchanging two doubles exchanges how they compare. -/
theorem compare_swap (a b : UnpackedFloat) : b.compare a = (a.compare b).map Ordering.swap := by
  cases a <;> cases b
  case finite.finite s m e _ t n f _ =>
    have swapped : (compare f e).then (compare n m) = ((compare e f).then (compare m n)).swap := by
      rw [Ordering.swap_then, Int.compare_swap, Nat.compare_swap]
    cases s <;> cases t
    case negative.negative => exact congrArg (fun order => some order.swap) swapped
    case positive.positive => exact congrArg some swapped
    all_goals rfl
  case infinity.infinity s t | finite.infinity s _ _ _ t | infinity.finite s t _ _ _ => cases s <;> cases t <;> rfl
  case infinity.zero s _ | finite.zero s _ _ _ _ => cases s <;> rfl
  case zero.infinity t | zero.finite t _ _ _ => cases t <;> rfl
  all_goals rfl

theorem exists_compare {a b : UnpackedFloat} (finite : a.isFinite) (finite' : b.isFinite) :
    ∃ order, a.compare b = some order := by
  cases a with
  | infinity s => cases finite
  | notANumber => cases finite
  | zero s =>
    cases b with
    | infinity t => cases finite'
    | notANumber => cases finite'
    | zero t => exact ⟨.eq, rfl⟩
    | finite t n f _ => cases t <;> exact ⟨_, rfl⟩
  | finite s m e _ =>
    cases b with
    | infinity t => cases finite'
    | notANumber => cases finite'
    | zero t => cases s <;> exact ⟨_, rfl⟩
    | finite t n f _ => cases s <;> cases t <;> exact ⟨_, rfl⟩

variable {x y : Float}

theorem le_iff_compare : x ≤ y ↔ ∃ order, x.toModel.compare y.toModel = some order ∧ order.isLE := by
  change decide (x.toModel ≤ y.toModel) = true ↔ _
  rw [decide_eq_true_iff]
  exact Option.any_eq_true _ _

theorem lt_iff_compare : x < y ↔ x.toModel.compare y.toModel = some .lt := by
  change decide (x.toModel < y.toModel) = true ↔ _
  rw [decide_eq_true_iff]
  exact beq_iff_eq

/-- Where a finite double is not below another, the other is at most that one. -/
theorem le_of_not_lt (finite : x.isFinite) (finite' : y.isFinite) (above : ¬ x < y) : y ≤ x := by
  obtain ⟨order, compared⟩ := exists_compare finite finite'
  rw [lt_iff_compare] at above
  refine le_iff_compare.mpr ⟨order.swap, ?_, ?_⟩
  · exact (compare_swap _ _).trans (congrArg _ compared)
  · cases order with
    | lt => exact absurd compared above
    | eq | gt => rfl

theorem le_of_lt (below : x < y) : x ≤ y :=
  le_iff_compare.mpr ⟨.lt, lt_iff_compare.mp below, rfl⟩

/-- Of two finite doubles one is at most the other. -/
theorem le_of_not_le (finite : x.isFinite) (finite' : y.isFinite) (above : ¬ x ≤ y) : y ≤ x :=
  le_of_not_lt finite finite' fun below => above (le_of_lt below)

theorem lt_irrefl (x : Float) : ¬ x < x := by
  intro below
  have compared := lt_iff_compare.mp below
  have swapped : x.toModel.compare x.toModel = (x.toModel.compare x.toModel).map Ordering.swap :=
    compare_swap _ _
  rw [compared] at swapped
  cases swapped

theorem le_self (finite : x.isFinite) : x ≤ x :=
  Decidable.byContradiction fun above => above (le_of_not_le finite finite above)

end RenderFarm.Double
