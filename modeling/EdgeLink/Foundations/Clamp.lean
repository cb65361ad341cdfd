import Mathlib.Algebra.Order.Floor.Ring
import Mathlib.Data.Rat.Floor
import Mathlib.Tactic.Linarith

/-!
# Bounded and rounded steps

A controller moves a number within bounds and rounds it, and one asks how far it got from a target.

* `abs_clamp_sub_le`: clamping does not lengthen a step from a number within the bounds.
* `floor_half_mem`: whole bounds bound the rounded number.
* `abs_sub_le_iff_of_lt`, `abs_sub_le_iff_of_gt`: a step ends no farther from a target exactly when
  it ends between where it began and the mirror image of that behind the target.
-/

namespace EdgeLink

/-! ## Clamping -/

section Clamp

variable {α : Type*} [LinearOrder α] {lo hi x : α}

/-- `x`, or the bound it is beyond. -/
def clamp (lo hi x : α) : α := max lo (min hi x)

theorem le_clamp (lo hi x : α) : lo ≤ clamp lo hi x := le_max_left ..

theorem clamp_le (h : lo ≤ hi) : clamp lo hi x ≤ hi := max_le h (min_le_left ..)

theorem clamp_eq_self (hlo : lo ≤ x) (hhi : x ≤ hi) : clamp lo hi x = x := by
  rw [clamp, min_eq_right hhi, max_eq_right hlo]

theorem clamp_eq_max (h : x ≤ hi) : clamp lo hi x = max lo x := by rw [clamp, min_eq_right h]

theorem clamp_eq_min (hlo : lo ≤ hi) (h : lo ≤ x) : clamp lo hi x = min hi x := by
  rw [clamp, max_eq_right (le_min hlo h)]

theorem clamp_mono {y : α} (h : x ≤ y) : clamp lo hi x ≤ clamp lo hi y :=
  max_le_max le_rfl (min_le_min le_rfl h)

end Clamp

variable {α : Type*} [Field α] [LinearOrder α] [IsStrictOrderedRing α]

/-- Clamping does not lengthen a step that starts within the bounds. -/
theorem abs_clamp_sub_le {lo hi x t : α} (hlo : lo ≤ t) (hhi : t ≤ hi) : |clamp lo hi x - t| ≤ |x - t| := by
  rcases le_total x t with h | h
  · have hle : clamp lo hi x ≤ t := by
      rw [← clamp_eq_self hlo hhi]
      exact clamp_mono h
    have hge : x ≤ clamp lo hi x := by
      rw [clamp_eq_max (h.trans hhi)]
      exact le_max_right ..
    rw [abs_of_nonpos (sub_nonpos.2 hle), abs_of_nonpos (sub_nonpos.2 h)]
    linarith
  · have hge : t ≤ clamp lo hi x := by
      rw [← clamp_eq_self hlo hhi]
      exact clamp_mono h
    have hle : clamp lo hi x ≤ x := by
      rw [clamp_eq_min (hlo.trans hhi) (hlo.trans h)]
      exact min_le_right ..
    rw [abs_of_nonneg (sub_nonneg.2 hge), abs_of_nonneg (sub_nonneg.2 h)]
    linarith

/-! ## Rounding half up -/

section Rounding

variable [FloorRing α] {x : α} {z : ℤ}

omit [IsStrictOrderedRing α] in
theorem floor_half_le : ⌊x + 1 / 2⌋ ≤ z ↔ x + 1 / 2 < (z : α) + 1 := by
  rw [← Int.lt_add_one_iff, Int.floor_lt]
  push_cast
  exact Iff.rfl

theorem abs_floor_half_sub_le (x : α) : |(⌊x + 1 / 2⌋ : α) - x| ≤ 1 / 2 := by
  have hle := Int.floor_le (x + 1 / 2)
  have hlt := Int.lt_floor_add_one (x + 1 / 2)
  rw [abs_le]
  constructor <;> linarith

/-- Whole bounds bound the rounded number. -/
theorem floor_half_mem {lo hi : ℤ} (hlo : (lo : α) ≤ x) (hhi : x ≤ hi) :
    lo ≤ ⌊x + 1 / 2⌋ ∧ ⌊x + 1 / 2⌋ ≤ hi := by
  rw [Int.le_floor, floor_half_le]
  constructor <;> linarith

end Rounding

/-! ## The distance to a target -/

section Distance

variable {n t y : α}

/-- From above the target, a step ends no farther when it ends between start and mirror image. -/
theorem abs_sub_le_iff_of_gt (h : n < t) : |y - n| ≤ |t - n| ↔ 2 * n - t ≤ y ∧ y ≤ t := by
  rw [abs_of_pos (sub_pos.2 h), abs_le]
  constructor
  · rintro ⟨hl, hr⟩
    constructor <;> linarith
  · rintro ⟨hl, hr⟩
    constructor <;> linarith

theorem abs_sub_le_iff_of_lt (h : t < n) : |y - n| ≤ |t - n| ↔ t ≤ y ∧ y ≤ 2 * n - t := by
  rw [abs_of_neg (sub_neg.2 h), abs_le]
  constructor
  · rintro ⟨hl, hr⟩
    constructor <;> linarith
  · rintro ⟨hl, hr⟩
    constructor <;> linarith

end Distance

end EdgeLink
