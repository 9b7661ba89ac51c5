import Mathlib

/-!
# Aligned blocks of numbers

The numbers that agree above their lowest `k` bits form a block of `2 ^ k`
neighbours that starts at a multiple of its size.  Two blocks are nested or
apart: they meet exactly when the larger one holds both.
-/

namespace Caspian.Verified.Block

variable {k l x y z : Nat}

/-- Two numbers in one block of `2 ^ k`. -/
def Same (k x y : Nat) : Prop := x / 2 ^ k = y / 2 ^ k

instance (k x y : Nat) : Decidable (Same k x y) := by
  unfold Same
  infer_instance

/-- The first number of a block. -/
def start (k x : Nat) : Nat := x / 2 ^ k * 2 ^ k

theorem Same.symm (h : Same k x y) : Same k y x := Eq.symm h

theorem Same.trans (h : Same k x y) (h' : Same k y z) : Same k x z := Eq.trans h h'

/-- A larger block keeps what a smaller one holds. -/
theorem Same.mono (hkl : k ≤ l) (h : Same k x y) : Same l x y := by
  obtain ⟨d, rfl⟩ := Nat.exists_eq_add_of_le hkl
  unfold Same at h ⊢
  rw [pow_add, ← Nat.div_div_eq_div_mul, ← Nat.div_div_eq_div_mul, h]

/-- Two blocks that share a number lie in one block of the larger size. -/
theorem same_of_meet (hx : Same k x z) (hy : Same l y z) : Same (max k l) x y :=
  (hx.mono (Nat.le_max_left k l)).trans (hy.mono (Nat.le_max_right k l)).symm

/-- Two blocks inside one of the larger size share a number: the one that made
the smaller block. -/
theorem meet_of_same (h : Same (max k l) x y) :
    Same k x x ∧ Same l y x ∨ Same k x y ∧ Same l y y := by
  by_cases hkl : k ≤ l
  · rw [Nat.max_eq_right hkl] at h
    exact .inl ⟨rfl, h.symm⟩
  · rw [Nat.max_eq_left (by omega)] at h
    exact .inr ⟨h, rfl⟩

/-- A block as an interval. -/
theorem same_iff : Same k x z ↔ start k x ≤ z ∧ z < start k x + 2 ^ k := by
  have hpos : 0 < 2 ^ k := Nat.two_pow_pos k
  unfold Same start
  rw [eq_comm, Nat.div_eq_iff hpos]
  omega

theorem start_le (k x : Nat) : start k x ≤ x := Nat.div_mul_le_self x (2 ^ k)

theorem start_same (k x : Nat) : Same k x (start k x) :=
  same_iff.mpr ⟨le_refl _, Nat.lt_add_of_pos_right (Nat.two_pow_pos k)⟩

/-- A block does not cross a multiple of a larger power. -/
theorem start_add_le (hk : k ≤ l) (hx : x < 2 ^ l) : start k x + 2 ^ k ≤ 2 ^ l := by
  obtain ⟨d, rfl⟩ := Nat.exists_eq_add_of_le hk
  have hdiv : x / 2 ^ k < 2 ^ d := by
    rw [Nat.div_lt_iff_lt_mul (Nat.two_pow_pos k), ← pow_add, Nat.add_comm d k]
    exact hx
  calc start k x + 2 ^ k = (x / 2 ^ k + 1) * 2 ^ k := by unfold start; ring
    _ ≤ 2 ^ d * 2 ^ k := Nat.mul_le_mul_right _ hdiv
    _ = 2 ^ (k + d) := by rw [← pow_add, Nat.add_comm]

end Caspian.Verified.Block
