import Mathlib.Algebra.Group.Nat.Defs
import EarlyBoot.Word

/-!
Checked differences, and rounding up to a power of two. The mask of an alignment picks the
remainder, so the padding that is added is what the remainder lacks to the next multiple.
-/

namespace EarlyBoot.Word

/-- The difference of two words, which is not below zero. -/
def sub (a b : Nat) : Except Fault Nat :=
  if b ≤ a then .ok (a - b) else .error .overflow

theorem sub_of_le {a b : Nat} (h : b ≤ a) : sub a b = .ok (a - b) :=
  if_pos h

theorem fit_of_lt {width n : Nat} (h : n < 2 ^ width) : fit width n = .ok n :=
  if_pos h

theorem fit_of_le {width n : Nat} (h : 2 ^ width ≤ n) : fit width n = .error .overflow :=
  if_neg (Nat.not_lt.mpr h)

theorem add_padding {n alignment : Nat} (hpos : 0 < alignment) :
    n + (alignment - n % alignment) % alignment =
      (n + (alignment - 1)) / alignment * alignment := by
  have hlt := Nat.mod_lt n hpos
  have hsplit := Nat.div_add_mod n alignment
  rcases Nat.eq_zero_or_pos (n % alignment) with hzero | hrest
  · have hquotient : (n + (alignment - 1)) / alignment = n / alignment := by
      apply Nat.div_eq_of_lt_le
      · rw [Nat.mul_comm]; omega
      · rw [Nat.succ_mul, Nat.mul_comm]; omega
    rw [hquotient, hzero, Nat.sub_zero, Nat.mod_self, Nat.mul_comm]
    omega
  · have hquotient : (n + (alignment - 1)) / alignment = n / alignment + 1 := by
      apply Nat.div_eq_of_lt_le
      · rw [Nat.succ_mul, Nat.mul_comm]; omega
      · rw [Nat.succ_mul, Nat.succ_mul, Nat.mul_comm]; omega
    rw [hquotient, Nat.mod_eq_of_lt (by omega), Nat.succ_mul, Nat.mul_comm (n / alignment)]
    omega

/-- Rounding up to a power of two is exact, and fails only where the multiple is no word. -/
theorem alignUp_two_pow (width n k : Nat) :
    alignUp width n (2 ^ k) = fit width ((n + (2 ^ k - 1)) / 2 ^ k * 2 ^ k) := by
  have hpos : 0 < 2 ^ k := Nat.two_pow_pos k
  have hmask : 2 ^ k &&& (2 ^ k - 1) = 0 := by
    rw [Nat.and_two_pow_sub_one_eq_mod, Nat.mod_self]
  rw [alignUp, if_neg (Nat.ne_of_gt hpos)]
  simp only [hmask, ne_eq, not_true_eq_false, if_false, Nat.and_two_pow_sub_one_eq_mod, add]
  rw [add_padding hpos]

end EarlyBoot.Word
