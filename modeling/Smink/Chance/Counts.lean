import Mathlib.Algebra.BigOperators.NatAntidiagonal
import Mathlib.Data.Nat.Choose.Sum
import Mathlib.Tactic.FieldSimp
import Mathlib.Tactic.LinearCombination
import Mathlib.Tactic.Positivity
import Mathlib.Tactic.Ring

/-!
# Averages over counts

Two counts of independent trials, each as the average it gives a payout `g` of the count: the heads among `n` fair coins
(`binomial`), and the marked items among `d` drawn without replacement (`hypergeometric`). Each satisfies the recursion
of its experiment: one coin more, or one item less that is left to draw from.
-/

namespace Smink.Chance

open Finset

/-- The average payout of the number of heads among `n` fair coins. -/
def binomial (n : ℕ) (g : ℕ → ℚ) : ℚ := (∑ j ∈ range (n + 1), (n.choose j : ℚ) * g j) / 2 ^ n

theorem binomial_zero (g : ℕ → ℚ) : binomial 0 g = g 0 := by simp [binomial]

/-- One coin more. -/
theorem binomial_succ (n : ℕ) (g : ℕ → ℚ) :
    binomial (n + 1) g = (binomial n g + binomial n fun j => g (j + 1)) / 2 := by
  have h := Finset.sum_choose_succ_mul (R := ℚ) (fun j _ => g j) n
  unfold binomial
  rw [h, pow_succ]
  field_simp

/-- The average payout of the number of marked items among `d` drawn, where `h` items are marked and `s` are not. -/
def hypergeometric (d h s : ℕ) (g : ℕ → ℚ) : ℚ :=
  (∑ x ∈ range (d + 1), (h.choose x : ℚ) * s.choose (d - x) * g x) / (h + s).choose d

theorem hypergeometric_nonneg {g : ℕ → ℚ} (hg : ∀ x, 0 ≤ g x) (d h s : ℕ) : 0 ≤ hypergeometric d h s g :=
  div_nonneg (Finset.sum_nonneg fun x _ => mul_nonneg (by positivity) (hg x)) (by positivity)

/-- All items are drawn. -/
theorem hypergeometric_all (h s : ℕ) (g : ℕ → ℚ) : hypergeometric (h + s) h s g = g h := by
  unfold hypergeometric
  rw [Finset.sum_eq_single h]
  · simp
  · intro x _ hx
    rcases Nat.lt_or_gt_of_ne hx with hlt | hgt
    · rw [Nat.choose_eq_zero_of_lt (show s < h + s - x by omega)]
      simp
    · rw [Nat.choose_eq_zero_of_lt hgt]
      simp
  · intro hx
    exact absurd (Finset.mem_range.2 (by omega)) hx

/-- One item less: absorption, also where the difference is negative. -/
theorem mul_choose_pred (h x : ℕ) : (h : ℚ) * ((h - 1).choose x : ℕ) = (h - x) * (h.choose x : ℕ) := by
  cases h with
  | zero =>
    cases x with
    | zero => simp
    | succ x => simp
  | succ h =>
    rcases Nat.lt_or_ge (h + 1) x with hlt | hle
    · rw [Nat.choose_eq_zero_of_lt hlt, Nat.choose_eq_zero_of_lt (by omega)]
      simp
    · have hmul := Nat.choose_mul_succ_eq h x
      have hcast : ((h.choose x : ℕ) : ℚ) * (h + 1) = ((h + 1).choose x : ℕ) * (((h + 1 : ℕ) : ℚ) - x) := by
        rw [← Nat.cast_sub hle]
        exact_mod_cast hmul
      rw [Nat.add_sub_cancel]
      push_cast at hcast ⊢
      linear_combination hcast

theorem mul_hypergeometric_left (d h s : ℕ) (g : ℕ → ℚ) :
    h * hypergeometric d (h - 1) s g =
      (∑ x ∈ range (d + 1), ((h : ℚ) - x) * ((h.choose x : ℚ) * s.choose (d - x) * g x)) / (h + s - 1).choose d := by
  cases h with
  | zero =>
    have hz : ∀ x ∈ range (d + 1), ((0 : ℕ) - x : ℚ) * (((0 : ℕ).choose x : ℚ) * s.choose (d - x) * g x) = 0 := by
      intro x _
      cases x <;> simp
    rw [Finset.sum_congr rfl hz]
    simp
  | succ h =>
    rw [hypergeometric, mul_div_assoc', Finset.mul_sum, Nat.add_sub_cancel, show h + 1 + s - 1 = h + s by omega]
    congr 1
    refine Finset.sum_congr rfl fun x _ => ?_
    have hpred := mul_choose_pred (h + 1) x
    rw [Nat.add_sub_cancel] at hpred
    linear_combination (s.choose (d - x) : ℚ) * g x * hpred

theorem mul_hypergeometric_right (d h s : ℕ) (g : ℕ → ℚ) :
    s * hypergeometric d h (s - 1) g =
      (∑ x ∈ range (d + 1), ((s : ℚ) - (d - x : ℕ)) * ((h.choose x : ℚ) * s.choose (d - x) * g x)) /
        (h + s - 1).choose d := by
  cases s with
  | zero =>
    have hz : ∀ x ∈ range (d + 1),
        ((0 : ℕ) - (d - x : ℕ) : ℚ) * ((h.choose x : ℚ) * (0 : ℕ).choose (d - x) * g x) = 0 := by
      intro x _
      cases d - x <;> simp
    rw [Finset.sum_congr rfl hz]
    simp
  | succ s =>
    rw [hypergeometric, mul_div_assoc', Finset.mul_sum, Nat.add_sub_cancel, show h + (s + 1) - 1 = h + s by omega]
    congr 1
    refine Finset.sum_congr rfl fun x _ => ?_
    have hpred := mul_choose_pred (s + 1) (d - x)
    rw [Nat.add_sub_cancel] at hpred
    linear_combination (h.choose x : ℚ) * g x * hpred

/-- One item is set aside before the draw. -/
theorem hypergeometric_step {d h s : ℕ} (hd : d < h + s) (g : ℕ → ℚ) :
    ((h + s : ℕ) : ℚ) * hypergeometric d h s g =
      h * hypergeometric d (h - 1) s g + s * hypergeometric d h (s - 1) g := by
  have hone : (0 : ℚ) < (h + s - 1).choose d := by exact_mod_cast Nat.choose_pos (by omega)
  have hall : (0 : ℚ) < (h + s).choose d := by exact_mod_cast Nat.choose_pos hd.le
  have hpred := mul_choose_pred (h + s) d
  rw [mul_hypergeometric_left, mul_hypergeometric_right, ← add_div, ← Finset.sum_add_distrib, hypergeometric,
    mul_div_assoc', div_eq_div_iff hall.ne' hone.ne', mul_right_comm, hpred, Finset.sum_mul, Finset.mul_sum]
  refine Finset.sum_congr rfl fun x hx => ?_
  rw [Nat.cast_sub (by have := Finset.mem_range.1 hx; omega)]
  push_cast
  ring

/-- One of the first `m` items is set aside, and `h` of the `m` are marked. -/
theorem hypergeometric_front {d m h : ℕ} (hm : d < m) (hh : h ≤ m) (g : ℕ → ℚ) :
    (m : ℚ) * hypergeometric d h (m - h) g =
      h * hypergeometric d (h - 1) (m - 1 - (h - 1)) g + (m - h) * hypergeometric d h (m - 1 - h) g := by
  have hstep := hypergeometric_step (d := d) (h := h) (s := m - h) (by omega) g
  rw [Nat.add_sub_cancel' hh, Nat.cast_sub hh] at hstep
  -- an item that is not there has weight zero
  have hmarked : (h : ℚ) * hypergeometric d (h - 1) (m - 1 - (h - 1)) g = h * hypergeometric d (h - 1) (m - h) g := by
    rcases Nat.eq_zero_or_pos h with rfl | hpos
    · simp
    · rw [show m - 1 - (h - 1) = m - h by omega]
  rw [hmarked, show m - 1 - h = m - h - 1 by omega]
  exact hstep

end Smink.Chance
