import Mathlib.Algebra.Order.BigOperators.Expect
import Mathlib.Data.Fintype.Fin
import Mathlib.Data.Rat.Floor
import Mathlib.Tactic.FieldSimp
import Mathlib.Tactic.Linarith
import Mathlib.Tactic.Positivity
import Mathlib.Tactic.Ring

/-!
# Independent draws

A family of independent uniform draws is a function `w : ι → A` on finite types, and an expectation the average over all
of them. One draw can be made first (`expect_first`), so an expectation over a run that reads its draws one by one is
computed step by step.

The draws of the second part are the fractions `k / N`. How often such a draw falls below a threshold, and how often it
picks a given one of `m` indexes, is exact up to `1 / N`.
-/

namespace Smink.Chance

open Finset
open scoped BigOperators

/-! ## One draw out of many -/

section Independent

variable {ι A : Type} [Fintype ι] [DecidableEq ι] [Fintype A] [Nonempty A]

theorem expect_prod {α β : Type} [Fintype α] [Fintype β] (f : α → β → ℚ) :
    𝔼 p : α × β, f p.1 p.2 = 𝔼 a, 𝔼 b, f a b := by
  rw [← Finset.expect_product', Finset.univ_product_univ]

/-- Exchanging a coordinate with a draw outside. -/
def exchange (i : ι) : (ι → A) × A ≃ (ι → A) × A where
  toFun p := (Function.update p.1 i p.2, p.1 i)
  invFun p := (Function.update p.1 i p.2, p.1 i)
  left_inv p := by simp
  right_inv p := by simp

/-- Drawing a coordinate again makes no difference. -/
theorem expect_update (i : ι) (f : (ι → A) → ℚ) : 𝔼 w, 𝔼 a, f (Function.update w i a) = 𝔼 w, f w := by
  calc 𝔼 w, 𝔼 a, f (Function.update w i a)
      = 𝔼 p : (ι → A) × A, f (Function.update p.1 i p.2) := (expect_prod _).symm
    _ = 𝔼 p : (ι → A) × A, f p.1 := Fintype.expect_equiv (exchange i) _ _ fun _ => rfl
    _ = 𝔼 w, 𝔼 _a : A, f w := expect_prod fun w _ => f w
    _ = 𝔼 w, f w := by simp only [Fintype.expect_const]

/-- A coordinate that is read apart from the others may be drawn first. -/
theorem expect_first (i : ι) (f : A → (ι → A) → ℚ) (h : ∀ a w b, f a (Function.update w i b) = f a w) :
    𝔼 w, f (w i) w = 𝔼 a, 𝔼 w, f a w := by
  rw [← expect_update i, Finset.expect_comm]
  simp only [Function.update_self, h]

theorem expect_coordinate (i : ι) (f : A → ℚ) : 𝔼 w : ι → A, f (w i) = 𝔼 a, f a := by
  rw [expect_first i (fun a _ => f a) fun _ _ _ => rfl]
  simp only [Fintype.expect_const]

end Independent

/-! ## Fractions as draws -/

section Fractions

variable {N : ℕ}

theorem card_lt {x : ℚ} (h : x ≤ N) : #{k : Fin N | ((k : ℕ) : ℚ) < x} = ⌈x⌉₊ := by
  have hceil : ⌈x⌉₊ ≤ N := Nat.ceil_le.2 h
  simp only [← Nat.lt_ceil]
  rw [Fin.card_filter_val_lt, min_eq_right hceil]

variable [NeZero N]

/-- How often a draw falls below a threshold. -/
theorem expect_lt {y : ℚ} (h : y ≤ 1) :
    𝔼 k : Fin N, (if ((k : ℕ) : ℚ) / N < y then (1 : ℚ) else 0) = (⌈y * N⌉₊ : ℚ) / N := by
  have hN : (0 : ℚ) < N := by exact_mod_cast NeZero.pos N
  have hle : y * N ≤ N := by nlinarith
  rw [Fintype.expect_eq_sum_div_card, Finset.sum_boole, Fintype.card_fin]
  simp only [div_lt_iff₀ hN]
  rw [card_lt hle]

theorem le_expect_lt {y : ℚ} (h : y ≤ 1) :
    y ≤ 𝔼 k : Fin N, (if ((k : ℕ) : ℚ) / N < y then (1 : ℚ) else 0) := by
  have hN : (0 : ℚ) < N := by exact_mod_cast NeZero.pos N
  rw [expect_lt h, le_div_iff₀ hN]
  exact Nat.le_ceil _

theorem expect_lt_le {y : ℚ} (h₀ : 0 ≤ y) (h : y ≤ 1) :
    𝔼 k : Fin N, (if ((k : ℕ) : ℚ) / N < y then (1 : ℚ) else 0) ≤ y + 1 / N := by
  have hN : (0 : ℚ) < N := by exact_mod_cast NeZero.pos N
  have hceil : (⌈y * N⌉₊ : ℚ) < y * N + 1 := Nat.ceil_lt_add_one (by positivity)
  rw [expect_lt h, div_le_iff₀ hN]
  field_simp
  linarith

/-! ## Picking an index -/

/-- The index that a number of `[0, 1)` picks among `m`. -/
def index (m : ℕ) (x : ℚ) : ℕ := ⌊x * m⌋₊

theorem index_lt {m : ℕ} {x : ℚ} (h₀ : 0 ≤ x) (h₁ : x < 1) (hm : 0 < m) : index m x < m := by
  have hm' : (0 : ℚ) < m := by exact_mod_cast hm
  rw [index, Nat.floor_lt (by positivity)]
  nlinarith

/-- The draw picks index `j` between two thresholds. -/
theorem index_eq_iff {m j : ℕ} {x : ℚ} (h₀ : 0 ≤ x) (hm : 0 < m) :
    index m x = j ↔ ¬ x < (j : ℚ) / m ∧ x < ((j : ℚ) + 1) / m := by
  have hm' : (0 : ℚ) < m := by exact_mod_cast hm
  rw [index, Nat.floor_eq_iff (by positivity), not_lt, div_le_iff₀ hm', lt_div_iff₀ hm']

section Index

variable {m : ℕ} (hm : 0 < m)
include hm

omit [NeZero N] in
theorem expect_index_eq {j : ℕ} :
    𝔼 k : Fin N, (if index m (((k : ℕ) : ℚ) / N) = j then (1 : ℚ) else 0) =
      (𝔼 k : Fin N, if ((k : ℕ) : ℚ) / N < ((j : ℚ) + 1) / m then (1 : ℚ) else 0) -
        𝔼 k : Fin N, if ((k : ℕ) : ℚ) / N < (j : ℚ) / m then (1 : ℚ) else 0 := by
  have hm' : (0 : ℚ) < m := by exact_mod_cast hm
  rw [← Finset.expect_sub_distrib]
  refine Finset.expect_congr rfl fun k _ => ?_
  have hx : (0 : ℚ) ≤ ((k : ℕ) : ℚ) / N := by positivity
  have hmono : (j : ℚ) / m ≤ ((j : ℚ) + 1) / m := by gcongr; linarith
  by_cases hlo : ((k : ℕ) : ℚ) / N < (j : ℚ) / m
  · simp [index_eq_iff hx hm, hlo, hlo.trans_le hmono]
  · simp [index_eq_iff hx hm, hlo]

/-- An average over the picked index is a sum over the indexes. -/
theorem expect_index (g : ℕ → ℚ) :
    𝔼 k : Fin N, g (index m (((k : ℕ) : ℚ) / N)) =
      ∑ j ∈ range m, (𝔼 k : Fin N, if index m (((k : ℕ) : ℚ) / N) = j then (1 : ℚ) else 0) * g j := by
  have hN : (0 : ℚ) < N := by exact_mod_cast NeZero.pos N
  simp only [Finset.expect_mul]
  rw [← Finset.expect_sum_comm]
  refine Finset.expect_congr rfl fun k _ => ?_
  have hlt : index m (((k : ℕ) : ℚ) / N) < m := by
    refine index_lt (by positivity) ?_ hm
    rw [div_lt_one hN]
    exact_mod_cast k.2
  simp [Finset.sum_ite_eq, hlt]

/-- Every index is picked with the same odds, up to `1 / N`. -/
theorem expect_index_le {g : ℕ → ℚ} (hg : ∀ j < m, 0 ≤ g j) :
    𝔼 k : Fin N, g (index m (((k : ℕ) : ℚ) / N)) ≤ (1 / m + 1 / N) * ∑ j ∈ range m, g j := by
  have hm' : (0 : ℚ) < m := by exact_mod_cast hm
  rw [expect_index hm, Finset.mul_sum]
  refine Finset.sum_le_sum fun j hj => mul_le_mul_of_nonneg_right ?_ (hg j (Finset.mem_range.1 hj))
  have hj' : (j : ℚ) + 1 ≤ m := by exact_mod_cast Finset.mem_range.1 hj
  have hone : ((j : ℚ) + 1) / m ≤ 1 := by rw [div_le_one hm']; exact hj'
  have hup := expect_lt_le (N := N) (y := ((j : ℚ) + 1) / m) (by positivity) hone
  have hlo := le_expect_lt (N := N) (y := (j : ℚ) / m) (by rw [div_le_one hm']; linarith)
  rw [expect_index_eq hm]
  have hsplit : ((j : ℚ) + 1) / m = j / m + 1 / m := add_div _ _ _
  linarith

theorem le_expect_index {g : ℕ → ℚ} (hg : ∀ j < m, 0 ≤ g j) :
    (1 / m - 1 / N) * ∑ j ∈ range m, g j ≤ 𝔼 k : Fin N, g (index m (((k : ℕ) : ℚ) / N)) := by
  have hm' : (0 : ℚ) < m := by exact_mod_cast hm
  rw [expect_index hm, Finset.mul_sum]
  refine Finset.sum_le_sum fun j hj => mul_le_mul_of_nonneg_right ?_ (hg j (Finset.mem_range.1 hj))
  have hj' : (j : ℚ) + 1 ≤ m := by exact_mod_cast Finset.mem_range.1 hj
  have hone : ((j : ℚ) + 1) / m ≤ 1 := by rw [div_le_one hm']; exact hj'
  have hlo := le_expect_lt (N := N) (y := ((j : ℚ) + 1) / m) hone
  have hup := expect_lt_le (N := N) (y := (j : ℚ) / m) (by positivity) (by rw [div_le_one hm']; linarith)
  rw [expect_index_eq hm]
  have hsplit : ((j : ℚ) + 1) / m = j / m + 1 / m := add_div _ _ _
  linarith

end Index

end Fractions

end Smink.Chance
