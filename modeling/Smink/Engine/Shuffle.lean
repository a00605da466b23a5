import Smink.Chance.Counts
import Smink.Engine.Rng
import Mathlib.Algebra.BigOperators.Fin

/-!
# What a shuffle moves

A step of the shuffle exchanges two of the first `i + 1` items, and so permutes every longer front of the list
(`take_swap_perm`); the front of length `i` loses the item it picked (`marked_swap`). `marked p m xs` counts the items
with a property among the first `m`; picking each of them once leaves the average over a draw without replacement as it
was (`sum_hypergeometric_swap`).
-/

namespace Smink

open scoped BigOperators

section Swap

variable {α : Type} {xs : List α} {i j m : Nat}

theorem swap_eq (hi : i < xs.length) (hj : j < xs.length) : swap xs i j = (xs.set i xs[j]).set j xs[i] := by
  simp [swap, List.getElem?_eq_getElem hi, List.getElem?_eq_getElem hj]

theorem swap_perm (hi : i < xs.length) (hj : j < xs.length) : (swap xs i j).Perm xs := by
  rw [swap_eq hi hj]
  exact List.set_set_perm hi hj

theorem take_swap (hi : i < xs.length) (hj : j < xs.length) (him : i < m) (hjm : j < m) :
    (swap xs i j).take m = swap (xs.take m) i j := by
  rw [swap_eq hi hj, swap_eq (by simp; omega) (by simp; omega)]
  simp only [List.take_set, List.getElem_take]

theorem take_swap_perm (hi : i < xs.length) (hj : j < xs.length) (him : i < m) (hjm : j < m) :
    ((swap xs i j).take m).Perm (xs.take m) := by
  rw [take_swap hi hj him hjm]
  exact swap_perm (by simp; omega) (by simp; omega)

/-- The item that step `i` picks goes to place `i`. -/
theorem getElem_swap (hi : i < xs.length) (hj : j < xs.length) : (swap xs i j)[i]? = some xs[j] := by
  rw [swap_eq hi hj]
  by_cases h : j = i
  · subst j
    simp [hi]
  · rw [List.getElem?_set_ne h, List.getElem?_set_self hi]

end Swap

/-! ## Counting in front -/

section Marked

variable {α : Type} {p : α → Bool} {xs : List α} {i j m : Nat}

/-- The items with the property among the first `m`. -/
def marked (p : α → Bool) (m : Nat) (xs : List α) : Nat := (xs.take m).countP p

theorem marked_le (p : α → Bool) (m : Nat) (xs : List α) : marked p m xs ≤ m :=
  List.countP_le_length.trans (List.length_take_le _ _)

theorem marked_succ {a : α} (h : xs[m]? = some a) :
    marked p (m + 1) xs = marked p m xs + if p a then 1 else 0 := by
  obtain ⟨hm, rfl⟩ := List.getElem?_eq_some_iff.1 h
  rw [marked, List.take_succ_eq_append_getElem hm, List.countP_append, List.countP_singleton]
  rfl

/-- A step takes the item it picks out of the front. -/
theorem marked_swap (hi : i < xs.length) (hj : j ≤ i) :
    marked p (i + 1) xs = marked p i (swap xs i j) + if p (xs[j]) then 1 else 0 := by
  rw [← marked_succ (getElem_swap hi (by omega))]
  exact ((take_swap_perm hi (by omega) (by omega) (by omega)).countP_eq p).symm

/-- A sum over the items in front that only depends on the property. -/
theorem sum_marked {f : Nat → ℚ} {c : Bool → ℚ} (hm : m ≤ xs.length)
    (hf : ∀ j a, j < m → xs[j]? = some a → f j = c (p a)) :
    ∑ j ∈ Finset.range m, f j = marked p m xs * c true + (m - marked p m xs) * c false := by
  induction m with
  | zero => simp [marked]
  | succ m ih =>
    have hget : xs[m]? = some (xs[m]) := List.getElem?_eq_getElem hm
    rw [Finset.sum_range_succ, ih (by omega) fun j a hj => hf j a (by omega), hf m _ (by omega) hget, marked_succ hget]
    cases p (xs[m]) <;> push_cast <;> simp <;> ring

/-- A step moves each of the items in front out of it, on average without a change to what `d` of them are worth. -/
theorem sum_hypergeometric_swap {d : Nat} (hi : d ≤ i) (hlen : i < xs.length) (g : Nat → ℚ) :
    ∑ j ∈ Finset.range (i + 1), Chance.hypergeometric d (marked p i (swap xs i j)) (i - marked p i (swap xs i j)) g =
      ((i + 1 : Nat) : ℚ) * Chance.hypergeometric d (marked p (i + 1) xs) (i + 1 - marked p (i + 1) xs) g := by
  have hcase : ∀ j a, j < i + 1 → xs[j]? = some a →
      Chance.hypergeometric d (marked p i (swap xs i j)) (i - marked p i (swap xs i j)) g =
        Chance.hypergeometric d (marked p (i + 1) xs - if p a then 1 else 0)
          (i - (marked p (i + 1) xs - if p a then 1 else 0)) g := by
    intro j a hj ha
    obtain ⟨hj', rfl⟩ := List.getElem?_eq_some_iff.1 ha
    rw [marked_swap (p := p) hlen (Nat.lt_succ_iff.1 hj), Nat.add_sub_cancel]
  rw [sum_marked (c := fun hit => Chance.hypergeometric d (marked p (i + 1) xs - if hit then 1 else 0)
    (i - (marked p (i + 1) xs - if hit then 1 else 0)) g) hlen hcase,
    Chance.hypergeometric_front (Nat.lt_succ_of_le hi) (marked_le p (i + 1) xs)]
  rfl

end Marked

/-! ## The loop -/

section Loop

variable {α : Type} {p : α → Bool} {u v : Stream} {offset offset' i m : Nat}

/-- A shuffle reads nothing but its index choices. -/
theorem shuffleLoop_choices (xs : List α)
    (h : ∀ c, 1 ≤ c → c ≤ i → shuffleIndex u offset c = shuffleIndex v offset' c) :
    shuffleLoop u offset i xs = shuffleLoop v offset' i xs := by
  induction i generalizing xs with
  | zero => rfl
  | succ i ih =>
    rw [shuffleLoop, shuffleLoop, h (i + 1) (by omega) le_rfl]
    exact ih _ fun c h₁ h₂ => h c h₁ (by omega)

theorem shuffleLoop_congr (xs : List α) (h : ∀ c, 1 ≤ c → c ≤ i → u (offset + c) = v (offset + c)) :
    shuffleLoop u offset i xs = shuffleLoop v offset i xs :=
  shuffleLoop_choices xs fun c h₁ h₂ => by rw [shuffleIndex, shuffleIndex, h c h₁ h₂]

theorem shuffleLoop_perm (hu : u.Unit) {xs : List α} (hi : i < xs.length) : (shuffleLoop u offset i xs).Perm xs := by
  induction i generalizing xs with
  | zero => exact .refl _
  | succ i ih =>
    have hj := shuffleIndex_le hu offset (i + 1)
    exact (ih (by rw [length_swap]; omega)).trans (swap_perm hi (by omega))

/-- The last steps only permute the front. -/
theorem marked_shuffleLoop (hu : u.Unit) {xs : List α} (hi : i < xs.length) (him : i < m) :
    marked p m (shuffleLoop u offset i xs) = marked p m xs := by
  induction i generalizing xs with
  | zero => rfl
  | succ i ih =>
    have hj := shuffleIndex_le hu offset (i + 1)
    rw [shuffleLoop, ih (by rw [length_swap]; omega) (by omega)]
    exact (take_swap_perm hi (by omega) him (by omega)).countP_eq p

end Loop

end Smink
