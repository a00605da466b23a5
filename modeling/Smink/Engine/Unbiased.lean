import Smink.Engine.Fair
import Mathlib.Data.Nat.Factorial.BigOperators

/-!
# The shuffle is unbiased

A shuffle of `n` items makes one of `n !` sequences of index choices (`card_choices`). Its step `i` fixes the item of
place `i` for good, and the rest of the run never looks behind it (`getElem?_shuffleLoop`); so the last place of a
permutation tells the first choice, and what remains is a shorter shuffle (`existsUnique_choices`). Different sequences
make different permutations of distinct items, and every permutation is made.
-/

namespace Smink

open scoped Nat

section Places

variable {α : Type} {u : Stream} {offset i j k n : ℕ} {xs ys : List α}

/-- A step leaves the other places alone. -/
theorem getElem?_swap_of_ne (hi : i ≠ k) (hj : j ≠ k) : (swap xs i j)[k]? = xs[k]? := by
  unfold swap
  split
  · rw [List.getElem?_set_ne hj, List.getElem?_set_ne hi]
  · rfl

/-- The steps from `n` down leave the places above `n` alone. -/
theorem getElem?_shuffleLoop (hu : u.Unit) (offset : ℕ) (xs : List α) (hk : n < k) :
    (shuffleLoop u offset n xs)[k]? = xs[k]? := by
  induction n generalizing xs with
  | zero => rfl
  | succ n ih =>
    have hj := shuffleIndex_le hu offset (n + 1)
    rw [shuffleLoop, ih _ (by omega), getElem?_swap_of_ne (by omega) (by omega)]

/-- Places of a list without repeats hold different items. -/
theorem place_unique {a : α} (h : xs.Nodup) (hi : xs[i]? = some a) (hj : xs[j]? = some a) : i = j := by
  obtain ⟨hi', hai⟩ := List.getElem?_eq_some_iff.1 hi
  obtain ⟨hj', haj⟩ := List.getElem?_eq_some_iff.1 hj
  exact (h.getElem_inj_iff).1 (hai.trans haj.symm)

theorem eq_of_tail_eq (h : ys.Perm xs) (hnodup : xs.Nodup) (hrest : ∀ i, 0 < i → ys[i]? = xs[i]?) : ys = xs := by
  cases ys with
  | nil => exact (List.nil_perm.1 h).symm
  | cons b ys =>
    cases xs with
    | nil => exact absurd h.length_eq (by simp)
    | cons a xs =>
      have htail : ys = xs := List.ext_getElem? fun i => hrest (i + 1) (Nat.succ_pos i)
      subst htail
      have hb : b ∉ ys := (List.nodup_cons.1 (h.nodup_iff.2 hnodup)).1
      rcases List.mem_cons.1 (h.mem_iff.1 List.mem_cons_self) with hba | hmem
      · rw [hba]
      · exact absurd hmem hb

end Places

/-! ## Permutations and choices -/

section Choices

variable {α : Type} {n : ℕ}

theorem card_choices (n : ℕ) : Fintype.card (Choices n) = n ! := by
  rw [Fintype.card_pi]
  simp only [Fintype.card_fin]
  rw [Fin.prod_univ_eq_prod_range fun i => i + 1]
  exact Finset.prod_range_add_one_eq_factorial n

/-- One item leaves no choice. -/
theorem choices_one_eq (c d : Choices 1) : c = d := by
  funext i
  have hc := (c i).2
  have hd := (d i).2
  exact Fin.ext (by omega)

/-- What the steps from `n` down can make of distinct items, each sequence of choices makes once. -/
theorem existsUnique_choices {xs ys : List α} (hnodup : xs.Nodup) (hlen : n < xs.length) (hperm : ys.Perm xs)
    (hrest : ∀ i, n < i → ys[i]? = xs[i]?) : ∃! c : Choices (n + 1), shuffleLoop (choiceStream c) 0 n xs = ys := by
  induction n generalizing xs with
  | zero => exact ⟨fun _ => 0, (eq_of_tail_eq hperm hnodup hrest).symm, fun _ _ => choices_one_eq _ _⟩
  | succ n ih =>
    have hys : ys.Nodup := hperm.nodup_iff.2 hnodup
    -- the item that ends up in the last place is in front, at a place `j`
    have hlast : n + 1 < ys.length := by rwa [hperm.length_eq]
    obtain ⟨j, hj, hitem⟩ := List.getElem_of_mem (hperm.mem_iff.1 (List.getElem_mem hlast))
    have hxj : xs[j]? = some ys[n + 1] := List.getElem?_eq_some_iff.2 ⟨hj, hitem⟩
    have hyn : ys[n + 1]? = some ys[n + 1] := List.getElem?_eq_getElem hlast
    have hfront : j < n + 2 := by
      by_contra hge
      have hsame : n + 1 = j := place_unique hys hyn ((hrest j (by omega)).trans hxj)
      omega
    have hswap : ∀ {k}, (hk : k < n + 2) → (swap xs (n + 1) k)[n + 1]? = xs[k]? := by
      intro k hk
      have hk' : k < xs.length := by omega
      rw [getElem_swap hlen hk', List.getElem?_eq_getElem hk']
    have hrest' : ∀ i, n < i → ys[i]? = (swap xs (n + 1) j)[i]? := by
      intro i hi
      rcases Nat.lt_or_ge (n + 1) i with hgt | hle
      · rw [getElem?_swap_of_ne (by omega) (by omega)]
        exact hrest i hgt
      · obtain rfl : i = n + 1 := by omega
        rw [hswap hfront, hxj, hyn]
    obtain ⟨c, hc, huniq⟩ := ih ((swap_perm hlen hj).nodup_iff.2 hnodup) (by rw [length_swap]; omega)
      (hperm.trans (swap_perm hlen hj).symm) hrest'
    refine ⟨Fin.snoc (α := fun i => Fin (i + 1)) c ⟨j, hfront⟩, (shuffleLoop_snoc c ⟨j, hfront⟩ xs).trans hc, ?_⟩
    intro d hd
    -- another sequence makes the same first choice, and then the same others
    rw [← Fin.snoc_init_self d] at hd ⊢
    have hloop := (shuffleLoop_snoc (Fin.init d) (d (Fin.last (n + 1))) xs).symm.trans hd
    have hplace := getElem?_shuffleLoop (choiceStream_unit (Fin.init d)) 0
      (swap xs (n + 1) (d (Fin.last (n + 1)))) (Nat.lt_succ_self n)
    rw [hloop, hswap (d (Fin.last (n + 1))).2, hyn] at hplace
    have hsame : d (Fin.last (n + 1)) = ⟨j, hfront⟩ := Fin.ext (place_unique hnodup hplace.symm hxj)
    rw [hsame] at hloop ⊢
    rw [huniq _ hloop]

/-- The stream makes these choices in a shuffle at the offset. -/
def Makes (u : Stream) (cursorOffset : ℕ) (c : Choices n) : Prop := ∀ i : Fin n, shuffleIndex u cursorOffset i = c i

/-- Every sequence of choices is made by a stream, at every offset. -/
theorem exists_makes (cursorOffset : ℕ) (c : Choices n) : ∃ u : Stream, u.Unit ∧ Makes u cursorOffset c := by
  refine ⟨fun cursor => choiceStream c (cursor - cursorOffset), fun _ => choiceStream_unit c _, fun i => ?_⟩
  rw [← shuffleIndex_choiceStream c i]
  unfold shuffleIndex
  dsimp only
  rw [Nat.add_sub_cancel_left, Nat.zero_add]

/-- A shuffle is the one of its choices, wherever they are drawn. -/
theorem seededShuffle_makes {u : Stream} {cursorOffset : ℕ} {items : List α} {c : Choices items.length}
    (h : Makes u cursorOffset c) :
    seededShuffle items u cursorOffset = shuffleLoop (choiceStream c) 0 (items.length - 1) items :=
  shuffleLoop_choices items fun i hpos hle => by
    have hlt : i < items.length := by omega
    rw [h ⟨i, hlt⟩, ← shuffleIndex_choiceStream c ⟨i, hlt⟩]

/-- Distinct items: each permutation is made by one sequence of choices. -/
theorem existsUnique_shuffle {items ys : List α} (hnodup : items.Nodup) (hperm : ys.Perm items) :
    ∃! c : Choices items.length, shuffleLoop (choiceStream c) 0 (items.length - 1) items = ys := by
  cases items with
  | nil =>
    obtain rfl := hperm.eq_nil
    exact ⟨fun i => i.elim0, rfl, fun c _ => funext fun i => i.elim0⟩
  | cons a items =>
    have hbehind : ∀ i, items.length < i → ys[i]? = (a :: items)[i]? := by
      intro i hi
      rw [List.getElem?_eq_none (by rw [hperm.length_eq, List.length_cons]; omega),
        List.getElem?_eq_none (by rw [List.length_cons]; omega)]
    exact existsUnique_choices (n := items.length) hnodup (by simp) hperm hbehind

/-- **`seededShuffle` is an unbiased permutation.** Every step stays in range and the result is a permutation; and of
the `n !` sequences of choices for `n` distinct items, each permutation is what exactly one sequence makes, whichever
stream makes the choices. -/
theorem seededShuffle_unbiased (items : List α) (cursorOffset : ℕ) :
    (∀ u : Stream, u.Unit → (seededShuffle items u cursorOffset).Perm items ∧
      ∀ i < items.length, shuffleIndex u cursorOffset i ≤ i) ∧
    Fintype.card (Choices items.length) = items.length ! ∧
    (∀ c : Choices items.length, ∃ u : Stream, u.Unit ∧ Makes u cursorOffset c) ∧
    (items.Nodup → ∀ ys, ys.Perm items → ∃! c : Choices items.length,
      ∀ u : Stream, u.Unit → Makes u cursorOffset c → seededShuffle items u cursorOffset = ys) := by
  refine ⟨fun u hu => ⟨seededShuffle_perm hu items cursorOffset, fun i _ => shuffleIndex_le hu cursorOffset i⟩,
    card_choices _, exists_makes cursorOffset, fun hnodup ys hperm => ?_⟩
  obtain ⟨c, hc, huniq⟩ := existsUnique_shuffle hnodup hperm
  refine ⟨c, fun u _ hmakes => (seededShuffle_makes hmakes).trans hc, fun d hd => huniq d ?_⟩
  obtain ⟨u, hu, hmakes⟩ := exists_makes cursorOffset d
  exact (seededShuffle_makes hmakes).symm.trans (hd u hu hmakes)

/-- One of the six orders of three tiles, shuffled at the offset of the second floor. -/
theorem seededShuffle_unbiased_three : ∃! c : Choices 3,
    ∀ u : Stream, u.Unit → Makes u 80 c → seededShuffle [0, 1, 2] u 80 = [2, 0, 1] :=
  (seededShuffle_unbiased [0, 1, 2] 80).2.2.2 (by decide) [2, 0, 1] (by decide)

end Choices

end Smink
