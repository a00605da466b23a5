import Smink.Chance.Draws
import Smink.Engine.Caps
import Smink.Engine.Edge
import Smink.Engine.Shuffle
import Mathlib.Data.Fin.Tuple.Basic

/-!
# The odds of a Mines round

A shuffle reads its stream through the index choices of its steps alone, one of `i + 1` indexes at step `i`
(`buildMinesGrid_choices`). Over all choices, the mines among a set of tiles are counted by drawing without replacement
(`expect_choices`): the last choice is made first, and what remains is a shorter shuffle. So the share of the choices
that leave the tiles free of mines is the product that `minesMultiplier` divides by, and the payout is fair up to its
rounding (`mines_fair`).
-/

namespace Smink

open Finset
open scoped BigOperators

/-! ## Index choices -/

/-- The indexes the steps of a shuffle of `n` items may pick: step `i` picks one of `0..i`. -/
abbrev Choices (n : ℕ) : Type := (i : Fin n) → Fin (i + 1)

/-- A stream that makes these choices. -/
def choiceStream {n : ℕ} (c : Choices n) : Stream := fun i => if h : i < n then (c ⟨i, h⟩ : ℕ) / ((i : ℚ) + 1) else 0

/-- The choices a stream makes. -/
def streamChoices {u : Stream} (hu : u.Unit) (n : ℕ) : Choices n := fun i =>
  ⟨shuffleIndex u 0 i, Nat.lt_succ_of_le (shuffleIndex_le hu 0 i)⟩

section Choices

variable {n : ℕ}

theorem choiceStream_unit (c : Choices n) : (choiceStream c).Unit := by
  intro i
  unfold choiceStream
  split
  · rename_i h
    have hlt : ((c ⟨i, h⟩ : ℕ) : ℚ) < (i : ℚ) + 1 := by exact_mod_cast (c ⟨i, h⟩).2
    constructor
    · positivity
    · rw [div_lt_one (by positivity)]
      exact hlt
  · norm_num

theorem shuffleIndex_choiceStream (c : Choices n) (i : Fin n) : shuffleIndex (choiceStream c) 0 i = c i := by
  have hpos : (0 : ℚ) < (i : ℕ) + 1 := by positivity
  unfold shuffleIndex choiceStream
  rw [Nat.zero_add, dif_pos i.2, div_mul_cancel₀ _ hpos.ne', ← Int.cast_natCast, Int.floor_intCast, Int.toNat_natCast]

/-- The grid of any stream is the grid of its choices. -/
theorem buildMinesGrid_choices {u : Stream} (hu : u.Unit) (selection : MinesSelection) (forced : ForcedResult) :
    buildMinesGrid selection u forced =
      buildMinesGrid selection (choiceStream (streamChoices hu MINES_TILE_COUNT)) forced := by
  have hshuffle : seededShuffle (List.range MINES_TILE_COUNT) u =
      seededShuffle (List.range MINES_TILE_COUNT) (choiceStream (streamChoices hu MINES_TILE_COUNT)) := by
    unfold seededShuffle
    refine shuffleLoop_choices _ fun c _ hc => ?_
    rw [List.length_range] at hc
    have hlt : c < MINES_TILE_COUNT := by
      unfold MINES_TILE_COUNT at hc ⊢
      omega
    exact (shuffleIndex_choiceStream (streamChoices hu MINES_TILE_COUNT) ⟨c, hlt⟩).symm
  unfold buildMinesGrid
  rw [hshuffle]

end Choices

/-! ## Averages over the choices -/

section Average

variable {α : Type} {p : α → Bool} {n : ℕ}

/-- The last choice is made first. -/
theorem expect_last_choice (f : Choices (n + 1) → ℚ) :
    𝔼 c, f c = 𝔼 j : Fin (n + 1), 𝔼 c : Choices n, f (Fin.snoc (α := fun i => Fin (i + 1)) c j) := by
  rw [← Chance.expect_prod]
  exact (Fintype.expect_equiv (Fin.snocEquiv fun i : Fin (n + 1) => Fin (i + 1)) _ _ fun _ => rfl).symm

theorem shuffleLoop_snoc (c : Choices (n + 1)) (j : Fin (n + 2)) (xs : List α) :
    shuffleLoop (choiceStream (Fin.snoc (α := fun i => Fin (i + 1)) c j : Choices (n + 2))) 0 (n + 1) xs =
      shuffleLoop (choiceStream c) 0 n (swap xs (n + 1) j) := by
  have hlast := shuffleIndex_choiceStream (Fin.snoc (α := fun i => Fin (i + 1)) c j : Choices (n + 2))
    (Fin.last (n + 1))
  rw [Fin.snoc_last] at hlast
  rw [shuffleLoop, show shuffleIndex _ 0 (n + 1) = (j : ℕ) from hlast]
  refine shuffleLoop_choices _ fun i _ hi => ?_
  have hinit := shuffleIndex_choiceStream (Fin.snoc (α := fun i => Fin (i + 1)) c j : Choices (n + 2))
    (Fin.castSucc ⟨i, by omega⟩)
  rw [Fin.snoc_castSucc] at hinit
  exact hinit.trans (shuffleIndex_choiceStream c ⟨i, by omega⟩).symm

/-- The marked items among the first `d` of a shuffle are counted by drawing without replacement. -/
theorem expect_choices {d : ℕ} (hd : 1 ≤ d) (hdn : d ≤ n + 1) (g : ℕ → ℚ) {xs : List α} (hlen : n < xs.length) :
    𝔼 c : Choices (n + 1), g (marked p d (shuffleLoop (choiceStream c) 0 n xs)) =
      Chance.hypergeometric d (marked p (n + 1) xs) (n + 1 - marked p (n + 1) xs) g := by
  induction n generalizing xs with
  | zero =>
    obtain rfl : d = 1 := by omega
    have hall := Chance.hypergeometric_all (marked p 1 xs) (1 - marked p 1 xs) g
    rw [Nat.add_sub_cancel' (marked_le p 1 xs)] at hall
    simp only [shuffleLoop, Fintype.expect_const, Nat.zero_add, hall]
  | succ n ih =>
    rcases Nat.lt_or_ge d (n + 2) with hlt | hge
    · have hpos : ((n + 1 + 1 : ℕ) : ℚ) ≠ 0 := by positivity
      have hsum := sum_hypergeometric_swap (p := p) (d := d) (i := n + 1) (by omega) hlen g
      rw [expect_last_choice]
      calc 𝔼 j : Fin (n + 2), 𝔼 c : Choices (n + 1), g (marked p d (shuffleLoop (choiceStream
              (Fin.snoc (α := fun i => Fin (i + 1)) c j : Choices (n + 2))) 0 (n + 1) xs))
          = 𝔼 j : Fin (n + 2), Chance.hypergeometric d (marked p (n + 1) (swap xs (n + 1) j))
              (n + 1 - marked p (n + 1) (swap xs (n + 1) j)) g := by
            refine Finset.expect_congr rfl fun j _ => ?_
            simp only [shuffleLoop_snoc]
            exact ih (by omega) (by rw [length_swap]; omega)
        _ = (∑ j ∈ range (n + 2), Chance.hypergeometric d (marked p (n + 1) (swap xs (n + 1) j))
              (n + 1 - marked p (n + 1) (swap xs (n + 1) j)) g) / (n + 1 + 1 : ℕ) := by
            rw [Fintype.expect_eq_sum_div_card, Fintype.card_fin, Finset.sum_range]
        _ = Chance.hypergeometric d (marked p (n + 2) xs) (n + 2 - marked p (n + 2) xs) g := by
            rw [hsum, mul_div_cancel_left₀ _ hpos]
    · -- all items are drawn, in any order
      obtain rfl : d = n + 2 := by omega
      have hall := Chance.hypergeometric_all (marked p (n + 2) xs) (n + 2 - marked p (n + 2) xs) g
      rw [Nat.add_sub_cancel' (marked_le p (n + 2) xs)] at hall
      have hkeep : ∀ c : Choices (n + 2), marked p (n + 2) (shuffleLoop (choiceStream c) 0 (n + 1) xs) =
          marked p (n + 2) xs := fun c => marked_shuffleLoop (choiceStream_unit c) hlen (by omega)
      simp only [hkeep, Fintype.expect_const, hall]

end Average

/-! ## Mines -/

/-- The share of the choices for which no tile of `tiles` is a mine. -/
def minesSurvivalShare (mineCount : ℕ) (tiles : Finset ℕ) : ℚ :=
  (#{c : Choices MINES_TILE_COUNT | ∀ tile ∈ tiles, tile ∉ buildMinesGrid { mineCount } (choiceStream c) none} : ℚ) /
    Fintype.card (Choices MINES_TILE_COUNT)

section Mines

variable {mineCount : ℕ} {tiles : Finset ℕ}

/-- The tiles are free of mines when none of them is in front of the shuffle. -/
theorem free_iff (hlo : 1 ≤ mineCount) (hhi : mineCount ≤ 24) (u : Stream) :
    (∀ tile ∈ tiles, tile ∉ buildMinesGrid { mineCount } u none) ↔
      marked (fun tile => decide (tile ∈ tiles)) mineCount (shuffleLoop u 0 24 (List.range MINES_TILE_COUNT)) = 0 := by
  have hcount : min (MINES_TILE_COUNT - 1) (max mineCount 1) = mineCount := by
    simp [MINES_TILE_COUNT, hlo, hhi]
  have hgrid : ∀ tile, tile ∈ buildMinesGrid { mineCount } u none ↔
      tile ∈ (shuffleLoop u 0 24 (List.range MINES_TILE_COUNT)).take mineCount := by
    intro tile
    unfold buildMinesGrid
    rw [hcount]
    exact (sortAsc_perm _).mem_iff
  simp only [hgrid, marked, List.countP_eq_zero, decide_eq_true_iff]
  constructor
  · intro h tile ht hin
    exact h tile hin ht
  · intro h tile hin ht
    exact h tile ht hin

theorem marked_tiles (h : ∀ tile ∈ tiles, tile < MINES_TILE_COUNT) :
    marked (fun tile => decide (tile ∈ tiles)) 25 (List.range MINES_TILE_COUNT) = tiles.card := by
  have hfilter : (List.range MINES_TILE_COUNT).toFinset.filter (· ∈ tiles) = tiles := by
    ext tile
    simp only [Finset.mem_filter, List.mem_toFinset, List.mem_range]
    exact ⟨And.right, fun ht => ⟨h tile ht, ht⟩⟩
  rw [marked, List.take_of_length_le (by simp [MINES_TILE_COUNT]), List.countP_eq_length_filter,
    ← List.toFinset_card_of_nodup (List.nodup_range.filter _), List.toFinset_filter]
  simp only [decide_eq_true_iff]
  rw [hfilter]

/-- No marked item among `d` drawn. -/
theorem hypergeometric_none (d h s : ℕ) :
    Chance.hypergeometric d h s (fun k => if k = 0 then 1 else 0) = (s.choose d : ℚ) / (h + s).choose d := by
  unfold Chance.hypergeometric
  rw [Finset.sum_eq_single_of_mem 0 (by simp) fun k _ hk => by simp [hk]]
  simp

/-- Mines that miss the tiles, and tiles that miss the mines. -/
theorem choose_div_choose {n m r : ℕ} (h : m + r ≤ n) :
    ((n - r).choose m : ℚ) / n.choose m = ((n - m).choose r : ℚ) / n.choose r := by
  have hm : (n.choose m : ℚ) ≠ 0 := by exact_mod_cast (Nat.choose_pos (by omega)).ne'
  have hr : (n.choose r : ℚ) ≠ 0 := by exact_mod_cast (Nat.choose_pos (by omega)).ne'
  have h₁ := Nat.choose_mul (n := n) (k := m + r) (s := m) (by omega)
  have h₂ := Nat.choose_mul (n := n) (k := m + r) (s := r) (by omega)
  rw [Nat.add_sub_cancel_left] at h₁
  rw [Nat.add_sub_cancel] at h₂
  have hsymm : (m + r).choose m = (m + r).choose r := Nat.choose_symm_add
  rw [div_eq_div_iff hm hr]
  rw [hsymm, h₂] at h₁
  have hcast : ((n.choose r * (n - r).choose m : ℕ) : ℚ) = (n.choose m * (n - m).choose r : ℕ) := by rw [h₁]
  push_cast at hcast
  linarith

theorem survivalShare_eq (hlo : 1 ≤ mineCount) (hhi : mineCount ≤ 24)
    (htiles : ∀ tile ∈ tiles, tile < MINES_TILE_COUNT) (hcard : tiles.card ≤ 25 - mineCount) :
    minesSurvivalShare mineCount tiles = ((25 - mineCount).choose tiles.card : ℚ) / (25 : ℕ).choose tiles.card := by
  have hchoices := expect_choices (n := 24) (p := fun tile => decide (tile ∈ tiles)) hlo
    (show mineCount ≤ 24 + 1 by omega) (fun k => if k = 0 then 1 else 0)
    (show 24 < (List.range MINES_TILE_COUNT).length by simp [MINES_TILE_COUNT])
  rw [marked_tiles htiles, hypergeometric_none, Nat.add_sub_cancel' (by omega),
    choose_div_choose (by omega)] at hchoices
  rw [← hchoices, Fintype.expect_eq_sum_div_card, Finset.sum_boole, minesSurvivalShare]
  simp only [free_iff hlo hhi]
  rfl

end Mines

/-- For every number of mines, every set of tiles and every house edge: the index choices that leave the tiles free of
mines are `C(25 - m, r)` in `C(25, r)`, as `minesMultiplier` computes, and what a player gets by opening them and
cashing out is fair, less the house edge, up to the rounding to cents. -/
theorem mines_fair {mineCount : ℕ} (hlo : 1 ≤ mineCount) (hhi : mineCount ≤ 24) {tiles : Finset ℕ}
    (htiles : ∀ tile ∈ tiles, tile < MINES_TILE_COUNT) (hpos : 1 ≤ tiles.card) (hcard : tiles.card ≤ 25 - mineCount)
    (houseEdge : ℚ) :
    minesSurvivalShare mineCount tiles = ((25 - mineCount).choose tiles.card : ℚ) / (25 : ℕ).choose tiles.card ∧
      minesSurvivalShare mineCount tiles = minesSurvivalOdds ((MINES_TILE_COUNT : ℤ) - mineCount) tiles.card ∧
      |minesSurvivalShare mineCount tiles * minesMultiplier mineCount tiles.card houseEdge - (1 - houseEdge)| ≤
        5 / 1000 := by
  have hshare := survivalShare_eq hlo hhi htiles hcard
  have hsafe : (MINES_TILE_COUNT : ℤ) - mineCount = ((25 - mineCount : ℕ) : ℤ) := by
    unfold MINES_TILE_COUNT
    omega
  have hodds : minesSurvivalOdds ((25 - mineCount : ℕ) : ℤ) tiles.card =
      ((25 - mineCount).choose tiles.card : ℚ) / (25 : ℕ).choose tiles.card :=
    minesSurvivalOdds_eq (by unfold MINES_TILE_COUNT; omega) hcard
  refine ⟨hshare, by rw [hshare, hsafe, hodds], ?_⟩
  have hnum : (0 : ℚ) < (25 - mineCount).choose tiles.card := by exact_mod_cast Nat.choose_pos hcard
  have hden : (0 : ℚ) < (25 : ℕ).choose tiles.card := by exact_mod_cast Nat.choose_pos (by omega)
  have hle : ((25 - mineCount).choose tiles.card : ℚ) ≤ (25 : ℕ).choose tiles.card := by
    exact_mod_cast Nat.choose_le_choose _ (by omega)
  have hmul : minesMultiplier mineCount tiles.card houseEdge =
      round2 ((1 - houseEdge) / (((25 - mineCount).choose tiles.card : ℚ) / (25 : ℕ).choose tiles.card)) := by
    unfold minesMultiplier
    dsimp only
    rw [if_neg (by omega), hsafe, if_neg (by omega), hodds]
  rw [hshare, hmul]
  have hq : 0 < ((25 - mineCount).choose tiles.card : ℚ) / (25 : ℕ).choose tiles.card := div_pos hnum hden
  have hq₁ : ((25 - mineCount).choose tiles.card : ℚ) / (25 : ℕ).choose tiles.card ≤ 1 := (div_le_one hden).2 hle
  generalize ((25 - mineCount).choose tiles.card : ℚ) / (25 : ℕ).choose tiles.card = q at *
  have hfair : q * ((1 - houseEdge) / q) = 1 - houseEdge := mul_div_cancel₀ _ hq.ne'
  calc |q * round2 ((1 - houseEdge) / q) - (1 - houseEdge)|
      = q * |round2 ((1 - houseEdge) / q) - (1 - houseEdge) / q| := by
        rw [← abs_of_pos hq, ← abs_mul, abs_of_pos hq, mul_sub, hfair]
    _ ≤ 1 * (1 / 200) := mul_le_mul hq₁ (abs_round2_le _) (abs_nonneg _) zero_le_one
    _ = 5 / 1000 := by norm_num

/-- Two tiles of a grid with three mines, and an edge of one percent. -/
theorem mines_fair_twoTiles :
    minesSurvivalShare 3 {0, 12} = ((25 - 3).choose 2 : ℚ) / (25 : ℕ).choose 2 ∧
      minesSurvivalShare 3 {0, 12} = minesSurvivalOdds ((MINES_TILE_COUNT : ℤ) - 3) 2 ∧
      |minesSurvivalShare 3 {0, 12} * minesMultiplier 3 2 (1 / 100) - (1 - 1 / 100)| ≤ 5 / 1000 :=
  mines_fair (by decide) (by decide) (show ∀ tile ∈ ({0, 12} : Finset ℕ), tile < MINES_TILE_COUNT by decide)
    (by decide) (by decide) (1 / 100)

end Smink
