import Smink.Chance.Draws
import Smink.Engine.Resolver
import Mathlib.Tactic.LinearCombination

/-!
# The expected multiplier of an honest round

`seededFloat` returns one of the `2 ^ 52` fractions of that denominator. `expectedMultiplier n` is the average of what
`resolveRound` pays, over independent uniform draws of the first `n` cursors. Here are the games that read one cursor:
what they pay on a win, times how often the draw lets them win.
-/

namespace Smink

open scoped BigOperators

/-- How many values `seededFloat` can return. -/
def FLOAT_COUNT : Nat := 2 ^ 52

instance : NeZero FLOAT_COUNT := ⟨by norm_num [FLOAT_COUNT]⟩

/-- The 52 bits that `seededFloat` reads. -/
abbrev Draw := Fin FLOAT_COUNT

def Draw.toRat (k : Draw) : ℚ := ((k : ℕ) : ℚ) / FLOAT_COUNT

theorem Draw.toRat_nonneg (k : Draw) : 0 ≤ k.toRat := by
  unfold Draw.toRat
  positivity

/-- The stream whose first `n` values are drawn. -/
def drawStream {n : ℕ} (w : Fin n → Draw) : Stream := fun cursor => if h : cursor < n then (w ⟨cursor, h⟩).toRat else 0

theorem drawStream_of_lt {n cursor : ℕ} (h : cursor < n) (w : Fin n → Draw) :
    drawStream w cursor = (w ⟨cursor, h⟩).toRat := dif_pos h

/-- The first values of every seed triple are such a stream. -/
theorem seededFloat_eq_drawStream (D : Digest) (seeds : SeedContext) {n cursor : ℕ} (h : cursor < n) :
    seededFloat D seeds cursor = drawStream (fun i : Fin n =>
      (⟨D.hmac seeds.serverSeed s!"{seeds.clientSeed}:{seeds.nonce}:{(i : ℕ)}", D.hmac_lt _ _⟩ : Draw)) cursor := by
  rw [drawStream_of_lt h, Draw.toRat, seededFloat]
  norm_num [FLOAT_COUNT]

def paid (result : Option RoundResult) : ℚ := (result.map RoundResult.multiplier).getD 0

/-- The multiplier of an honest round, on average over the first `n` cursors. -/
def expectedMultiplier (n : ℕ) (slug : GameSlug) (selection : GameSelection) (config : RoundConfig) : ℚ :=
  𝔼 w : Fin n → Draw, paid (resolveRound slug selection (drawStream w) config none)

/-! ## One cursor -/

section Cursor

variable {n cursor : ℕ}

/-- A round that reads one cursor. -/
theorem expect_cursor (h : cursor < n) (f : ℚ → ℚ) :
    𝔼 w : Fin n → Draw, f (drawStream w cursor) = 𝔼 k : Draw, f k.toRat := by
  simp only [drawStream_of_lt h]
  exact Chance.expect_coordinate (⟨cursor, h⟩ : Fin n) fun k : Draw => f k.toRat

/-- A cursor that is read apart from the others may be drawn first. -/
theorem expect_cursor_first (h : cursor < n) (f : ℚ → Stream → ℚ)
    (hf : ∀ x u v, (∀ c, c ≠ cursor → u c = v c) → f x u = f x v) :
    𝔼 w : Fin n → Draw, f (drawStream w cursor) (drawStream w) =
      𝔼 k : Draw, 𝔼 w : Fin n → Draw, f k.toRat (drawStream w) := by
  simp only [drawStream_of_lt h]
  refine Chance.expect_first ⟨cursor, h⟩ (fun (k : Draw) w => f k.toRat (drawStream w)) fun k w b => hf _ _ _ ?_
  intro c hc
  unfold drawStream
  split
  · rw [Function.update_of_ne (by simpa [Fin.ext_iff] using hc)]
  · rfl

/-- A win below a threshold. -/
theorem expect_below (won : ℚ → Bool) {multiplier y : ℚ} (hm : 0 ≤ multiplier) (h₀ : 0 ≤ y) (h₁ : y ≤ 1)
    (hwon : ∀ x, 0 ≤ x → won x = true → x < y) :
    𝔼 k : Draw, (if won k.toRat then multiplier else 0) ≤ multiplier * (y + 1 / FLOAT_COUNT) := by
  calc 𝔼 k : Draw, (if won k.toRat then multiplier else 0)
      ≤ 𝔼 k : Draw, multiplier * (if k.toRat < y then 1 else 0) := by
        refine Finset.expect_le_expect fun k _ => ?_
        split_ifs with hk hy
        · rw [mul_one]
        · exact absurd (hwon _ k.toRat_nonneg hk) hy
        · rw [mul_one]; exact hm
        · rw [mul_zero]
    _ = multiplier * 𝔼 k : Draw, (if k.toRat < y then (1 : ℚ) else 0) := (Finset.mul_expect _ _ _).symm
    _ ≤ multiplier * (y + 1 / FLOAT_COUNT) := by
        refine mul_le_mul_of_nonneg_left ?_ hm
        exact Chance.expect_lt_le (N := FLOAT_COUNT) h₀ h₁

/-- A win from a threshold on. -/
theorem expect_above (won : ℚ → Bool) {multiplier y : ℚ} (hm : 0 ≤ multiplier) (h₁ : y ≤ 1)
    (hwon : ∀ x, 0 ≤ x → won x = true → y ≤ x) :
    𝔼 k : Draw, (if won k.toRat then multiplier else 0) ≤ multiplier * (1 - y) := by
  calc 𝔼 k : Draw, (if won k.toRat then multiplier else 0)
      ≤ 𝔼 k : Draw, multiplier * (1 - if k.toRat < y then 1 else 0) := by
        refine Finset.expect_le_expect fun k _ => ?_
        split_ifs with hk hy
        · exact absurd (hwon _ k.toRat_nonneg hk) (not_le.2 hy)
        · rw [sub_zero, mul_one]
        · rw [sub_self, mul_zero]
        · rw [sub_zero, mul_one]; exact hm
    _ = multiplier * (1 - 𝔼 k : Draw, (if k.toRat < y then (1 : ℚ) else 0)) := by
        rw [← Finset.mul_expect, Finset.expect_sub_distrib, Fintype.expect_const]
    _ ≤ multiplier * (1 - y) := by
        refine mul_le_mul_of_nonneg_left ?_ hm
        have h : y ≤ 𝔼 k : Draw, (if k.toRat < y then (1 : ℚ) else 0) := Chance.le_expect_lt (N := FLOAT_COUNT) h₁
        linarith

end Cursor

/-! ## Dice -/

section SingleDraw

variable {n : ℕ} {houseEdge maxMultiplier : ℚ}

/-- The board has 10000 rolls and the odds are rounded twice; the edge covers both. -/
theorem fairMultiplier_mul_le (he : 2 / 100 ≤ houseEdge) {p : ℚ} (h₀ : 2 / 100 ≤ p) (h₁ : p ≤ 98 / 100) :
    fairMultiplier p houseEdge * (p + 1 / 20000 + 1 / FLOAT_COUNT) ≤ 1 := by
  have hp : 0 < p := by linarith
  have hround : fairMultiplier p houseEdge ≤ (98 / 100) / p + 1 / 200 := by
    rw [fairMultiplier, if_neg (not_le.2 hp)]
    refine (round2_le _).trans (add_le_add ?_ le_rfl)
    gcongr
    linarith
  have hinv : (98 / 100) / p ≤ 49 := by
    rw [div_le_iff₀ hp]
    linarith
  have hmul : (98 / 100) / p * p = 98 / 100 := div_mul_cancel₀ _ hp.ne'
  calc fairMultiplier p houseEdge * (p + 1 / 20000 + 1 / FLOAT_COUNT)
      ≤ ((98 / 100) / p + 1 / 200) * (p + 1 / 20000 + 1 / FLOAT_COUNT) := by gcongr
    _ = 98 / 100 + p / 200 + ((98 / 100) / p + 1 / 200) * (1 / 20000 + 1 / FLOAT_COUNT) := by
        linear_combination hmul
    _ ≤ 98 / 100 + (98 / 100) / 200 + (49 + 1 / 200) * (1 / 20000 + 1 / FLOAT_COUNT) := by gcongr
    _ ≤ 1 := by norm_num [FLOAT_COUNT]

/-- The dice win, as a function of the draw. -/
def diceDrawWon (s : DiceSelection) (x : ℚ) : Bool := diceWon s (clamp (diceRoll s x none) 0 (9999 / 100))

theorem expected_dice (hn : 0 < n) (s : DiceSelection) :
    expectedMultiplier n .dice (.dice s) { houseEdge, maxMultiplier } =
      𝔼 k : Draw, if diceDrawWon s k.toRat then fairMultiplier (diceWinChance s) houseEdge else 0 :=
  expect_cursor hn fun x => if diceDrawWon s x then fairMultiplier (diceWinChance s) houseEdge else 0

theorem diceWinChance_mem {s : DiceSelection} (h₂ : 2 ≤ s.target) (h₉₈ : s.target ≤ 98) :
    2 / 100 ≤ diceWinChance s ∧ diceWinChance s ≤ 98 / 100 := by
  unfold diceWinChance
  split <;> constructor <;> linarith

theorem dice_le_one (hn : 0 < n) (he : 2 / 100 ≤ houseEdge) (he₁ : houseEdge ≤ 1) {s : DiceSelection}
    (h₂ : 2 ≤ s.target) (h₉₈ : s.target ≤ 98) :
    expectedMultiplier n .dice (.dice s) { houseEdge, maxMultiplier } ≤ 1 := by
  have hm := fairMultiplier_nonneg he₁ (diceWinChance s)
  obtain ⟨hlo, hhi⟩ := diceWinChance_mem h₂ h₉₈
  rw [expected_dice hn]
  obtain ⟨target, direction⟩ := s
  rcases direction.under_or_over with rfl | rfl
  · have hwin : ∀ x, 0 ≤ x → diceDrawWon ⟨target, Direction.under⟩ x = true → x < target / 100 + 1 / 20000 := by
      intro x _ hwon
      simp only [diceDrawWon, diceWon, clamp, diceRoll, decide_eq_true_eq, min_lt_iff, max_lt_iff] at hwon
      have := lt_round2 (x * 100)
      rcases hwon with h | h <;> linarith
    exact (expect_below _ hm (by linarith) (by linarith) hwin).trans (fairMultiplier_mul_le he hlo hhi)
  · have hwin : ∀ x, 0 ≤ x → diceDrawWon ⟨target, Direction.over⟩ x = true → target / 100 - 1 / 20000 ≤ x := by
      intro x _ hwon
      simp only [diceDrawWon, diceWon, clamp, diceRoll, decide_eq_true_eq, gt_iff_lt, lt_min_iff, lt_max_iff] at hwon
      have := round2_le (x * 100)
      rcases hwon.2 with h | h <;> linarith
    have hodds : 1 - (target / 100 - 1 / 20000) ≤ (100 - target) / 100 + 1 / 20000 + 1 / FLOAT_COUNT := by
      have : (0 : ℚ) ≤ 1 / FLOAT_COUNT := by positivity
      linarith
    exact (expect_above _ hm (by linarith) hwin).trans
      ((mul_le_mul_of_nonneg_left hodds hm).trans (fairMultiplier_mul_le he hlo hhi))

/-! ## Coin Flip -/

def coinDrawWon (s : CoinFlipSelection) (x : ℚ) : Bool :=
  decide ((if x < 1 / 2 then CoinSide.heads else .tails) = s.side)

theorem expected_coinFlip (hn : 0 < n) (s : CoinFlipSelection) :
    expectedMultiplier n .coinFlip (.coinFlip s) { houseEdge, maxMultiplier } =
      𝔼 k : Draw, if coinDrawWon s k.toRat then fairMultiplier (1 / 2) houseEdge else 0 :=
  expect_cursor hn fun x => if coinDrawWon s x then fairMultiplier (1 / 2) houseEdge else 0

theorem coinFlip_le_one (hn : 0 < n) (he : 2 / 100 ≤ houseEdge) (he₁ : houseEdge ≤ 1) (s : CoinFlipSelection) :
    expectedMultiplier n .coinFlip (.coinFlip s) { houseEdge, maxMultiplier } ≤ 1 := by
  have hm := fairMultiplier_nonneg he₁ (1 / 2)
  have hhalf : fairMultiplier (1 / 2) houseEdge * (1 / 2 + 1 / FLOAT_COUNT) ≤ 1 := by
    refine le_trans (mul_le_mul_of_nonneg_left ?_ hm) (fairMultiplier_mul_le he (by norm_num) (by norm_num))
    linarith
  rw [expected_coinFlip hn]
  obtain ⟨side⟩ := s
  cases side with
  | heads =>
    have hwin : ∀ x, 0 ≤ x → coinDrawWon ⟨.heads⟩ x = true → x < 1 / 2 := by
      intro x _ hwon
      by_contra hx
      rw [coinDrawWon, if_neg hx] at hwon
      exact absurd hwon (by decide)
    exact (expect_below _ hm (by norm_num) (by norm_num) hwin).trans hhalf
  | tails =>
    have hwin : ∀ x, 0 ≤ x → coinDrawWon ⟨.tails⟩ x = true → 1 / 2 ≤ x := by
      intro x _ hwon
      by_contra hx
      rw [coinDrawWon, if_pos (not_le.1 hx)] at hwon
      exact absurd hwon (by decide)
    have hodds : (1 : ℚ) - 1 / 2 ≤ 1 / 2 + 1 / FLOAT_COUNT := by
      have : (0 : ℚ) ≤ 1 / FLOAT_COUNT := by positivity
      linarith
    exact (expect_above _ hm (by norm_num) hwin).trans ((mul_le_mul_of_nonneg_left hodds hm).trans hhalf)

/-! ## Limbo -/

/-- The limbo win, as a function of the draw. -/
def limboDrawWon (target houseEdge maxMultiplier x : ℚ) : Bool :=
  decide (limboResult target x houseEdge maxMultiplier none ≥ target)

theorem expected_limbo (hn : 0 < n) (s : LimboSelection) :
    expectedMultiplier n .limbo (.limbo s) { houseEdge, maxMultiplier } =
      𝔼 k : Draw, if limboDrawWon (clamp s.target (101 / 100) maxMultiplier) houseEdge maxMultiplier k.toRat then
        round2 (clamp s.target (101 / 100) maxMultiplier) else 0 :=
  expect_cursor hn fun x =>
    if limboDrawWon (clamp s.target (101 / 100) maxMultiplier) houseEdge maxMultiplier x then
      round2 (clamp s.target (101 / 100) maxMultiplier) else 0

/-- A win at a target takes a draw below the inverse of the target, up to the rounding of the result. -/
theorem limboDrawWon_lt (he : 2 / 100 ≤ houseEdge) {target x : ℚ} (ht : 101 / 100 ≤ target)
    (h : limboDrawWon target houseEdge maxMultiplier x = true) : x * (target - 1 / 200) ≤ 98 / 100 := by
  have hresult : target ≤ limboResult target x houseEdge maxMultiplier none := by
    simpa [limboDrawWon] using h
  have hraw : target - 1 / 200 ≤ (1 - houseEdge) / max x (1 / 1000000000) := by
    have hround := round2_le (clamp ((1 - houseEdge) / max x (1 / 1000000000)) 1 maxMultiplier)
    have hclamp : target - 1 / 200 ≤ clamp ((1 - houseEdge) / max x (1 / 1000000000)) 1 maxMultiplier := by
      simp only [limboResult] at hresult
      linarith
    rcases le_max_iff.1 (le_min_iff.1 hclamp).2 with h | h
    · exact h
    · linarith
  have hx : x ≤ max x (1 / 1000000000) := le_max_left _ _
  have hpos : (0 : ℚ) < max x (1 / 1000000000) := lt_max_of_lt_right (by norm_num)
  rw [le_div_iff₀ hpos] at hraw
  nlinarith

theorem limbo_le_one (hn : 0 < n) (he : 2 / 100 ≤ houseEdge) (hlo : 101 / 100 ≤ maxMultiplier)
    (hhi : maxMultiplier ≤ 1000) (s : LimboSelection) :
    expectedMultiplier n .limbo (.limbo s) { houseEdge, maxMultiplier } ≤ 1 := by
  rw [expected_limbo hn]
  have ht : 101 / 100 ≤ clamp s.target (101 / 100) maxMultiplier := le_min hlo (le_max_right _ _)
  have ht₁ : clamp s.target (101 / 100) maxMultiplier ≤ 1000 := (clamp_le _ _ _).trans hhi
  generalize clamp s.target (101 / 100) maxMultiplier = target at ht ht₁ ⊢
  have hpos : 0 < target - 1 / 200 := by linarith
  have hF : (0 : ℚ) < 1 / FLOAT_COUNT := by have := NeZero.pos FLOAT_COUNT; positivity
  have hm : 0 ≤ round2 target := round2_nonneg (by linarith)
  have hdiv : 98 / 100 / (target - 1 / 200) ≤ 98 / 100 / (201 / 200) := by gcongr; linarith
  have hwin : ∀ x, 0 ≤ x → limboDrawWon target houseEdge maxMultiplier x = true →
      x < 98 / 100 / (target - 1 / 200) + 1 / FLOAT_COUNT := by
    intro x _ hwon
    have hle : x ≤ 98 / 100 / (target - 1 / 200) := (le_div_iff₀ hpos).2 (limboDrawWon_lt he ht hwon)
    linarith
  have hone : 98 / 100 / (target - 1 / 200) + 1 / (FLOAT_COUNT : ℚ) ≤ 1 := by
    have : (98 / 100 / (201 / 200) : ℚ) + 1 / FLOAT_COUNT ≤ 1 := by norm_num [FLOAT_COUNT]
    linarith
  calc 𝔼 k : Draw, (if limboDrawWon target houseEdge maxMultiplier k.toRat then round2 target else 0)
      ≤ round2 target * (98 / 100 / (target - 1 / 200) + 1 / FLOAT_COUNT + 1 / FLOAT_COUNT) :=
        expect_below _ hm (by positivity) hone hwin
    _ ≤ (target + 1 / 200) * (98 / 100 / (target - 1 / 200) + 1 / FLOAT_COUNT + 1 / FLOAT_COUNT) := by
        gcongr
        exact round2_le target
    _ = 98 / 100 + 1 / 100 * (98 / 100 / (target - 1 / 200)) + (target + 1 / 200) * (2 * (1 / FLOAT_COUNT)) := by
        have hmul : 98 / 100 / (target - 1 / 200) * (target - 1 / 200) = 98 / 100 := div_mul_cancel₀ _ hpos.ne'
        linear_combination hmul
    _ ≤ 98 / 100 + 1 / 100 * (98 / 100 / (201 / 200)) + (1000 + 1 / 200) * (2 * (1 / FLOAT_COUNT)) := by gcongr
    _ ≤ 1 := by norm_num [FLOAT_COUNT]

end SingleDraw

/-! ## Wheel -/

theorem wheelSegment_eq {u : Stream} {segments : List ℚ} (hlen : segments.length = 12) :
    wheelSegment segments u none = Chance.index 12 (u 0) := by
  simp only [wheelSegment, seededInt, hlen, Chance.index]
  norm_num [Int.floor_toNat]

/-- Every wheel pays back more than it takes: its twelve multipliers add up to more than twelve. -/
theorem one_lt_wheel {n : ℕ} (hn : 0 < n) (s : WheelSelection) (config : RoundConfig) :
    1 < expectedMultiplier n .wheel (.wheel s) config := by
  have hlen : (WHEEL_SEGMENTS s.risk).length = 12 := by cases s.risk <;> rfl
  have hcursor : expectedMultiplier n .wheel (.wheel s) config =
      𝔼 k : Draw, (WHEEL_SEGMENTS s.risk).getD (Chance.index 12 k.toRat) 0 := by
    rw [← expect_cursor hn fun x => (WHEEL_SEGMENTS s.risk).getD (Chance.index 12 x) 0]
    refine Finset.expect_congr rfl fun w _ => ?_
    rw [← wheelSegment_eq hlen]
    rfl
  have hsum : 1 < (1 / (12 : ℕ) - 1 / (FLOAT_COUNT : ℚ)) * ∑ j ∈ Finset.range 12, (WHEEL_SEGMENTS s.risk).getD j 0 := by
    cases s.risk <;> simp [Finset.sum_range_succ, WHEEL_SEGMENTS, FLOAT_COUNT] <;> norm_num
  rw [hcursor]
  exact hsum.trans_le (Chance.le_expect_index (N := FLOAT_COUNT) (by norm_num) fun j _ =>
    getD_nonneg (wheelSegments_nonneg _) j)

end Smink
