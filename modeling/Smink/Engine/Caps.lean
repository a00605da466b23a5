import Smink.Engine.Layouts
import Smink.Engine.Resolver
import Mathlib.Data.Nat.Choose.Basic
import Mathlib.Tactic.LinearCombination

/-!
# How high a multiplier is

Mines and Towers price a step by its fair odds less the house edge, and stop at nothing; `minesMultiplier_le_iff` and
`towersMultiplier_le_iff` say which odds stay below a cap. The games that settle at once are below their caps by
themselves, by the range of what a player may choose, by their table, or because they take the minimum with it.
-/

namespace Smink

/-! ## Rounding below a cap -/

theorem round2_le_iff (x : ℚ) (n : ℤ) : round2 x ≤ n / 100 ↔ x < n / 100 + 1 / 200 := by
  have hfloor : mathRound (x * 100) ≤ n ↔ x * 100 + 1 / 2 < (n + 1 : ℤ) := by
    unfold mathRound
    rw [← Int.lt_add_one_iff, Int.floor_lt]
  have hcast : round2 x ≤ n / 100 ↔ mathRound (x * 100) ≤ n := by
    unfold round2
    rw [div_le_div_iff_of_pos_right (by norm_num)]
    exact Int.cast_le
  rw [hcast, hfloor]
  push_cast
  constructor <;> intro h <;> linarith

theorem mathRound_mono {x y : ℚ} (h : x ≤ y) : mathRound x ≤ mathRound y := Int.floor_le_floor (by linarith)

theorem roundMoney_mono {x y : ℚ} (h : x ≤ y) : roundMoney x ≤ roundMoney y := mathRound_mono (by linarith)

theorem toFixed_mono {x y : ℚ} (digits : Nat) (h : x ≤ y) : toFixed digits x ≤ toFixed digits y := by
  have hpow : (0 : ℚ) < 10 ^ digits := by positivity
  have scale : ∀ {a b : ℚ}, a ≤ b →
      (mathRound (a * 10 ^ digits) : ℚ) / 10 ^ digits ≤ mathRound (b * 10 ^ digits) / 10 ^ digits := by
    intro a b hab
    have hround := mathRound_mono (mul_le_mul_of_nonneg_right hab hpow.le)
    exact div_le_div_of_nonneg_right (by exact_mod_cast hround) hpow.le
  have nonneg : ∀ {a : ℚ}, 0 ≤ a → (0 : ℚ) ≤ mathRound (a * 10 ^ digits) / 10 ^ digits := by
    intro a ha
    have hround := mathRound_nonneg (mul_nonneg ha hpow.le)
    exact div_nonneg (by exact_mod_cast hround) hpow.le
  unfold toFixed
  split_ifs with hx hy hy
  · exact scale h
  · linarith
  · have hneg := nonneg (a := -x) (by linarith)
    have hpos := nonneg hy
    linarith
  · have hneg := scale (a := -y) (b := -x) (by linarith)
    linarith

/-- A stored multiplier is below every cap with two decimals that the exact one is below. -/
theorem toFixed_le {x : ℚ} {n : ℤ} (h : x ≤ n / 100) : toFixed 4 x ≤ n / 100 := by
  rw [← toFixed_of_cents n]
  exact toFixed_mono 4 h

/-! ## Grid games -/

/-- The fair odds of `revealed` safe tiles in a row. -/
def minesFair (mineCount revealed : Nat) : ℚ :=
  (MINES_TILE_COUNT.choose revealed : ℚ) / (MINES_TILE_COUNT - mineCount).choose revealed

/-- The fair odds of climbing that many floors. -/
def towersFair (difficulty : TowersDifficulty) (climbed : Nat) : ℚ := 1 / towersSurviveRate difficulty ^ climbed

/-- Fair odds less the house edge round to no more than the cap. -/
def OddsWithin (houseEdge odds cap : ℚ) : Prop := (1 - houseEdge) * odds < cap + 1 / 200

instance (houseEdge odds cap : ℚ) : Decidable (OddsWithin houseEdge odds cap) :=
  inferInstanceAs (Decidable ((1 - houseEdge) * odds < cap + 1 / 200))

/-- One more draw without replacement. -/
theorem choose_ratio_succ {n safe k : ℕ} (hk : k < safe) (hs : safe ≤ n) :
    (safe.choose k / n.choose k : ℚ) * ((safe - k) / (n - k)) = safe.choose (k + 1) / n.choose (k + 1) := by
  have succ_mul : ∀ {m : ℕ}, k < m → (m.choose (k + 1) : ℚ) * (k + 1) = m.choose k * (m - k) := by
    intro m hm
    rw [← Nat.cast_sub hm.le]
    exact_mod_cast Nat.choose_succ_right_eq m k
  have hn : (n.choose k : ℚ) ≠ 0 := by exact_mod_cast (Nat.choose_pos (by omega)).ne'
  have hn' : (n.choose (k + 1) : ℚ) ≠ 0 := by exact_mod_cast (Nat.choose_pos (by omega)).ne'
  have hlt : (k : ℚ) < n := by exact_mod_cast lt_of_lt_of_le hk hs
  have hsub : (n : ℚ) - k ≠ 0 := by linarith
  have hk' : (k : ℚ) + 1 ≠ 0 := by positivity
  rw [div_mul_div_comm, div_eq_div_iff (mul_ne_zero hn hsub) hn']
  apply mul_left_cancel₀ hk'
  linear_combination (safe.choose k * (safe - k) : ℚ) * succ_mul (lt_of_lt_of_le hk hs) -
    (n.choose k * (n - k) : ℚ) * succ_mul hk

theorem minesSurvivalOdds_eq {safe : Nat} (hs : safe ≤ MINES_TILE_COUNT) : ∀ {revealed : Nat}, revealed ≤ safe →
    minesSurvivalOdds safe revealed = (safe.choose revealed : ℚ) / MINES_TILE_COUNT.choose revealed
  | 0, _ => by simp [minesSurvivalOdds]
  | k + 1, hk => by
    rw [minesSurvivalOdds, minesSurvivalOdds_eq hs (by omega), ← choose_ratio_succ (by omega) hs, Int.cast_natCast]

/-- What a Mines round pays is below a cap exactly when its fair odds are. -/
theorem minesMultiplier_le_iff {mineCount revealed : Nat} (houseEdge : ℚ) (n : ℤ) (hpos : 1 ≤ revealed)
    (hle : revealed + mineCount ≤ MINES_TILE_COUNT) :
    minesMultiplier mineCount revealed houseEdge ≤ n / 100 ↔
      OddsWithin houseEdge (minesFair mineCount revealed) (n / 100) := by
  have hsafe : (MINES_TILE_COUNT : ℤ) - mineCount = ((MINES_TILE_COUNT - mineCount : ℕ) : ℤ) := by omega
  unfold minesMultiplier
  dsimp only
  rw [if_neg (by omega), if_neg (by omega), hsafe, minesSurvivalOdds_eq (by omega) (by omega), round2_le_iff]
  unfold OddsWithin minesFair
  rw [div_div_eq_mul_div, mul_div_assoc]

theorem towersMultiplier_le_iff (difficulty : TowersDifficulty) {climbed : Nat} (houseEdge : ℚ) (n : ℤ)
    (hpos : 1 ≤ climbed) : towersMultiplier difficulty climbed houseEdge ≤ n / 100 ↔
      OddsWithin houseEdge (towersFair difficulty climbed) (n / 100) := by
  unfold towersMultiplier
  rw [if_neg (by omega), round2_le_iff]
  unfold OddsWithin towersFair
  rw [mul_one_div]

/-! ## Games that settle at once -/

section Instant

variable {houseEdge maxMultiplier : ℚ} {n : ℕ}

theorem fairMultiplier_le {winChance : ℚ} (h : 1 - houseEdge ≤ n / 100 * winChance) :
    fairMultiplier winChance houseEdge ≤ n / 100 := by
  unfold fairMultiplier
  split_ifs with hw
  · positivity
  · have hdiv : (1 - houseEdge) / winChance ≤ n / 100 := (div_le_iff₀ (not_le.1 hw)).2 h
    exact (round2_le_iff _ n).2 (by push_cast; linarith)

theorem ifWon_le {multiplier cap : ℚ} (hcap : 0 ≤ cap) (h : multiplier ≤ cap) (won : Bool) :
    (if won then multiplier else 0) ≤ cap := by
  cases won
  · exact hcap
  · exact h

/-- The highest price of a roll is that of the narrowest band, two in a hundred. -/
theorem resolveDice_le {selection : DiceSelection} (hlo : 2 ≤ selection.target) (hhi : selection.target ≤ 98)
    (h : (1 - houseEdge) * 50 ≤ n / 100) (u : Stream) (forced : ForcedResult) :
    (resolveDice selection u houseEdge forced).multiplier ≤ n / 100 := by
  refine ifWon_le (by positivity) (fairMultiplier_le ?_) _
  have hn : (0 : ℚ) ≤ n / 100 := by positivity
  have hband : (2 : ℚ) / 100 ≤ diceWinChance selection := by
    unfold diceWinChance
    split <;> linarith
  have hmul := mul_le_mul_of_nonneg_left hband hn
  linarith

theorem resolveCoinFlip_le (h : (1 - houseEdge) * 2 ≤ n / 100) (selection : CoinFlipSelection) (u : Stream)
    (forced : ForcedResult) : (resolveCoinFlip selection u houseEdge forced).multiplier ≤ n / 100 :=
  ifWon_le (by positivity) (fairMultiplier_le (by linarith)) _

theorem resolveLimbo_le (selection : LimboSelection) (u : Stream) (forced : ForcedResult) :
    (resolveLimbo selection u houseEdge forced (n / 100)).multiplier ≤ n / 100 := by
  refine ifWon_le (by positivity) ((round2_le_iff _ n).2 ?_) _
  have hclamp := clamp_le selection.target (101 / 100) (n / 100)
  push_cast
  linarith

theorem wheelSegments_le (risk : Risk) : ∀ m ∈ WHEEL_SEGMENTS risk, m ≤ 50 := by
  cases risk <;> decide +kernel

theorem resolveWheel_le (selection : WheelSelection) (u : Stream) (forced : ForcedResult) :
    (resolveWheel selection u houseEdge forced).multiplier ≤ 50 :=
  getD_of (P := fun m => m ≤ 50) (by norm_num) (wheelSegments_le selection.risk) _

theorem resolvePlinko_le (selection : PlinkoSelection) (u : Stream) (forced : ForcedResult) :
    (resolvePlinko selection u houseEdge forced maxMultiplier).multiplier ≤ maxMultiplier := min_le_right _ _

theorem resolveKeno_le (selection : KenoSelection) (u : Stream) (forced : ForcedResult) :
    (resolveKeno selection u houseEdge forced maxMultiplier).multiplier ≤ maxMultiplier := min_le_right _ _

/-- A round that is not won pays nothing. -/
theorem resolveRound_lost {slug : GameSlug} {selection : GameSelection} {u : Stream} {config : RoundConfig}
    {forced : ForcedResult} {result : RoundResult} (h : resolveRound slug selection u config forced = some result)
    (hlost : result.won = false) : result.multiplier ≤ 0 := by
  have ofWon : ∀ {won : Bool} {m : ℚ}, won = false → (if won then m else 0) ≤ (0 : ℚ) := by
    rintro won m rfl
    exact le_refl 0
  unfold resolveRound at h
  split at h <;> cases h
  · exact ofWon hlost
  · exact ofWon hlost
  · exact ofWon hlost
  · exact not_lt.1 (of_decide_eq_false hlost)
  · exact not_lt.1 (of_decide_eq_false hlost)
  · exact not_lt.1 (of_decide_eq_false hlost)

end Instant

/-! ## The cap of a control rule -/

/-- A cap never raises a multiplier. -/
theorem applyWinCap_le (result : RoundResult) (rule : Option ControlRule) :
    (applyWinCap result rule).multiplier ≤ result.multiplier := by
  unfold applyWinCap
  split
  · exact le_refl _
  · split_ifs with hidle hle
    · exact le_refl _
    · exact le_refl _
    · exact (not_le.1 hle).le

/-- A positive cap bounds what is paid. -/
theorem applyWinCap_le_cap {result : RoundResult} {rule : Option ControlRule} {cap : ℚ}
    (hcap : rule.bind ControlRule.maxWinMultiplier = some cap) (hpos : 0 < cap)
    (hlost : result.won = false → result.multiplier ≤ 0) : (applyWinCap result rule).multiplier ≤ cap := by
  unfold applyWinCap
  rw [hcap]
  dsimp only
  split_ifs with hidle hle
  · simp only [Bool.or_eq_true, Bool.not_eq_true', decide_eq_true_eq, hpos.ne', or_false] at hidle
    exact (hlost hidle).trans hpos.le
  · exact hle
  · exact le_refl _

end Smink
