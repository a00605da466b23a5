import Smink.Engine.Expected
import Smink.Engine.Validated
import Mathlib.Algebra.Order.Group.Unbundled.Abs

/-!
# The edge of Dice and Limbo, through their roundings

A round of Dice or Limbo pays one multiplier with the odds of one draw, so its expected multiplier is a product
(`expect_ifWon`). The multiplier is fair up to its rounding to cents; the odds are fair up to the rounding of the roll,
or of the crash value, and the resolution of the draw. What the three can add up to is below `75 / 10000`
(`edge_kept`).
-/

namespace Smink

open scoped BigOperators

/-! ## The odds of one draw -/

/-- How often a draw wins. -/
def winOdds (won : ℚ → Bool) : ℚ := 𝔼 k : Draw, if won k.toRat then 1 else 0

section Odds

variable {won : ℚ → Bool} {y : ℚ}

theorem expect_ifWon (won : ℚ → Bool) (multiplier : ℚ) :
    𝔼 k : Draw, (if won k.toRat then multiplier else 0) = multiplier * winOdds won := by
  unfold winOdds
  rw [Finset.mul_expect]
  refine Finset.expect_congr rfl fun k _ => ?_
  split
  · rw [mul_one]
  · rw [mul_zero]

theorem winOdds_not (won : ℚ → Bool) : winOdds (fun x => !won x) = 1 - winOdds won := by
  have hsplit : ∀ k : Draw, (if (!won k.toRat) = true then (1 : ℚ) else 0) = 1 - if won k.toRat then 1 else 0 := by
    intro k
    cases won k.toRat <;> simp
  unfold winOdds
  simp only [hsplit]
  rw [Finset.expect_sub_distrib, Fintype.expect_const]

theorem winOdds_le (h₀ : 0 ≤ y) (h₁ : y ≤ 1) (h : ∀ x, 0 ≤ x → won x = true → x < y) :
    winOdds won ≤ y + 1 / FLOAT_COUNT := by
  have hle := expect_below won zero_le_one h₀ h₁ h
  rwa [one_mul] at hle

theorem le_winOdds (h₁ : y ≤ 1) (h : ∀ x, 0 ≤ x → x < y → won x = true) : y ≤ winOdds won := by
  refine (Chance.le_expect_lt (N := FLOAT_COUNT) h₁).trans (Finset.expect_le_expect fun k _ => ?_)
  split_ifs with hlt hwon
  · exact le_rfl
  · exact absurd (h _ (Draw.toRat_nonneg k) hlt) hwon
  · exact zero_le_one
  · exact le_rfl

theorem winOdds_nonneg (won : ℚ → Bool) : 0 ≤ winOdds won :=
  le_winOdds zero_le_one fun _ h₀ h => absurd h (not_lt.2 h₀)

theorem winOdds_never (h : ∀ x, 0 ≤ x → won x = false) : winOdds won = 0 := by
  unfold winOdds
  have hzero : ∀ k : Draw, (if won k.toRat then (1 : ℚ) else 0) = 0 := by
    intro k
    simp [h _ (Draw.toRat_nonneg k)]
  simp only [hzero, Finset.expect_const_zero]

/-- Odds that are known up to `δ`, from the two thresholds between which a draw may go either way. -/
theorem abs_winOdds_le {δ : ℚ} (h₀ : δ ≤ y) (h₁ : y + δ ≤ 1) (hδ : 0 ≤ δ)
    (hlo : ∀ x, 0 ≤ x → x < y - δ → won x = true) (hhi : ∀ x, 0 ≤ x → won x = true → x < y + δ) :
    |winOdds won - y| ≤ δ + 1 / FLOAT_COUNT := by
  have hF : (0 : ℚ) ≤ 1 / FLOAT_COUNT := by positivity
  have hle := winOdds_le (by linarith) h₁ hhi
  have hge := le_winOdds (by linarith) hlo
  rw [abs_le]
  constructor <;> linarith

end Odds

/-! ## Rounding -/

theorem abs_round2_le (x : ℚ) : |round2 x - x| ≤ 1 / 200 := by
  have h₁ := round2_le x
  have h₂ := lt_round2 x
  rw [abs_le]
  constructor <;> linarith

/-- A rounded value reaches a threshold half a cent below the next cent. -/
theorem le_round2_iff (x t : ℚ) : t ≤ round2 x ↔ ((⌈t * 100⌉ : ℤ) - 1 / 2 : ℚ) / 100 ≤ x := by
  unfold round2 mathRound
  rw [le_div_iff₀ (by norm_num), ← Int.ceil_le, Int.le_floor, div_le_iff₀ (by norm_num)]
  constructor <;> intro h <;> linarith

/-- The threshold is the rounded one, up to half a cent. -/
theorem abs_round2_sub_threshold_le (t : ℚ) :
    |round2 t - ((⌈t * 100⌉ : ℤ) - 1 / 2 : ℚ) / 100| ≤ 1 / 200 := by
  have hup : mathRound (t * 100) ≤ ⌈t * 100⌉ := by
    have hceil := Int.le_ceil (t * 100)
    have hlt : ((mathRound (t * 100) : ℤ) : ℚ) < (⌈t * 100⌉ : ℤ) + 1 := by
      have := mathRound_le (t * 100)
      linarith
    exact Int.lt_add_one_iff.1 (by exact_mod_cast hlt)
  have hdown : ⌈t * 100⌉ - 1 ≤ mathRound (t * 100) := by
    have hceil := Int.ceil_lt_add_one (t * 100)
    have hlt : ((⌈t * 100⌉ : ℤ) : ℚ) - 1 < (mathRound (t * 100) : ℤ) + 1 := by
      have := lt_mathRound (t * 100)
      linarith
    have hlt' : ⌈t * 100⌉ - 1 < mathRound (t * 100) + 1 := by exact_mod_cast hlt
    omega
  have hup' : ((mathRound (t * 100) : ℤ) : ℚ) ≤ (⌈t * 100⌉ : ℤ) := by exact_mod_cast hup
  have hdown' : ((⌈t * 100⌉ : ℤ) : ℚ) - 1 ≤ (mathRound (t * 100) : ℤ) := by exact_mod_cast hdown
  unfold round2
  rw [abs_le]
  constructor <;> linarith

/-! ## Dice -/

section SingleDraw

variable {n : ℕ} {houseEdge maxMultiplier : ℚ}

/-- The odds of a dice bet are its win chance, up to half a roll and the resolution of the draw. -/
theorem abs_diceOdds_le {s : DiceSelection} (h₂ : 2 ≤ s.target) (h₉₈ : s.target ≤ 98) :
    |winOdds (diceDrawWon s) - diceWinChance s| ≤ 1 / 20000 + 1 / FLOAT_COUNT := by
  obtain ⟨target, direction⟩ := s
  simp only at h₂ h₉₈
  rcases direction.under_or_over with rfl | rfl
  · refine abs_winOdds_le (y := target / 100) (by linarith) (by linarith) (by norm_num) ?_ ?_
    · intro x hx hlt
      have := round2_le (x * 100)
      simp only [diceDrawWon, diceWon, clamp, diceRoll, decide_eq_true_eq, min_lt_iff, max_lt_iff]
      exact .inr ⟨by linarith, by linarith⟩
    · intro x hx hwon
      have := lt_round2 (x * 100)
      simp only [diceDrawWon, diceWon, clamp, diceRoll, decide_eq_true_eq, min_lt_iff, max_lt_iff] at hwon
      rcases hwon with h | h <;> linarith
  · -- the draws that lose are the low ones
    have hlost : |winOdds (fun x => !diceDrawWon ⟨target, .over⟩ x) - target / 100| ≤ 1 / 20000 + 1 / FLOAT_COUNT := by
      refine abs_winOdds_le (by linarith) (by linarith) (by norm_num) ?_ ?_
      · intro x hx hlt
        have := round2_le (x * 100)
        simp only [diceDrawWon, diceWon, clamp, diceRoll, Bool.not_eq_true', decide_eq_false_iff_not, gt_iff_lt,
          lt_min_iff, lt_max_iff, not_and_or, not_or, not_lt]
        exact .inr ⟨by linarith, by linarith⟩
      · intro x hx hwon
        have := lt_round2 (x * 100)
        simp only [diceDrawWon, diceWon, clamp, diceRoll, Bool.not_eq_true', decide_eq_false_iff_not, gt_iff_lt,
          lt_min_iff, lt_max_iff, not_and_or, not_or, not_lt] at hwon
        rcases hwon with h | h <;> linarith
    rw [winOdds_not, abs_sub_comm] at hlost
    have hchance : target / 100 - (1 - winOdds (diceDrawWon ⟨target, .over⟩)) =
        winOdds (diceDrawWon ⟨target, .over⟩) - (100 - target) / 100 := by ring
    rwa [hchance] at hlost

theorem dice_edge (hn : 0 < n) (he : 0 ≤ houseEdge) (he₁ : houseEdge ≤ 1) {s : DiceSelection} (h₂ : 2 ≤ s.target)
    (h₉₈ : s.target ≤ 98) :
    |expectedMultiplier n .dice (.dice s) { houseEdge, maxMultiplier } - (1 - houseEdge)| ≤ 75 / 10000 := by
  obtain ⟨hlo, hhi⟩ := diceWinChance_mem h₂ h₉₈
  have hodds := abs_diceOdds_le h₂ h₉₈
  have hP := winOdds_nonneg (diceDrawWon s)
  rw [expected_dice hn, expect_ifWon]
  generalize diceWinChance s = p at *
  generalize winOdds (diceDrawWon s) = P at *
  have hp : 0 < p := by linarith
  have hfair : |fairMultiplier p houseEdge - (1 - houseEdge) / p| ≤ 1 / 200 := by
    rw [fairMultiplier, if_neg (not_le.2 hp)]
    exact abs_round2_le _
  have hinv₀ : 0 ≤ (1 - houseEdge) / p := div_nonneg (by linarith) hp.le
  have hinv : (1 - houseEdge) / p ≤ 50 := by
    rw [div_le_iff₀ hp]
    linarith
  have hmul : (1 - houseEdge) / p * p = 1 - houseEdge := div_mul_cancel₀ _ hp.ne'
  have hF : 1 / (FLOAT_COUNT : ℚ) ≤ 1 / 10 ^ 15 := by norm_num [FLOAT_COUNT]
  have hP₁ : P ≤ 98 / 100 + 1 / 20000 + 1 / FLOAT_COUNT := by
    have := (abs_le.1 hodds).2
    linarith
  calc |fairMultiplier p houseEdge * P - (1 - houseEdge)|
      = |(fairMultiplier p houseEdge - (1 - houseEdge) / p) * P + (1 - houseEdge) / p * (P - p)| := by
        congr 1
        linear_combination hmul
    _ ≤ |fairMultiplier p houseEdge - (1 - houseEdge) / p| * P + (1 - houseEdge) / p * |P - p| := by
        refine (abs_add_le _ _).trans (le_of_eq ?_)
        rw [abs_mul, abs_mul, abs_of_nonneg hP, abs_of_nonneg hinv₀]
    _ ≤ 1 / 200 * (98 / 100 + 1 / 20000 + 1 / FLOAT_COUNT) + 50 * (1 / 20000 + 1 / FLOAT_COUNT) := by gcongr
    _ ≤ 75 / 10000 := by linarith

/-! ## Limbo -/

/-- The crash value from which a limbo round wins. -/
def limboThreshold (target : ℚ) : ℚ := ((⌈target * 100⌉ : ℤ) - 1 / 2 : ℚ) / 100

theorem limboThreshold_bounds {cents : ℕ} {target : ℚ} (hlo : 101 / 100 ≤ target) (hhi : target ≤ (cents : ℚ) / 100) :
    201 / 200 ≤ limboThreshold target ∧ limboThreshold target < (cents : ℚ) / 100 := by
  have h₁ : (101 : ℤ) ≤ ⌈target * 100⌉ := by
    rw [Int.le_ceil_iff]
    push_cast
    linarith
  have h₂ : ⌈target * 100⌉ ≤ (cents : ℤ) := by
    rw [Int.ceil_le]
    push_cast
    linarith
  have h₁' : (101 : ℚ) ≤ (⌈target * 100⌉ : ℤ) := by exact_mod_cast h₁
  have h₂' : ((⌈target * 100⌉ : ℤ) : ℚ) ≤ cents := by exact_mod_cast h₂
  unfold limboThreshold
  constructor <;> linarith

/-- A draw wins when it is below the inverse of the threshold; the smallest draws count as `1e-9`. -/
theorem limboDrawWon_iff {target x : ℚ} (hθ : 1 < limboThreshold target)
    (hmax : limboThreshold target ≤ maxMultiplier) :
    limboDrawWon target houseEdge maxMultiplier x = true ↔
      max x (1 / 1000000000) * limboThreshold target ≤ 1 - houseEdge := by
  have hpos : (0 : ℚ) < max x (1 / 1000000000) := lt_max_of_lt_right (by norm_num)
  have hround := le_round2_iff (clamp ((1 - houseEdge) / max x (1 / 1000000000)) 1 maxMultiplier) target
  unfold limboDrawWon limboResult
  rw [decide_eq_true_iff, ge_iff_le, hround]
  change limboThreshold target ≤ _ ↔ _
  rw [clamp, le_min_iff, le_max_iff, le_div_iff₀ hpos, mul_comm]
  constructor
  · rintro ⟨-, h | h⟩
    · exact h
    · exact absurd h (not_le.2 hθ)
  · intro h
    exact ⟨hmax, .inl h⟩

theorem limbo_edge (hn : 0 < n) (he : 0 ≤ houseEdge) (he₁ : houseEdge ≤ 1) {cents : ℕ} (hlo : 101 ≤ cents)
    (hhi : cents ≤ 100000000) (s : LimboSelection) :
    |expectedMultiplier n .limbo (.limbo s) { houseEdge, maxMultiplier := (cents : ℚ) / 100 } - (1 - houseEdge)| ≤
      75 / 10000 := by
  have hlo' : (101 : ℚ) ≤ cents := by exact_mod_cast hlo
  have hhi' : (cents : ℚ) ≤ 100000000 := by exact_mod_cast hhi
  rw [expected_limbo hn, expect_ifWon]
  have ht : 101 / 100 ≤ clamp s.target (101 / 100) ((cents : ℚ) / 100) := le_min (by linarith) (le_max_right _ _)
  have ht₁ : clamp s.target (101 / 100) ((cents : ℚ) / 100) ≤ (cents : ℚ) / 100 := clamp_le _ _ _
  generalize clamp s.target (101 / 100) ((cents : ℚ) / 100) = target at ht ht₁ ⊢
  obtain ⟨hθ, hθ₁⟩ := limboThreshold_bounds ht ht₁
  have hpay : |round2 target - limboThreshold target| ≤ 1 / 200 := abs_round2_sub_threshold_le target
  have hwon : ∀ x, limboDrawWon target houseEdge ((cents : ℚ) / 100) x = true ↔
      max x (1 / 1000000000) * limboThreshold target ≤ 1 - houseEdge := fun x => limboDrawWon_iff (by linarith) hθ₁.le
  generalize limboThreshold target = θ at *
  have hpos : 0 < θ := by linarith
  have hF₀ : (0 : ℚ) ≤ 1 / FLOAT_COUNT := by positivity
  have hF : 1 / (FLOAT_COUNT : ℚ) ≤ 1 / 10 ^ 15 := by norm_num [FLOAT_COUNT]
  by_cases hsmall : 1 / 1000000000 * θ ≤ 1 - houseEdge
  · have hmul : (1 - houseEdge) / θ * θ = 1 - houseEdge := div_mul_cancel₀ _ hpos.ne'
    have hy : 1 / 1000000000 ≤ (1 - houseEdge) / θ := (le_div_iff₀ hpos).2 hsmall
    have hy₁ : (1 - houseEdge) / θ ≤ 200 / 201 := by
      rw [div_le_iff₀ hpos]
      linarith
    have hodds : |winOdds (limboDrawWon target houseEdge ((cents : ℚ) / 100)) - (1 - houseEdge) / θ| ≤
        1 / FLOAT_COUNT + 1 / FLOAT_COUNT := by
      refine abs_winOdds_le (by linarith) (by linarith) hF₀ ?_ ?_
      · intro x hx hlt
        rw [hwon, ← le_div_iff₀ hpos]
        exact max_le (by linarith) hy
      · intro x hx h
        rw [hwon, ← le_div_iff₀ hpos] at h
        have hxF : (0 : ℚ) < 1 / FLOAT_COUNT := by norm_num [FLOAT_COUNT]
        linarith [(le_max_left _ _).trans h]
    have hround : round2 target ≤ 1000001 := by
      have := (abs_le.1 hpay).2
      linarith
    have hround₀ : 0 ≤ round2 target := round2_nonneg (by linarith)
    generalize winOdds (limboDrawWon target houseEdge ((cents : ℚ) / 100)) = P at hodds ⊢
    generalize (1 - houseEdge) / θ = y at *
    have hy₀ : 0 ≤ y := by linarith
    calc |round2 target * P - (1 - houseEdge)|
        = |(round2 target - θ) * y + round2 target * (P - y)| := by
          congr 1
          linear_combination hmul
      _ ≤ |round2 target - θ| * y + round2 target * |P - y| := by
          refine (abs_add_le _ _).trans (le_of_eq ?_)
          rw [abs_mul, abs_mul, abs_of_nonneg hy₀, abs_of_nonneg hround₀]
      _ ≤ 1 / 200 * (200 / 201) + 1000001 * (1 / FLOAT_COUNT + 1 / FLOAT_COUNT) := by gcongr
      _ ≤ 75 / 10000 := by linarith
  · -- next to nothing is paid back, and no draw wins
    have hnever : winOdds (limboDrawWon target houseEdge ((cents : ℚ) / 100)) = 0 := by
      refine winOdds_never fun x _ => ?_
      rw [Bool.eq_false_iff, Ne, hwon]
      intro h
      have hle : 1 / 1000000000 * θ ≤ max x (1 / 1000000000) * θ :=
        mul_le_mul_of_nonneg_right (le_max_right _ _) hpos.le
      exact hsmall (hle.trans h)
    rw [hnever, mul_zero, zero_sub, abs_neg, abs_of_nonneg (by linarith)]
    linarith

/-- **An honest round of Dice or Limbo pays back all but the edge, up to three quarters of a cent.** -/
theorem edge_kept (hn : 0 < n) {slug : GameSlug} (hslug : slug = .dice ∨ slug = .limbo) {value : RawSelection}
    {selection : GameSelection} (hvalid : validateSelection slug value = .ok selection) (he : 0 ≤ houseEdge)
    (he₁ : houseEdge ≤ 1) {cents : ℕ} (hlo : 101 ≤ cents) (hhi : cents ≤ 100000000) :
    |expectedMultiplier n slug selection { houseEdge, maxMultiplier := (cents : ℚ) / 100 } - (1 - houseEdge)| ≤
      75 / 10000 ∧
    (1 / 100 ≤ houseEdge →
      expectedMultiplier n slug selection { houseEdge, maxMultiplier := (cents : ℚ) / 100 } < 1) := by
  have hedge : |expectedMultiplier n slug selection { houseEdge, maxMultiplier := (cents : ℚ) / 100 } -
      (1 - houseEdge)| ≤ 75 / 10000 := by
    rcases hslug with rfl | rfl
    · obtain ⟨s, rfl, h₂, h₉₈⟩ := validateDice_target hvalid
      exact dice_edge hn he he₁ h₂ h₉₈
    · obtain ⟨s, rfl, -⟩ := validateLimbo_target hvalid
      exact limbo_edge hn he he₁ hlo hhi s
  refine ⟨hedge, fun hhouse => ?_⟩
  have := (abs_le.1 hedge).2
  linarith

/-- A limbo bet on a target that is not in whole cents, with the edge and the cap of the seeded game. -/
theorem edge_kept_limbo :
    |expectedMultiplier 1 .limbo (.limbo { target := 2001 / 1000 })
        { houseEdge := 2 / 100, maxMultiplier := ((100000 : ℕ) : ℚ) / 100 } - (1 - 2 / 100)| ≤ 75 / 10000 ∧
    ((1 : ℚ) / 100 ≤ 2 / 100 →
      expectedMultiplier 1 .limbo (.limbo { target := 2001 / 1000 })
        { houseEdge := 2 / 100, maxMultiplier := ((100000 : ℕ) : ℚ) / 100 } < 1) := by
  have hvalid : validateSelection .limbo { target := some (2001 / 1000) } = .ok (.limbo { target := 2001 / 1000 }) := by
    decide +kernel
  exact edge_kept one_pos (.inr rfl) hvalid (by norm_num) (by norm_num) (by norm_num) (by norm_num)

end SingleDraw

end Smink
