import Smink.Engine.Caps
import Smink.Engine.Edge
import Smink.Engine.Legal

/-!
# Rounds that are decided beforehand

A control decides a round, and each game steers its own draw toward the decision and then judges the value it drew as if
it had been honest. Coin Flip, Wheel, Plinko and Keno pick from what wins or from what loses, so they come out as
decided. Dice and Limbo steer into a band beside the player's target and round to cents; where the band begins at the
target itself, a target with more than two decimals can be missed by the rounding (`decided_round_iff`).

A Limbo result is a number of cents below the cap, and a won round pays no more than it (`limbo_pays_within_roll`).
-/

namespace Smink

variable {u : Stream}

/-! ## Cents -/

theorem round2_mono {x y : ℚ} (h : x ≤ y) : round2 x ≤ round2 y := by
  have hscale : x * 100 ≤ y * 100 := mul_le_mul_of_nonneg_right h (by norm_num)
  have hround : ((mathRound (x * 100) : ℤ) : ℚ) ≤ mathRound (y * 100) := by exact_mod_cast mathRound_mono hscale
  exact div_le_div_of_nonneg_right hround (by norm_num)

theorem round2_of_cents (n : ℤ) : round2 ((n : ℚ) / 100) = n / 100 := by
  unfold round2
  rw [div_mul_cancel₀ _ (by norm_num), mathRound_intCast]

theorem round2_round2 (x : ℚ) : round2 (round2 x) = round2 x := round2_of_cents _

/-! ## Limbo -/

section Limbo

variable {target float houseEdge maxMultiplier : ℚ}

/-- Every branch rounds a value that is at most the cap. -/
theorem limboResult_eq (h : target ≤ maxMultiplier) (forced : ForcedResult) :
    ∃ x ≤ maxMultiplier, limboResult target float houseEdge maxMultiplier forced = round2 x := by
  rcases forced with - | - | -
  · exact ⟨_, clamp_le _ _ _, rfl⟩
  · refine ⟨_, (clamp_le _ _ _).trans ?_, rfl⟩
    linarith
  · exact ⟨_, clamp_le _ _ _, rfl⟩

theorem limboResult_lost : limboResult target float houseEdge maxMultiplier (some false) < target := by
  have hclamp := clamp_le (1 + float * (target - 101 / 100)) 1 (target - 1 / 100)
  have hround := round2_le (clamp (1 + float * (target - 101 / 100)) 1 (target - 1 / 100))
  show round2 _ < target
  linarith

theorem le_clamp {value lo hi : ℚ} (h : lo ≤ hi) : lo ≤ clamp value lo hi := le_min h (le_max_right _ _)

/-- **Limbo never pays more than it rolled**, whatever the target, the draw, the house edge and the controls, under a
cap in whole cents. -/
theorem limbo_pays_within_roll {cents : ℤ} (hcap : 101 ≤ cents) (selection : LimboSelection) (u : Stream)
    (houseEdge : ℚ) (forced : ForcedResult) :
    ∃ result won multiplier,
      resolveLimbo selection u houseEdge forced (cents / 100) = { won, multiplier, outcome := .limbo result } ∧
      (∃ n : ℤ, result = n / 100) ∧ result ≤ cents / 100 ∧
      (won = true → 101 / 100 ≤ multiplier ∧ multiplier ≤ result) ∧
      (won = false → result < clamp selection.target (101 / 100) (cents / 100) ∧ multiplier = 0) := by
  have hmax : (101 : ℚ) / 100 ≤ cents / 100 := by
    have : (101 : ℚ) ≤ cents := by exact_mod_cast hcap
    linarith
  have hlo : 101 / 100 ≤ clamp selection.target (101 / 100) (cents / 100) := le_clamp hmax
  obtain ⟨x, hx, hresult⟩ : ∃ x ≤ (cents : ℚ) / 100, limboResult (clamp selection.target (101 / 100) (cents / 100))
      (u 0) houseEdge (cents / 100) forced = round2 x := limboResult_eq (clamp_le _ _ _) forced
  have hbelow : round2 x ≤ cents / 100 := (round2_mono hx).trans_eq (round2_of_cents cents)
  unfold resolveLimbo
  dsimp only
  rw [hresult]
  generalize clamp selection.target (101 / 100) (cents / 100) = target at hlo
  refine ⟨round2 x, _, _, rfl, ⟨_, rfl⟩, hbelow, fun hwon => ?_, fun hlost => ?_⟩
  · have hreach : target ≤ round2 x := of_decide_eq_true hwon
    rw [hwon]
    -- the paid target is rounded like the result it was reached by
    have hpaid : round2 target ≤ round2 x := (round2_mono hreach).trans_eq (round2_round2 x)
    have hleast : (101 : ℚ) / 100 ≤ round2 target := by
      have := round2_of_cents 101
      push_cast at this
      rw [← this]
      exact round2_mono hlo
    exact ⟨hleast, hpaid⟩
  · rw [hlost]
    exact ⟨not_le.1 (of_decide_eq_false hlost), rfl⟩

/-- A steered win on a target between two cents. -/
theorem limbo_pays_within_roll_forced : ∃ result won multiplier,
    resolveLimbo { target := 2005 / 1000 } (fun _ => 1 / 2) (2 / 100) (some true) ((10000 : ℤ) / 100) =
      { won, multiplier, outcome := .limbo result } ∧
    (∃ n : ℤ, result = n / 100) ∧ result ≤ ((10000 : ℤ) : ℚ) / 100 ∧
    (won = true → 101 / 100 ≤ multiplier ∧ multiplier ≤ result) ∧
    (won = false → result < clamp (2005 / 1000) (101 / 100) ((10000 : ℤ) / 100) ∧ multiplier = 0) :=
  limbo_pays_within_roll (by norm_num) _ _ _ _

theorem resolveLimbo_lost (selection : LimboSelection) (u : Stream) (houseEdge maxMultiplier : ℚ) :
    (resolveLimbo selection u houseEdge (some false) maxMultiplier).multiplier = 0 := by
  unfold resolveLimbo
  dsimp only
  rw [decide_eq_false (not_le.2 limboResult_lost)]
  rfl

end Limbo

/-! ## Targets between two cents -/

/-- A draw that starts at `target` and moves up towards `limit` is not rounded back below `target`: it gets within half
a cent of the first cent that reaches it. -/
def RoundsUpTo (target draw limit : ℚ) : Prop :=
  ((⌈target * 100⌉ : ℤ) - 1 / 2 : ℚ) / 100 ≤ target + draw * (limit - target)

instance (target draw limit : ℚ) : Decidable (RoundsUpTo target draw limit) :=
  inferInstanceAs (Decidable (_ ≤ _))

theorem roundsUpTo_iff (target draw limit : ℚ) :
    RoundsUpTo target draw limit ↔ target ≤ round2 (target + draw * (limit - target)) := (le_round2_iff _ _).symm

/-- Targets in whole cents are never missed. -/
theorem roundsUpTo_of_cents {n : ℤ} {draw limit : ℚ} (hdraw : 0 ≤ draw) (hlimit : (n : ℚ) / 100 ≤ limit) :
    RoundsUpTo (n / 100) draw limit := by
  rw [roundsUpTo_iff]
  have hup : 0 ≤ draw * (limit - (n : ℚ) / 100) := mul_nonneg hdraw (by linarith)
  calc (n : ℚ) / 100 = round2 (n / 100) := (round2_of_cents n).symm
    _ ≤ round2 (n / 100 + draw * (limit - n / 100)) := round2_mono (by linarith)

/-! ## Each game -/

theorem resolveLimbo_won_iff (hu : u.Unit) (selection : LimboSelection) (houseEdge maxMultiplier : ℚ) :
    (resolveLimbo selection u houseEdge (some true) maxMultiplier).won = true ↔
      RoundsUpTo (clamp selection.target (101 / 100) maxMultiplier) (u 0) maxMultiplier := by
  have hle : clamp selection.target (101 / 100) maxMultiplier ≤ maxMultiplier := clamp_le _ _ _
  obtain ⟨h₀, h₁⟩ := hu 0
  unfold resolveLimbo limboResult
  dsimp only
  generalize clamp selection.target (101 / 100) maxMultiplier = target at hle
  -- the steered value is between the target and the cap, so it is not clamped again
  have hup : 0 ≤ u 0 * (maxMultiplier - target) := mul_nonneg h₀ (by linarith)
  have hdown : u 0 * (maxMultiplier - target) ≤ maxMultiplier - target := mul_le_of_le_one_left (by linarith) h₁.le
  have hinside : clamp (target + u 0 * (maxMultiplier - target)) target maxMultiplier =
      target + u 0 * (maxMultiplier - target) := by
    unfold clamp
    rw [max_eq_left (by linarith), min_eq_right (by linarith)]
  rw [hinside, decide_eq_true_iff, ge_iff_le, roundsUpTo_iff]

section Dice

variable {s : DiceSelection} {houseEdge : ℚ}

/-- The clamp to the board never changes who wins. -/
theorem diceWon_clamp (hlo : 2 ≤ s.target) (hhi : s.target ≤ 98) (roll : ℚ) :
    diceWon s (clamp roll 0 (9999 / 100)) = diceWon s roll := by
  have hunder : clamp roll 0 (9999 / 100) < s.target ↔ roll < s.target := by
    unfold clamp
    rw [min_lt_iff, max_lt_iff]
    constructor
    · rintro (h | h)
      · linarith
      · exact h.1
    · intro h
      exact .inr ⟨h, by linarith⟩
  have hover : s.target < clamp roll 0 (9999 / 100) ↔ s.target < roll := by
    unfold clamp
    rw [lt_min_iff, lt_max_iff]
    constructor
    · rintro ⟨-, h | h⟩
      · exact h
      · linarith
    · intro h
      exact ⟨by linarith, .inl h⟩
  unfold diceWon
  rcases s.direction.under_or_over with hd | hd <;> rw [hd] <;> simp only [gt_iff_lt, hunder, hover]

theorem resolveDice_won (hlo : 2 ≤ s.target) (hhi : s.target ≤ 98) (forced : ForcedResult) :
    (resolveDice s u houseEdge forced).won = diceWon s (diceRoll s (u 0) forced) := diceWon_clamp hlo hhi _

/-- The low end of the board stays a cent below the target. -/
theorem round2_below (hu : u.Unit) (hlo : 2 ≤ s.target) : round2 (u 0 * max (s.target - 1 / 100) 0) < s.target := by
  obtain ⟨h₀, h₁⟩ := hu 0
  rw [max_eq_left (by linarith)]
  have hdown : u 0 * (s.target - 1 / 100) ≤ s.target - 1 / 100 := mul_le_of_le_one_left (by linarith) h₁.le
  have hround := round2_le (u 0 * (s.target - 1 / 100))
  linarith

theorem resolveDice_forced_won (hu : u.Unit) (hlo : 2 ≤ s.target) (hhi : s.target ≤ 98) :
    (resolveDice s u houseEdge (some true)).won = true := by
  rw [resolveDice_won hlo hhi]
  unfold diceWon diceRoll
  rcases s.direction.under_or_over with hd | hd <;> rw [hd]
  · exact decide_eq_true (round2_below hu hlo)
  · have hup : 0 ≤ u 0 * (9999 / 100 - s.target) := mul_nonneg (hu 0).1 (by linarith)
    have hround := lt_round2 (s.target + 1 / 100 + u 0 * (9999 / 100 - s.target))
    exact decide_eq_true (show s.target < round2 _ by linarith)

/-- A steered loss under the target is won when the roll is rounded down past it. -/
theorem resolveDice_forced_lost (hu : u.Unit) (hlo : 2 ≤ s.target) (hhi : s.target ≤ 98) :
    (resolveDice s u houseEdge (some false)).won = false ↔
      s.direction = .over ∨ RoundsUpTo s.target (u 0) (9999 / 100) := by
  rw [resolveDice_won hlo hhi, roundsUpTo_iff]
  unfold diceWon diceRoll
  rcases s.direction.under_or_over with hd | hd <;> rw [hd]
  · rw [decide_eq_false_iff_not, not_lt]
    exact ⟨.inr, fun h => h.resolve_left (by decide)⟩
  · exact iff_of_true (decide_eq_false (not_lt.2 (round2_below hu hlo).le)) (.inl rfl)

theorem one_le_fairMultiplier_iff {winChance : ℚ} (h : 0 < winChance) :
    1 ≤ fairMultiplier winChance houseEdge ↔ 995 / 1000 * winChance ≤ 1 - houseEdge := by
  have hceil : (⌈(1 : ℚ) * 100⌉ : ℤ) = 100 := by norm_num
  unfold fairMultiplier
  rw [if_neg (not_le.2 h), le_round2_iff, hceil, ← le_div_iff₀ h]
  norm_num

theorem resolveDice_forced_low (hu : u.Unit) (hlo : 2 ≤ s.target) (hhi : s.target ≤ 98) :
    (resolveDice s u houseEdge (some false)).multiplier < 1 ↔
      s.direction = .over ∨ RoundsUpTo s.target (u 0) (9999 / 100) ∨
        1 - houseEdge < 995 / 1000 * diceWinChance s := by
  have hchance := (diceWinChance_mem hlo hhi).1
  have hlost : (resolveDice s u houseEdge (some false)).won = false ↔
      s.direction = .over ∨ RoundsUpTo s.target (u 0) (9999 / 100) := resolveDice_forced_lost hu hlo hhi
  have hpays : 1 ≤ fairMultiplier (diceWinChance s) houseEdge ↔ 995 / 1000 * diceWinChance s ≤ 1 - houseEdge :=
    one_le_fairMultiplier_iff (by linarith)
  have hmul : (resolveDice s u houseEdge (some false)).multiplier =
      if (resolveDice s u houseEdge (some false)).won then fairMultiplier (diceWinChance s) houseEdge else 0 := rfl
  rw [hmul, ← or_assoc, ← hlost, ← not_le (a := 995 / 1000 * diceWinChance s), ← hpays, not_le]
  cases (resolveDice s u houseEdge (some false)).won
  · exact iff_of_true one_pos (.inl rfl)
  · exact ⟨.inr, fun h => h.resolve_left (by decide)⟩

end Dice

theorem resolveCoinFlip_forced (selection : CoinFlipSelection) (u : Stream) (houseEdge : ℚ) :
    (resolveCoinFlip selection u houseEdge (some true)).won = true ∧
      (resolveCoinFlip selection u houseEdge (some false)).multiplier = 0 := by
  rcases selection with ⟨side⟩
  cases side <;> simp [resolveCoinFlip, CoinSide.opposite]

/-- A steered wheel stops on a segment of the kind that was asked for. -/
theorem resolveWheel_forced (hu : u.Unit) (selection : WheelSelection) (houseEdge : ℚ) (forced : Bool) :
    1 < (resolveWheel selection u houseEdge (some forced)).multiplier ↔ forced = true := by
  have hwin : indexesWhere (· > 1) (WHEEL_SEGMENTS selection.risk) ≠ [] := by
    cases selection.risk <;> decide +kernel
  have hlose : indexesWhere (· ≤ 1) (WHEEL_SEGMENTS selection.risk) ≠ [] := by
    cases selection.risk <;> decide +kernel
  have hpool := forcedPool_eq hwin hlose forced
  show 1 < (WHEEL_SEGMENTS selection.risk).getD (wheelSegment (WHEEL_SEGMENTS selection.risk) u (some forced)) 0 ↔ _
  unfold wheelSegment
  dsimp only
  rw [hpool]
  cases forced
  · rw [if_neg (by simp)]
    obtain ⟨-, hlow⟩ := mem_indexesWhere.1 (pick_mem hu hlose 0)
    exact iff_of_false (not_lt.2 (of_decide_eq_true hlow)) (by simp)
  · rw [if_pos rfl]
    obtain ⟨-, hhigh⟩ := mem_indexesWhere.1 (pick_mem hu hwin 0)
    exact iff_of_true (of_decide_eq_true hhigh) rfl

theorem wheelSegments_apart (risk : Risk) : ∀ m ∈ WHEEL_SEGMENTS risk, m < 1 ∨ 1 < m := by
  cases risk <;> decide +kernel

theorem resolveWheel_forced_lost (hu : u.Unit) (selection : WheelSelection) (houseEdge : ℚ) :
    (resolveWheel selection u houseEdge (some false)).multiplier < 1 := by
  have hnot := mt (resolveWheel_forced hu selection houseEdge false).1 (by simp)
  exact (getD_of (P := fun m => m < 1 ∨ 1 < m) (.inl one_pos) (wheelSegments_apart selection.risk) _).resolve_right hnot

/-- The tables pay from the fewest paying hits, and nothing below them. -/
theorem kenoPayout_pos_iff {pickCount hitCount : Nat} (hpos : 1 ≤ pickCount) (hten : pickCount ≤ 10)
    (hle : hitCount ≤ kenoMinPayingHits pickCount) :
    (0 < kenoPayout pickCount hitCount ↔ hitCount = kenoMinPayingHits pickCount) ∧
      (hitCount < kenoMinPayingHits pickCount → kenoPayout pickCount hitCount = 0) := by
  have hneed := (kenoMinPayingHits_mem hpos hten).2
  have hhit : hitCount ≤ 10 := by omega
  clear hneed
  interval_cases pickCount <;> interval_cases hitCount <;> first | decide +kernel | exact absurd hle (by decide)

theorem resolveKeno_forced (hu : u.Unit) {selection : KenoSelection} (ht : Ticket selection.picks)
    (houseEdge maxMultiplier : ℚ) (forced : Bool) :
    (resolveKeno selection u houseEdge (some forced) maxMultiplier).multiplier =
      min (kenoPayout selection.picks.length (kenoHitCount selection.picks.length u forced)) maxMultiplier := by
  unfold resolveKeno
  rw [kenoPicks_of_sorted ht.increasing]
  dsimp only
  rw [hits_forced hu ht]

/-! ## Decisions -/

/-- What a forced win promises: the round is won, and a Plinko ball lands in a bucket that pays the stake back. -/
def WonAs (selection : GameSelection) (result : RoundResult) : Prop :=
  result.won = true ∧
    match selection, result.outcome with
    | .plinko s, .plinko bucket _ _ => ∃ entry, (PLINKO_BUCKETS s.risk s.rows)[bucket]? = some entry ∧ 1 ≤ entry
    | .plinko _, _ => False
    | _, _ => True

/-- The round comes out as decided. -/
def ComesOut (selection : GameSelection) (forced : Bool) (result : RoundResult) : Prop :=
  if forced then WonAs selection result else result.multiplier < 1

/-- The steering reaches the side of the target it aims at, or what it misses by does not pay. -/
def SteersTo (selection : GameSelection) (draw : ℚ) (config : RoundConfig) (forced : Bool) : Prop :=
  match selection, forced with
  | .dice s, false => s.direction = .over ∨ RoundsUpTo s.target draw (9999 / 100) ∨
      1 - config.houseEdge < 995 / 1000 * diceWinChance s
  | .limbo s, true =>
    RoundsUpTo (clamp s.target (101 / 100) config.maxMultiplier) draw config.maxMultiplier
  | _, _ => True

/-- **A decided round comes out as decided exactly when its steering is not rounded off the target**, in
exact arithmetic: a steered value that is an exact half cent may be rounded the other way as a double. -/
theorem decided_round_iff {slug : GameSlug} {value : RawSelection} {selection : GameSelection}
    (hi : isInstantGame slug = true) (hvalid : validateSelection slug value = .ok selection) (hu : u.Unit)
    {config : RoundConfig} (hm : 101 / 100 ≤ config.maxMultiplier) (forced : Bool) :
    (∃ result, resolveRound slug selection u config (some forced) = some result ∧ ComesOut selection forced result) ↔
      SteersTo selection (u 0) config forced := by
  have one : ∀ {result : RoundResult} {P : RoundResult → Prop},
      (∃ r, some result = some r ∧ P r) ↔ P result := by
    intro result P
    constructor
    · rintro ⟨r, hr, hP⟩
      cases hr
      exact hP
    · exact fun hP => ⟨result, rfl, hP⟩
  have hcap : 0 < config.maxMultiplier := by linarith
  cases slug <;> simp only [isInstantGame, Bool.false_eq_true] at hi
  case dice =>
    obtain ⟨s, rfl, hlo, hhi⟩ := validateDice_target hvalid
    refine one.trans ?_
    cases forced
    · exact resolveDice_forced_low hu hlo hhi
    · exact iff_of_true ⟨resolveDice_forced_won hu hlo hhi, trivial⟩ trivial
  case coinFlip =>
    obtain ⟨s, rfl⟩ := validateCoinFlip_side hvalid
    obtain ⟨hwin, hlost⟩ := resolveCoinFlip_forced s u config.houseEdge
    refine one.trans ?_
    cases forced
    · exact iff_of_true (hlost.trans_lt one_pos) trivial
    · exact iff_of_true ⟨hwin, trivial⟩ trivial
  case limbo =>
    obtain ⟨s, rfl, -⟩ := validateLimbo_target hvalid
    refine one.trans ?_
    cases forced
    · exact iff_of_true ((resolveLimbo_lost s u config.houseEdge config.maxMultiplier).trans_lt one_pos) trivial
    · exact (and_iff_left trivial).trans (resolveLimbo_won_iff hu s config.houseEdge config.maxMultiplier)
  case wheel =>
    obtain ⟨s, rfl⟩ := validateWheel_risk hvalid
    refine one.trans ?_
    cases forced
    · exact iff_of_true (resolveWheel_forced_lost hu s config.houseEdge) trivial
    · have hwin := (resolveWheel_forced hu s config.houseEdge true).2 rfl
      exact iff_of_true ⟨decide_eq_true (one_pos.trans hwin), trivial⟩ trivial
  case plinko =>
    obtain ⟨s, rfl, hrows⟩ := validatePlinko_rows hvalid
    obtain ⟨hlt, hkind⟩ := plinkoBucket_mem hu s.risk hrows forced
    refine one.trans (iff_of_true ?_ trivial)
    cases forced
    · have hlow := not_le.1 (mt hkind.1 (by simp))
      exact (min_le_left _ _).trans_lt hlow
    · have hhigh := hkind.2 rfl
      refine ⟨decide_eq_true (lt_min (one_pos.trans_le hhigh) hcap), _, List.getElem?_eq_getElem hlt, ?_⟩
      rwa [List.getD_eq_getElem _ _ hlt] at hhigh
  case keno =>
    obtain ⟨s, rfl, ht⟩ := validateKeno_ticket hvalid
    have hmul := resolveKeno_forced hu ht config.houseEdge config.maxMultiplier forced
    obtain ⟨-, hbelow⟩ := kenoHitCount_le hu ht.pos ht.le_ten forced
    refine one.trans (iff_of_true ?_ trivial)
    cases forced
    · have hfew := hbelow.2 rfl
      have hnothing := (kenoPayout_pos_iff ht.pos ht.le_ten hfew.le).2 hfew
      rw [hnothing] at hmul
      exact (hmul.trans_le (min_le_left _ _)).trans_lt one_pos
    · have hpays := (kenoPayout_pos_iff ht.pos ht.le_ten le_rfl).1.2 rfl
      have hwon : 0 < (resolveKeno s u config.houseEdge (some true) config.maxMultiplier).multiplier := by
        rw [hmul]
        exact lt_min hpays hcap
      exact ⟨decide_eq_true hwon, trivial⟩

/-- A steered Dice loss under 50.25. -/
theorem decided_round_iff_dice :
    (∃ result, resolveRound .dice (.dice { target := 201 / 4, direction := .under }) (fun _ => 1 / 2)
        { houseEdge := 2 / 100, maxMultiplier := 100 } (some false) = some result ∧
        ComesOut (.dice { target := 201 / 4, direction := .under }) false result) ↔
      SteersTo (.dice { target := 201 / 4, direction := .under }) (1 / 2)
        { houseEdge := 2 / 100, maxMultiplier := 100 } false := by
  have hvalid : validateSelection .dice { target := some (201 / 4), direction := "under" } =
      .ok (.dice { target := 201 / 4, direction := .under }) := by decide +kernel
  exact decided_round_iff rfl hvalid (fun _ => by norm_num) (by norm_num) false

/-- Two decisions that come out the other way: a loss under 50.001 that is paid almost twice the stake, and a win at
1.011 that pays nothing. -/
theorem decided_round_missed :
    (validateSelection .dice { target := some (50001 / 1000), direction := "under" } =
        .ok (.dice { target := 50001 / 1000, direction := .under }) ∧
      ∃ result, resolveRound .dice (.dice { target := 50001 / 1000, direction := .under }) (fun _ => 1 / 100000)
          { houseEdge := 2 / 100, maxMultiplier := 100 } (some false) = some result ∧
        result.won = true ∧ result.multiplier = 196 / 100) ∧
    (validateSelection .limbo { target := some (1011 / 1000) } = .ok (.limbo { target := 1011 / 1000 }) ∧
      ∃ result, resolveRound .limbo (.limbo { target := 1011 / 1000 }) (fun _ => 1 / 100000)
          { houseEdge := 2 / 100, maxMultiplier := 100 } (some true) = some result ∧
        result.won = false ∧ result.multiplier = 0) := by
  refine ⟨⟨by decide +kernel, _, rfl, ?_, ?_⟩, by decide +kernel, _, rfl, ?_, ?_⟩ <;> decide +kernel

end Smink
