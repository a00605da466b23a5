import Smink.Engine.Rules

/-!
# The resolver: control rules, difficulty and validation

`libs/engine/src/resolver.ts`. A round is steered by a per-user control rule, else by a difficulty slider, else not at
all (`resolveControl`); `resolveRound` rolls it, `applyWinCap` caps a controlled win, and `validateSelection` is the
only way in for a player's choice.
-/

namespace Smink

inductive ControlMode
  | off | bias | forceWin | forceLoss
  deriving DecidableEq, Repr

/-- A control row as the engine needs it. -/
structure ControlRule where
  mode : ControlMode
  winRate : Option ℚ
  forceRounds : ℤ
  maxWinMultiplier : Option ℚ
  deriving DecidableEq

/-- The bias draw has a cursor of its own. -/
def biasDraw (rate : ℚ) (u : Stream) : ForcedResult := some (decide (u 9999 < rate))

/-- Turns an admin control rule into a decision for this round; `none` rolls honestly. -/
def decideForcedResult (rule : Option ControlRule) (u : Stream) : ForcedResult :=
  match rule with
  | none => none
  | some rule =>
    match rule.mode with
    | .off => none
    | .bias =>
      match rule.winRate with
      | none => none
      | some rate => if rate < 0 ∨ rate > 1 then none else biasDraw rate u
    | .forceWin => if rule.forceRounds ≤ 0 then none else some true
    | .forceLoss => if rule.forceRounds ≤ 0 then none else some false

/-- Difficulty is a loss percent: 90 means 90% lose. 0 leaves the round on fair odds. -/
def decideFromDifficulty (difficulty : ℚ) (u : Stream) : ForcedResult :=
  let loss := mathRound difficulty
  if loss ≤ 0 then none
  else if loss ≥ 100 then some false
  else decideForcedResult
    (some { mode := .bias, winRate := some ((100 - loss) / 100), forceRounds := 0, maxWinMultiplier := none }) u

/-- `Math.min(100, Math.max(0, Math.round(percent)))`. -/
def clampPercent (percent : ℚ) : ℤ := min 100 (max 0 (mathRound percent))

/-- Profile difficulty wins over the game default. -/
def effectiveDifficulty (profileDifficulty : Option ℚ) (gameDifficulty : ℚ) : ℤ :=
  match profileDifficulty with
  | some percent => clampPercent percent
  | none => clampPercent gameDifficulty

/-- Per-game override, then this player's general slider, then `none` (game default). -/
def walletDifficultyForGame (difficulty : Option ℤ) (gameDifficulties : List (GameSlug × ℚ)) (gameSlug : GameSlug) :
    Option ℚ :=
  match gameDifficulties.lookup gameSlug, difficulty with
  | some perGame, _ => some (clampPercent perGame)
  | none, some general => some (clampPercent general)
  | none, none => none

/-- A per-user admin rule wins over difficulty. -/
def resolveControl (userRule : Option ControlRule) (profileDifficulty : Option ℚ) (gameDifficulty : ℚ) (u : Stream) :
    ForcedResult :=
  match decideForcedResult userRule u with
  | some forced => some forced
  | none => decideFromDifficulty (effectiveDifficulty profileDifficulty gameDifficulty) u

/-- Caps a controlled win. A missing or zero `maxWinMultiplier` is no cap. -/
def applyWinCap (result : RoundResult) (rule : Option ControlRule) : RoundResult :=
  match rule.bind ControlRule.maxWinMultiplier with
  | none => result
  | some cap =>
    if !result.won || decide (cap = 0) then result
    else if result.multiplier ≤ cap then result
    else { result with multiplier := cap }

structure RoundConfig where
  houseEdge : ℚ
  maxMultiplier : ℚ
  deriving DecidableEq

/-- Single entry point for every instant game. `none` is the throw of the `default` branch, and of a selection that
is not the slug's own; `validateSelection` never returns one (`validateSelection_resolves`). -/
def resolveRound (slug : GameSlug) (selection : GameSelection) (u : Stream) (config : RoundConfig)
    (forced : ForcedResult) : Option RoundResult :=
  match slug, selection with
  | .dice, .dice s => some (resolveDice s u config.houseEdge forced)
  | .coinFlip, .coinFlip s => some (resolveCoinFlip s u config.houseEdge forced)
  | .limbo, .limbo s => some (resolveLimbo s u config.houseEdge forced config.maxMultiplier)
  | .wheel, .wheel s => some (resolveWheel s u config.houseEdge forced)
  | .plinko, .plinko s => some (resolvePlinko s u config.houseEdge forced config.maxMultiplier)
  | .keno, .keno s => some (resolveKeno s u config.houseEdge forced config.maxMultiplier)
  | _, _ => none

/-! ## Validation -/

/-- The fields `validateSelection` reads from the request, numbers after `Number(…)`; `picks` is `none` when it is not
an array. -/
structure RawSelection where
  target : Num := none
  direction : String := ""
  side : String := ""
  risk : String := ""
  mineCount : Num := none
  rows : Num := none
  difficulty : String := ""
  picks : Option (List Num) := none
  deriving DecidableEq

def parseRisk : String → Option Risk
  | "low" => some .low
  | "medium" => some .medium
  | "high" => some .high
  | _ => none

/-- The natural number `n` with `lo ≤ n ≤ hi` that a JavaScript number is, if it is one. -/
def natBetween (lo hi : Nat) (value : Num) : Option Nat :=
  match value with
  | none => none
  | some q => if q.den = 1 ∧ (lo : ℤ) ≤ q.num ∧ q.num ≤ hi then some q.num.toNat else none

def validateDice (value : RawSelection) : Except String GameSelection :=
  match value.target with
  | none => .error "Target must be between 2 and 98"
  | some target =>
    if target < 2 ∨ target > 98 then .error "Target must be between 2 and 98"
    else match value.direction with
      | "over" => .ok (.dice { target, direction := .over })
      | "under" => .ok (.dice { target, direction := .under })
      | _ => .error "Direction must be over or under"

def validateCoinFlip (value : RawSelection) : Except String GameSelection :=
  match value.side with
  | "heads" => .ok (.coinFlip { side := .heads })
  | "tails" => .ok (.coinFlip { side := .tails })
  | _ => .error "Pick heads or tails"

def validateLimbo (value : RawSelection) : Except String GameSelection :=
  match value.target with
  | none => .error "Target must be at least 1.01x"
  | some target => if target < 101 / 100 then .error "Target must be at least 1.01x" else .ok (.limbo { target })

def validateWheel (value : RawSelection) : Except String GameSelection :=
  match parseRisk value.risk with
  | none => .error "Pick a risk level"
  | some risk => .ok (.wheel { risk })

def validateMines (value : RawSelection) : Except String GameSelection :=
  match natBetween 1 24 value.mineCount with
  | none => .error "Mines must be between 1 and 24"
  | some mineCount => .ok (.mines { mineCount })

def validatePlinko (value : RawSelection) : Except String GameSelection :=
  match parseRisk value.risk with
  | none => .error "Pick a risk level"
  | some risk =>
    if value.rows = some 8 then .ok (.plinko { risk, rows := 8 })
    else if value.rows = some 12 then .ok (.plinko { risk, rows := 12 })
    else if value.rows = some 16 then .ok (.plinko { risk, rows := 16 })
    else .error "Rows must be 8, 12, or 16"

def validateTowers (value : RawSelection) : Except String GameSelection :=
  match value.difficulty with
  | "easy" => .ok (.towers { difficulty := .easy })
  | "medium" => .ok (.towers { difficulty := .medium })
  | "hard" => .ok (.towers { difficulty := .hard })
  | "expert" => .ok (.towers { difficulty := .expert })
  | _ => .error "Pick a difficulty"

def validateKeno (value : RawSelection) : Except String GameSelection :=
  let picks := value.picks.getD []
  if picks.length < 1 ∨ picks.length > 10 then .error "Pick between 1 and 10 numbers"
  else if ¬ picks.Nodup then .error "Numbers must be unique"
  else match picks.mapM (natBetween 1 KENO_SPOT_COUNT) with
    | none => .error s!"Numbers must be between 1 and {KENO_SPOT_COUNT}"
    | some picks => .ok (.keno { picks := sortAsc picks })

/-- Rejects malformed input before any money moves. -/
def validateSelection : GameSlug → RawSelection → Except String GameSelection
  | .dice => validateDice
  | .coinFlip => validateCoinFlip
  | .limbo => validateLimbo
  | .wheel => validateWheel
  | .mines => validateMines
  | .plinko => validatePlinko
  | .towers => validateTowers
  | .keno => validateKeno
  | .other _ => fun _ => .error "Unknown game"

/-- A validated selection is one its game resolves: the `default` branch of `resolveRound` is dead code. -/
theorem validateSelection_resolves {slug : GameSlug} {value : RawSelection} {selection : GameSelection}
    (hi : isInstantGame slug = true) (h : validateSelection slug value = .ok selection) (u : Stream)
    (config : RoundConfig) (forced : ForcedResult) :
    ∃ result, resolveRound slug selection u config forced = some result := by
  cases slug <;> simp only [isInstantGame, Bool.false_eq_true] at hi
  case dice =>
    simp only [validateSelection, validateDice] at h
    split at h
    · cases h
    · split at h
      · cases h
      · split at h <;> cases h <;> exact ⟨_, rfl⟩
  case coinFlip =>
    simp only [validateSelection, validateCoinFlip] at h
    split at h <;> cases h <;> exact ⟨_, rfl⟩
  case limbo =>
    simp only [validateSelection, validateLimbo] at h
    split at h
    · cases h
    · split at h <;> cases h; exact ⟨_, rfl⟩
  case wheel =>
    simp only [validateSelection, validateWheel] at h
    split at h <;> cases h; exact ⟨_, rfl⟩
  case plinko =>
    simp only [validateSelection, validatePlinko] at h
    split at h
    · cases h
    · split_ifs at h <;> cases h <;> exact ⟨_, rfl⟩
  case keno =>
    simp only [validateSelection, validateKeno] at h
    split_ifs at h
    split at h <;> cases h; exact ⟨_, rfl⟩

theorem natBetween_mem {lo hi k : Nat} {value : Num} (h : natBetween lo hi value = some k) : lo ≤ k ∧ k ≤ hi := by
  unfold natBetween at h
  split at h
  · cases h
  · split_ifs at h with hq
    cases h
    omega

/-- A validated Mines selection leaves a safe tile. -/
theorem validateMines_ok {value : RawSelection} {selection : GameSelection}
    (h : validateSelection .mines value = .ok selection) :
    ∃ s, selection = .mines s ∧ 1 ≤ s.mineCount ∧ s.mineCount ≤ 24 := by
  simp only [validateSelection, validateMines] at h
  split at h
  · cases h
  · rename_i hcount
    cases h
    exact ⟨_, rfl, natBetween_mem hcount⟩

theorem validateDice_target {value : RawSelection} {selection : GameSelection}
    (h : validateDice value = .ok selection) :
    ∃ s : DiceSelection, selection = .dice s ∧ 2 ≤ s.target ∧ s.target ≤ 98 := by
  unfold validateDice at h
  split at h
  · cases h
  · split_ifs at h with ht
    obtain ⟨hlo, hhi⟩ := not_or.1 ht
    split at h <;> cases h <;> exact ⟨_, rfl, not_lt.1 hlo, not_lt.1 hhi⟩

theorem validateTowers_ok {value : RawSelection} {selection : GameSelection}
    (h : validateSelection .towers value = .ok selection) : ∃ s, selection = .towers s := by
  simp only [validateSelection, validateTowers] at h
  split at h <;> cases h <;> exact ⟨_, rfl⟩

/-! ## No round pays a negative multiplier -/

theorem resolveRound_nonneg {slug : GameSlug} {selection : GameSelection} {u : Stream} {config : RoundConfig}
    {forced : ForcedResult} {result : RoundResult} (he : config.houseEdge ≤ 1) (hm : 0 ≤ config.maxMultiplier)
    (h : resolveRound slug selection u config forced = some result) : 0 ≤ result.multiplier := by
  unfold resolveRound at h
  split at h <;> cases h
  · exact resolveDice_nonneg he _ _ _
  · exact resolveCoinFlip_nonneg he _ _ _
  · exact resolveLimbo_nonneg hm _ _ _
  · exact resolveWheel_nonneg _ _ _
  · exact resolvePlinko_nonneg hm _ _ _
  · exact resolveKeno_nonneg hm _ _ _

theorem applyWinCap_nonneg {result : RoundResult} {rule : Option ControlRule} (h : 0 ≤ result.multiplier)
    (hc : ∀ cap, rule.bind ControlRule.maxWinMultiplier = some cap → 0 ≤ cap) :
    0 ≤ (applyWinCap result rule).multiplier := by
  unfold applyWinCap
  split
  · exact h
  · rename_i cap hcap
    split_ifs
    · exact h
    · exact h
    · exact hc cap hcap

end Smink
