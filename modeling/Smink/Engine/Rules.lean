import Smink.Engine.Rng
import Mathlib.Data.List.Sort

/-!
# The rules of the eight games

`libs/engine/src/rules.ts`, over the stream of one seed triple. Dice, Coin Flip, Limbo, Wheel, Plinko and Keno settle at
once (`resolve…`); Mines and Towers lay out a grid at the start (`build…Grid`) and price every further step
(`…Multiplier`).

JavaScript's `xs.sort((a, b) => a - b)` is insertion sort here; both are the stable sort.
-/

namespace Smink

def MINES_TILE_COUNT : Nat := 25

/-- Payout for a fair bet at `winChance`, minus the house's cut. -/
def fairMultiplier (winChance houseEdge : ℚ) : ℚ :=
  if winChance ≤ 0 then 0 else round2 ((1 - houseEdge) / winChance)

/-- `numbers.sort((a, b) => a - b)`. -/
def sortAsc (numbers : List Nat) : List Nat := numbers.insertionSort (· ≤ ·)

/-! ## Dice -/

def diceWinChance (selection : DiceSelection) : ℚ :=
  match selection.direction with
  | .under => selection.target / 100
  | .over => (100 - selection.target) / 100

/-- The roll before it is clamped to the board. -/
def diceRoll (selection : DiceSelection) (float : ℚ) : ForcedResult → ℚ
  | none => round2 (float * 100)
  | some true => -- land anywhere inside the winning band
    match selection.direction with
    | .under => round2 (float * max (selection.target - 1 / 100) 0)
    | .over => round2 (selection.target + 1 / 100 + float * (9999 / 100 - selection.target))
  | some false =>
    match selection.direction with
    | .under => round2 (selection.target + float * (9999 / 100 - selection.target))
    | .over => round2 (float * max (selection.target - 1 / 100) 0)

def diceWon (selection : DiceSelection) (roll : ℚ) : Bool :=
  match selection.direction with
  | .under => decide (roll < selection.target)
  | .over => decide (roll > selection.target)

def resolveDice (selection : DiceSelection) (u : Stream) (houseEdge : ℚ) (forced : ForcedResult) : RoundResult :=
  let multiplier := fairMultiplier (diceWinChance selection) houseEdge
  let roll := clamp (diceRoll selection (u 0) forced) 0 (9999 / 100)
  let won := diceWon selection roll
  { won, multiplier := if won then multiplier else 0, outcome := .dice roll }

/-! ## Coin Flip -/

def CoinSide.opposite : CoinSide → CoinSide
  | .heads => .tails
  | .tails => .heads

def resolveCoinFlip (selection : CoinFlipSelection) (u : Stream) (houseEdge : ℚ) (forced : ForcedResult) :
    RoundResult :=
  let multiplier := fairMultiplier (1 / 2) houseEdge
  let natural : CoinSide := if u 0 < 1 / 2 then .heads else .tails
  let result := match forced with
    | none => natural
    | some true => selection.side
    | some false => selection.side.opposite
  let won := decide (result = selection.side)
  { won, multiplier := if won then multiplier else 0, outcome := .coinFlip result }

/-! ## Limbo -/

/-- The crash value. Honest rounds take an inverse-transform sample, so results follow the `1/x` distribution. -/
def limboResult (target float houseEdge maxMultiplier : ℚ) : ForcedResult → ℚ
  | none => round2 (clamp ((1 - houseEdge) / max float (1 / 1000000000)) 1 maxMultiplier)
  | some true => round2 (clamp (target + float * (maxMultiplier - target)) target maxMultiplier)
  | some false => round2 (clamp (1 + float * (target - 101 / 100)) 1 (target - 1 / 100))

def resolveLimbo (selection : LimboSelection) (u : Stream) (houseEdge : ℚ) (forced : ForcedResult)
    (maxMultiplier : ℚ) : RoundResult :=
  let target := clamp selection.target (101 / 100) maxMultiplier
  let result := limboResult target (u 0) houseEdge maxMultiplier forced
  let won := decide (result ≥ target)
  { won, multiplier := if won then round2 target else 0, outcome := .limbo result }

/-! ## Wheel -/

def WHEEL_SEGMENTS : Risk → List ℚ
  | .low => [0, 12/10, 15/10, 12/10, 0, 15/10, 12/10, 2, 0, 12/10, 15/10, 12/10]
  | .medium => [0, 15/10, 2, 0, 3, 15/10, 0, 2, 5, 0, 15/10, 3]
  | .high => [0, 0, 0, 0, 5, 0, 0, 10, 0, 0, 0, 50]

/-- The indexes whose entry satisfies `p` (`table.map((m, i) => …).filter((i) => i >= 0)`). -/
def indexesWhere (p : ℚ → Bool) (table : List ℚ) : List Nat :=
  (List.range table.length).filter fun i => p (table.getD i 0)

/-- The pool a forced round picks from: the wanted indexes, or the others when there are none. -/
def forcedPool (forced : Bool) (winning losing : List Nat) : List Nat :=
  let pool := if forced then winning else losing
  let fallback := if forced then losing else winning
  if pool.length > 0 then pool else fallback

def wheelSegment (segments : List ℚ) (u : Stream) : ForcedResult → Nat
  | none => (seededInt u 0 (segments.length - 1)).toNat
  | some forced =>
    let chosen := forcedPool forced (indexesWhere (· > 1) segments) (indexesWhere (· ≤ 1) segments)
    chosen.getD (seededInt u 0 (chosen.length - 1)).toNat 0

def resolveWheel (selection : WheelSelection) (u : Stream) (_houseEdge : ℚ) (forced : ForcedResult) : RoundResult :=
  let segments := WHEEL_SEGMENTS selection.risk
  let segment := wheelSegment segments u forced
  let multiplier := segments.getD segment 0
  { won := decide (multiplier > 0), multiplier, outcome := .wheel segment multiplier }

/-! ## Mines -/

/-- The odds of surviving `revealed` picks: `C(safe, revealed) / C(total, revealed)`, one factor a pick. -/
def minesSurvivalOdds (safeTiles : ℤ) : Nat → ℚ
  | 0 => 1
  | i + 1 => minesSurvivalOdds safeTiles i * ((safeTiles - i) / ((MINES_TILE_COUNT : ℚ) - i))

/-- Payout after `revealed` safe tiles. -/
def minesMultiplier (mineCount revealed : Nat) (houseEdge : ℚ) : ℚ :=
  let safeTiles : ℤ := (MINES_TILE_COUNT : ℤ) - mineCount
  if revealed = 0 then 0
  else if (revealed : ℤ) > safeTiles then 0
  else round2 ((1 - houseEdge) / minesSurvivalOdds safeTiles revealed)

/-- The centre and corners players open first. -/
def hotSpots : List Nat := [12, 0, 4, 20, 24, 6, 8, 16, 18]

/-- Lays out the grid for a Mines round. A forced loss biases the mines toward the hot spots. -/
def buildMinesGrid (selection : MinesSelection) (u : Stream) (forced : ForcedResult) : List Nat :=
  let shuffled := seededShuffle (List.range MINES_TILE_COUNT) u
  let mineCount := min (MINES_TILE_COUNT - 1) (max selection.mineCount 1)
  if forced = some false then
    let forcedMines := hotSpots.take mineCount
    let remaining := shuffled.filter fun p => !forcedMines.contains p
    sortAsc ((forcedMines ++ remaining.take (mineCount - forcedMines.length)).take mineCount)
  else
    sortAsc (shuffled.take mineCount)

/-! ## Plinko -/

/-- Buckets = rows + 1. Values are Stake-style tables with the edge baked in. -/
def PLINKO_BUCKETS : Risk → Nat → List ℚ
  | .low, 8 => [56/10, 21/10, 11/10, 1, 5/10, 1, 11/10, 21/10, 56/10]
  | .low, 12 => [10, 3, 16/10, 14/10, 11/10, 1, 5/10, 1, 11/10, 14/10, 16/10, 3, 10]
  | .low, 16 => [16, 9, 2, 14/10, 14/10, 12/10, 11/10, 1, 5/10, 1, 11/10, 12/10, 14/10, 14/10, 2, 9, 16]
  | .medium, 8 => [13, 3, 13/10, 7/10, 4/10, 7/10, 13/10, 3, 13]
  | .medium, 12 => [33, 11, 4, 2, 11/10, 6/10, 3/10, 6/10, 11/10, 2, 4, 11, 33]
  | .medium, 16 => [110, 41, 10, 5, 3, 15/10, 1, 5/10, 3/10, 5/10, 1, 15/10, 3, 5, 10, 41, 110]
  | .high, 8 => [29, 4, 15/10, 3/10, 2/10, 3/10, 15/10, 4, 29]
  | .high, 12 => [170, 24, 81/10, 2, 7/10, 2/10, 2/10, 2/10, 7/10, 2, 81/10, 24, 170]
  | .high, 16 => [1000, 130, 26, 9, 4, 2, 2/10, 2/10, 2/10, 2/10, 2/10, 2, 4, 9, 26, 130, 1000]
  | _, _ => []

def plinkoPathForBucket (rows bucket : Nat) (u : Stream) : List Nat :=
  let rights := (seededShuffle (List.range rows) u 80).take bucket
  (List.range rows).map fun i => if rights.contains i then 1 else 0

/-- The bounces of an honest drop. -/
def plinkoPath (rows : Nat) (u : Stream) : List Nat :=
  (List.range rows).map fun i => if u i < 1 / 2 then 0 else 1

def plinkoBucket (buckets : List ℚ) (u : Stream) (forced : Bool) : Nat :=
  let pool := forcedPool forced (indexesWhere (· ≥ 1) buckets) (indexesWhere (· < 1) buckets)
  pool.getD (seededInt u 0 (pool.length - 1) 90).toNat 0

def resolvePlinko (selection : PlinkoSelection) (u : Stream) (_houseEdge : ℚ) (forced : ForcedResult)
    (maxMultiplier : ℚ) : RoundResult :=
  let rows := selection.rows
  let buckets := PLINKO_BUCKETS selection.risk rows
  let (path, bucket) := match forced with
    | none => let path := plinkoPath rows u; (path, path.sum)
    | some forced =>
      let bucket := plinkoBucket buckets u forced
      (plinkoPathForBucket rows bucket u, bucket)
  let multiplier := min (buckets.getD bucket 0) maxMultiplier
  { won := decide (multiplier > 0), multiplier, outcome := .plinko bucket path multiplier }

/-! ## Towers -/

structure TowersConfig where
  tiles : Nat
  mines : Nat
  rows : Nat
  deriving DecidableEq

def towersConfig : TowersDifficulty → TowersConfig
  | .easy => { tiles := 4, mines := 1, rows := 10 }
  | .medium => { tiles := 3, mines := 2, rows := 10 }
  | .hard => { tiles := 2, mines := 1, rows := 10 }
  | .expert => { tiles := 3, mines := 2, rows := 6 }

/-- Share of Easy floors that are not 3-win / 1-trap. -/
def EASY_TRAP_VARY : ℚ := 45 / 100

def easyTrapsOnFloor (u : Stream) (row : Nat) : Nat :=
  let roll := u ((row + 1) * 40)
  if roll ≥ EASY_TRAP_VARY then 1 else if roll < EASY_TRAP_VARY / 2 then 3 else 2

def towersSurviveRate (difficulty : TowersDifficulty) : ℚ :=
  let config := towersConfig difficulty
  if difficulty ≠ .easy then ((config.tiles : ℚ) - config.mines) / config.tiles
  else (1 - EASY_TRAP_VARY) * (3 / 4) + EASY_TRAP_VARY / 2 * (2 / 4) + EASY_TRAP_VARY / 2 * (1 / 4)

def towersMultiplier (difficulty : TowersDifficulty) (climbed : Nat) (houseEdge : ℚ) : ℚ :=
  if climbed = 0 then 0 else round2 ((1 - houseEdge) / towersSurviveRate difficulty ^ climbed)

/-- One shuffled trap layout per floor. -/
def buildTowersGrid (selection : TowersSelection) (u : Stream) (_forced : ForcedResult) : List (List Nat) :=
  let config := towersConfig selection.difficulty
  (List.range config.rows).map fun row =>
    let trapCount := if selection.difficulty = .easy then easyTrapsOnFloor u row else config.mines
    sortAsc ((seededShuffle (List.range config.tiles) u ((row + 1) * 40)).take trapCount)

/-! ## Keno -/

def KENO_SPOT_COUNT : Nat := 50
def KENO_DRAW_COUNT : Nat := 10

/-- Paytable[pickCount][hitCount] = multiplier. Missing keys pay 0. -/
def KENO_PAYTABLE : Nat → List (Nat × ℚ)
  | 1 => [(1, 396/100)]
  | 2 => [(2, 17)]
  | 3 => [(2, 22/10), (3, 48)]
  | 4 => [(2, 16/10), (3, 6), (4, 90)]
  | 5 => [(3, 33/10), (4, 13), (5, 300)]
  | 6 => [(3, 2), (4, 5), (5, 48), (6, 710)]
  | 7 => [(4, 6), (5, 18), (6, 120), (7, 800)]
  | 8 => [(5, 10), (6, 50), (7, 400), (8, 1000)]
  | 9 => [(5, 6), (6, 22), (7, 120), (8, 800), (9, 1000)]
  | 10 => [(5, 5), (6, 24), (7, 80), (8, 500), (9, 800), (10, 1000)]
  | _ => []

def kenoPayout (pickCount hitCount : Nat) : ℚ := ((KENO_PAYTABLE pickCount).lookup hitCount).getD 0

def kenoMinPayingHits (pickCount : Nat) : Nat :=
  match (KENO_PAYTABLE pickCount).map Prod.fst with
  | [] => pickCount
  | hit :: hits => hits.foldl min hit

/-- `[...new Set(selection.picks)].sort((a, b) => a - b)`. -/
def kenoPicks (selection : KenoSelection) : List Nat := sortAsc selection.picks.eraseDups

/-- `Array.from({ length: KENO_SPOT_COUNT }, (_, i) => i + 1)`. -/
def kenoPool : List Nat := (List.range KENO_SPOT_COUNT).map (· + 1)

/-- The ten numbers before they are sorted. -/
def kenoDraw (picks : List Nat) (u : Stream) : ForcedResult → List Nat
  | none => (seededShuffle kenoPool u).take KENO_DRAW_COUNT
  | some forced =>
    let others := kenoPool.filter fun n => !picks.contains n
    let need := kenoMinPayingHits picks.length
    let hitCount := if forced then need else (seededInt u 0 (max 0 ((need : ℤ) - 1)) 70).toNat
    (seededShuffle picks u 20).take hitCount ++ (seededShuffle others u 40).take (KENO_DRAW_COUNT - hitCount)

def resolveKeno (selection : KenoSelection) (u : Stream) (_houseEdge : ℚ) (forced : ForcedResult)
    (maxMultiplier : ℚ) : RoundResult :=
  let picks := kenoPicks selection
  let drawn := sortAsc (kenoDraw picks u forced)
  let hits := picks.filter fun n => drawn.contains n
  let multiplier := min (kenoPayout picks.length hits.length) maxMultiplier
  { won := decide (multiplier > 0), multiplier, outcome := .keno drawn hits hits.length }

/-! ## No rule pays a negative multiplier -/

section NonNeg

variable {houseEdge : ℚ}

theorem fairMultiplier_nonneg (h : houseEdge ≤ 1) (winChance : ℚ) : 0 ≤ fairMultiplier winChance houseEdge := by
  unfold fairMultiplier
  split
  · exact le_refl 0
  · rename_i hc
    exact round2_nonneg (div_nonneg (by linarith) (by linarith))

/-- A loss pays nothing, so only the multiplier of a win counts. -/
theorem ifWon_nonneg {multiplier : ℚ} (h : 0 ≤ multiplier) (won : Bool) : 0 ≤ if won then multiplier else 0 := by
  cases won
  · exact le_refl 0
  · exact h

theorem resolveDice_nonneg (h : houseEdge ≤ 1) (selection : DiceSelection) (u : Stream) (forced : ForcedResult) :
    0 ≤ (resolveDice selection u houseEdge forced).multiplier :=
  ifWon_nonneg (fairMultiplier_nonneg h _) _

theorem resolveCoinFlip_nonneg (h : houseEdge ≤ 1) (selection : CoinFlipSelection) (u : Stream)
    (forced : ForcedResult) : 0 ≤ (resolveCoinFlip selection u houseEdge forced).multiplier :=
  ifWon_nonneg (fairMultiplier_nonneg h _) _

theorem resolveLimbo_nonneg {maxMultiplier : ℚ} (h : 0 ≤ maxMultiplier) (selection : LimboSelection) (u : Stream)
    (forced : ForcedResult) : 0 ≤ (resolveLimbo selection u houseEdge forced maxMultiplier).multiplier :=
  ifWon_nonneg (round2_nonneg (clamp_nonneg (by norm_num) h)) _

/-- What holds of zero and of the entries of a table holds of everything that is read from it. -/
theorem getD_of {P : ℚ → Prop} (h₀ : P 0) {table : List ℚ} (h : ∀ m ∈ table, P m) (i : Nat) : P (table.getD i 0) := by
  rw [List.getD_eq_getElem?_getD]
  cases hi : table[i]? with
  | none => exact h₀
  | some m => exact h m (List.mem_of_getElem? hi)

theorem getD_nonneg {table : List ℚ} (h : ∀ m ∈ table, 0 ≤ m) (i : Nat) : 0 ≤ table.getD i 0 := getD_of le_rfl h i

theorem wheelSegments_nonneg (risk : Risk) : ∀ m ∈ WHEEL_SEGMENTS risk, 0 ≤ m := by
  cases risk <;> decide +kernel

theorem resolveWheel_nonneg (selection : WheelSelection) (u : Stream) (forced : ForcedResult) :
    0 ≤ (resolveWheel selection u houseEdge forced).multiplier :=
  getD_nonneg (wheelSegments_nonneg _) _

theorem plinkoBuckets_nonneg (risk : Risk) (rows : Nat) : ∀ m ∈ PLINKO_BUCKETS risk rows, 0 ≤ m := by
  fun_cases PLINKO_BUCKETS risk rows
  case case10 => simp
  all_goals decide +kernel

theorem resolvePlinko_nonneg {maxMultiplier : ℚ} (h : 0 ≤ maxMultiplier) (selection : PlinkoSelection) (u : Stream)
    (forced : ForcedResult) : 0 ≤ (resolvePlinko selection u houseEdge forced maxMultiplier).multiplier :=
  le_min (getD_nonneg (plinkoBuckets_nonneg _ _) _) h

theorem kenoPaytable_nonneg (pickCount : Nat) : ∀ p ∈ KENO_PAYTABLE pickCount, 0 ≤ p.2 := by
  fun_cases KENO_PAYTABLE pickCount
  case case11 => simp
  all_goals decide +kernel

theorem lookup_of {P : ℚ → Prop} (h₀ : P 0) :
    ∀ {table : List (Nat × ℚ)}, (∀ p ∈ table, P p.2) → ∀ i, P ((table.lookup i).getD 0)
  | [], _, _ => h₀
  | (j, m) :: table, h, i => by
    rw [List.lookup_cons]
    cases i == j with
    | true => exact h (j, m) (by simp)
    | false => exact lookup_of h₀ (fun p hp => h p (by simp [hp])) i

theorem kenoPayout_nonneg (pickCount hitCount : Nat) : 0 ≤ kenoPayout pickCount hitCount :=
  lookup_of le_rfl (kenoPaytable_nonneg pickCount) hitCount

theorem resolveKeno_nonneg {maxMultiplier : ℚ} (h : 0 ≤ maxMultiplier) (selection : KenoSelection) (u : Stream)
    (forced : ForcedResult) : 0 ≤ (resolveKeno selection u houseEdge forced maxMultiplier).multiplier :=
  le_min (kenoPayout_nonneg _ _) h

end NonNeg

end Smink
