import Smink.Engine.Number

/-!
# The games: what players choose and what the server rolls

The types of `contracts/games.ts`. A slug outside the union reaches the engine through `slug as GameSlug`, so
`GameSlug` keeps one constructor for the rest of the strings.
-/

namespace Smink

inductive GameSlug
  | dice | coinFlip | limbo | wheel | mines | plinko | towers | keno
  /-- Any string that is not one of the eight slugs. -/
  | other (name : String)
  deriving DecidableEq, Repr

/-- `isInstantGame`: membership in `INSTANT_GAMES`. -/
def isInstantGame : GameSlug → Bool
  | .dice | .coinFlip | .limbo | .wheel | .plinko | .keno => true
  | .mines | .towers | .other _ => false

inductive Direction
  | over | under
  deriving DecidableEq, Repr

theorem Direction.under_or_over (direction : Direction) : direction = .under ∨ direction = .over := by
  cases direction <;> simp

inductive CoinSide
  | heads | tails
  deriving DecidableEq, Repr

inductive Risk
  | low | medium | high
  deriving DecidableEq, Repr

inductive TowersDifficulty
  | easy | medium | hard | expert
  deriving DecidableEq, Repr

/-! ## Player selections -/

structure DiceSelection where
  target : ℚ
  direction : Direction
  deriving DecidableEq

structure CoinFlipSelection where
  side : CoinSide
  deriving DecidableEq

structure LimboSelection where
  target : ℚ
  deriving DecidableEq

structure WheelSelection where
  risk : Risk
  deriving DecidableEq

structure MinesSelection where
  mineCount : Nat
  deriving DecidableEq

structure PlinkoSelection where
  risk : Risk
  rows : Nat
  deriving DecidableEq

structure TowersSelection where
  difficulty : TowersDifficulty
  deriving DecidableEq

structure KenoSelection where
  picks : List Nat
  deriving DecidableEq

inductive GameSelection
  | dice (s : DiceSelection)
  | coinFlip (s : CoinFlipSelection)
  | limbo (s : LimboSelection)
  | wheel (s : WheelSelection)
  | mines (s : MinesSelection)
  | plinko (s : PlinkoSelection)
  | towers (s : TowersSelection)
  | keno (s : KenoSelection)
  deriving DecidableEq

/-! ## Server outcomes -/

inductive GameOutcome
  | dice (roll : ℚ)
  | coinFlip (result : CoinSide)
  | limbo (result : ℚ)
  | wheel (segment : Nat) (multiplier : ℚ)
  | mines (minePositions revealed : List Nat)
  | plinko (bucket : Nat) (path : List Nat) (multiplier : ℚ)
  | towers (traps : List (List Nat)) (picks : List Nat)
  | keno (drawn hits : List Nat) (hitCount : Nat)
  deriving DecidableEq

structure RoundResult where
  won : Bool
  multiplier : ℚ
  outcome : GameOutcome
  deriving DecidableEq

/-- `none` means roll honestly. Set by the admin control layer. -/
abbrev ForcedResult := Option Bool

structure SeedContext where
  serverSeed : String
  clientSeed : String
  nonce : Nat
  deriving DecidableEq

end Smink
