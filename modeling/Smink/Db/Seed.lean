import Smink.Db.Schema

/-!
# The catalogue

The rows that `scripts/seed-games.ts` writes, with the columns' defaults for what it leaves out; a row's slug stands in
for its generated id. `tableDb` is a small database over the catalogue: one player at one table.
-/

namespace Smink

open Store

/-- A row of `catalogue`, by its slug, its limits, its edge and its cap. -/
def seedGame (slug : GameSlug) (maxBet : Money) (houseEdge maxMultiplier : ℚ) : Game where
  id := slug.text
  slug := slug
  minBet := 100
  maxBet := maxBet
  houseEdge := houseEdge
  difficulty := 0
  maxMultiplier := maxMultiplier
  isActive := true
  underMaintenance := false

def catalogue : List Game := [
  seedGame .dice 100000 (2/100) 49,
  seedGame .mines 100000 (2/100) 1000,
  seedGame .coinFlip 100000 (2/100) (196/100),
  seedGame .wheel 50000 (3/100) 50,
  seedGame .limbo 100000 (2/100) 1000,
  seedGame .plinko 100000 (2/100) 1000,
  seedGame .towers 100000 (2/100) 1000,
  seedGame .keno 100000 (2/100) 1000]

/-- The edge is a fraction and no game pays a negative multiplier. -/
theorem catalogue_sound : ∀ game ∈ catalogue, 0 ≤ game.houseEdge ∧ game.houseEdge ≤ 1 ∧ 0 ≤ game.maxMultiplier := by
  decide +kernel

def seededGames : Table Game := ⟨catalogue, by decide +kernel⟩

/-- One player with $100, seated at one game. -/
def tableDb (slug : GameSlug) : Db where
  users := ⟨[{ id := "u1", createdAt := 0 }], by decide⟩
  games := seededGames
  gameSessions := ⟨[{ id := "s1", userId := "u1", gameId := slug.text, startedAt := 0 }], List.pairwise_singleton _ _⟩
  sminkWallets := ⟨[{ userId := "u1", balance := 10000 }], by decide⟩
  sminkTransactions := .empty
  bets := .empty
  gameExcluded := .empty
  userGameControl := .empty

end Smink
