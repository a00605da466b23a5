import Smink.Db.Seed
import Smink.Engine.Deals
import Smink.Engine.Validated

/-!
# The house edge of the catalogue

What an honest round pays on average, for every instant game with its catalogue row and every selection that validates.
Dice, Coin Flip and Limbo leave the edge of their rows, less what rounding gives back; the tables of Plinko and Keno
have an edge baked in; the tables of the Wheel have none (`house_edge_iff`).
-/

namespace Smink

open scoped BigOperators

/-! ## The catalogue -/

/-- An honest round pays back at most what it takes, on average, in every instant game but the Wheel. -/
theorem house_edge_iff (game : Game) (value : RawSelection) {selection : GameSelection} {n : ℕ}
    (hg : game ∈ catalogue) (hi : isInstantGame game.slug = true)
    (hv : validateSelection game.slug value = .ok selection)
    (hn : 50 ≤ n) : expectedMultiplier n game.slug selection game.config ≤ 1 ↔ game.slug ≠ .wheel := by
  simp only [catalogue, List.mem_cons, List.not_mem_nil, or_false] at hg
  rcases hg with rfl | rfl | rfl | rfl | rfl | rfl | rfl | rfl
  · obtain ⟨s, rfl, hlo, hhi⟩ := validateDice_target hv
    exact iff_of_true (dice_le_one (by omega) (by norm_num [seedGame]) (by norm_num [seedGame]) hlo hhi) (by decide)
  · cases hi
  · obtain ⟨s, rfl⟩ := validateCoinFlip_side hv
    exact iff_of_true (coinFlip_le_one (by omega) (by norm_num [seedGame]) (by norm_num [seedGame]) s) (by decide)
  · obtain ⟨s, rfl⟩ := validateWheel_risk hv
    exact iff_of_false (not_le.2 (one_lt_wheel (by omega) s _)) fun h => h rfl
  · obtain ⟨s, rfl, -⟩ := validateLimbo_target hv
    exact iff_of_true
      (limbo_le_one (by omega) (by norm_num [seedGame]) (by norm_num [seedGame]) (by norm_num [seedGame]) s) (by decide)
  · obtain ⟨s, rfl, hrows⟩ := validatePlinko_rows hv
    exact iff_of_true (plinko_le_one hrows (by omega) _) (by decide)
  · cases hi
  · obtain ⟨s, rfl, ht⟩ := validateKeno_picks hv
    exact iff_of_true (keno_le_one hn ht.nodup ht.le_ten ht.mem_pool _) (by decide)

theorem house_edge_iff_keno :
    expectedMultiplier 50 .keno (.keno { picks := [3, 7, 11] }) (seedGame .keno 100000 (2 / 100) 1000).config ≤ 1 ↔
      GameSlug.keno ≠ .wheel :=
  house_edge_iff (seedGame .keno 100000 (2 / 100) 1000) { picks := some [some 7, some 3, some 11] }
    (by decide +kernel) rfl (by decide +kernel) le_rfl

/-- The low-risk Wheel of the catalogue pays back more than it takes. -/
theorem wheel_pays_back_more :
    seedGame .wheel 50000 (3 / 100) 50 ∈ catalogue ∧
    validateSelection .wheel { risk := "low" } = .ok (.wheel { risk := .low }) ∧
    ¬ expectedMultiplier 50 .wheel (.wheel { risk := .low }) (seedGame .wheel 50000 (3 / 100) 50).config ≤ 1 :=
  ⟨by decide +kernel, rfl, not_le.2 (one_lt_wheel (by norm_num) _ _)⟩

end Smink
