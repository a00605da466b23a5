import Smink.Engine.Rules
import Smink.Engine.Shuffle

/-!
# The layouts of grid rounds

A Mines layout is as many distinct tiles as were asked for, whatever the seeds and the controls; a Towers layout has a
row of traps for each floor, with at least one trap and one safe tile. The multipliers have two decimals, so the column
that stores them with four keeps them as they are.
-/

namespace Smink

variable {u : Stream}

/-! ## Stored multipliers -/

/-- A number with two decimals is stored as it is. -/
theorem toFixed_of_cents (n : ℤ) : toFixed 4 ((n : ℚ) / 100) = n / 100 := by
  unfold toFixed
  have hpos : (n : ℚ) / 100 * 10 ^ 4 = ((n * 100 : ℤ) : ℚ) := by push_cast; ring
  have hneg : -((n : ℚ) / 100) * 10 ^ 4 = ((-(n * 100) : ℤ) : ℚ) := by push_cast; ring
  rw [hpos, hneg, mathRound_intCast, mathRound_intCast]
  push_cast
  split_ifs <;> ring

theorem toFixed_round2 (value : ℚ) : toFixed 4 (round2 value) = round2 value := toFixed_of_cents _

theorem toFixed_zero : toFixed 4 0 = 0 := by simpa using toFixed_of_cents 0

theorem toFixed_minesMultiplier (mineCount revealed : Nat) (houseEdge : ℚ) :
    toFixed 4 (minesMultiplier mineCount revealed houseEdge) = minesMultiplier mineCount revealed houseEdge := by
  unfold minesMultiplier
  dsimp only
  split_ifs
  · exact toFixed_zero
  · exact toFixed_zero
  · exact toFixed_round2 _

theorem toFixed_towersMultiplier (difficulty : TowersDifficulty) (climbed : Nat) (houseEdge : ℚ) :
    toFixed 4 (towersMultiplier difficulty climbed houseEdge) = towersMultiplier difficulty climbed houseEdge := by
  unfold towersMultiplier
  split_ifs
  · exact toFixed_zero
  · exact toFixed_round2 _

/-! ## Layouts -/

theorem sortAsc_perm (numbers : List Nat) : (sortAsc numbers).Perm numbers := List.perm_insertionSort _ _

theorem seededShuffle_perm {α : Type} (hu : u.Unit) (items : List α) (cursorOffset : Nat) :
    (seededShuffle items u cursorOffset).Perm items := by
  unfold seededShuffle
  cases items with
  | nil => exact .refl _
  | cons a items => exact shuffleLoop_perm hu (by simp)

/-- The items of `xs` that are in `ys`, when `ys` is a part of `xs`. -/
theorem filter_contains_perm {xs ys : List Nat} (hx : xs.Nodup) (hy : ys.Nodup) (h : ∀ a ∈ ys, a ∈ xs) :
    (xs.filter fun a => ys.contains a).Perm ys := by
  refine (List.perm_ext_iff_of_nodup (hx.filter _) hy).2 fun a => ?_
  simp only [List.mem_filter, List.contains_iff_mem]
  exact ⟨And.right, fun ha => ⟨h a ha, ha⟩⟩

/-- The other items of `xs`. -/
theorem length_filter_not_contains {xs ys : List Nat} (hx : xs.Nodup) (hy : ys.Nodup) (h : ∀ a ∈ ys, a ∈ xs) :
    (xs.filter fun a => !ys.contains a).length = xs.length - ys.length := by
  have hin := (filter_contains_perm hx hy h).length_eq
  have hsplit := (List.filter_append_perm (fun a => ys.contains a) xs).length_eq
  rw [List.length_append, hin] at hsplit
  omega

/-- `chosen` are `count` distinct tiles below `tiles`. -/
structure Tiles (tiles count : Nat) (chosen : List Nat) : Prop where
  nodup : chosen.Nodup
  length_eq : chosen.length = count
  lt : ∀ tile ∈ chosen, tile < tiles

/-- The front of a shuffle. -/
theorem tiles_take_shuffle (hu : u.Unit) {tiles count : Nat} (hle : count ≤ tiles) (cursorOffset : Nat) :
    Tiles tiles count (sortAsc ((seededShuffle (List.range tiles) u cursorOffset).take count)) := by
  have hperm := sortAsc_perm ((seededShuffle (List.range tiles) u cursorOffset).take count)
  have hshuffle := seededShuffle_perm hu (List.range tiles) cursorOffset
  refine ⟨?_, ?_, fun tile ht => ?_⟩
  · exact hperm.nodup_iff.2 ((hshuffle.nodup_iff.2 List.nodup_range).sublist (List.take_sublist _ _))
  · rw [hperm.length_eq, List.length_take, hshuffle.length_eq, List.length_range]
    omega
  · exact List.mem_range.1 (hshuffle.mem_iff.1 (List.mem_of_mem_take (hperm.mem_iff.1 ht)))

/-- The hot spots first, then the front of the shuffle without them. -/
theorem tiles_hotSpots (hu : u.Unit) {count : Nat} (hle : count ≤ MINES_TILE_COUNT) :
    Tiles MINES_TILE_COUNT count (sortAsc ((hotSpots.take count ++
      ((seededShuffle (List.range MINES_TILE_COUNT) u).filter fun p => !(hotSpots.take count).contains p).take
        (count - (hotSpots.take count).length)).take count)) := by
  have hspots : (hotSpots.take count).Nodup := (by decide : hotSpots.Nodup).sublist (List.take_sublist _ _)
  have hspotsLt : ∀ tile ∈ hotSpots.take count, tile < MINES_TILE_COUNT := fun tile ht =>
    (by decide : ∀ tile ∈ hotSpots, tile < MINES_TILE_COUNT) tile (List.mem_of_mem_take ht)
  have hspotsLen : (hotSpots.take count).length ≤ count := List.length_take_le _ _
  generalize hotSpots.take count = spots at *
  have hshuffle := seededShuffle_perm hu (List.range MINES_TILE_COUNT) 0
  generalize seededShuffle (List.range MINES_TILE_COUNT) u = shuffled at *
  have hnodup : shuffled.Nodup := hshuffle.nodup_iff.2 List.nodup_range
  have hmem : ∀ tile, tile ∈ shuffled ↔ tile < MINES_TILE_COUNT := fun tile =>
    hshuffle.mem_iff.trans List.mem_range
  -- the tiles that are not hot spots fill up the board
  have hrest : (shuffled.filter fun p => !spots.contains p).length = MINES_TILE_COUNT - spots.length := by
    rw [length_filter_not_contains hnodup hspots fun tile ht => (hmem tile).2 (hspotsLt tile ht), hshuffle.length_eq,
      List.length_range]
  have hlen : (spots ++ (shuffled.filter fun p => !spots.contains p).take (count - spots.length)).length = count := by
    rw [List.length_append, List.length_take, hrest]
    omega
  rw [List.take_of_length_le hlen.le]
  have hperm := sortAsc_perm (spots ++ (shuffled.filter fun p => !spots.contains p).take (count - spots.length))
  refine ⟨hperm.nodup_iff.2 ?_, hperm.length_eq.trans hlen, fun tile ht => ?_⟩
  · refine List.nodup_append.2 ⟨hspots, (hnodup.filter _).sublist (List.take_sublist _ _), ?_⟩
    rintro a ha _ hb rfl
    have hb := (List.mem_filter.1 (List.mem_of_mem_take hb)).2
    simp [ha] at hb
  · rcases List.mem_append.1 (hperm.mem_iff.1 ht) with h | h
    · exact hspotsLt tile h
    · exact (hmem tile).1 (List.mem_filter.1 (List.mem_of_mem_take h)).1

theorem tiles_buildMinesGrid (hu : u.Unit) {selection : MinesSelection} (hlo : 1 ≤ selection.mineCount)
    (hhi : selection.mineCount ≤ 24) (forced : ForcedResult) :
    Tiles MINES_TILE_COUNT selection.mineCount (buildMinesGrid selection u forced) := by
  have hcount : min (MINES_TILE_COUNT - 1) (max selection.mineCount 1) = selection.mineCount := by
    simp [MINES_TILE_COUNT, hlo, hhi]
  unfold buildMinesGrid
  rw [hcount]
  dsimp only
  split_ifs
  · exact tiles_hotSpots hu (by simp [MINES_TILE_COUNT]; omega)
  · exact tiles_take_shuffle hu (by simp [MINES_TILE_COUNT]; omega) 0

/-- A floor has a trap, and a tile without one. -/
def Floor (tiles : Nat) (traps : List Nat) : Prop := ∃ count, 0 < count ∧ count < tiles ∧ Tiles tiles count traps

theorem floor_buildTowersGrid (hu : u.Unit) (selection : TowersSelection) (forced : ForcedResult) :
    (buildTowersGrid selection u forced).length = (towersConfig selection.difficulty).rows ∧
      ∀ traps ∈ buildTowersGrid selection u forced, Floor (towersConfig selection.difficulty).tiles traps := by
  unfold buildTowersGrid
  refine ⟨by simp, fun traps ht => ?_⟩
  obtain ⟨row, -, rfl⟩ := List.mem_map.1 ht
  have hcount : ∀ n, (n = if selection.difficulty = .easy then easyTrapsOnFloor u row
      else (towersConfig selection.difficulty).mines) → 0 < n ∧ n < (towersConfig selection.difficulty).tiles := by
    rintro n rfl
    unfold easyTrapsOnFloor
    cases selection.difficulty <;> simp only [towersConfig, reduceCtorEq, if_true, if_false]
    · split_ifs <;> omega
    all_goals omega
  obtain ⟨hpos, hlt⟩ := hcount _ rfl
  exact ⟨_, hpos, hlt, tiles_take_shuffle hu hlt.le _⟩

end Smink
