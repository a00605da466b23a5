import Smink.Engine.Validated
import Mathlib.Algebra.Order.BigOperators.Group.List
import Mathlib.Data.List.GetD
import Mathlib.Tactic.IntervalCases

/-!
# Legal layouts, paths and draws

What a round lays out is legal whatever the stream and the controls: a grid is a sorted list of distinct tiles, a Plinko
path leads to the bucket that is paid, and a Keno draw is ten different numbers of the board with the hits that were
chosen for it. The steered constructions rebuild a layout from a shuffled pool; they meet the same conditions as the
honest ones because a shuffle is a permutation.
-/

namespace Smink

variable {u : Stream}

/-! ## Grids -/

theorem pairwise_buildMinesGrid (selection : MinesSelection) (u : Stream) (forced : ForcedResult) :
    (buildMinesGrid selection u forced).Pairwise (· ≤ ·) := by
  unfold buildMinesGrid
  dsimp only
  split_ifs <;> exact pairwise_sortAsc _

theorem pairwise_buildTowersGrid {selection : TowersSelection} {forced : ForcedResult} {traps : List Nat}
    (h : traps ∈ buildTowersGrid selection u forced) : traps.Pairwise (· ≤ ·) := by
  unfold buildTowersGrid at h
  obtain ⟨row, -, rfl⟩ := List.mem_map.1 h
  exact pairwise_sortAsc _

theorem Tiles.increasing {tiles count : Nat} {chosen : List Nat} (h : Tiles tiles count chosen)
    (hsorted : chosen.Pairwise (· ≤ ·)) : chosen.Pairwise (· < ·) :=
  (hsorted.sortedLE.sortedLT_of_nodup h.nodup).pairwise

/-- Fewer tiles than there are leave one out. -/
theorem Tiles.exists_free {tiles count : Nat} {chosen : List Nat} (h : Tiles tiles count chosen) (hlt : count < tiles) :
    ∃ tile < tiles, tile ∉ chosen := by
  by_contra hall
  push Not at hall
  have hsub : List.range tiles ⊆ chosen := fun tile ht => hall tile (List.mem_range.1 ht)
  have hle := (List.subperm_of_subset List.nodup_range hsub).length_le
  rw [List.length_range, h.length_eq] at hle
  omega

/-- **Every grid is well formed and playable.** -/
theorem grids_well_formed (hu : u.Unit) (forced : ForcedResult) :
    (∀ (value : RawSelection) (selection : MinesSelection), validateSelection .mines value = .ok (.mines selection) →
      (buildMinesGrid selection u forced).length = selection.mineCount ∧
        (buildMinesGrid selection u forced).Pairwise (· < ·) ∧
        ∀ tile ∈ buildMinesGrid selection u forced, tile < MINES_TILE_COUNT) ∧
    ∀ selection : TowersSelection,
      (buildTowersGrid selection u forced).length = (towersConfig selection.difficulty).rows ∧
        ∀ traps ∈ buildTowersGrid selection u forced, traps.Pairwise (· < ·) ∧
          (∀ tile ∈ traps, tile < (towersConfig selection.difficulty).tiles) ∧ (∃ trap, trap ∈ traps) ∧
            ∃ tile < (towersConfig selection.difficulty).tiles, tile ∉ traps := by
  constructor
  · intro value selection hvalid
    obtain ⟨s, hs, hlo, hhi⟩ := validateMines_ok hvalid
    cases hs
    have hgrid := tiles_buildMinesGrid hu hlo hhi forced
    exact ⟨hgrid.length_eq, hgrid.increasing (pairwise_buildMinesGrid _ _ _), hgrid.lt⟩
  · intro selection
    obtain ⟨hrows, hfloors⟩ := floor_buildTowersGrid hu selection forced
    refine ⟨hrows, fun traps ht => ?_⟩
    obtain ⟨count, hpos, hlt, htraps⟩ := hfloors traps ht
    have hsome : ∃ trap, trap ∈ traps := List.exists_mem_of_length_pos (by rw [htraps.length_eq]; exact hpos)
    exact ⟨htraps.increasing (pairwise_buildTowersGrid ht), htraps.lt, hsome, htraps.exists_free hlt⟩

/-- Three mines pushed to the hot spots, and an easy climb. -/
theorem grids_well_formed_three :
    ((buildMinesGrid { mineCount := 3 } (fun _ => 0) (some false)).length = 3 ∧
      (buildMinesGrid { mineCount := 3 } (fun _ => 0) (some false)).Pairwise (· < ·) ∧
      ∀ tile ∈ buildMinesGrid { mineCount := 3 } (fun _ => 0) (some false), tile < MINES_TILE_COUNT) ∧
    (buildTowersGrid { difficulty := .easy } (fun _ => 0) (some false)).length = 10 := by
  have hzero : Stream.Unit fun _ => 0 := fun _ => ⟨le_rfl, one_pos⟩
  have hvalid : validateSelection .mines { mineCount := some 3 } = .ok (.mines { mineCount := 3 }) := by decide +kernel
  exact ⟨(grids_well_formed hzero (some false)).1 _ _ hvalid, ((grids_well_formed hzero (some false)).2 _).1⟩

/-! ## Picks from a pool -/

theorem pick_mem (hu : u.Unit) {pool : List Nat} (h : pool ≠ []) (cursor : Nat) :
    pool.getD (seededInt u 0 (pool.length - 1) cursor).toNat 0 ∈ pool := by
  have hpos := List.length_pos_iff.2 h
  obtain ⟨hlo, hhi⟩ := seededInt_mem hu 0 (pool.length - 1) (by omega) cursor
  have hlt : (seededInt u 0 (pool.length - 1) cursor).toNat < pool.length := by omega
  rw [List.getD_eq_getElem _ _ hlt]
  exact List.getElem_mem hlt

theorem mem_indexesWhere {p : ℚ → Bool} {table : List ℚ} {i : Nat} :
    i ∈ indexesWhere p table ↔ i < table.length ∧ p (table.getD i 0) = true := by
  simp [indexesWhere]

/-- With indexes of both kinds, the pool is of the kind that was asked for. -/
theorem forcedPool_eq {winning losing : List Nat} (hw : winning ≠ []) (hl : losing ≠ []) (forced : Bool) :
    forcedPool forced winning losing = if forced then winning else losing := by
  have hwin := List.length_pos_iff.2 hw
  have hlose := List.length_pos_iff.2 hl
  cases forced
  · simp [forcedPool, hlose]
  · simp [forcedPool, hwin]

/-! ## Plinko -/

section Plinko

variable {risk : Risk} {rows bucket : Nat}

theorem length_plinkoBuckets (risk : Risk) (h : rows = 8 ∨ rows = 12 ∨ rows = 16) :
    (PLINKO_BUCKETS risk rows).length = rows + 1 := by
  rcases h with rfl | rfl | rfl <;> cases risk <;> rfl

/-- Every board has buckets of both kinds. -/
theorem plinkoPool_eq (h : rows = 8 ∨ rows = 12 ∨ rows = 16) (forced : Bool) :
    forcedPool forced (indexesWhere (· ≥ 1) (PLINKO_BUCKETS risk rows))
        (indexesWhere (· < 1) (PLINKO_BUCKETS risk rows)) =
      if forced then indexesWhere (· ≥ 1) (PLINKO_BUCKETS risk rows)
      else indexesWhere (· < 1) (PLINKO_BUCKETS risk rows) := by
  apply forcedPool_eq
  · rcases h with rfl | rfl | rfl <;> cases risk <;> decide +kernel
  · rcases h with rfl | rfl | rfl <;> cases risk <;> decide +kernel

/-- A steered drop lands in a bucket of the board, of the kind that was asked for. -/
theorem plinkoBucket_mem (hu : u.Unit) (risk : Risk) (h : rows = 8 ∨ rows = 12 ∨ rows = 16) (forced : Bool) :
    plinkoBucket (PLINKO_BUCKETS risk rows) u forced < (PLINKO_BUCKETS risk rows).length ∧
      (1 ≤ (PLINKO_BUCKETS risk rows).getD (plinkoBucket (PLINKO_BUCKETS risk rows) u forced) 0 ↔ forced = true) := by
  have hne : forcedPool forced (indexesWhere (· ≥ 1) (PLINKO_BUCKETS risk rows))
      (indexesWhere (· < 1) (PLINKO_BUCKETS risk rows)) ≠ [] := by
    rw [plinkoPool_eq h]
    cases forced <;> rcases h with rfl | rfl | rfl <;> cases risk <;> decide +kernel
  have hmem := pick_mem hu hne 90
  change plinkoBucket (PLINKO_BUCKETS risk rows) u forced ∈ _ at hmem
  rw [plinkoPool_eq h] at hmem
  cases forced
  · rw [if_neg (by simp)] at hmem
    obtain ⟨hlt, hlow⟩ := mem_indexesWhere.1 hmem
    exact ⟨hlt, iff_of_false (not_le.2 (of_decide_eq_true hlow)) (by simp)⟩
  · rw [if_pos rfl] at hmem
    obtain ⟨hlt, hhigh⟩ := mem_indexesWhere.1 hmem
    exact ⟨hlt, iff_of_true (of_decide_eq_true hhigh) rfl⟩

/-- A path of `rows` bounces that ends in `bucket`. -/
structure Path (rows bucket : Nat) (path : List Nat) : Prop where
  length_eq : path.length = rows
  step : ∀ step ∈ path, step = 0 ∨ step = 1
  sum_eq : path.sum = bucket

theorem Path.le {path : List Nat} (h : Path rows bucket path) : bucket ≤ rows := by
  have hle := List.sum_le_card_nsmul path 1 fun step hs => by
    rcases h.step step hs with rfl | rfl <;> omega
  rw [h.sum_eq, h.length_eq] at hle
  simpa using hle

/-- The bounces of an honest drop end where they end. -/
theorem path_plinkoPath (rows : Nat) (u : Stream) : Path rows (plinkoPath rows u).sum (plinkoPath rows u) := by
  refine ⟨by simp [plinkoPath], fun step hs => ?_, rfl⟩
  obtain ⟨i, -, rfl⟩ := List.mem_map.1 hs
  split_ifs
  · exact .inl rfl
  · exact .inr rfl

theorem sum_map_ite (p : Nat → Bool) (xs : List Nat) :
    (xs.map fun i => if p i = true then 1 else 0).sum = (xs.filter p).length := by
  induction xs with
  | nil => rfl
  | cons i xs ih =>
    rw [List.map_cons, List.sum_cons, ih, List.filter_cons]
    split_ifs
    · rw [List.length_cons, Nat.add_comm]
    · exact Nat.zero_add _

/-- As many bounces to the right as the bucket says. -/
theorem path_plinkoPathForBucket (hu : u.Unit) (h : bucket ≤ rows) :
    Path rows bucket (plinkoPathForBucket rows bucket u) := by
  have hshuffle := seededShuffle_perm hu (List.range rows) 80
  have hnodup : ((seededShuffle (List.range rows) u 80).take bucket).Nodup :=
    (hshuffle.nodup_iff.2 List.nodup_range).sublist (List.take_sublist _ _)
  have hin : ∀ i ∈ (seededShuffle (List.range rows) u 80).take bucket, i ∈ List.range rows := fun i hi =>
    hshuffle.mem_iff.1 (List.mem_of_mem_take hi)
  have hlen : ((seededShuffle (List.range rows) u 80).take bucket).length = bucket := by
    rw [List.length_take, hshuffle.length_eq, List.length_range]
    omega
  unfold plinkoPathForBucket
  generalize (seededShuffle (List.range rows) u 80).take bucket = rights at *
  refine ⟨by simp, fun step hs => ?_, ?_⟩
  · obtain ⟨i, -, rfl⟩ := List.mem_map.1 hs
    split_ifs
    · exact .inr rfl
    · exact .inl rfl
  · rw [sum_map_ite, (filter_contains_perm List.nodup_range hnodup hin).length_eq, hlen]

/-- **The Plinko path leads to the paid bucket.** -/
theorem plinko_path_leads (hu : u.Unit) {value : RawSelection} {selection : PlinkoSelection}
    (hvalid : validateSelection .plinko value = .ok (.plinko selection)) (houseEdge maxMultiplier : ℚ)
    (forced : ForcedResult) :
    ∃ bucket path multiplier entry,
      (resolvePlinko selection u houseEdge forced maxMultiplier).outcome = .plinko bucket path multiplier ∧
      path.length = selection.rows ∧ (∀ step ∈ path, step = 0 ∨ step = 1) ∧ path.sum = bucket ∧
      bucket ≤ selection.rows ∧ (PLINKO_BUCKETS selection.risk selection.rows)[bucket]? = some entry ∧
      multiplier = min entry maxMultiplier ∧
      (resolvePlinko selection u houseEdge forced maxMultiplier).multiplier = multiplier := by
  obtain ⟨s, hs, hrows⟩ := validatePlinko_rows hvalid
  cases hs
  have hlen := length_plinkoBuckets selection.risk hrows
  obtain ⟨bucket, path, hresolve, hpath⟩ : ∃ bucket path,
      (resolvePlinko selection u houseEdge forced maxMultiplier) =
        { won := decide (min ((PLINKO_BUCKETS selection.risk selection.rows).getD bucket 0) maxMultiplier > 0),
          multiplier := min ((PLINKO_BUCKETS selection.risk selection.rows).getD bucket 0) maxMultiplier,
          outcome := .plinko bucket path
            (min ((PLINKO_BUCKETS selection.risk selection.rows).getD bucket 0) maxMultiplier) } ∧
      Path selection.rows bucket path := by
    cases forced with
    | none => exact ⟨_, _, rfl, path_plinkoPath selection.rows u⟩
    | some forced =>
      obtain ⟨hlt, -⟩ := plinkoBucket_mem hu selection.risk hrows forced
      exact ⟨_, _, rfl, path_plinkoPathForBucket hu (by omega)⟩
  have hlt : bucket < (PLINKO_BUCKETS selection.risk selection.rows).length := by
    have := hpath.le
    omega
  rw [hresolve]
  refine ⟨bucket, path, _, _, rfl, hpath.length_eq, hpath.step, hpath.sum_eq, hpath.le,
    List.getElem?_eq_getElem hlt, ?_, rfl⟩
  rw [List.getD_eq_getElem _ _ hlt]

/-- A steered loss on the low board of eight rows. -/
theorem plinko_path_leads_eight : ∃ bucket path multiplier entry,
    (resolvePlinko { risk := .low, rows := 8 } (fun _ => 0) (3 / 100) (some false) 1000).outcome =
      .plinko bucket path multiplier ∧
    path.length = 8 ∧ (∀ step ∈ path, step = 0 ∨ step = 1) ∧ path.sum = bucket ∧ bucket ≤ 8 ∧
    (PLINKO_BUCKETS .low 8)[bucket]? = some entry ∧ multiplier = min entry 1000 ∧
    (resolvePlinko { risk := .low, rows := 8 } (fun _ => 0) (3 / 100) (some false) 1000).multiplier = multiplier := by
  have hvalid : validateSelection .plinko { risk := "low", rows := some 8 } =
      .ok (.plinko { risk := .low, rows := 8 }) := by decide +kernel
  exact plinko_path_leads (fun _ => ⟨le_rfl, one_pos⟩) hvalid _ _ _

end Plinko

/-! ## Keno -/

section Keno

variable {picks : List Nat}

/-- The hit count that a steered draw is built for. -/
def kenoHitCount (pickCount : Nat) (u : Stream) (forced : Bool) : Nat :=
  if forced then kenoMinPayingHits pickCount
  else (seededInt u 0 (max 0 ((kenoMinPayingHits pickCount : ℤ) - 1)) 70).toNat

/-- The numbers of a steered draw that are not its hits. -/
def kenoFillers (picks : List Nat) (u : Stream) (forced : Bool) : List Nat :=
  (seededShuffle (kenoPool.filter fun n => !picks.contains n) u 40).take
    (KENO_DRAW_COUNT - kenoHitCount picks.length u forced)

theorem kenoDraw_forced (picks : List Nat) (u : Stream) (forced : Bool) : kenoDraw picks u (some forced) =
    (seededShuffle picks u 20).take (kenoHitCount picks.length u forced) ++ kenoFillers picks u forced := rfl

/-- A ticket pays from some number of its own picks on. -/
theorem kenoMinPayingHits_mem {pickCount : Nat} (hpos : 1 ≤ pickCount) (hten : pickCount ≤ 10) :
    1 ≤ kenoMinPayingHits pickCount ∧ kenoMinPayingHits pickCount ≤ pickCount := by
  interval_cases pickCount <;> decide

/-- A loss is built for fewer hits than pay, and a win for the fewest that do. -/
theorem kenoHitCount_le (hu : u.Unit) {pickCount : Nat} (hpos : 1 ≤ pickCount) (hten : pickCount ≤ 10)
    (forced : Bool) : kenoHitCount pickCount u forced ≤ pickCount ∧
      (kenoHitCount pickCount u forced < kenoMinPayingHits pickCount ↔ forced = false) := by
  obtain ⟨hneed, hle⟩ := kenoMinPayingHits_mem hpos hten
  obtain ⟨hlo, hhi⟩ := seededInt_mem hu 0 (max 0 (kenoMinPayingHits pickCount - 1)) (by omega) 70
  unfold kenoHitCount
  cases forced
  · rw [if_neg (by simp)]
    exact ⟨by omega, iff_of_true (by omega) rfl⟩
  · rw [if_pos rfl]
    exact ⟨hle, iff_of_false (lt_irrefl _) (by simp)⟩

theorem kenoFillers_not_pick (hu : u.Unit) (picks : List Nat) (forced : Bool) :
    ∀ n ∈ kenoFillers picks u forced, n ∈ kenoPool ∧ n ∉ picks := by
  intro n hn
  have hmem := (seededShuffle_perm hu (kenoPool.filter fun n => !picks.contains n) 40).mem_iff.1
    (List.mem_of_mem_take hn)
  obtain ⟨hpool, hout⟩ := List.mem_filter.1 hmem
  exact ⟨hpool, by simpa using hout⟩

/-- A draw before it is sorted: ten different numbers of the board. -/
structure Drawn (drawn : List Nat) : Prop where
  nodup : drawn.Nodup
  length_eq : drawn.length = KENO_DRAW_COUNT
  mem_pool : ∀ n ∈ drawn, n ∈ kenoPool

theorem drawn_honest (hu : u.Unit) (picks : List Nat) : Drawn (kenoDraw picks u none) := by
  have hperm := seededShuffle_perm hu kenoPool 0
  have hnodup : (seededShuffle kenoPool u).Nodup := hperm.nodup_iff.2 (by decide)
  refine ⟨hnodup.sublist (List.take_sublist _ _), ?_, fun n hn => hperm.mem_iff.1 (List.mem_of_mem_take hn)⟩
  show ((seededShuffle kenoPool u).take KENO_DRAW_COUNT).length = KENO_DRAW_COUNT
  rw [List.length_take, hperm.length_eq]
  rfl

/-- The hits are picks and the fillers are not, and together they are ten. -/
theorem drawn_forced (hu : u.Unit) (ht : Ticket picks) (forced : Bool) : Drawn (kenoDraw picks u (some forced)) := by
  have hhits := seededShuffle_perm hu picks 20
  have hothers := seededShuffle_perm hu (kenoPool.filter fun n => !picks.contains n) 40
  have hpool : kenoPool.Nodup := by decide
  have hrest : (kenoPool.filter fun n => !picks.contains n).length = 50 - picks.length :=
    length_filter_not_contains hpool ht.nodup ht.mem_pool
  obtain ⟨hle, -⟩ := kenoHitCount_le hu ht.pos ht.le_ten forced
  have hten := ht.le_ten
  rw [kenoDraw_forced]
  refine ⟨List.nodup_append.2 ⟨?_, ?_, ?_⟩, ?_, fun n hn => ?_⟩
  · exact (hhits.nodup_iff.2 ht.nodup).sublist (List.take_sublist _ _)
  · exact (hothers.nodup_iff.2 (hpool.filter _)).sublist (List.take_sublist _ _)
  · rintro a ha _ hb rfl
    exact (kenoFillers_not_pick hu picks forced a hb).2 (hhits.mem_iff.1 (List.mem_of_mem_take ha))
  · unfold kenoFillers KENO_DRAW_COUNT
    rw [List.length_append, List.length_take, List.length_take, hhits.length_eq, hothers.length_eq, hrest]
    omega
  · rcases List.mem_append.1 hn with h | h
    · exact ht.mem_pool n (hhits.mem_iff.1 (List.mem_of_mem_take h))
    · exact (kenoFillers_not_pick hu picks forced n h).1

theorem drawn_kenoDraw (hu : u.Unit) (ht : Ticket picks) (forced : ForcedResult) : Drawn (kenoDraw picks u forced) := by
  cases forced with
  | none => exact drawn_honest hu picks
  | some forced => exact drawn_forced hu ht forced

/-- A steered draw hits as often as it was built for. -/
theorem hits_forced (hu : u.Unit) (ht : Ticket picks) (forced : Bool) :
    (picks.filter fun n => (sortAsc (kenoDraw picks u (some forced))).contains n).length =
      kenoHitCount picks.length u forced := by
  have hhits := seededShuffle_perm hu picks 20
  obtain ⟨hle, -⟩ := kenoHitCount_le hu ht.pos ht.le_ten forced
  have hfront : ∀ n ∈ picks, (sortAsc (kenoDraw picks u (some forced))).contains n =
      ((seededShuffle picks u 20).take (kenoHitCount picks.length u forced)).contains n := by
    intro n hn
    have hfill : n ∉ kenoFillers picks u forced := fun h => (kenoFillers_not_pick hu picks forced n h).2 hn
    rw [Bool.eq_iff_iff, List.contains_iff_mem, List.contains_iff_mem, (sortAsc_perm _).mem_iff, kenoDraw_forced,
      List.mem_append, or_iff_left hfill]
  rw [List.filter_congr hfront]
  have hperm := filter_contains_perm ht.nodup
    ((hhits.nodup_iff.2 ht.nodup).sublist (List.take_sublist (kenoHitCount picks.length u forced) _))
    fun n hn => hhits.mem_iff.1 (List.mem_of_mem_take hn)
  rw [hperm.length_eq, List.length_take, hhits.length_eq]
  omega

/-- **Every Keno draw is a legal draw.** -/
theorem keno_draw_legal (hu : u.Unit) {value : RawSelection} {selection : KenoSelection}
    (hvalid : validateSelection .keno value = .ok (.keno selection)) (houseEdge maxMultiplier : ℚ)
    (forced : ForcedResult) :
    ∃ drawn hits, (resolveKeno selection u houseEdge forced maxMultiplier).outcome = .keno drawn hits hits.length ∧
      drawn.length = 10 ∧ drawn.Pairwise (· < ·) ∧ (∀ n ∈ drawn, 1 ≤ n ∧ n ≤ 50) ∧
      hits.Pairwise (· < ·) ∧ (∀ n, n ∈ hits ↔ n ∈ selection.picks ∧ n ∈ drawn) ∧
      (resolveKeno selection u houseEdge forced maxMultiplier).multiplier =
        min (kenoPayout selection.picks.length hits.length) maxMultiplier ∧
      ∀ decided, forced = some decided →
        hits.length = kenoHitCount selection.picks.length u decided ∧
          (∃ chosen, drawn.Perm (chosen ++ kenoFillers selection.picks u decided) ∧
            chosen.length = hits.length ∧ ∀ n ∈ chosen, n ∈ selection.picks) ∧
          ∀ n ∈ kenoFillers selection.picks u decided, n ∉ selection.picks := by
  obtain ⟨s, hs, ht⟩ := validateKeno_ticket hvalid
  cases hs
  have hdraw := drawn_kenoDraw hu ht forced
  have hperm := sortAsc_perm (kenoDraw selection.picks u forced)
  have hpicks := kenoPicks_of_sorted ht.increasing
  refine ⟨sortAsc (kenoDraw selection.picks u forced),
    selection.picks.filter fun n => (sortAsc (kenoDraw selection.picks u forced)).contains n,
    ?_, ?_, pairwise_lt_sortAsc hdraw.nodup, fun n hn => ?_, ht.increasing.filter _, fun n => ?_, ?_, ?_⟩
  · unfold resolveKeno
    rw [hpicks]
  · exact hperm.length_eq.trans hdraw.length_eq
  · exact mem_kenoPool.1 (hdraw.mem_pool n (hperm.mem_iff.1 hn))
  · rw [List.mem_filter, List.contains_iff_mem]
  · unfold resolveKeno
    rw [hpicks]
  · rintro decided rfl
    have hhits := hits_forced hu ht decided
    have hshuffle := seededShuffle_perm hu selection.picks 20
    obtain ⟨hle, -⟩ := kenoHitCount_le hu ht.pos ht.le_ten decided
    refine ⟨hhits, ⟨(seededShuffle selection.picks u 20).take (kenoHitCount selection.picks.length u decided),
      hperm, ?_, fun n hn => hshuffle.mem_iff.1 (List.mem_of_mem_take hn)⟩,
      fun n hn => (kenoFillers_not_pick hu _ decided n hn).2⟩
    rw [hhits, List.length_take, hshuffle.length_eq]
    omega

/-- A steered win with a ticket of three numbers. -/
theorem keno_draw_legal_three :
    ∃ drawn hits, (resolveKeno { picks := [3, 7, 11] } (fun _ => 0) (2 / 100) (some true) 1000).outcome =
        .keno drawn hits hits.length ∧
      drawn.length = 10 ∧ drawn.Pairwise (· < ·) ∧ (∀ n ∈ drawn, 1 ≤ n ∧ n ≤ 50) ∧
      hits.Pairwise (· < ·) ∧ (∀ n, n ∈ hits ↔ n ∈ [3, 7, 11] ∧ n ∈ drawn) ∧
      (resolveKeno { picks := [3, 7, 11] } (fun _ => 0) (2 / 100) (some true) 1000).multiplier =
        min (kenoPayout 3 hits.length) 1000 ∧
      ∀ decided, some true = some decided →
        hits.length = kenoHitCount 3 (fun _ => 0) decided ∧
          (∃ chosen, drawn.Perm (chosen ++ kenoFillers [3, 7, 11] (fun _ => 0) decided) ∧
            chosen.length = hits.length ∧ ∀ n ∈ chosen, n ∈ [3, 7, 11]) ∧
          ∀ n ∈ kenoFillers [3, 7, 11] (fun _ => 0) decided, n ∉ [3, 7, 11] := by
  have hvalid : validateSelection .keno { picks := some [some 7, some 3, some 11] } =
      .ok (.keno { picks := [3, 7, 11] }) := by decide +kernel
  exact keno_draw_legal (fun _ => ⟨le_rfl, one_pos⟩) hvalid _ _ _

end Keno

end Smink
