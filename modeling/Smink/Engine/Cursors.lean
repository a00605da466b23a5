import Smink.Engine.Decided

/-!
# The cursors of a round

Each draw of a round reads one cursor of the stream: the control draw 9999, the single roll or pick 0, a shuffle one
cursor an item above its offset, a Plinko drop one a row. `roundDraws` lists the draws of a round as the rules make
them, and the outcome can be made again from their values (`outcome_of_draws`). Draws of different cursors are
independent: a stream that changes at one cursor changes one of them (`changed_le_one`). The offsets are picked by
hand, and for a steered Plinko drop of more than eight rows and a steered Keno loss they run into each other
(`draws_independent_iff`).
-/

namespace Smink

/-- What a round draws from its stream. -/
inductive RoundDraw
  /-- The control draw, which a bias is compared with. -/
  | control
  /-- The float of a game with a single draw. -/
  | roll
  /-- A segment, a bucket or a hit count in `0..hi`. -/
  | pick (hi : ℤ) (cursor : Nat)
  /-- The index choice of step `i` of a shuffle. -/
  | step (offset i : Nat)
  /-- A bounce of an honest Plinko drop. -/
  | bounce (row : Nat)
  /-- The trap count of an easy floor. -/
  | trapCount (row : Nat)
  deriving DecidableEq

/-- The cursor it reads. -/
def RoundDraw.cursor : RoundDraw → Nat
  | .control => 9999
  | .roll => 0
  | .pick _ cursor => cursor
  | .step offset i => offset + i
  | .bounce row => row
  | .trapCount row => (row + 1) * 40

/-- What is drawn. -/
def RoundDraw.value (u : Stream) : RoundDraw → ℚ
  | .control => u 9999
  | .roll => u 0
  | .pick hi cursor => seededInt u 0 hi cursor
  | .step offset i => shuffleIndex u offset i
  | .bounce row => ((if u row < 1 / 2 then 0 else 1 : Nat) : ℚ)
  | .trapCount row => easyTrapsOnFloor u row

/-- The index choices of a shuffle of `count` items. -/
def shuffleDraws (count offset : Nat) : List RoundDraw := (List.range (count - 1)).map fun i => .step offset (i + 1)

/-- The draws that the game makes. -/
def gameDraws : GameSelection → ForcedResult → List RoundDraw
  | .dice _, _ | .coinFlip _, _ | .limbo _, _ => [.roll]
  | .wheel s, none => [.pick ((WHEEL_SEGMENTS s.risk).length - 1) 0]
  | .wheel s, some forced =>
    let segments := WHEEL_SEGMENTS s.risk
    [.pick ((forcedPool forced (indexesWhere (· > 1) segments) (indexesWhere (· ≤ 1) segments)).length - 1) 0]
  | .mines _, _ => shuffleDraws MINES_TILE_COUNT 0
  | .plinko s, none => (List.range s.rows).map .bounce
  | .plinko s, some forced =>
    let buckets := PLINKO_BUCKETS s.risk s.rows
    .pick ((forcedPool forced (indexesWhere (· ≥ 1) buckets) (indexesWhere (· < 1) buckets)).length - 1) 90 ::
      shuffleDraws s.rows 80
  | .towers s, _ =>
    let config := towersConfig s.difficulty
    (List.range config.rows).flatMap fun row =>
      (if s.difficulty = .easy then [.trapCount row] else []) ++ shuffleDraws config.tiles ((row + 1) * 40)
  | .keno _, none => shuffleDraws kenoPool.length 0
  | .keno s, some forced =>
    let picks := kenoPicks s
    let others := kenoPool.filter fun n => !picks.contains n
    (if forced then [] else [.pick (max 0 ((kenoMinPayingHits picks.length : ℤ) - 1)) 70]) ++
      shuffleDraws picks.length 20 ++ shuffleDraws others.length 40

/-- The draws of a round, the control draw first. -/
def roundDraws (selection : GameSelection) (forced : ForcedResult) : List RoundDraw :=
  .control :: gameDraws selection forced

/-! ## The outcome that the draws make -/

/-- The values of the draws that are listed; of another draw nothing is known. -/
def drawn (u : Stream) (draws : List RoundDraw) (d : RoundDraw) : ℚ := if d ∈ draws then d.value u else 0

section Outcome

variable {α : Type} (x : RoundDraw → ℚ)

/-- The natural number that is drawn. -/
def numberDrawn (d : RoundDraw) : Nat := ⌊x d⌋.toNat

/-- The loop of Fisher-Yates, with the index choices given. -/
def shuffledBy (choices : Nat → Nat) : Nat → List α → List α
  | 0, xs => xs
  | i + 1, xs => shuffledBy choices i (swap xs (i + 1) (choices (i + 1)))

def shuffleDrawn (items : List α) (offset : Nat) : List α :=
  shuffledBy (fun i => numberDrawn x (.step offset i)) (items.length - 1) items

def wheelDrawn (segments : List ℚ) : ForcedResult → Nat
  | none => numberDrawn x (.pick (segments.length - 1) 0)
  | some forced =>
    let chosen := forcedPool forced (indexesWhere (· > 1) segments) (indexesWhere (· ≤ 1) segments)
    chosen.getD (numberDrawn x (.pick (chosen.length - 1) 0)) 0

def minesDrawn (s : MinesSelection) (forced : ForcedResult) : List Nat :=
  let shuffled := shuffleDrawn x (List.range MINES_TILE_COUNT) 0
  let mineCount := min (MINES_TILE_COUNT - 1) (max s.mineCount 1)
  if forced = some false then
    let forcedMines := hotSpots.take mineCount
    let remaining := shuffled.filter fun p => !forcedMines.contains p
    sortAsc ((forcedMines ++ remaining.take (mineCount - forcedMines.length)).take mineCount)
  else
    sortAsc (shuffled.take mineCount)

/-- The bucket and the path to it. -/
def plinkoDrawn (s : PlinkoSelection) : ForcedResult → Nat × List Nat
  | none =>
    let path := (List.range s.rows).map fun row => numberDrawn x (.bounce row)
    (path.sum, path)
  | some forced =>
    let buckets := PLINKO_BUCKETS s.risk s.rows
    let pool := forcedPool forced (indexesWhere (· ≥ 1) buckets) (indexesWhere (· < 1) buckets)
    let bucket := pool.getD (numberDrawn x (.pick (pool.length - 1) 90)) 0
    let rights := (shuffleDrawn x (List.range s.rows) 80).take bucket
    (bucket, (List.range s.rows).map fun row => if rights.contains row then 1 else 0)

def towersDrawn (s : TowersSelection) : List (List Nat) :=
  let config := towersConfig s.difficulty
  (List.range config.rows).map fun row =>
    let trapCount := if s.difficulty = .easy then numberDrawn x (.trapCount row) else config.mines
    sortAsc ((shuffleDrawn x (List.range config.tiles) ((row + 1) * 40)).take trapCount)

/-- The ten numbers before they are sorted. -/
def kenoDrawn (picks : List Nat) : ForcedResult → List Nat
  | none => (shuffleDrawn x kenoPool 0).take KENO_DRAW_COUNT
  | some forced =>
    let others := kenoPool.filter fun n => !picks.contains n
    let need := kenoMinPayingHits picks.length
    let hitCount := if forced then need else numberDrawn x (.pick (max 0 ((need : ℤ) - 1)) 70)
    (shuffleDrawn x picks 20).take hitCount ++ (shuffleDrawn x others 40).take (KENO_DRAW_COUNT - hitCount)

/-- The outcome of a round with these draws. -/
def outcomeDrawn (config : RoundConfig) : GameSelection → ForcedResult → GameOutcome
  | .dice s, forced => .dice (clamp (diceRoll s (x .roll) forced) 0 (9999 / 100))
  | .coinFlip s, forced =>
    .coinFlip (match forced with
      | none => if x .roll < 1 / 2 then .heads else .tails
      | some true => s.side
      | some false => s.side.opposite)
  | .limbo s, forced =>
    .limbo (limboResult (clamp s.target (101 / 100) config.maxMultiplier) (x .roll) config.houseEdge
      config.maxMultiplier forced)
  | .wheel s, forced =>
    let segment := wheelDrawn x (WHEEL_SEGMENTS s.risk) forced
    .wheel segment ((WHEEL_SEGMENTS s.risk).getD segment 0)
  | .mines s, forced => .mines (minesDrawn x s forced) []
  | .plinko s, forced =>
    let (bucket, path) := plinkoDrawn x s forced
    .plinko bucket path (min ((PLINKO_BUCKETS s.risk s.rows).getD bucket 0) config.maxMultiplier)
  | .towers s, _ => .towers (towersDrawn x s) []
  | .keno s, forced =>
    let numbers := sortAsc (kenoDrawn x (kenoPicks s) forced)
    let hits := (kenoPicks s).filter fun n => numbers.contains n
    .keno numbers hits hits.length

end Outcome

section Drawn

variable {α : Type} {u v : Stream} {draws : List RoundDraw} {d : RoundDraw} {offset : Nat}

theorem drawn_of_mem (h : d ∈ draws) : drawn u draws d = d.value u := if_pos h

theorem drawn_congr (h : ∀ d ∈ draws, d.value u = d.value v) : drawn u draws = drawn v draws := by
  funext d
  unfold drawn
  split
  · rename_i hd
    exact h d hd
  · rfl

theorem roll_drawn (h : .roll ∈ draws) : drawn u draws .roll = u 0 := drawn_of_mem h

theorem pick_drawn {hi : ℤ} {cursor : Nat} (h : .pick hi cursor ∈ draws) :
    numberDrawn (drawn u draws) (.pick hi cursor) = (seededInt u 0 hi cursor).toNat := by
  simp [numberDrawn, drawn_of_mem h, RoundDraw.value]

theorem step_drawn {i : Nat} (h : .step offset i ∈ draws) :
    numberDrawn (drawn u draws) (.step offset i) = shuffleIndex u offset i := by
  simp [numberDrawn, drawn_of_mem h, RoundDraw.value]

theorem bounce_drawn {row : Nat} (h : .bounce row ∈ draws) :
    numberDrawn (drawn u draws) (.bounce row) = if u row < 1 / 2 then 0 else 1 := by
  rw [numberDrawn, drawn_of_mem h, RoundDraw.value, Int.floor_natCast, Int.toNat_natCast]

theorem trapCount_drawn {row : Nat} (h : .trapCount row ∈ draws) :
    numberDrawn (drawn u draws) (.trapCount row) = easyTrapsOnFloor u row := by
  simp [numberDrawn, drawn_of_mem h, RoundDraw.value]

theorem mem_shuffleDraws {count offset : Nat} {d : RoundDraw} :
    d ∈ shuffleDraws count offset ↔ ∃ i, 1 ≤ i ∧ i < count ∧ d = .step offset i := by
  unfold shuffleDraws
  rw [List.mem_map]
  constructor
  · rintro ⟨i, hi, rfl⟩
    have := List.mem_range.1 hi
    exact ⟨i + 1, by omega, by omega, rfl⟩
  · rintro ⟨i, hpos, hlt, rfl⟩
    exact ⟨i - 1, List.mem_range.2 (by omega), by rw [Nat.sub_add_cancel hpos]⟩

/-- The loop of a shuffle makes the choices that are listed for it. -/
theorem shuffleLoop_drawn {n : Nat} (xs : List α) (h : ∀ i, 1 ≤ i → i ≤ n → .step offset i ∈ draws) :
    shuffleLoop u offset n xs = shuffledBy (fun i => numberDrawn (drawn u draws) (.step offset i)) n xs := by
  induction n generalizing xs with
  | zero => rfl
  | succ n ih =>
    rw [shuffleLoop, shuffledBy, step_drawn (h (n + 1) (by omega) le_rfl)]
    exact ih _ fun i hpos hle => h i hpos (by omega)

theorem seededShuffle_drawn (items : List α) {count : Nat} (hcount : items.length = count)
    (h : ∀ d ∈ shuffleDraws count offset, d ∈ draws) :
    seededShuffle items u offset = shuffleDrawn (drawn u draws) items offset :=
  shuffleLoop_drawn items fun i hpos hle => h _ (mem_shuffleDraws.2 ⟨i, hpos, by omega, rfl⟩)

theorem mem_roundDraws (selection : GameSelection) (forced : ForcedResult) :
    ∀ d ∈ gameDraws selection forced, d ∈ roundDraws selection forced := fun _ hd => List.mem_cons_of_mem _ hd

theorem wheelSegment_drawn (s : WheelSelection) (forced : ForcedResult) :
    wheelSegment (WHEEL_SEGMENTS s.risk) u forced =
      wheelDrawn (drawn u (roundDraws (.wheel s) forced)) (WHEEL_SEGMENTS s.risk) forced := by
  have hgame := mem_roundDraws (.wheel s) forced
  cases forced with
  | none => rw [wheelSegment, wheelDrawn, pick_drawn (hgame _ List.mem_cons_self)]
  | some forced => rw [wheelSegment, wheelDrawn, pick_drawn (hgame _ List.mem_cons_self)]

theorem buildMinesGrid_drawn (s : MinesSelection) (forced : ForcedResult) :
    buildMinesGrid s u forced = minesDrawn (drawn u (roundDraws (.mines s) forced)) s forced := by
  have hshuffle := seededShuffle_drawn (u := u) (List.range MINES_TILE_COUNT) List.length_range
    (mem_roundDraws (.mines s) forced)
  unfold buildMinesGrid minesDrawn
  rw [hshuffle]

theorem plinko_drawn (s : PlinkoSelection) (houseEdge maxMultiplier : ℚ) (forced : ForcedResult) :
    resolvePlinko s u houseEdge forced maxMultiplier =
      let (bucket, path) := plinkoDrawn (drawn u (roundDraws (.plinko s) forced)) s forced
      let multiplier := min ((PLINKO_BUCKETS s.risk s.rows).getD bucket 0) maxMultiplier
      { won := decide (multiplier > 0), multiplier, outcome := .plinko bucket path multiplier } := by
  have hgame := mem_roundDraws (.plinko s) forced
  cases forced with
  | none =>
    have hpath : plinkoPath s.rows u =
        (List.range s.rows).map fun row => numberDrawn (drawn u (roundDraws (.plinko s) none)) (.bounce row) :=
      List.map_congr_left fun row hrow => (bounce_drawn (hgame _ (List.mem_map_of_mem hrow))).symm
    unfold resolvePlinko plinkoDrawn
    dsimp only
    rw [hpath]
  | some forced =>
    have hpick := pick_drawn (u := u) (hgame _ List.mem_cons_self)
    have hshuffle := seededShuffle_drawn (u := u) (List.range s.rows) List.length_range fun d hd =>
      hgame d (List.mem_cons_of_mem _ hd)
    unfold resolvePlinko plinkoDrawn plinkoBucket plinkoPathForBucket
    dsimp only
    rw [hpick, hshuffle]

theorem buildTowersGrid_drawn (s : TowersSelection) (forced : ForcedResult) :
    buildTowersGrid s u forced = towersDrawn (drawn u (roundDraws (.towers s) forced)) s := by
  refine List.map_congr_left fun row hrow => ?_
  have hfloor : ∀ d ∈ (if s.difficulty = .easy then [RoundDraw.trapCount row] else []) ++
      shuffleDraws (towersConfig s.difficulty).tiles ((row + 1) * 40), d ∈ roundDraws (.towers s) forced :=
    fun d hd => mem_roundDraws _ _ d (List.mem_flatMap.2 ⟨row, hrow, hd⟩)
  have hshuffle := seededShuffle_drawn (u := u) (List.range (towersConfig s.difficulty).tiles) List.length_range
    fun d hd => hfloor d (List.mem_append_right _ hd)
  dsimp only
  rw [hshuffle]
  split_ifs with heasy
  · rw [trapCount_drawn (hfloor _ (List.mem_append_left _ (by simp [heasy])))]
  · rfl

theorem kenoDraw_drawn (s : KenoSelection) (forced : ForcedResult) :
    kenoDraw (kenoPicks s) u forced = kenoDrawn (drawn u (roundDraws (.keno s) forced)) (kenoPicks s) forced := by
  have hgame := mem_roundDraws (.keno s) forced
  cases forced with
  | none =>
    unfold kenoDraw kenoDrawn
    rw [seededShuffle_drawn kenoPool rfl hgame]
  | some forced =>
    have hhits := seededShuffle_drawn (u := u) (kenoPicks s) rfl fun d hd =>
      hgame d (List.mem_append_left _ (List.mem_append_right _ hd))
    have hothers := seededShuffle_drawn (u := u) (kenoPool.filter fun n => !(kenoPicks s).contains n) rfl
      fun d hd => hgame d (List.mem_append_right _ hd)
    unfold kenoDraw kenoDrawn
    dsimp only
    rw [hhits, hothers]
    cases forced with
    | true => rfl
    | false =>
      rw [pick_drawn (hgame _ (List.mem_append_left _ (List.mem_append_left _ List.mem_cons_self)))]

/-- **The listed draws make the outcome**: each is read as it is listed. -/
theorem outcome_of_draws {slug : GameSlug} {selection : GameSelection} {forced : ForcedResult} {config : RoundConfig}
    {result : RoundResult} (h : resolveRound slug selection u config forced = some result) :
    result.outcome = outcomeDrawn (drawn u (roundDraws selection forced)) config selection forced := by
  have hroll : .roll ∈ gameDraws selection forced → drawn u (roundDraws selection forced) .roll = u 0 := fun hd =>
    roll_drawn (mem_roundDraws _ _ _ hd)
  unfold resolveRound at h
  split at h <;> cases h
  · simp only [outcomeDrawn, hroll List.mem_cons_self]
    rfl
  · simp only [outcomeDrawn, hroll List.mem_cons_self]
    rfl
  · simp only [outcomeDrawn, hroll List.mem_cons_self]
    rfl
  · simp only [outcomeDrawn, ← wheelSegment_drawn]
    rfl
  · rw [plinko_drawn]
    rfl
  · simp only [outcomeDrawn, ← kenoDraw_drawn]
    rfl

/-- What a round makes of its stream is made of its draws. -/
theorem round_determined {slug : GameSlug} {selection : GameSelection} {forced : ForcedResult} (config : RoundConfig)
    (h : ∀ d ∈ roundDraws selection forced, d.value u = d.value v) :
    resolveRound slug selection u config forced = resolveRound slug selection v config forced ∧
      (∀ s, selection = .mines s → buildMinesGrid s u forced = buildMinesGrid s v forced) ∧
      ∀ s, selection = .towers s → buildTowersGrid s u forced = buildTowersGrid s v forced := by
  have hdrawn := drawn_congr h
  have hroll : .roll ∈ gameDraws selection forced → u 0 = v 0 := fun hd => h .roll (mem_roundDraws _ _ _ hd)
  refine ⟨?_, ?_, ?_⟩
  · unfold resolveRound
    split
    · unfold resolveDice
      rw [hroll List.mem_cons_self]
    · unfold resolveCoinFlip
      rw [hroll List.mem_cons_self]
    · unfold resolveLimbo
      rw [hroll List.mem_cons_self]
    · unfold resolveWheel
      dsimp only
      rw [wheelSegment_drawn, wheelSegment_drawn, hdrawn]
    · rw [plinko_drawn, plinko_drawn, hdrawn]
    · unfold resolveKeno
      dsimp only
      rw [kenoDraw_drawn, kenoDraw_drawn, hdrawn]
    · rfl
  · rintro s rfl
    rw [buildMinesGrid_drawn, buildMinesGrid_drawn, hdrawn]
  · rintro s rfl
    rw [buildTowersGrid_drawn, buildTowersGrid_drawn, hdrawn]

end Drawn

/-! ## Independent draws -/

/-- No cursor is read twice, and streams that differ at one cursor differ in one draw at most. -/
def Independent (draws : List RoundDraw) : Prop :=
  (draws.map RoundDraw.cursor).Nodup ∧
    ∀ u v : Stream, u.Unit → v.Unit → ∀ cursor, (∀ c, c ≠ cursor → u c = v c) →
      (draws.filter fun d => d.value u ≠ d.value v).length ≤ 1

/-- A draw reads its cursor. -/
theorem RoundDraw.value_congr {u v : Stream} {d : RoundDraw} (h : u d.cursor = v d.cursor) : d.value u = d.value v := by
  cases d <;> simp only [RoundDraw.cursor] at h <;>
    simp only [RoundDraw.value, seededInt, shuffleIndex, easyTrapsOnFloor, h]

theorem length_filter_le_one {α β : Type} {f : α → β} {p : α → Bool} {b : β} :
    ∀ {xs : List α}, (xs.map f).Nodup → (∀ x ∈ xs, p x = true → f x = b) → (xs.filter p).length ≤ 1
  | [], _, _ => Nat.zero_le 1
  | x :: xs, hnodup, hall => by
    obtain ⟨hx, hrest⟩ := List.nodup_cons.1 hnodup
    have htail : ∀ y ∈ xs, p y = true → f y = b := fun y hy => hall y (List.mem_cons_of_mem _ hy)
    cases hp : p x with
    | false =>
      rw [List.filter_cons_of_neg (by simp [hp])]
      exact length_filter_le_one hrest htail
    | true =>
      -- `x` is where the value `b` is taken
      have hnone : xs.filter p = [] := List.filter_eq_nil_iff.2 fun y hy hpy => by
        have hxy : f x = f y := (hall x List.mem_cons_self hp).trans (htail y hy hpy).symm
        exact hx (hxy ▸ List.mem_map_of_mem hy)
      rw [List.filter_cons_of_pos hp, hnone]
      exact le_rfl

/-- Only a draw of the changed cursor changes. -/
theorem changed_le_one {draws : List RoundDraw} (h : (draws.map RoundDraw.cursor).Nodup) {u v : Stream} {cursor : Nat}
    (huv : ∀ c, c ≠ cursor → u c = v c) : (draws.filter fun d => d.value u ≠ d.value v).length ≤ 1 := by
  refine length_filter_le_one (b := cursor) h fun d _ hd => ?_
  by_contra hne
  exact of_decide_eq_true hd (RoundDraw.value_congr (huv _ hne))

theorem independent_iff (draws : List RoundDraw) : Independent draws ↔ (draws.map RoundDraw.cursor).Nodup :=
  ⟨And.left, fun h => ⟨h, fun _ _ _ _ _ huv => changed_le_one h huv⟩⟩

/-! ## Cursor ranges -/

theorem mem_cursors_shuffle {count offset c : Nat} :
    c ∈ (shuffleDraws count offset).map RoundDraw.cursor ↔ offset < c ∧ c < offset + count := by
  rw [List.mem_map]
  constructor
  · rintro ⟨d, hd, rfl⟩
    obtain ⟨i, hpos, hlt, rfl⟩ := mem_shuffleDraws.1 hd
    simp only [RoundDraw.cursor]
    omega
  · rintro ⟨hlo, hhi⟩
    exact ⟨.step offset (c - offset), mem_shuffleDraws.2 ⟨c - offset, by omega, by omega, rfl⟩,
      show offset + (c - offset) = c by omega⟩

theorem nodup_cursors_shuffle (count offset : Nat) : ((shuffleDraws count offset).map RoundDraw.cursor).Nodup := by
  rw [shuffleDraws, List.map_map]
  refine List.nodup_range.map fun i j hij => ?_
  simp only [Function.comp, RoundDraw.cursor] at hij
  omega

/-- The rounds whose offsets leave room for their shuffles. -/
def SeparateCursors (selection : GameSelection) (forced : ForcedResult) : Prop :=
  match selection, forced with
  | .plinko s, some _ => s.rows = 8
  | .keno _, some false => False
  | _, _ => True

/-- A steered drop picks its bucket at cursor 90, which the path reads too when it has more than ten rows. -/
theorem nodup_plinko_forced_iff {s : PlinkoSelection} (hrows : s.rows = 8 ∨ s.rows = 12 ∨ s.rows = 16) (forced : Bool) :
    ((roundDraws (.plinko s) (some forced)).map RoundDraw.cursor).Nodup ↔ s.rows = 8 := by
  have hcursors : (roundDraws (.plinko s) (some forced)).map RoundDraw.cursor =
      9999 :: 90 :: (shuffleDraws s.rows 80).map RoundDraw.cursor := rfl
  rw [hcursors]
  rcases hrows with h | h | h <;> rw [h] <;> decide +kernel

/-- A steered loss picks its hit count at cursor 70, and the shuffle of the other numbers reads it too. -/
theorem nodup_keno_forced_iff {s : KenoSelection} (ht : Ticket s.picks) (forced : Bool) :
    ((roundDraws (.keno s) (some forced)).map RoundDraw.cursor).Nodup ↔ forced = true := by
  have hten := ht.le_ten
  have hothers : (kenoPool.filter fun n => !s.picks.contains n).length = 50 - s.picks.length :=
    length_filter_not_contains (by decide) ht.nodup ht.mem_pool
  have hgame : gameDraws (.keno s) (some forced) =
      (if forced then [] else [.pick (max 0 ((kenoMinPayingHits s.picks.length : ℤ) - 1)) 70]) ++
        shuffleDraws s.picks.length 20 ++ shuffleDraws (50 - s.picks.length) 40 := by
    unfold gameDraws
    dsimp only
    rw [kenoPicks_of_sorted ht.increasing, hothers]
  unfold roundDraws
  rw [hgame]
  cases forced
  · refine iff_of_false (fun hnodup => ?_) (by simp)
    have hshared : 70 ∈ (shuffleDraws (50 - s.picks.length) 40).map RoundDraw.cursor :=
      mem_cursors_shuffle.2 ⟨by omega, by omega⟩
    rw [if_neg (by simp), List.map_cons, List.map_append, List.map_append] at hnodup
    have hdisjoint := (List.nodup_append.1 (List.nodup_cons.1 hnodup).2).2.2
    exact hdisjoint 70 (List.mem_append_left _ List.mem_cons_self) 70 hshared rfl
  · refine iff_of_true ?_ rfl
    rw [if_pos rfl, List.nil_append, List.map_cons, List.map_append]
    refine List.nodup_cons.2 ⟨fun hcontrol => ?_, List.nodup_append.2
      ⟨nodup_cursors_shuffle _ _, nodup_cursors_shuffle _ _, ?_⟩⟩
    · simp only [RoundDraw.cursor] at hcontrol
      rcases List.mem_append.1 hcontrol with h | h
      · have := mem_cursors_shuffle.1 h
        omega
      · have := mem_cursors_shuffle.1 h
        omega
    · rintro a ha b hb rfl
      have h₁ := mem_cursors_shuffle.1 ha
      have h₂ := mem_cursors_shuffle.1 hb
      omega

/-- **The draws of a round are independent, but for steered Plinko drops of more than eight rows and steered Keno
losses.** -/
theorem draws_independent_iff {slug : GameSlug} {value : RawSelection} {selection : GameSelection}
    (hvalid : validateSelection slug value = .ok selection) (forced : ForcedResult) :
    Independent (roundDraws selection forced) ↔ SeparateCursors selection forced := by
  rw [independent_iff]
  cases slug
  case dice =>
    obtain ⟨s, rfl, -⟩ := validateDice_target hvalid
    exact iff_of_true (show [9999, 0].Nodup by decide) trivial
  case coinFlip =>
    obtain ⟨s, rfl⟩ := validateCoinFlip_side hvalid
    exact iff_of_true (show [9999, 0].Nodup by decide) trivial
  case limbo =>
    obtain ⟨s, rfl, -⟩ := validateLimbo_target hvalid
    exact iff_of_true (show [9999, 0].Nodup by decide) trivial
  case wheel =>
    obtain ⟨s, rfl⟩ := validateWheel_risk hvalid
    refine iff_of_true ?_ trivial
    cases forced <;> simp [roundDraws, gameDraws, RoundDraw.cursor]
  case mines =>
    obtain ⟨s, rfl, -⟩ := validateMines_ok hvalid
    refine iff_of_true ?_ trivial
    show (9999 :: (shuffleDraws MINES_TILE_COUNT 0).map RoundDraw.cursor).Nodup
    decide +kernel
  case plinko =>
    obtain ⟨s, rfl, hrows⟩ := validatePlinko_rows hvalid
    cases forced with
    | none =>
      refine iff_of_true ?_ trivial
      have hcursors : (roundDraws (.plinko s) none).map RoundDraw.cursor =
          9999 :: ((List.range s.rows).map RoundDraw.bounce).map RoundDraw.cursor := rfl
      rw [hcursors]
      rcases hrows with h | h | h <;> rw [h] <;> decide +kernel
    | some forced => exact nodup_plinko_forced_iff hrows forced
  case towers =>
    obtain ⟨s, rfl⟩ := validateTowers_ok hvalid
    refine iff_of_true ?_ trivial
    have hsame : roundDraws (.towers s) forced = roundDraws (.towers s) none := rfl
    rw [hsame]
    rcases s with ⟨difficulty⟩
    cases difficulty <;> decide +kernel
  case keno =>
    obtain ⟨s, rfl, ht⟩ := validateKeno_ticket hvalid
    cases forced with
    | none =>
      refine iff_of_true ?_ trivial
      show (9999 :: (shuffleDraws kenoPool.length 0).map RoundDraw.cursor).Nodup
      decide +kernel
    | some forced =>
      refine (nodup_keno_forced_iff ht forced).trans ?_
      cases forced <;> simp [SeparateCursors]
  case other name => cases hvalid

/-- An easy climb. -/
theorem draws_independent_iff_easy :
    Independent (roundDraws (.towers { difficulty := .easy }) none) ↔
      SeparateCursors (.towers { difficulty := .easy }) none :=
  @draws_independent_iff .towers { difficulty := "easy" } _ rfl none

/-- A steered Keno loss with five picks and a steered Plinko win with twelve rows: a stream that changes at one cursor
changes the pick and an index choice of a shuffle together. -/
theorem draws_collide :
    (validateSelection .keno { picks := some [some 1, some 2, some 3, some 4, some 5] } =
        .ok (.keno { picks := [1, 2, 3, 4, 5] }) ∧
      ∃ u v : Stream, u.Unit ∧ v.Unit ∧ (∀ c, c ≠ 70 → u c = v c) ∧
        ((roundDraws (.keno { picks := [1, 2, 3, 4, 5] }) (some false)).filter fun d => d.value u ≠ d.value v) =
          [.pick 2 70, .step 40 30]) ∧
    (validateSelection .plinko { risk := "high", rows := some 12 } = .ok (.plinko { risk := .high, rows := 12 }) ∧
      ∃ u v : Stream, u.Unit ∧ v.Unit ∧ (∀ c, c ≠ 90 → u c = v c) ∧
        ((roundDraws (.plinko { risk := .high, rows := 12 }) (some true)).filter fun d => d.value u ≠ d.value v) =
          [.pick 7 90, .step 80 10]) := by
  have hzero : Stream.Unit fun _ => 0 := fun _ => ⟨le_rfl, one_pos⟩
  have hone : ∀ cursor, Stream.Unit fun c => if c = cursor then 99 / 100 else 0 := by
    intro cursor c
    dsimp only
    split_ifs <;> norm_num
  refine ⟨⟨by decide +kernel, _, _, hzero, hone 70, fun c hc => (if_neg hc).symm, ?_⟩,
    by decide +kernel, _, _, hzero, hone 90, fun c hc => (if_neg hc).symm, ?_⟩
  · decide +kernel
  · decide +kernel

end Smink
