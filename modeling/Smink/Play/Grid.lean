import Smink.Engine.Layouts
import Smink.Play.Counters
import Smink.Play.Effects

/-!
# Grid rounds

What a Mines or a Towers bet looks like in each status (`MinesBet`, `TowersBet`): the layout it was opened with, the
tiles shown so far, and the multiplier for that many. A move of its owner keeps this (`MinesRecord.move`,
`TowersRecord.move`), and a request moves at most one bet, at the table the bet belongs to (`gridInv_effect`); so it
holds in every state of a run (`grid_rounds`).
-/

namespace Smink

open Store

/-! ## The bets -/

/-- What a Mines bet says in its status. -/
def MinesStanding (houseEdge : ℚ) (mineCount : Nat) (positions revealed : List Nat) (b : Bet) : Prop :=
  match b.status with
  | .open => (∀ tile ∈ revealed, tile ∉ positions) ∧ revealed.length < MINES_TILE_COUNT - mineCount ∧
      b.multiplier = minesMultiplier mineCount revealed.length houseEdge
  | .cashedOut => (∀ tile ∈ revealed, tile ∉ positions) ∧ 1 ≤ revealed.length ∧
      b.multiplier = minesMultiplier mineCount revealed.length houseEdge
  | .lost => (∃ shown tile, revealed = shown ++ [tile] ∧ (∀ a ∈ shown, a ∉ positions) ∧ tile ∈ positions) ∧
      b.multiplier = 0 ∧ b.payout = 0
  | .won | .void => False

/-- A Mines bet on `mineCount` mines at `positions`, with the tiles `revealed`. -/
structure MinesRecord (houseEdge : ℚ) (mineCount : Nat) (positions revealed : List Nat) (b : Bet) : Prop where
  selection_eq : b.selection = some (.mines { mineCount })
  outcome_eq : b.outcome = some (.mines positions revealed)
  layout : Tiles MINES_TILE_COUNT mineCount positions
  count_pos : 1 ≤ mineCount
  count_lt : mineCount < MINES_TILE_COUNT
  shown_nodup : revealed.Nodup
  shown_lt : ∀ tile ∈ revealed, tile < MINES_TILE_COUNT
  standing : MinesStanding houseEdge mineCount positions revealed b

def MinesBet (houseEdge : ℚ) (b : Bet) : Prop :=
  ∃ mineCount positions revealed, MinesRecord houseEdge mineCount positions revealed b

/-- Every pick is safe on its own floor. -/
def SafeClimb (traps : List (List Nat)) (picks : List Nat) : Prop :=
  ∀ row tile, picks[row]? = some tile → tile ∉ traps.getD row []

/-- What a Towers bet says in its status. -/
def TowersStanding (houseEdge : ℚ) (difficulty : TowersDifficulty) (traps : List (List Nat)) (picks : List Nat)
    (b : Bet) : Prop :=
  match b.status with
  | .open => SafeClimb traps picks ∧ picks.length < (towersConfig difficulty).rows ∧
      b.multiplier = towersMultiplier difficulty picks.length houseEdge
  | .cashedOut => SafeClimb traps picks ∧ 1 ≤ picks.length ∧
      b.multiplier = towersMultiplier difficulty picks.length houseEdge
  | .lost => (∃ climbed tile, picks = climbed ++ [tile] ∧ SafeClimb traps climbed ∧
      tile ∈ traps.getD climbed.length []) ∧ b.multiplier = 0 ∧ b.payout = 0
  | .won | .void => False

/-- A Towers bet over the floors `traps`, with the tiles `picks` chosen from the ground up. -/
structure TowersRecord (houseEdge : ℚ) (difficulty : TowersDifficulty) (traps : List (List Nat)) (picks : List Nat)
    (b : Bet) : Prop where
  selection_eq : b.selection = some (.towers { difficulty })
  outcome_eq : b.outcome = some (.towers traps picks)
  height : traps.length = (towersConfig difficulty).rows
  floors : ∀ floor ∈ traps, Floor (towersConfig difficulty).tiles floor
  climb : picks.length ≤ (towersConfig difficulty).rows
  picks_lt : ∀ tile ∈ picks, tile < (towersConfig difficulty).tiles
  standing : TowersStanding houseEdge difficulty traps picks b

def TowersBet (houseEdge : ℚ) (b : Bet) : Prop :=
  ∃ difficulty traps picks, TowersRecord houseEdge difficulty traps picks b

/-- The later bet has the layout of the earlier one. -/
structure SameLayout (b b' : Bet) : Prop where
  id_eq : b'.id = b.id
  gameId_eq : b'.gameId = b.gameId
  selection_eq : b'.selection = b.selection
  mines_eq : b'.minePositions = b.minePositions
  traps_eq : b'.traps = b.traps

/-! ## Moves -/

section Moves

variable {houseEdge : ℚ} {bet bet' : Bet} {mineCount : Nat} {positions revealed : List Nat}

theorem MinesRecord.minePositions_eq (h : MinesRecord houseEdge mineCount positions revealed bet) :
    bet.minePositions = some positions := by
  unfold Bet.minePositions
  rw [h.outcome_eq]

theorem MinesRecord.revealed_eq (h : MinesRecord houseEdge mineCount positions revealed bet) :
    bet.revealed = revealed := by
  unfold Bet.revealed
  rw [h.outcome_eq]

theorem MinesRecord.mineCount_eq (h : MinesRecord houseEdge mineCount positions revealed bet) :
    bet.mineCount = mineCount := by
  unfold Bet.mineCount
  rw [h.minePositions_eq]
  exact h.layout.length_eq

/-- One more tile is shown. -/
theorem MinesRecord.next (h : MinesRecord houseEdge mineCount positions revealed bet) {tile : Nat}
    (hlt : tile < MINES_TILE_COUNT) (hnew : tile ∉ revealed) (hsel : bet'.selection = bet.selection)
    (hout : bet'.outcome = some (.mines positions (revealed ++ [tile])))
    (hstanding : MinesStanding houseEdge mineCount positions (revealed ++ [tile]) bet') :
    MinesRecord houseEdge mineCount positions (revealed ++ [tile]) bet' := by
  refine ⟨hsel.trans h.selection_eq, hout, h.layout, h.count_pos, h.count_lt, ?_, ?_, hstanding⟩
  · refine List.nodup_append.2 ⟨h.shown_nodup, List.nodup_singleton _, ?_⟩
    rintro a ha b hb rfl
    exact hnew (List.mem_singleton.1 hb ▸ ha)
  · intro a ha
    rcases List.mem_append.1 ha with ha | ha
    · exact h.shown_lt a ha
    · exact List.mem_singleton.1 ha ▸ hlt

/-- What a move of an open Mines bet does to its record. -/
theorem MinesRecord.move (h : MinesRecord houseEdge mineCount positions revealed bet) (hopen : bet.status = .open)
    {step : Option Nat} (hm : MinesMove houseEdge bet step bet') :
    bet'.id = bet.id ∧ bet'.gameId = bet.gameId ∧
      ∃ revealed', MinesRecord houseEdge mineCount positions revealed' bet' := by
  have hstanding := h.standing
  unfold MinesStanding at hstanding
  rw [hopen] at hstanding
  obtain ⟨hsafe, -, hmult⟩ := hstanding
  have hsafe' : ∀ tile, tile ∉ positions → ∀ a ∈ revealed ++ [tile], a ∉ positions := by
    intro tile htile a ha
    rcases List.mem_append.1 ha with ha | ha
    · exact hsafe a ha
    · exact List.mem_singleton.1 ha ▸ htile
  cases hm with
  | hit now tile hlt hnew hmine =>
    rw [h.minePositions_eq, h.revealed_eq, Option.getD_some] at *
    exact ⟨rfl, rfl, _, h.next hlt hnew rfl rfl ⟨⟨revealed, tile, rfl, hsafe, hmine⟩, rfl, rfl⟩⟩
  | safe tile hlt hnew hmine hroom =>
    rw [h.minePositions_eq, h.revealed_eq, h.mineCount_eq, Option.getD_some] at *
    refine ⟨rfl, rfl, _, h.next hlt hnew rfl rfl ?_⟩
    unfold MinesStanding
    have hst : (Settable.apply (revealSet (minesMultiplier mineCount (revealed.length + 1) houseEdge)
      (.mines positions (revealed ++ [tile]))) bet : Bet).status = .open := hopen
    rw [hst, List.length_append, List.length_singleton]
    exact ⟨hsafe' tile hmine, by omega, toFixed_minesMultiplier _ _ _⟩
  | clear now tile hlt hnew hmine hfull shown hshown =>
    subst hshown
    rw [h.minePositions_eq, h.revealed_eq, h.mineCount_eq, Option.getD_some] at *
    refine ⟨rfl, rfl, _, h.next hlt hnew rfl rfl ⟨hsafe' tile hmine, by simp, ?_⟩⟩
    rw [List.length_append, List.length_singleton]
    exact toFixed_minesMultiplier _ _ _
  | cashOut now hsome =>
    rw [h.revealed_eq] at hsome
    exact ⟨rfl, rfl, revealed, h.selection_eq, h.outcome_eq, h.layout, h.count_pos, h.count_lt, h.shown_nodup,
      h.shown_lt,
      hsafe, List.length_pos_of_ne_nil hsome, hmult⟩

end Moves

section Climbs

variable {houseEdge : ℚ} {bet bet' : Bet} {difficulty : TowersDifficulty} {traps : List (List Nat)} {picks : List Nat}

theorem TowersRecord.traps_eq (h : TowersRecord houseEdge difficulty traps picks bet) : bet.traps = some traps := by
  unfold Bet.traps
  rw [h.outcome_eq]

theorem TowersRecord.picks_eq (h : TowersRecord houseEdge difficulty traps picks bet) : bet.picks = picks := by
  unfold Bet.picks
  rw [h.outcome_eq]

theorem TowersRecord.difficulty_eq (h : TowersRecord houseEdge difficulty traps picks bet) :
    bet.difficulty = some difficulty := by
  unfold Bet.difficulty
  rw [h.selection_eq]

/-- One floor higher. -/
theorem SafeClimb.next (h : SafeClimb traps picks) {tile : Nat} (ht : tile ∉ traps.getD picks.length []) :
    SafeClimb traps (picks ++ [tile]) := by
  intro row a ha
  rcases Nat.lt_or_ge row picks.length with hlt | hge
  · rw [List.getElem?_append_left hlt] at ha
    exact h row a ha
  · rw [List.getElem?_append_right hge] at ha
    obtain ⟨hrow, rfl⟩ : row - picks.length = 0 ∧ tile = a := by
      cases hr : row - picks.length with
      | zero => simpa [hr] using ha
      | succ n => simp [hr] at ha
    have heq : row = picks.length := by omega
    rw [heq]
    exact ht

/-- One more floor is picked. -/
theorem TowersRecord.next (h : TowersRecord houseEdge difficulty traps picks bet) {tile : Nat}
    (hlt : tile < (towersConfig difficulty).tiles) (hrow : picks.length < (towersConfig difficulty).rows)
    (hsel : bet'.selection = bet.selection) (hout : bet'.outcome = some (.towers traps (picks ++ [tile])))
    (hstanding : TowersStanding houseEdge difficulty traps (picks ++ [tile]) bet') :
    TowersRecord houseEdge difficulty traps (picks ++ [tile]) bet' := by
  refine ⟨hsel.trans h.selection_eq, hout, h.height, h.floors, ?_, ?_, hstanding⟩
  · rw [List.length_append, List.length_singleton]
    omega
  · intro a ha
    rcases List.mem_append.1 ha with ha | ha
    · exact h.picks_lt a ha
    · exact List.mem_singleton.1 ha ▸ hlt

/-- What a move of an open Towers bet does to its record. -/
theorem TowersRecord.move (h : TowersRecord houseEdge difficulty traps picks bet) (hopen : bet.status = .open)
    {step : Option Nat} (hm : TowersMove houseEdge bet step bet') :
    bet'.id = bet.id ∧ bet'.gameId = bet.gameId ∧ ∃ picks', TowersRecord houseEdge difficulty traps picks' bet' := by
  have hstanding := h.standing
  unfold TowersStanding at hstanding
  rw [hopen] at hstanding
  obtain ⟨hsafe, hroom, hmult⟩ := hstanding
  have hd := h.difficulty_eq
  cases hm with
  | hit now d hd' tile hlt hrow htrap =>
    obtain rfl := Option.some.inj (hd.symm.trans hd')
    rw [h.traps_eq, h.picks_eq, Option.getD_some] at *
    exact ⟨rfl, rfl, _, h.next hlt hroom rfl rfl ⟨⟨picks, tile, rfl, hsafe, htrap⟩, rfl, rfl⟩⟩
  | safe d hd' tile hlt htile hfree =>
    obtain rfl := Option.some.inj (hd.symm.trans hd')
    rw [h.traps_eq, h.picks_eq, Option.getD_some] at *
    refine ⟨rfl, rfl, _, h.next hlt hroom rfl rfl ?_⟩
    unfold TowersStanding
    have hst : (Settable.apply (revealSet (towersMultiplier difficulty (picks.length + 1) houseEdge)
      (.towers traps (picks ++ [tile]))) bet : Bet).status = .open := hopen
    rw [hst, List.length_append, List.length_singleton]
    exact ⟨hsafe.next htile, hfree, toFixed_towersMultiplier _ _ _⟩
  | clear now d hd' tile hlt htile hrow shown hshown =>
    subst hshown
    obtain rfl := Option.some.inj (hd.symm.trans hd')
    rw [h.traps_eq, h.picks_eq, Option.getD_some] at *
    refine ⟨rfl, rfl, _, h.next hlt hroom rfl rfl ⟨hsafe.next htile, by simp, ?_⟩⟩
    rw [List.length_append, List.length_singleton]
    exact toFixed_towersMultiplier _ _ _
  | cashOut now hsome =>
    rw [h.picks_eq] at hsome
    exact ⟨rfl, rfl, picks, h.selection_eq, h.outcome_eq, h.height, h.floors, h.climb, h.picks_lt, hsafe,
      List.length_pos_of_ne_nil hsome, hmult⟩

end Climbs

/-! ## New rounds -/

theorem minesBet_opened {D : Digest} {db : Db} {userId : Id} {game : Game} {forced : ForcedResult}
    {selection : MinesSelection} {b : Bet} (h : Opened minesGame D db userId game forced selection b) :
    MinesBet game.houseEdge b := by
  obtain ⟨value, validated, hvalid, hsel, hb⟩ := h.valid
  obtain ⟨s, rfl, hlo, hhi⟩ := validateMines_ok hvalid
  obtain rfl : s = selection := Option.some.inj hsel
  refine ⟨s.mineCount, _, [], hb, h.outcome_eq, tiles_buildMinesGrid (seededFloat_unit D _) hlo hhi forced, hlo, ?_,
    List.nodup_nil, (fun a ha => nomatch ha), ?_⟩
  · simp only [MINES_TILE_COUNT]
    omega
  · unfold MinesStanding
    rw [h.status_eq]
    refine ⟨(fun a ha => nomatch ha), ?_, h.multiplier_eq⟩
    simp only [MINES_TILE_COUNT, List.length_nil]
    omega

theorem towersBet_opened {D : Digest} {db : Db} {userId : Id} {game : Game} {forced : ForcedResult}
    {selection : TowersSelection} {b : Bet} (h : Opened towersGame D db userId game forced selection b) :
    TowersBet game.houseEdge b := by
  obtain ⟨value, validated, hvalid, hsel, hb⟩ := h.valid
  obtain ⟨s, rfl⟩ := validateTowers_ok hvalid
  obtain rfl : s = selection := Option.some.inj hsel
  obtain ⟨hheight, hfloors⟩ := floor_buildTowersGrid (seededFloat_unit D _) s forced
  refine ⟨s.difficulty, _, [], hb, h.outcome_eq, hheight, hfloors, Nat.zero_le _, (fun a ha => nomatch ha), ?_⟩
  unfold TowersStanding
  rw [h.status_eq]
  refine ⟨fun row tile ht => by simp at ht, ?_, h.multiplier_eq⟩
  cases s.difficulty <;> simp [towersConfig]

/-! ## Seats -/

/-- A move leaves a bet with its player, at its table, with its stake. -/
structure SameSeat (b b' : Bet) : Prop where
  sessionId_eq : b'.sessionId = b.sessionId
  userId_eq : b'.userId = b.userId
  gameId_eq : b'.gameId = b.gameId
  stake_eq : b'.stake = b.stake

theorem MinesMove.seat {houseEdge : ℚ} {bet bet' : Bet} {step : Option Nat} (h : MinesMove houseEdge bet step bet') :
    SameSeat bet bet' := by
  cases h with
  | hit => exact ⟨rfl, rfl, rfl, rfl⟩
  | safe => exact ⟨rfl, rfl, rfl, rfl⟩
  | clear _ _ _ _ _ _ shown hshown =>
    rw [hshown]
    exact ⟨rfl, rfl, rfl, rfl⟩
  | cashOut => exact ⟨rfl, rfl, rfl, rfl⟩

theorem TowersMove.seat {houseEdge : ℚ} {bet bet' : Bet} {step : Option Nat} (h : TowersMove houseEdge bet step bet') :
    SameSeat bet bet' := by
  cases h with
  | hit => exact ⟨rfl, rfl, rfl, rfl⟩
  | safe => exact ⟨rfl, rfl, rfl, rfl⟩
  | clear _ _ _ _ _ _ _ shown hshown =>
    rw [hshown]
    exact ⟨rfl, rfl, rfl, rfl⟩
  | cashOut => exact ⟨rfl, rfl, rfl, rfl⟩

/-- The bet is in a session of its player at its game. -/
def AtSeat (db : Db) (b : Bet) : Prop :=
  ∃ s ∈ db.gameSessions.rows, b.sessionId = some s.id ∧ s.gameId = b.gameId ∧ s.userId = b.userId

section Seats

variable {D : Digest} {db t : Db} {userId sessionId : Id} {b b' : Bet} {slug : GameSlug} {session : GameSession}
  {game : Game}

theorem AtSeat.persist (h : AtSeat db b) (hs : SessionsPersist db t) : AtSeat t b := by
  obtain ⟨s, hmem, hid, hgame, huser⟩ := h
  obtain ⟨s', hmem', hid', huser', hgame', -⟩ := hs s hmem
  exact ⟨s', hmem', hid.trans (congrArg some hid'.symm), hgame'.trans hgame, huser'.trans huser⟩

theorem AtSeat.move (h : AtSeat db b) (hsame : SameSeat b b') : AtSeat db b' := by
  unfold AtSeat
  rw [hsame.sessionId_eq, hsame.gameId_eq, hsame.userId_eq]
  exact h

/-- A bet that is placed at a table. -/
theorem AtTable.seat (hat : AtTable db userId sessionId slug session game) (hses : b.sessionId = some sessionId)
    (hgame : b.gameId = game.id) (huser : b.userId = userId) : AtSeat db b :=
  ⟨session, hat.session_mem, by rw [hses, hat.session_id], hat.game_id.symm.trans hgame.symm,
    hat.session_user.trans huser.symm⟩

/-- The bet of a round is one of the game its session is at. -/
theorem AtSeat.at_table (h : AtSeat db b) (hat : AtTable db userId sessionId slug session game)
    (hses : b.sessionId = some sessionId) : game.id = b.gameId := by
  obtain ⟨s, hmem, hid, hgame, -⟩ := h
  have hsid : s.id = session.id := by
    rw [hat.session_id]
    exact Option.some.inj (hid.symm.trans hses)
  obtain rfl := session_eq_of_id hmem hat.session_mem hsid
  exact hat.game_id.trans hgame

theorem atSeat_insert (h : ∀ a ∈ db.bets.rows, AtSeat db a) (hb : AtSeat db b)
    (hins : db.bets.insert b = some t.bets) (hs : SessionsPersist db t) : ∀ a ∈ t.bets.rows, AtSeat t a := by
  intro a ha
  rw [Table.rows_insert hins, List.mem_append, List.mem_singleton] at ha
  rcases ha with ha | rfl
  · exact (h a ha).persist hs
  · exact hb.persist hs

theorem atSeat_moved (h : ∀ a ∈ db.bets.rows, AtSeat db a) {move : ℚ → Bet → Option Nat → Bet → Prop}
    (hmove : ∀ {houseEdge a step a'}, move houseEdge a step a' → SameSeat a a') {step : Option Nat}
    {betReference : String} (hm : BetMoved slug move step db t userId sessionId betReference)
    (hs : SessionsPersist db t) : ∀ a ∈ t.bets.rows, AtSeat t a := by
  obtain ⟨session, game, bet, bet', -, hb, hturned, hstep⟩ := hm
  intro a ha
  rcases hturned.mem_iff.1 ha with rfl | ⟨ha, -⟩
  · exact ((h bet hb.mem).move (hmove hstep)).persist hs
  · exact (h a ha).persist hs

/-- A request keeps the bets in their seats. -/
theorem atSeat_effect (h : ∀ a ∈ db.bets.rows, AtSeat db a) {request : Request} (he : BetEffect D db t request)
    (hs : SessionsPersist db t) : ∀ a ∈ t.bets.rows, AtSeat t a := by
  cases he with
  | same _ hb =>
    rw [hb]
    exact fun a ha => (h a ha).persist hs
  | placed hp =>
    obtain ⟨game, forced, selection, raw, b, hplaced, hins⟩ := hp
    obtain ⟨sessionId, session, hat, hses⟩ := hplaced.seat
    exact atSeat_insert h (hat.seat hses hplaced.gameId_eq hplaced.userId_eq) hins hs
  | openedMines ho =>
    obtain ⟨game, forced, selection, b, hopened, hins⟩ := ho
    obtain ⟨sessionId, session, hat, hses⟩ := hopened.seat
    exact atSeat_insert h (hat.seat hses hopened.gameId_eq hopened.userId_eq) hins hs
  | openedTowers ho =>
    obtain ⟨game, forced, selection, b, hopened, hins⟩ := ho
    obtain ⟨sessionId, session, hat, hses⟩ := hopened.seat
    exact atSeat_insert h (hat.seat hses hopened.gameId_eq hopened.userId_eq) hins hs
  | shownMines _ hm => exact atSeat_moved h MinesMove.seat hm hs
  | cashedOutMines hm => exact atSeat_moved h MinesMove.seat hm hs
  | shownTowers _ ht => exact atSeat_moved h TowersMove.seat ht hs
  | cashedOutTowers ht => exact atSeat_moved h TowersMove.seat ht hs

end Seats

/-! ## The invariant -/

/-- What a bet says, by the game it is of. -/
structure GridBet (game : Game) (b : Bet) : Prop where
  mines : game.slug = .mines → MinesBet game.houseEdge b
  towers : game.slug = .towers → TowersBet game.houseEdge b

/-- Every bet has a session of its player at its game, and is what a bet of that game is. -/
structure GridInv (db : Db) : Prop where
  seated : ∀ b ∈ db.bets.rows, ∃ s ∈ db.gameSessions.rows, b.sessionId = some s.id ∧ s.gameId = b.gameId ∧
    s.userId = b.userId
  grid : ∀ b ∈ db.bets.rows, ∃ game ∈ db.games.rows, game.id = b.gameId ∧ GridBet game b

/-- Every bet is what a bet of its game is. -/
def GridBets (db : Db) : Prop := ∀ b ∈ db.bets.rows, ∃ game ∈ db.games.rows, game.id = b.gameId ∧ GridBet game b

/-- Every bet is still there, with the layout it has had. -/
def LayoutsKept (db t : Db) : Prop := ∀ b ∈ db.bets.rows, ∃ b' ∈ t.bets.rows, SameLayout b b'

section Inv

variable {D : Digest} {db t : Db} {userId sessionId : Id}

/-- The bets are as they were. -/
theorem GridBets.same (h : GridBets db) (hb : t.bets = db.bets) (hg : t.games = db.games) :
    GridBets t ∧ LayoutsKept db t := by
  unfold GridBets LayoutsKept
  rw [hb, hg]
  exact ⟨h, fun b hb' => ⟨b, hb', rfl, rfl, rfl, rfl, rfl⟩⟩

theorem GridBets.insert (h : GridBets db) {b : Bet} {game : Game} (hmem : game ∈ db.games.rows)
    (hgame : b.gameId = game.id) (hgrid : GridBet game b) (hins : db.bets.insert b = some t.bets)
    (hg : t.games = db.games) : GridBets t ∧ LayoutsKept db t := by
  unfold GridBets LayoutsKept
  rw [Table.rows_insert hins, hg]
  refine ⟨fun a ha => ?_, fun a ha => ⟨a, List.mem_append_left _ ha, rfl, rfl, rfl, rfl, rfl⟩⟩
  rcases List.mem_append.1 ha with ha | ha
  · exact h a ha
  · obtain rfl := List.mem_singleton.1 ha
    exact ⟨game, hmem, hgame.symm, hgrid⟩

/-- The bet of a round is one of the game its session is at. -/
theorem GridInv.at_table (h : GridInv db) {slug : GameSlug} {session : GameSession} {game : Game}
    {betReference : String}
    {bet : Bet} (hat : AtTable db userId sessionId slug session game)
    (hb : OpenRound db userId sessionId betReference bet) : game.id = bet.gameId ∧ GridBet game bet := by
  have hgid := AtSeat.at_table (h.seated bet hb.mem) hat hb.session
  obtain ⟨game', hmem', hgid', hgrid⟩ := h.grid bet hb.mem
  obtain rfl := game_eq_of_id hmem' hat.game_mem (hgid'.trans hgid.symm)
  exact ⟨hgid, hgrid⟩

/-- A bet has moved, and kept its layout. -/
theorem GridBets.turn (h : GridBets db) {bet bet' : Bet} {game : Game} (hmem : game ∈ db.games.rows)
    (hgid : game.id = bet.gameId) (hturned : Turned db t bet bet') (hsame : SameLayout bet bet')
    (hgrid : GridBet game bet') (hg : t.games = db.games) : GridBets t ∧ LayoutsKept db t := by
  unfold GridBets LayoutsKept
  rw [hg]
  refine ⟨fun a ha => ?_, fun a ha => ?_⟩
  · rcases hturned.mem_iff.1 ha with rfl | ⟨ha, -⟩
    · exact ⟨game, hmem, hgid.trans hsame.gameId_eq.symm, hgrid⟩
    · exact h a ha
  · by_cases hid : a.id = bet.id
    · obtain rfl := bet_eq_of_id ha hturned.mem hid
      exact ⟨bet', hturned.mem_iff.2 (.inl rfl), hsame⟩
    · exact ⟨a, hturned.mem_iff.2 (.inr ⟨ha, hid⟩), rfl, rfl, rfl, rfl, rfl⟩

theorem GridInv.movedMines (h : GridInv db) {step : Option Nat} {betReference : String}
    (hm : BetMoved .mines MinesMove step db t userId sessionId betReference) (hg : t.games = db.games) :
    GridBets t ∧ LayoutsKept db t := by
  obtain ⟨session, game, bet, bet', hat, hb, hturned, hmove⟩ := hm
  obtain ⟨hgid, hgrid⟩ := h.at_table hat hb
  obtain ⟨mineCount, positions, revealed, hrec⟩ := hgrid.mines hat.game_slug
  obtain ⟨hid, hgame, revealed', hrec'⟩ := hrec.move hb.status hmove
  refine GridBets.turn h.grid hat.game_mem hgid hturned ⟨hid, hgame, ?_, ?_, ?_⟩
    ⟨fun _ => ⟨_, _, _, hrec'⟩, fun ht => ?_⟩ hg
  · rw [hrec'.selection_eq, hrec.selection_eq]
  · rw [hrec'.minePositions_eq, hrec.minePositions_eq]
  · rw [Bet.traps, Bet.traps, hrec'.outcome_eq, hrec.outcome_eq]
  · rw [hat.game_slug] at ht
    cases ht

theorem GridInv.movedTowers (h : GridInv db) {step : Option Nat} {betReference : String}
    (hm : BetMoved .towers TowersMove step db t userId sessionId betReference) (hg : t.games = db.games) :
    GridBets t ∧ LayoutsKept db t := by
  obtain ⟨session, game, bet, bet', hat, hb, hturned, hmove⟩ := hm
  obtain ⟨hgid, hgrid⟩ := h.at_table hat hb
  obtain ⟨difficulty, traps, picks, hrec⟩ := hgrid.towers hat.game_slug
  obtain ⟨hid, hgame, picks', hrec'⟩ := hrec.move hb.status hmove
  refine GridBets.turn h.grid hat.game_mem hgid hturned ⟨hid, hgame, ?_, ?_, ?_⟩
    ⟨fun hm => ?_, fun _ => ⟨_, _, _, hrec'⟩⟩ hg
  · rw [hrec'.selection_eq, hrec.selection_eq]
  · rw [Bet.minePositions, Bet.minePositions, hrec'.outcome_eq, hrec.outcome_eq]
  · rw [hrec'.traps_eq, hrec.traps_eq]
  · rw [hat.game_slug] at hm
    cases hm

/-- What a request does to the bets of the games. -/
theorem gridBets_effect (h : GridInv db) {request : Request} (he : BetEffect D db t request) (hg : t.games = db.games) :
    GridBets t ∧ LayoutsKept db t := by
  cases he with
  | same _ hb => exact GridBets.same h.grid hb hg
  | placed hp =>
    obtain ⟨game, forced, selection, raw, b, hplaced, hins⟩ := hp
    obtain ⟨sessionId, session, hat, hses⟩ := hplaced.seat
    have hinstant := hplaced.instant
    refine GridBets.insert h.grid hat.game_mem hplaced.gameId_eq ⟨fun hm => ?_, fun ht => ?_⟩ hins hg
    · rw [← hat.game_slug, hm] at hinstant
      exact absurd hinstant (by decide)
    · rw [← hat.game_slug, ht] at hinstant
      exact absurd hinstant (by decide)
  | openedMines ho =>
    obtain ⟨game, forced, selection, b, hopened, hins⟩ := ho
    obtain ⟨sessionId, session, hat, hses⟩ := hopened.seat
    refine GridBets.insert h.grid hat.game_mem hopened.gameId_eq ⟨fun _ => minesBet_opened hopened, fun ht => ?_⟩ hins
      hg
    rw [hat.game_slug] at ht
    cases ht
  | openedTowers ho =>
    obtain ⟨game, forced, selection, b, hopened, hins⟩ := ho
    obtain ⟨sessionId, session, hat, hses⟩ := hopened.seat
    refine GridBets.insert h.grid hat.game_mem hopened.gameId_eq ⟨fun hm => ?_, fun _ => towersBet_opened hopened⟩ hins
      hg
    rw [hat.game_slug] at hm
    cases hm
  | shownMines _ hm => exact h.movedMines hm hg
  | cashedOutMines hm => exact h.movedMines hm hg
  | shownTowers _ ht => exact h.movedTowers ht hg
  | cashedOutTowers ht => exact h.movedTowers ht hg

/-- **A request keeps the invariant, and every layout.** -/
theorem gridInv_effect (h : GridInv db) {request : Request} (he : BetEffect D db t request) (hg : t.games = db.games)
    (hs : SessionsPersist db t) : GridInv t ∧ LayoutsKept db t := by
  obtain ⟨hgrid, hkept⟩ := gridBets_effect h he hg
  exact ⟨⟨atSeat_effect h.seated he hs, hgrid⟩, hkept⟩

/-! ## Runs -/

theorem gridInv_serve (h : GridInv db) (D : Digest) (fresh : Fresh) (request : Request) :
    GridInv ((serve D fresh request).run exec db).2 ∧ LayoutsKept db ((serve D fresh request).run exec db).2 :=
  gridInv_effect h (ends_serve D fresh request db) (run_games rfl) (run_sessions rfl)

theorem LayoutsKept.trans {u : Db} (h : LayoutsKept db t) (h' : LayoutsKept t u) : LayoutsKept db u := by
  intro b hb
  obtain ⟨b', hb', hsame⟩ := h b hb
  obtain ⟨b'', hb'', hsame'⟩ := h' b' hb'
  exact ⟨b'', hb'', hsame'.id_eq.trans hsame.id_eq, hsame'.gameId_eq.trans hsame.gameId_eq,
    hsame'.selection_eq.trans hsame.selection_eq, hsame'.mines_eq.trans hsame.mines_eq,
    hsame'.traps_eq.trans hsame.traps_eq⟩

theorem games_runRequests (D : Digest) : ∀ {requests : List (Fresh × Request)} {db : Db},
    ∀ t ∈ runRequests D requests db, t.games = db.games
  | [], _, _, ht => nomatch ht
  | (fresh, request) :: rest, db, t, ht => by
    have hafter : ((serve D fresh request).run exec db).2.games = db.games := run_games rfl
    rcases List.mem_cons.1 ht with rfl | ht
    · exact hafter
    · exact (games_runRequests D t ht).trans hafter

theorem gridInv_run (D : Digest) : ∀ (requests : List (Fresh × Request)) {db : Db}, GridInv db →
    (∀ t ∈ runRequests D requests db, GridInv t ∧ LayoutsKept db t) ∧ (runRequests D requests db).Pairwise LayoutsKept
  | [], _, _ => ⟨(fun _ ht => nomatch ht), .nil⟩
  | (fresh, request) :: rest, db, h => by
    obtain ⟨hafter, hkept⟩ := gridInv_serve h D fresh request
    obtain ⟨hall, hpair⟩ := gridInv_run D rest hafter
    refine ⟨fun t ht => ?_, .cons (fun t ht => (hall t ht).2) hpair⟩
    rcases List.mem_cons.1 ht with rfl | ht
    · exact ⟨hafter, hkept⟩
    · exact ⟨(hall t ht).1, hkept.trans (hall t ht).2⟩

theorem gridInv_of_none (hnone : db.bets.rows = []) : GridInv db := by
  constructor
  all_goals
    rw [hnone]
    exact fun b hb => nomatch hb

end Inv

/-- **In every state of every run, each grid bet has the layout it was opened with and stands as its status says.** -/
theorem grid_rounds (D : Digest) (requests : List (Fresh × Request)) (db : Db) (hnone : db.bets.rows = []) :
    (∀ t ∈ runRequests D requests db, t.games = db.games ∧
      ∀ b ∈ t.bets.rows, ∃ game ∈ db.games.rows, game.id = b.gameId ∧
      (game.slug = .mines → MinesBet game.houseEdge b) ∧ (game.slug = .towers → TowersBet game.houseEdge b)) ∧
    (runRequests D requests db).Pairwise LayoutsKept := by
  obtain ⟨hall, hpair⟩ := gridInv_run D requests (gridInv_of_none hnone)
  refine ⟨fun t ht => ?_, hpair⟩
  have hgames := games_runRequests D t ht
  refine ⟨hgames, fun b hb => ?_⟩
  obtain ⟨game, hmem, hid, hgrid⟩ := (hall t ht).1.grid b hb
  exact ⟨game, by rw [← hgames]; exact hmem, hid, hgrid.mines, hgrid.towers⟩

theorem grid_rounds_minesRound :
    (∃ t ∈ runRequests zeroDigest minesRound (tableDb .mines),
      t.bets.rows.map (fun b => (b.status, b.revealed)) = [(.cashedOut, [20])]) ∧
    (∀ t ∈ runRequests zeroDigest minesRound (tableDb .mines), t.games = (tableDb .mines).games ∧
      ∀ b ∈ t.bets.rows, ∃ game ∈ (tableDb .mines).games.rows, game.id = b.gameId ∧
        (game.slug = .mines → MinesBet game.houseEdge b) ∧ (game.slug = .towers → TowersBet game.houseEdge b)) ∧
    (runRequests zeroDigest minesRound (tableDb .mines)).Pairwise LayoutsKept :=
  ⟨by decide +kernel, grid_rounds zeroDigest minesRound (tableDb .mines) rfl⟩

end Smink
