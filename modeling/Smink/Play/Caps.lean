import Smink.Db.Seed
import Smink.Engine.Caps
import Smink.Play.Grid

/-!
# The caps on what a round pays

Two caps apply to a settled bet: the `maxMultiplier` of its game, and the one of the control rule that has forced the
round to a win. `placeBet` keeps both. A grid round that is cashed out pays the multiplier its reveals have stored,
which nothing compares with a cap, so a run keeps the caps exactly when each pay-out in it is of a round whose odds are
low enough (`within_caps_iff`); `caps_exceeded` is a run in which one is not.
-/

namespace Smink

open Store

/-! ## What is claimed -/

/-- What the bet has paid is within the cap. -/
structure PaidWithin (b : Bet) (cap : ℚ) : Prop where
  multiplier : b.multiplier ≤ cap
  payout : b.payout ≤ roundMoney (b.stake.toRat * cap)

instance (b : Bet) (cap : ℚ) : Decidable (PaidWithin b cap) :=
  decidable_of_iff (b.multiplier ≤ cap ∧ b.payout ≤ roundMoney (b.stake.toRat * cap))
    ⟨fun h => ⟨h.1, h.2⟩, fun h => ⟨h.1, h.2⟩⟩

/-- The cap of the rule that forces the round of `b` to a win, if there is one. -/
def Db.forcedCap (D : Digest) (db : Db) (b : Bet) : Option ℚ :=
  if decideForcedResult (db.controlRule b.userId b.gameId) (b.draws D) = some true then
    ((db.controlRule b.userId b.gameId).bind ControlRule.maxWinMultiplier).filter (0 < ·)
  else none

/-- The cap of each round that was forced to a win when it was placed or opened, by the id of its bet. -/
abbrev Caps := Id → Option ℚ

/-- A bet that is new has the cap of the rule that applied to it. -/
def capsAfter (D : Digest) (caps : Caps) (db t : Db) : Caps := fun id =>
  if db.bets.rows.any fun b => b.id == id then caps id
  else (t.bets.rows.find? fun b => b.id == id).bind (db.forcedCap D)

/-- Every settled bet is within the cap of its game, and within that of the rule that has forced it. -/
def WithinCaps (db : Db) (caps : Caps) : Prop :=
  ∀ b ∈ db.bets.rows, b.status ≠ .open → ∀ game ∈ db.games.rows, game.id = b.gameId →
    PaidWithin b game.maxMultiplier ∧ ∀ cap ∈ caps b.id, PaidWithin b cap

instance (db : Db) (caps : Caps) : Decidable (WithinCaps db caps) :=
  inferInstanceAs (Decidable (∀ b ∈ db.bets.rows, b.status ≠ .open → ∀ game ∈ db.games.rows, game.id = b.gameId →
    PaidWithin b game.maxMultiplier ∧ ∀ cap ∈ caps b.id, PaidWithin b cap))

/-- The states of a run, with the caps of the rounds that were forced. -/
def runCapped (D : Digest) : List (Fresh × Request) → Db → Caps → List (Db × Caps)
  | [], _, _ => []
  | (fresh, request) :: rest, db, caps =>
    let after := ((serve D fresh request).run exec db).2
    (after, capsAfter D caps db after) :: runCapped D rest after (capsAfter D caps db after)

/-! ## When it holds -/

/-- The request pays a grid round out, at fair odds `odds`. -/
inductive PaysGrid (db : Db) : Request → Game → Bet → ℚ → Prop
  | cashOutMines {userId sessionId : Id} {betReference : String} {session : GameSession} {game : Game} {bet : Bet}
    (hat : AtTable db userId sessionId .mines session game) (hb : OpenRound db userId sessionId betReference bet)
    (hsome : bet.revealed ≠ []) :
    PaysGrid db (.cashOutMines userId sessionId betReference) game bet (minesFair bet.mineCount bet.revealed.length)
  /-- The last safe tile. -/
  | clearMines {userId sessionId : Id} {betReference : String} {session : GameSession} {game : Game} {bet : Bet}
    (hat : AtTable db userId sessionId .mines session game) (hb : OpenRound db userId sessionId betReference bet)
    {value : Num} {tile : Nat} (htile : naturalNumber value = some tile) (hlt : tile < MINES_TILE_COUNT)
    (hnew : tile ∉ bet.revealed) (hsafe : tile ∉ bet.minePositions.getD [])
    (hfull : MINES_TILE_COUNT ≤ bet.revealed.length + 1 + bet.mineCount) :
    PaysGrid db (.revealMines userId sessionId betReference value) game bet
      (minesFair bet.mineCount (bet.revealed.length + 1))
  | cashOutTowers {userId sessionId : Id} {betReference : String} {session : GameSession} {game : Game} {bet : Bet}
    (hat : AtTable db userId sessionId .towers session game) (hb : OpenRound db userId sessionId betReference bet)
    (hsome : bet.picks ≠ []) {difficulty : TowersDifficulty} (hd : bet.difficulty = some difficulty) :
    PaysGrid db (.cashOutTowers userId sessionId betReference) game bet (towersFair difficulty bet.picks.length)
  /-- The top floor. -/
  | clearTowers {userId sessionId : Id} {betReference : String} {session : GameSession} {game : Game} {bet : Bet}
    (hat : AtTable db userId sessionId .towers session game) (hb : OpenRound db userId sessionId betReference bet)
    {value : Num} {tile : Nat} (htile : naturalNumber value = some tile) {difficulty : TowersDifficulty}
    (hd : bet.difficulty = some difficulty) (hlt : tile < (towersConfig difficulty).tiles)
    (hsafe : tile ∉ (bet.traps.getD []).getD bet.picks.length [])
    (hrow : bet.picks.length + 1 = (towersConfig difficulty).rows) :
    PaysGrid db (.revealTowers userId sessionId betReference value) game bet
      (towersFair difficulty (bet.picks.length + 1))

/-- The odds of the round that the request pays out are within its caps. -/
def OddsCovered (db : Db) (caps : Caps) (request : Request) : Prop :=
  ∀ game bet odds, PaysGrid db request game bet odds →
    OddsWithin game.houseEdge odds game.maxMultiplier ∧ ∀ cap ∈ caps bet.id, OddsWithin game.houseEdge odds cap

def OddsCoveredAll (D : Digest) : List (Fresh × Request) → Db → Caps → Prop
  | [], _, _ => True
  | (fresh, request) :: rest, db, caps =>
    OddsCovered db caps request ∧
      OddsCoveredAll D rest ((serve D fresh request).run exec db).2
        (capsAfter D caps db ((serve D fresh request).run exec db).2)

/-- The games have the edge and the cap of their rows in the catalogue. -/
def Seeded (db : Db) : Prop :=
  ∀ game ∈ db.games.rows, ∃ row ∈ catalogue, row.slug = game.slug ∧ row.houseEdge = game.houseEdge ∧
    row.maxMultiplier = game.maxMultiplier

/-- The column has two decimals. -/
def CentCap (cap : ℚ) : Prop := ∃ n : ℤ, cap = n / 100

def CentCaps (db : Db) : Prop := ∀ row ∈ db.userGameControl.rows, ∀ cap ∈ row.maxWinMultiplier, CentCap cap

variable {D : Digest} {db t : Db} {caps : Caps} {userId sessionId : Id} {α : Type}

/-! ## The control rows -/

/-- The caps of the control rows are never written. -/
theorem exec_centCaps {q : Stmt} {r : q.Resp} (h : exec q db = .ok (r, t)) (hc : CentCaps db) : CentCaps t := by
  cases q with
  | insertWallet userId =>
    have hframe := exec_insertWallet_frame h
    rw [hframe]
    exact hc
  | updateControl p set =>
    cases h
    intro row hrow cap hcap
    obtain ⟨a, ha, rfl⟩ := Table.mem_update.1 hrow
    refine hc a ha cap ?_
    cases hp : p a with
    | true => rwa [Table.updateRow_pos hp] at hcap
    | false => rwa [Table.updateRow_neg hp] at hcap
  | insertSession s => obtain ⟨u, -, he⟩ := orThrow_ok h; cases he; exact hc
  | insertTransactions rs => obtain ⟨u, -, he⟩ := orThrow_ok h; cases he; exact hc
  | insertBet b => obtain ⟨u, -, he⟩ := orThrow_ok h; cases he; exact hc
  | _ => cases h; exact hc

theorem run_centCaps {p : Sql α} {a : Except Fault α} (h : p.run exec db = (a, t)) (hc : CentCaps db) : CentCaps t :=
  Prog.run_keeps h (J := CentCaps) (fun _ _ _ _ hu hr => exec_centCaps hr hu) hc

/-- What a forced cap is. -/
theorem forcedCap_eq {b : Bet} {cap : ℚ} (h : db.forcedCap D b = some cap) :
    (db.controlRule b.userId b.gameId).bind ControlRule.maxWinMultiplier = some cap ∧ 0 < cap := by
  unfold Db.forcedCap at h
  split_ifs at h
  obtain ⟨hcap, hpos⟩ := Option.filter_eq_some_iff.1 h
  exact ⟨hcap, of_decide_eq_true hpos⟩

theorem forcedCap_cent (hc : CentCaps db) {b : Bet} {cap : ℚ} (h : db.forcedCap D b = some cap) : CentCap cap := by
  obtain ⟨hcap, -⟩ := forcedCap_eq h
  obtain ⟨rule, hrule, hmax⟩ := Option.bind_eq_some_iff.1 hcap
  obtain ⟨row, hrow, rfl⟩ := Option.map_eq_some_iff.1 hrule
  exact hc row (mem_of_controlRow hrow) cap hmax

/-! ## Instant games -/

/-- No round of the catalogue's instant games is above the cap of its game. -/
theorem resolveRound_le_cap {row : Game} (hrow : row ∈ catalogue) {slug : GameSlug} {value : RawSelection}
    {selection : GameSelection} {u : Stream} {config : RoundConfig} {forced : ForcedResult} {raw : RoundResult}
    (hslug : row.slug = slug) (hedge : row.houseEdge = config.houseEdge)
    (hmax : row.maxMultiplier = config.maxMultiplier)
    (hvalid : validateSelection slug value = .ok selection)
    (hraw : resolveRound slug selection u config forced = some raw) : raw.multiplier ≤ config.maxMultiplier := by
  obtain ⟨houseEdge, maxMultiplier⟩ := config
  subst hslug hedge hmax
  simp only [catalogue, List.mem_cons, List.not_mem_nil, or_false] at hrow
  rcases hrow with rfl | rfl | rfl | rfl | rfl | rfl | rfl | rfl
  · obtain ⟨s, rfl, hlo, hhi⟩ := validateDice_target hvalid
    cases hraw
    have hcap : ((4900 : ℕ) : ℚ) / 100 = 49 := by norm_num
    have hle := resolveDice_le (n := 4900) hlo hhi (show (1 - 2 / 100 : ℚ) * 50 ≤ _ by norm_num) u forced
    rw [hcap] at hle
    exact hle
  · cases hraw
  · cases selection <;> cases hraw
    exact resolveCoinFlip_le (n := 196) (show (1 - 2 / 100 : ℚ) * 2 ≤ _ by norm_num) _ u forced
  · cases selection <;> cases hraw
    exact resolveWheel_le _ u forced
  · cases selection <;> cases hraw
    have hcap : ((100000 : ℕ) : ℚ) / 100 = 1000 := by norm_num
    have hle : (resolveLimbo ‹_› u (2 / 100) forced ((100000 : ℕ) / 100)).multiplier ≤ ((100000 : ℕ) : ℚ) / 100 :=
      resolveLimbo_le _ u forced
    rw [hcap] at hle
    exact hle
  · cases selection <;> cases hraw
    exact resolvePlinko_le _ u forced
  · cases hraw
  · cases selection <;> cases hraw
    exact resolveKeno_le _ u forced

/-- The caps of the catalogue have two decimals. -/
theorem catalogue_cents : ∀ row ∈ catalogue, CentCap row.maxMultiplier := by
  intro row hrow
  simp only [catalogue, List.mem_cons, List.not_mem_nil, or_false] at hrow
  rcases hrow with rfl | rfl | rfl | rfl | rfl | rfl | rfl | rfl
  · exact ⟨4900, by norm_num [seedGame]⟩
  · exact ⟨100000, by norm_num [seedGame]⟩
  · exact ⟨196, by norm_num [seedGame]⟩
  · exact ⟨5000, by norm_num [seedGame]⟩
  all_goals exact ⟨100000, by norm_num [seedGame]⟩

theorem Seeded.cap (h : Seeded db) {game : Game} (hg : game ∈ db.games.rows) :
    0 ≤ game.maxMultiplier ∧ CentCap game.maxMultiplier := by
  obtain ⟨row, hrow, -, -, hmax⟩ := h game hg
  rw [← hmax]
  exact ⟨(catalogue_sound row hrow).2.2, catalogue_cents row hrow⟩

/-- A bet that pays its stake times its multiplier. -/
theorem paidWithin_of_le {b : Bet} {cap : ℚ} (hstake : 0 < b.stake)
    (hpay : b.payout = roundMoney (b.stake.toRat * b.multiplier)) (h : b.multiplier ≤ cap) : PaidWithin b cap := by
  refine ⟨h, ?_⟩
  rw [hpay]
  refine roundMoney_mono (mul_le_mul_of_nonneg_left h ?_)
  unfold Money.toRat
  positivity

theorem paidWithin_zero {b : Bet} {cap : ℚ} (hcap : 0 ≤ cap) (hstake : 0 < b.stake) (hm : b.multiplier = 0)
    (hp : b.payout = 0) : PaidWithin b cap := by
  refine ⟨hm ▸ hcap, ?_⟩
  rw [hp]
  refine roundMoney_nonneg (mul_nonneg ?_ hcap)
  unfold Money.toRat
  positivity

/-- A bet that `placeBet` has placed is within its caps. -/
theorem Placed.paidWithin {slug : GameSlug} {game : Game} {forced : ForcedResult} {selection : GameSelection}
    {raw : RoundResult} {b : Bet} (hs : Seeded db) (hc : CentCaps db)
    (h : Placed D db userId slug game forced selection raw b) :
    PaidWithin b game.maxMultiplier ∧ ∀ cap ∈ db.forcedCap D b, PaidWithin b cap := by
  obtain ⟨_, _, hat, -⟩ := h.seat
  obtain ⟨row, hrow, hslug, hedge, hmax⟩ := hs game hat.game_mem
  obtain ⟨value, hvalid⟩ := h.valid
  have hstake : (0 : ℚ) ≤ b.stake.toRat := by
    have hpos := h.stake_pos
    unfold Money.toRat
    positivity
  have within : ∀ cap, 0 ≤ cap → CentCap cap → (applyWinCap raw (db.controlRule userId game.id)).multiplier ≤ cap →
      PaidWithin b cap := by
    intro cap hcap ⟨n, hn⟩ hle
    refine ⟨?_, ?_⟩
    · rw [h.multiplier_eq, hn]
      exact toFixed_le (hn ▸ hle)
    · rw [h.payout_eq, betPayout]
      split_ifs
      · exact roundMoney_mono (mul_le_mul_of_nonneg_left hle hstake)
      · exact roundMoney_nonneg (mul_nonneg hstake hcap)
  refine ⟨within _ (hs.cap hat.game_mem).1 (hs.cap hat.game_mem).2 ?_, fun cap hcap => ?_⟩
  · have hraw : raw.multiplier ≤ game.config.maxMultiplier :=
      resolveRound_le_cap hrow (hslug.trans hat.game_slug) hedge hmax hvalid h.raw_eq
    exact (applyWinCap_le _ _).trans hraw
  · obtain ⟨hrule, hpos⟩ := forcedCap_eq hcap
    rw [h.userId_eq, h.gameId_eq] at hrule
    exact within cap hpos.le (forcedCap_cent hc hcap) (applyWinCap_le_cap hrule hpos (resolveRound_lost h.raw_eq))

/-! ## The invariant -/

/-- What the caps of a run rest on. -/
structure CapInv (db : Db) (caps : Caps) : Prop where
  grid : GridInv db
  stakes : ∀ b ∈ db.bets.rows, 0 < b.stake
  seeded : Seeded db
  cents : CentCaps db
  caps : ∀ id, ∀ cap ∈ caps id, 0 < cap ∧ CentCap cap

theorem capsAfter_old {b : Bet} (hb : b ∈ db.bets.rows) : capsAfter D caps db t b.id = caps b.id :=
  if_pos (List.any_eq_true.2 ⟨b, hb, by simp⟩)

theorem capsAfter_cases {id : Id} {cap : ℚ} (h : capsAfter D caps db t id = some cap) :
    (∃ b ∈ db.bets.rows, b.id = id) ∧ caps id = some cap ∨
    ∃ b ∈ t.bets.rows, b.id = id ∧ db.forcedCap D b = some cap := by
  unfold capsAfter at h
  split_ifs at h with hany
  · obtain ⟨b, hb, hid⟩ := List.any_eq_true.1 hany
    exact .inl ⟨⟨b, hb, beq_iff_eq.1 hid⟩, h⟩
  · obtain ⟨b, hfind, hcap⟩ := Option.bind_eq_some_iff.1 h
    have hid : (b.id == id) = true := List.find?_some (p := fun a : Bet => a.id == id) hfind
    exact .inr ⟨b, List.mem_of_find?_eq_some hfind, beq_iff_eq.1 hid, hcap⟩

/-- The cap of a bet that has just been inserted. -/
theorem capsAfter_new {b : Bet} (hins : db.bets.insert b = some t.bets) {cap : ℚ}
    (h : capsAfter D caps db t b.id = some cap) : db.forcedCap D b = some cap := by
  have hb : b ∈ t.bets.rows := by
    rw [Table.rows_insert hins]
    exact List.mem_append_right _ (List.mem_singleton_self b)
  obtain ⟨⟨a, ha, hid⟩, -⟩ | ⟨a, ha, hid, hcap⟩ := capsAfter_cases h
  · exact absurd (by simp [Keyed.keys, hid]) (Table.apart_of_insert hins a ha ("id", a.id) (by simp [Keyed.keys]))
  · obtain rfl := bet_eq_of_id ha hb hid
    exact hcap

theorem CapInv.stake_insert (h : CapInv db caps) {b : Bet} (hins : db.bets.insert b = some t.bets) (hb : 0 < b.stake) :
    ∀ a ∈ t.bets.rows, 0 < a.stake := by
  intro a ha
  rw [Table.rows_insert hins] at ha
  rcases List.mem_append.1 ha with ha | ha
  · exact h.stakes a ha
  · exact List.mem_singleton.1 ha ▸ hb

theorem CapInv.stake_turned (h : CapInv db caps) {bet bet' : Bet} (hturned : Turned db t bet bet')
    (hs : bet'.stake = bet.stake) : ∀ a ∈ t.bets.rows, 0 < a.stake := by
  intro a ha
  rcases hturned.mem_iff.1 ha with rfl | ⟨ha, -⟩
  · rw [hs]
    exact h.stakes bet hturned.mem
  · exact h.stakes a ha

/-- A request keeps the invariant. -/
theorem CapInv.effect (h : CapInv db caps) {request : Request} (he : BetEffect D db t request)
    (hg : t.games = db.games) (hs : SessionsPersist db t) (hc : CentCaps t) : CapInv t (capsAfter D caps db t) := by
  refine ⟨(gridInv_effect h.grid he hg hs).1, ?_, ?_, hc, fun id cap hcap => ?_⟩
  · cases he with
    | same _ hb =>
      rw [hb]
      exact h.stakes
    | placed hp =>
      obtain ⟨_, _, _, _, b, hplaced, hins⟩ := hp
      exact h.stake_insert hins hplaced.stake_pos
    | openedMines ho =>
      obtain ⟨_, _, _, b, hopened, hins⟩ := ho
      exact h.stake_insert hins hopened.stake_pos
    | openedTowers ho =>
      obtain ⟨_, _, _, b, hopened, hins⟩ := ho
      exact h.stake_insert hins hopened.stake_pos
    | shownMines _ hm =>
      obtain ⟨_, _, bet, bet', -, -, hturned, hmove⟩ := hm
      exact h.stake_turned hturned hmove.seat.stake_eq
    | cashedOutMines hm =>
      obtain ⟨_, _, bet, bet', -, -, hturned, hmove⟩ := hm
      exact h.stake_turned hturned hmove.seat.stake_eq
    | shownTowers _ hm =>
      obtain ⟨_, _, bet, bet', -, -, hturned, hmove⟩ := hm
      exact h.stake_turned hturned hmove.seat.stake_eq
    | cashedOutTowers hm =>
      obtain ⟨_, _, bet, bet', -, -, hturned, hmove⟩ := hm
      exact h.stake_turned hturned hmove.seat.stake_eq
  · unfold Seeded
    rw [hg]
    exact h.seeded
  · obtain ⟨-, hold⟩ | ⟨b, -, -, hnew⟩ := capsAfter_cases hcap
    · exact h.caps id cap hold
    · exact ⟨(forcedCap_eq hnew).2, forcedCap_cent h.cents hnew⟩

/-! ## One request -/

/-- An open Mines round is priced by its odds. -/
theorem minesOdds_iff {bet : Bet} {game : Game} (h : MinesBet game.houseEdge bet) (hopen : bet.status = .open) {k : Nat}
    (hpos : 1 ≤ k) (hle : k ≤ bet.revealed.length + 1) {cap : ℚ} (hcap : CentCap cap) :
    minesMultiplier bet.mineCount k game.houseEdge ≤ cap ↔
      OddsWithin game.houseEdge (minesFair bet.mineCount k) cap := by
  obtain ⟨mineCount, positions, revealed, hrec⟩ := h
  obtain ⟨n, rfl⟩ := hcap
  have hstanding := hrec.standing
  unfold MinesStanding at hstanding
  rw [hopen] at hstanding
  have hroom := hstanding.2.1
  rw [hrec.revealed_eq] at hle
  rw [hrec.mineCount_eq]
  exact minesMultiplier_le_iff _ n hpos (by omega)

/-- What an open round has stored is the price of the tiles shown. -/
theorem MinesBet.multiplier_eq {bet : Bet} {houseEdge : ℚ} (h : MinesBet houseEdge bet) (hopen : bet.status = .open) :
    bet.multiplier = minesMultiplier bet.mineCount bet.revealed.length houseEdge := by
  obtain ⟨mineCount, positions, revealed, hrec⟩ := h
  have hstanding := hrec.standing
  unfold MinesStanding at hstanding
  rw [hopen] at hstanding
  rw [hrec.mineCount_eq, hrec.revealed_eq]
  exact hstanding.2.2

theorem TowersBet.multiplier_eq {bet : Bet} {houseEdge : ℚ} (h : TowersBet houseEdge bet) (hopen : bet.status = .open) :
    ∃ difficulty, bet.difficulty = some difficulty ∧
      bet.multiplier = towersMultiplier difficulty bet.picks.length houseEdge := by
  obtain ⟨difficulty, traps, picks, hrec⟩ := h
  have hstanding := hrec.standing
  unfold TowersStanding at hstanding
  rw [hopen] at hstanding
  refine ⟨difficulty, hrec.difficulty_eq, ?_⟩
  rw [hrec.picks_eq]
  exact hstanding.2.2

theorem towersOdds_iff (difficulty : TowersDifficulty) {k : Nat} (houseEdge : ℚ) (hpos : 1 ≤ k) {cap : ℚ}
    (hcap : CentCap cap) : towersMultiplier difficulty k houseEdge ≤ cap ↔
      OddsWithin houseEdge (towersFair difficulty k) cap := by
  obtain ⟨n, rfl⟩ := hcap
  exact towersMultiplier_le_iff difficulty houseEdge n hpos

/-- The caps that apply to a bet. -/
def CapOf (caps : Caps) (game : Game) (bet : Bet) (cap : ℚ) : Prop := cap = game.maxMultiplier ∨ cap ∈ caps bet.id

theorem CapInv.capOf (h : CapInv db caps) {game : Game} (hg : game ∈ db.games.rows) {bet : Bet} {cap : ℚ}
    (hc : CapOf caps game bet cap) : 0 ≤ cap ∧ CentCap cap := by
  rcases hc with rfl | hc
  · exact h.seeded.cap hg
  · exact ⟨(h.caps _ cap hc).1.le, (h.caps _ cap hc).2⟩

/-- A Mines bet that a request has moved is settled within its caps, if the odds are. -/
theorem CapInv.movedMines (h : CapInv db caps) {step : Option Nat} {bet bet' : Bet} {game : Game}
    (hbet : bet ∈ db.bets.rows) (hopen : bet.status = .open) (hgrid : MinesBet game.houseEdge bet)
    (hmove : MinesMove game.houseEdge bet step bet') (hdone : bet'.status ≠ .open) {cap : ℚ} (hcap : 0 ≤ cap)
    (hcent : CentCap cap)
    (hout : step = none → bet.revealed ≠ [] →
      OddsWithin game.houseEdge (minesFair bet.mineCount bet.revealed.length) cap)
    (hclear : ∀ tile, step = some tile → tile < MINES_TILE_COUNT → tile ∉ bet.revealed →
      tile ∉ bet.minePositions.getD [] → MINES_TILE_COUNT ≤ bet.revealed.length + 1 + bet.mineCount →
        OddsWithin game.houseEdge (minesFair bet.mineCount (bet.revealed.length + 1)) cap) : PaidWithin bet' cap := by
  have hstake : 0 < bet'.stake := by
    rw [hmove.seat.stake_eq]
    exact h.stakes bet hbet
  cases hmove with
  | hit now tile => exact paidWithin_zero hcap hstake rfl rfl
  | safe tile => exact absurd hopen hdone
  | clear now tile hlt hnew hsafe hfull shown hshown =>
    subst hshown
    refine paidWithin_of_le hstake rfl ?_
    change toFixed 4 (minesMultiplier bet.mineCount (bet.revealed.length + 1) game.houseEdge) ≤ cap
    rw [toFixed_minesMultiplier]
    exact (minesOdds_iff hgrid hopen (by omega) le_rfl hcent).2 (hclear tile rfl hlt hnew hsafe hfull)
  | cashOut now hsome =>
    refine paidWithin_of_le hstake rfl ?_
    change bet.multiplier ≤ cap
    rw [hgrid.multiplier_eq hopen]
    exact (minesOdds_iff hgrid hopen (List.length_pos_of_ne_nil hsome) (by omega) hcent).2 (hout rfl hsome)

theorem CapInv.movedTowers (h : CapInv db caps) {step : Option Nat} {bet bet' : Bet} {game : Game}
    (hbet : bet ∈ db.bets.rows) (hopen : bet.status = .open) (hgrid : TowersBet game.houseEdge bet)
    (hmove : TowersMove game.houseEdge bet step bet') (hdone : bet'.status ≠ .open) {cap : ℚ} (hcap : 0 ≤ cap)
    (hcent : CentCap cap)
    (hout : ∀ difficulty, step = none → bet.difficulty = some difficulty → bet.picks ≠ [] →
      OddsWithin game.houseEdge (towersFair difficulty bet.picks.length) cap)
    (hclear : ∀ tile difficulty, step = some tile → bet.difficulty = some difficulty →
      tile < (towersConfig difficulty).tiles → tile ∉ (bet.traps.getD []).getD bet.picks.length [] →
        bet.picks.length + 1 = (towersConfig difficulty).rows →
          OddsWithin game.houseEdge (towersFair difficulty (bet.picks.length + 1)) cap) : PaidWithin bet' cap := by
  have hstake : 0 < bet'.stake := by
    rw [hmove.seat.stake_eq]
    exact h.stakes bet hbet
  cases hmove with
  | hit now difficulty hd tile => exact paidWithin_zero hcap hstake rfl rfl
  | safe difficulty hd tile => exact absurd hopen hdone
  | clear now difficulty hd tile hlt hsafe hrow shown hshown =>
    subst hshown
    refine paidWithin_of_le hstake rfl ?_
    change toFixed 4 (towersMultiplier difficulty (bet.picks.length + 1) game.houseEdge) ≤ cap
    rw [toFixed_towersMultiplier]
    exact (towersOdds_iff difficulty _ (by omega) hcent).2 (hclear tile difficulty rfl hd hlt hsafe hrow)
  | cashOut now hsome =>
    refine paidWithin_of_le hstake rfl ?_
    obtain ⟨difficulty, hd, hmult⟩ := hgrid.multiplier_eq hopen
    change bet.multiplier ≤ cap
    rw [hmult]
    exact (towersOdds_iff difficulty _ (List.length_pos_of_ne_nil hsome) hcent).2 (hout difficulty rfl hd hsome)

theorem WithinCaps.same (hw : WithinCaps db caps) (hb : t.bets = db.bets) (hg : t.games = db.games) :
    WithinCaps t (capsAfter D caps db t) := by
  intro b hmem hdone game hgame hid
  rw [hb] at hmem
  rw [hg] at hgame
  rw [capsAfter_old hmem]
  exact hw b hmem hdone game hgame hid

theorem WithinCaps.insert (hw : WithinCaps db caps) {b : Bet} (hins : db.bets.insert b = some t.bets)
    (hg : t.games = db.games) (hnew : b.status ≠ .open → ∀ game ∈ db.games.rows, game.id = b.gameId →
      PaidWithin b game.maxMultiplier ∧ ∀ cap ∈ db.forcedCap D b, PaidWithin b cap) :
    WithinCaps t (capsAfter D caps db t) := by
  intro a hmem hdone game hgame hid
  rw [hg] at hgame
  rw [Table.rows_insert hins] at hmem
  rcases List.mem_append.1 hmem with hmem | hmem
  · rw [capsAfter_old hmem]
    exact hw a hmem hdone game hgame hid
  · obtain rfl := List.mem_singleton.1 hmem
    obtain ⟨hmax, hforced⟩ := hnew hdone game hgame hid
    exact ⟨hmax, fun cap hcap => hforced cap (capsAfter_new hins hcap)⟩

theorem WithinCaps.turn (hw : WithinCaps db caps) {bet bet' : Bet} {game : Game} (hmem : game ∈ db.games.rows)
    (hgid : game.id = bet.gameId) (hturned : Turned db t bet bet') (hgame : bet'.gameId = bet.gameId)
    (hg : t.games = db.games) (hpaid : bet'.status ≠ .open → ∀ cap, CapOf caps game bet cap → PaidWithin bet' cap) :
    WithinCaps t (capsAfter D caps db t) := by
  intro a ha hdone game' hmem' hgid'
  rw [hg] at hmem'
  rcases hturned.mem_iff.1 ha with rfl | ⟨ha, -⟩
  · obtain rfl := game_eq_of_id hmem' hmem (by rw [hgid', hgame, hgid])
    rw [hturned.id_eq, capsAfter_old hturned.mem]
    exact ⟨hpaid hdone _ (.inl rfl), fun cap hcap => hpaid hdone cap (.inr hcap)⟩
  · rw [capsAfter_old ha]
    exact hw a ha hdone game' hmem' hgid'

theorem OddsCovered.capOf {request : Request} (h : OddsCovered db caps request) {game : Game} {bet : Bet} {odds cap : ℚ}
    (hpays : PaysGrid db request game bet odds) (hc : CapOf caps game bet cap) :
    OddsWithin game.houseEdge odds cap := by
  rcases hc with rfl | hc
  · exact (h game bet odds hpays).1
  · exact (h game bet odds hpays).2 cap hc

/-- A request that pays at covered odds keeps the bets within their caps. -/
theorem within_of_covered (h : CapInv db caps) (hw : WithinCaps db caps) {request : Request}
    (hcov : OddsCovered db caps request) (he : BetEffect D db t request) (hg : t.games = db.games) :
    WithinCaps t (capsAfter D caps db t) := by
  cases he with
  | same _ hb => exact hw.same hb hg
  | placed hp =>
    obtain ⟨game, _, _, _, b, hplaced, hins⟩ := hp
    obtain ⟨_, _, hat, -⟩ := hplaced.seat
    refine hw.insert hins hg fun _ game' hmem' hgid' => ?_
    obtain rfl := game_eq_of_id hmem' hat.game_mem (hgid'.trans hplaced.gameId_eq)
    exact hplaced.paidWithin h.seeded h.cents
  | openedMines ho =>
    obtain ⟨_, _, _, b, hopened, hins⟩ := ho
    exact hw.insert hins hg fun hdone => absurd hopened.status_eq hdone
  | openedTowers ho =>
    obtain ⟨_, _, _, b, hopened, hins⟩ := ho
    exact hw.insert hins hg fun hdone => absurd hopened.status_eq hdone
  | shownMines htile hm =>
    obtain ⟨session, game, bet, bet', hat, hb, hturned, hmove⟩ := hm
    obtain ⟨hgid, hgrid⟩ := h.grid.at_table hat hb
    refine hw.turn hat.game_mem hgid hturned hmove.seat.gameId_eq hg fun hdone cap hc => ?_
    obtain ⟨hcap, hcent⟩ := h.capOf hat.game_mem hc
    refine h.movedMines hb.mem hb.status (hgrid.mines hat.game_slug) hmove hdone hcap hcent
      (fun hstep => nomatch hstep) ?_
    intro tile hstep hlt hnew hsafe hfull
    obtain rfl := Option.some.inj hstep
    exact hcov.capOf (.clearMines hat hb htile hlt hnew hsafe hfull) hc
  | cashedOutMines hm =>
    obtain ⟨session, game, bet, bet', hat, hb, hturned, hmove⟩ := hm
    obtain ⟨hgid, hgrid⟩ := h.grid.at_table hat hb
    refine hw.turn hat.game_mem hgid hturned hmove.seat.gameId_eq hg fun hdone cap hc => ?_
    obtain ⟨hcap, hcent⟩ := h.capOf hat.game_mem hc
    refine h.movedMines hb.mem hb.status (hgrid.mines hat.game_slug) hmove hdone hcap hcent ?_
      fun _ hstep => nomatch hstep
    exact fun _ hsome => hcov.capOf (.cashOutMines hat hb hsome) hc
  | shownTowers htile hm =>
    obtain ⟨session, game, bet, bet', hat, hb, hturned, hmove⟩ := hm
    obtain ⟨hgid, hgrid⟩ := h.grid.at_table hat hb
    refine hw.turn hat.game_mem hgid hturned hmove.seat.gameId_eq hg fun hdone cap hc => ?_
    obtain ⟨hcap, hcent⟩ := h.capOf hat.game_mem hc
    refine h.movedTowers hb.mem hb.status (hgrid.towers hat.game_slug) hmove hdone hcap hcent
      (fun _ hstep => nomatch hstep) ?_
    intro tile difficulty hstep hd hlt hsafe hrow
    obtain rfl := Option.some.inj hstep
    exact hcov.capOf (.clearTowers hat hb htile hd hlt hsafe hrow) hc
  | cashedOutTowers hm =>
    obtain ⟨session, game, bet, bet', hat, hb, hturned, hmove⟩ := hm
    obtain ⟨hgid, hgrid⟩ := h.grid.at_table hat hb
    refine hw.turn hat.game_mem hgid hturned hmove.seat.gameId_eq hg fun hdone cap hc => ?_
    obtain ⟨hcap, hcent⟩ := h.capOf hat.game_mem hc
    refine h.movedTowers hb.mem hb.status (hgrid.towers hat.game_slug) hmove hdone hcap hcent ?_
      fun _ _ hstep => nomatch hstep
    exact fun difficulty _ hd hsome => hcov.capOf (.cashOutTowers hat hb hsome hd) hc

/-- A bet that is settled within its caps was paid out at covered odds. -/
theorem covered_of_settled (h : CapInv db caps) (hw : WithinCaps t (capsAfter D caps db t)) {bet bet' : Bet}
    {game : Game}
    {odds : ℚ} (hmem : game ∈ db.games.rows) (hgid : game.id = bet.gameId) (hturned : Turned db t bet bet')
    (hgame : bet'.gameId = bet.gameId) (hdone : bet'.status = .cashedOut) (hg : t.games = db.games)
    (hiff : ∀ cap, CentCap cap → (bet'.multiplier ≤ cap ↔ OddsWithin game.houseEdge odds cap)) :
    OddsWithin game.houseEdge odds game.maxMultiplier ∧ ∀ cap ∈ caps bet.id, OddsWithin game.houseEdge odds cap := by
  have hstatus : bet'.status ≠ .open := by rw [hdone]; decide
  obtain ⟨hmax, hforced⟩ := hw bet' (hturned.mem_iff.2 (.inl rfl)) hstatus game (by rw [hg]; exact hmem)
    (hgid.trans hgame.symm)
  rw [hturned.id_eq, capsAfter_old hturned.mem] at hforced
  exact ⟨(hiff _ (h.seeded.cap hmem).2).1 hmax.multiplier,
    fun cap hcap => (hiff cap (h.caps _ cap hcap).2).1 (hforced cap hcap).multiplier⟩

theorem covered_of_within (h : CapInv db caps) {fresh : Fresh} {request : Request}
    (hw : WithinCaps ((serve D fresh request).run exec db).2
      (capsAfter D caps db ((serve D fresh request).run exec db).2)) : OddsCovered db caps request := by
  have hg : ((serve D fresh request).run exec db).2.games = db.games := run_games rfl
  intro game bet odds hpays
  cases hpays with
  | cashOutMines hat hb hsome =>
    obtain ⟨hgid, hgrid⟩ := h.grid.at_table hat hb
    have hends : Prog.Ends exec (serve D fresh (.cashOutMines _ _ _)) db fun _ t => t.bets = (db.setBet bet _).bets :=
      ends_answer (ends_cashOutMines_of hat hb hsome)
    refine covered_of_settled h hw hat.game_mem hgid ((turned_setBet hb.mem _).of_eq hends) rfl rfl hg
      fun cap hcap => ?_
    change bet.multiplier ≤ cap ↔ _
    rw [(hgrid.mines hat.game_slug).multiplier_eq hb.status]
    exact minesOdds_iff (hgrid.mines hat.game_slug) hb.status (List.length_pos_of_ne_nil hsome) (by omega) hcap
  | clearMines hat hb htile hlt hnew hsafe hfull =>
    obtain ⟨hgid, hgrid⟩ := h.grid.at_table hat hb
    obtain ⟨bet', hturned, hmove, -, hclear⟩ :
        Prog.Ends exec (serve D fresh (.revealMines _ _ _ _)) db fun _ t => ∃ bet', Turned db t bet bet' ∧ _ :=
      ends_answer (ends_revealMines_of hat hb htile hlt hnew)
    obtain ⟨hstatus, hmult⟩ := hclear hsafe hfull
    refine covered_of_settled h hw hat.game_mem hgid hturned hmove.seat.gameId_eq hstatus hg fun cap hcap => ?_
    rw [hmult, toFixed_minesMultiplier]
    exact minesOdds_iff (hgrid.mines hat.game_slug) hb.status (by omega) le_rfl hcap
  | cashOutTowers hat hb hsome hd =>
    obtain ⟨hgid, hgrid⟩ := h.grid.at_table hat hb
    obtain ⟨difficulty, hd', hmult⟩ := (hgrid.towers hat.game_slug).multiplier_eq hb.status
    obtain rfl := Option.some.inj (hd'.symm.trans hd)
    have hends : Prog.Ends exec (serve D fresh (.cashOutTowers _ _ _)) db fun _ t => t.bets = (db.setBet bet _).bets :=
      ends_answer (ends_cashOutTowers_of hat hb hsome)
    refine covered_of_settled h hw hat.game_mem hgid ((turned_setBet hb.mem _).of_eq hends) rfl rfl hg
      fun cap hcap => ?_
    change bet.multiplier ≤ cap ↔ _
    rw [hmult]
    exact towersOdds_iff difficulty _ (List.length_pos_of_ne_nil hsome) hcap
  | clearTowers hat hb htile hd hlt hsafe hrow =>
    obtain ⟨hgid, hgrid⟩ := h.grid.at_table hat hb
    obtain ⟨bet', hturned, hmove, -, hclear⟩ :
        Prog.Ends exec (serve D fresh (.revealTowers _ _ _ _)) db fun _ t => ∃ bet', Turned db t bet bet' ∧ _ :=
      ends_answer (ends_revealTowers_of hat hb htile hd hlt (by omega))
    obtain ⟨hstatus, hmult⟩ := hclear hsafe hrow
    refine covered_of_settled h hw hat.game_mem hgid hturned hmove.seat.gameId_eq hstatus hg fun cap hcap => ?_
    rw [hmult, toFixed_towersMultiplier]
    exact towersOdds_iff _ _ (by omega) hcap

/-! ## Runs -/

theorem withinAll_iff : ∀ {requests : List (Fresh × Request)} {db : Db} {caps : Caps}, CapInv db caps →
    WithinCaps db caps →
      ((∀ s ∈ runCapped D requests db caps, WithinCaps s.1 s.2) ↔ OddsCoveredAll D requests db caps)
  | [], _, _, _, _ => iff_of_true (fun _ hs => nomatch hs) trivial
  | (fresh, request) :: rest, db, caps, h, hw => by
    have hg : ((serve D fresh request).run exec db).2.games = db.games := run_games rfl
    have heffect := ends_serve D fresh request db
    have hnext := h.effect (D := D) heffect hg (run_sessions rfl) (run_centCaps rfl h.cents)
    unfold runCapped OddsCoveredAll
    dsimp only
    rw [List.forall_mem_cons]
    constructor
    · rintro ⟨hafter, hrest⟩
      exact ⟨covered_of_within h hafter, (withinAll_iff hnext hafter).1 hrest⟩
    · rintro ⟨hcov, hrest⟩
      have hafter := within_of_covered h hw hcov heffect hg
      exact ⟨hafter, (withinAll_iff hnext hafter).2 hrest⟩

/-- **A run keeps every settled bet within its caps exactly when it pays out no grid round at higher odds**, in exact
arithmetic: a multiplier that is half a hundredth above a cap is rounded up here, and may be rounded down as a
double. -/
theorem within_caps_iff (D : Digest) (requests : List (Fresh × Request)) (db : Db) (hseed : Seeded db)
    (hcents : CentCaps db) (hnone : db.bets.rows = []) :
    (∀ s ∈ runCapped D requests db fun _ => none, WithinCaps s.1 s.2) ↔ OddsCoveredAll D requests db fun _ => none := by
  refine withinAll_iff ⟨⟨?_, ?_⟩, ?_, hseed, hcents, fun _ _ hcap => nomatch hcap⟩ ?_
  all_goals
    intro b hb
    rw [hnone] at hb
    cases hb

theorem tableDb_seeded (slug : GameSlug) : Seeded (tableDb slug) := fun game hg => ⟨game, hg, rfl, rfl, rfl⟩

/-- A Mines round with three safe tiles, all of which are revealed. -/
def clearedBoard : List (Fresh × Request) := [
  (freshAt 1, .startMines "u1" "s1" (some 5) (some 22)),
  (freshAt 2, .revealMines "u1" "s1" "MIN-1" (some 0)),
  (freshAt 3, .revealMines "u1" "s1" "MIN-1" (some 23)),
  (freshAt 4, .revealMines "u1" "s1" "MIN-1" (some 24))]

/-- It pays 2254 times the stake at a game capped at 1000. -/
theorem caps_exceeded :
    (∃ s ∈ runCapped zeroDigest clearedBoard (tableDb .mines) fun _ => none, ∃ b ∈ s.1.bets.rows,
      b.status = .cashedOut ∧ b.multiplier = 2254 ∧ ∃ game ∈ s.1.games.rows, game.id = b.gameId ∧
        game.maxMultiplier = 1000) ∧
    ¬ ∀ s ∈ runCapped zeroDigest clearedBoard (tableDb .mines) fun _ => none, WithinCaps s.1 s.2 := by
  decide +kernel

theorem within_caps_iff_minesRound : OddsCoveredAll zeroDigest minesRound (tableDb .mines) fun _ => none :=
  (within_caps_iff zeroDigest minesRound (tableDb .mines) (tableDb_seeded .mines) (fun _ hrow => nomatch hrow) rfl).1
    (by decide +kernel)

end Smink
