import Smink.Play.Grid

/-!
# What is shown of an open round, and what it pays

`getOpenMines` and `getOpenTowers` work the multiplier of an open round out again, with the edge that its game has now;
a cash-out pays the one that the last reveal has stored. Requests keep the two together (`offersStand_effect`). An edit
of the edge does so exactly when it leaves every open round that pays with its payout (`offersStand_edit`), and
`shown_is_paid_iff` says this of whole runs.
-/

namespace Smink

open Store

/-! ## Edits between requests -/

/-- A game, with another edge if it is the one that is edited. -/
def Game.edited (gameId : Id) (houseEdge : ℚ) (game : Game) : Game :=
  if game.id = gameId then { game with houseEdge } else game

theorem keys_edited (gameId : Id) (houseEdge : ℚ) (game : Game) :
    Keyed.keys (game.edited gameId houseEdge) = Keyed.keys game := by
  unfold Game.edited
  split <;> rfl

/-- `UPDATE games SET house_edge`. -/
def Db.editHouseEdge (db : Db) (gameId : Id) (houseEdge : ℚ) : Db :=
  { db with games := db.games.relabel (Game.edited gameId houseEdge) (keys_edited gameId houseEdge) }

/-- What happens in a run: a request is answered, or the edge of a game is changed. -/
inductive PlayEvent
  | request (fresh : Fresh) (request : Request)
  | edit (gameId : Id) (houseEdge : ℚ)

def playEvent (D : Digest) (db : Db) : PlayEvent → Db
  | .request fresh request => ((serve D fresh request).run exec db).2
  | .edit gameId houseEdge => db.editHouseEdge gameId houseEdge

/-- The store after each of the events. -/
def playEvents (D : Digest) : List PlayEvent → Db → List Db
  | [], _ => []
  | event :: rest, db => playEvent D db event :: playEvents D rest (playEvent D db event)

/-! ## Shown and paid -/

/-- From `db` to `t` the bet was cashed out for `amount`: it says so, and its owner has the money. -/
structure CashedOutFor (db t : Db) (bet : Bet) (amount : Money) : Prop where
  closed : ∃ b ∈ t.bets.rows, b.id = bet.id ∧ b.status = .cashedOut ∧ b.payout = amount
  credited : ∀ w ∈ db.sminkWallets.rows, w.userId = bet.userId →
    ∃ w' ∈ t.sminkWallets.rows, w'.userId = w.userId ∧ w'.balance = w.balance + amount

/-- The call cashes out the round at `betReference` for its stake times `x`, also in what it answers. -/
def Pays {α : Type} (p : Sql α) (payout : α → Option Money) (db : Db) (betReference : String) (x : ℚ) : Prop :=
  Prog.Ends exec p db fun answer t => ∃ bet ∈ db.bets.rows, bet.reference = betReference ∧
    CashedOutFor db t bet (roundMoney (bet.stake.toRat * x)) ∧
    ∀ state, answer = .ok state → payout state = some (roundMoney (bet.stake.toRat * x))

/-- Whenever an open round is shown with something revealed, a cash-out right after pays the multiplier shown. -/
structure ShownIsPaid (db : Db) : Prop where
  mines : ∀ userId sessionId shown t, (getOpenMines userId sessionId).run exec db = (.ok (some shown), t) →
    shown.revealed ≠ [] → ∀ fresh, Pays (cashOutMines fresh userId sessionId shown.reference) MinesRoundState.payout t
      shown.reference shown.multiplier
  towers : ∀ userId sessionId shown t, (getOpenTowers userId sessionId).run exec db = (.ok (some shown), t) →
    shown.picks ≠ [] → ∀ fresh, Pays (cashOutTowers fresh userId sessionId shown.reference) TowersRoundState.payout t
      shown.reference shown.multiplier

/-! ## The condition -/

/-- The multiplier that is shown of a bet with something revealed, at the edge of its game. -/
def Bet.shownMultiplier (bet : Bet) (slug : GameSlug) (houseEdge : ℚ) : Option ℚ :=
  match slug with
  | .mines =>
    if bet.revealed = [] then none else some (minesMultiplier bet.mineCount bet.revealed.length houseEdge)
  | .towers =>
    if bet.picks = [] then none
    else bet.difficulty.map fun difficulty => towersMultiplier difficulty bet.picks.length houseEdge
  | _ => none

theorem mem_shownMultiplier_mines {bet : Bet} {houseEdge x : ℚ} : x ∈ bet.shownMultiplier .mines houseEdge ↔
    bet.revealed ≠ [] ∧ x = minesMultiplier bet.mineCount bet.revealed.length houseEdge := by
  unfold Bet.shownMultiplier
  dsimp only
  split
  · rename_i hnone
    simp [hnone]
  · rename_i hsome
    rw [Option.mem_some_iff]
    exact ⟨fun hx => ⟨hsome, hx.symm⟩, fun hx => hx.2.symm⟩

theorem mem_shownMultiplier_towers {bet : Bet} {houseEdge x : ℚ} : x ∈ bet.shownMultiplier .towers houseEdge ↔
    bet.picks ≠ [] ∧ ∃ difficulty, bet.difficulty = some difficulty ∧
      x = towersMultiplier difficulty bet.picks.length houseEdge := by
  unfold Bet.shownMultiplier
  dsimp only
  split
  · rename_i hnone
    simp [hnone]
  · rename_i hsome
    rw [Option.mem_def, Option.map_eq_some_iff]
    exact ⟨fun ⟨difficulty, hd, hx⟩ => ⟨hsome, difficulty, hd, hx.symm⟩,
      fun ⟨_, difficulty, hd, hx⟩ => ⟨difficulty, hd, hx.symm⟩⟩

/-- The bet is an open round, in a live session at a game that can be played. -/
def Resumable (db : Db) (slug : GameSlug) (game : Game) (bet : Bet) : Prop :=
  ∃ sessionId session, AtTable db bet.userId sessionId slug session game ∧
    OpenRound db bet.userId sessionId bet.reference bet

/-- What is shown of a round that can be resumed pays what the stored multiplier does. -/
def OffersStand (db : Db) : Prop :=
  ∀ slug game bet, Resumable db slug game bet → ∀ x ∈ bet.shownMultiplier slug game.houseEdge,
    roundMoney (bet.stake.toRat * x) = cashOutPayout bet

/-- The edit leaves every round that can be resumed with the payout it is shown with. -/
def EditKeeps (db : Db) (gameId : Id) (houseEdge : ℚ) : Prop :=
  ∀ slug game bet, Resumable db slug game bet → game.id = gameId →
    ∀ x ∈ bet.shownMultiplier slug game.houseEdge, ∀ y ∈ bet.shownMultiplier slug houseEdge,
      roundMoney (bet.stake.toRat * y) = roundMoney (bet.stake.toRat * x)

/-- The condition on an event, in the state before it. -/
def PlayEvent.Keeps (db : Db) : PlayEvent → Prop
  | .request _ _ => True
  | .edit gameId houseEdge => EditKeeps db gameId houseEdge

def EditsKeep (D : Digest) : List PlayEvent → Db → Prop
  | [], _ => True
  | event :: rest, db => event.Keeps db ∧ EditsKeep D rest (playEvent D db event)

/-! ## One open round at a table -/

/-- No player has two open rounds at one game. -/
def RoundsAlone (db : Db) : Prop :=
  ∀ a ∈ db.bets.rows, ∀ b ∈ db.bets.rows, a.status = .open → b.status = .open → a.userId = b.userId →
    a.gameId = b.gameId → a = b

section Alone

variable {D : Digest} {db t : Db} {userId sessionId : Id}

theorem RoundsAlone.insert (h : RoundsAlone db) {b : Bet} (hins : db.bets.insert b = some t.bets)
    (hb : b.status = .open → ∀ a ∈ db.bets.rows, a.userId = b.userId → a.gameId = b.gameId → a.status ≠ .open) :
    RoundsAlone t := by
  unfold RoundsAlone
  rw [Table.rows_insert hins]
  intro a hamem c hcmem hopen hopen' huser hgame
  rcases List.mem_append.1 hamem with ha | ha <;> rcases List.mem_append.1 hcmem with hc | hc
  · exact h a ha c hc hopen hopen' huser hgame
  · obtain rfl := List.mem_singleton.1 hc
    exact absurd hopen (hb hopen' a ha huser hgame)
  · obtain rfl := List.mem_singleton.1 ha
    exact absurd hopen' (hb hopen c hc huser.symm hgame.symm)
  · exact (List.mem_singleton.1 ha).trans (List.mem_singleton.1 hc).symm

theorem RoundsAlone.moved (h : RoundsAlone db) {slug : GameSlug} {move : ℚ → Bet → Option Nat → Bet → Prop}
    (hmove : ∀ {houseEdge a step a'}, move houseEdge a step a' → SameSeat a a') {step : Option Nat}
    {betReference : String} (hm : BetMoved slug move step db t userId sessionId betReference) : RoundsAlone t := by
  obtain ⟨session, game, bet, bet', -, hb, hturned, hstep⟩ := hm
  have hsame := hmove hstep
  -- a bet beside the one that has moved was not open at its table before
  have hother : ∀ a ∈ db.bets.rows, a.id ≠ bet.id → a.status = .open → a.userId = bet'.userId →
      a.gameId = bet'.gameId → False := by
    intro a ha hid hopen huser hgame
    rw [hsame.userId_eq] at huser
    rw [hsame.gameId_eq] at hgame
    exact hid (congrArg Bet.id (h a ha bet hb.mem hopen hb.status huser hgame))
  intro a ha c hc hopen hopen' huser hgame
  rcases hturned.mem_iff.1 ha with rfl | ⟨ha, hid⟩ <;> rcases hturned.mem_iff.1 hc with rfl | ⟨hc, hid'⟩
  · rfl
  · exact (hother c hc hid' hopen' huser.symm hgame.symm).elim
  · exact (hother a ha hid hopen huser hgame).elim
  · exact h a ha c hc hopen hopen' huser hgame

/-- Requests that are answered one after another open a round only where the player has none. -/
theorem RoundsAlone.effect (h : RoundsAlone db) {request : Request} (he : BetEffect D db t request) :
    RoundsAlone t := by
  cases he with
  | same _ hb => unfold RoundsAlone; rw [hb]; exact h
  | placed hp =>
    obtain ⟨game, forced, selection, raw, b, hplaced, hins⟩ := hp
    refine h.insert hins fun hopen => ?_
    rw [hplaced.status_eq] at hopen
    split at hopen <;> cases hopen
  | openedMines ho =>
    obtain ⟨game, forced, selection, b, hopened, hins⟩ := ho
    refine h.insert hins fun _ a ha huser hgame => ?_
    exact hopened.alone a ha (huser.trans hopened.userId_eq) (hgame.trans hopened.gameId_eq)
  | openedTowers ho =>
    obtain ⟨game, forced, selection, b, hopened, hins⟩ := ho
    refine h.insert hins fun _ a ha huser hgame => ?_
    exact hopened.alone a ha (huser.trans hopened.userId_eq) (hgame.trans hopened.gameId_eq)
  | shownMines _ hm => exact h.moved MinesMove.seat hm
  | cashedOutMines hm => exact h.moved MinesMove.seat hm
  | shownTowers _ ht => exact h.moved TowersMove.seat ht
  | cashedOutTowers ht => exact h.moved TowersMove.seat ht

end Alone

/-! ## What is shown -/

section Shown

variable {db t : Db} {userId sessionId gameId : Id} {betReference : String} {session : GameSession} {game : Game}
  {bet : Bet}

theorem run_findOpen (h : (findOpen userId gameId sessionId).run exec db = (.ok (some bet), t)) :
    OpenRound db userId sessionId bet.reference bet ∧ bet.gameId = gameId := by
  have hhead := Except.ok.inj (Prod.mk.inj h).1
  obtain ⟨hmem, hp⟩ := Table.mem_select.1 ((List.mem_insertionSort _).1 (List.mem_of_head? hhead))
  simp only [Bool.and_eq_true, beq_iff_eq] at hp
  exact ⟨⟨hmem, rfl, hp.1.1.1, hp.1.2, hp.2⟩, hp.1.1.2⟩

/-- A player's only open round at the game is found. -/
theorem findOpen_of (hb : OpenRound db userId sessionId betReference bet) (hgame : bet.gameId = gameId)
    (halone : RoundsAlone db) : (findOpen userId gameId sessionId).run exec db = (.ok (some bet), db) := by
  have hsel : (db.bets.select fun b =>
      b.userId == userId && b.gameId == gameId && b.sessionId == some sessionId && b.status == .open) = [bet] := by
    refine db.bets.select_eq_of_key (k := ("id", bet.id)) hb.mem ?_ fun a ha hp => ?_
    · simp [hb.user, hgame, hb.session, hb.status]
    · simp only [Bool.and_eq_true, beq_iff_eq] at hp
      have heq := halone a ha bet hb.mem hp.2 hb.status (hp.1.1.1.trans hb.user.symm) (hp.1.1.2.trans hgame.symm)
      simp [Keyed.keys, heq]
  unfold findOpen
  rw [ask_bind, Prog.run_stmt (show exec (.selectBet _) db = .ok ([bet], db) by rw [← hsel]; rfl)]
  rfl

/-- The answer of `getOpenMines` when it finds the bet. -/
def Bet.minesShown (bet : Bet) (sessionId : Id) (houseEdge : ℚ) : MinesRoundState where
  reference := bet.reference
  sessionId := sessionId
  mineCount := bet.mineCount
  revealed := bet.revealed
  multiplier := minesMultiplier bet.mineCount bet.revealed.length houseEdge
  nextMultiplier := minesMultiplier bet.mineCount (bet.revealed.length + 1) houseEdge
  status := .open

/-- The answer of `getOpenTowers` when it finds the bet. -/
def Bet.towersShown (bet : Bet) (sessionId : Id) (difficulty : TowersDifficulty) (houseEdge : ℚ) :
    TowersRoundState where
  reference := bet.reference
  sessionId := sessionId
  difficulty := difficulty
  tiles := (towersConfig difficulty).tiles
  rows := (towersConfig difficulty).rows
  picks := bet.picks
  multiplier := towersMultiplier difficulty bet.picks.length houseEdge
  nextMultiplier := towersMultiplier difficulty (bet.picks.length + 1) houseEdge
  status := .open

theorem run_getOpenMines {shown : MinesRoundState}
    (h : (getOpenMines userId sessionId).run exec db = (.ok (some shown), t)) : t = db ∧
      ∃ session game bet, AtTable db userId sessionId .mines session game ∧
        OpenRound db userId sessionId bet.reference bet ∧ shown = bet.minesShown sessionId game.houseEdge := by
  refine ⟨(reads_getOpenMines userId sessionId).run_store readOnly h, ?_⟩
  unfold getOpenMines at h
  obtain ⟨⟨session, game⟩, u, hat, hrest⟩ := Prog.run_bind_inv h
  obtain rfl := (oneRead_requireOpenSession ..).reads.run_store readOnly hat
  obtain ⟨found, v, hfind, hanswer⟩ := Prog.run_bind_inv hrest
  cases found with
  | none => cases hanswer
  | some bet =>
    cases hanswer
    exact ⟨session, game, bet, AtTable.of_run hat, (run_findOpen hfind).1, rfl⟩

theorem run_getOpenTowers {shown : TowersRoundState}
    (h : (getOpenTowers userId sessionId).run exec db = (.ok (some shown), t)) : t = db ∧
      ∃ session game bet difficulty, AtTable db userId sessionId .towers session game ∧
        OpenRound db userId sessionId bet.reference bet ∧ bet.difficulty = some difficulty ∧
        shown = bet.towersShown sessionId difficulty game.houseEdge := by
  refine ⟨(reads_getOpenTowers userId sessionId).run_store readOnly h, ?_⟩
  unfold getOpenTowers at h
  obtain ⟨⟨session, game⟩, u, hat, hrest⟩ := Prog.run_bind_inv h
  obtain rfl := (oneRead_requireOpenSession ..).reads.run_store readOnly hat
  obtain ⟨found, v, hfind, hanswer⟩ := Prog.run_bind_inv hrest
  cases found with
  | none => cases hanswer
  | some bet =>
    obtain ⟨difficulty, v', hdiff, hlast⟩ := Prog.run_bind_inv hanswer
    cases hlast
    exact ⟨session, game, bet, difficulty, AtTable.of_run hat, (run_findOpen hfind).1,
      orThrew_ok (run_done (done_orThrew _) hdiff), rfl⟩

theorem getOpenMines_of (hat : AtTable db userId sessionId .mines session game)
    (hb : OpenRound db userId sessionId betReference bet) (hgame : bet.gameId = game.id) (halone : RoundsAlone db) :
    (getOpenMines userId sessionId).run exec db = (.ok (some (bet.minesShown sessionId game.houseEdge)), db) := by
  unfold getOpenMines
  rw [Prog.run_bind_ok hat.run, Prog.run_bind_ok (findOpen_of hb hgame halone)]
  rfl

theorem getOpenTowers_of (hat : AtTable db userId sessionId .towers session game)
    (hb : OpenRound db userId sessionId betReference bet) (hgame : bet.gameId = game.id) (halone : RoundsAlone db)
    {difficulty : TowersDifficulty} (hd : bet.difficulty = some difficulty) :
    (getOpenTowers userId sessionId).run exec db =
      (.ok (some (bet.towersShown sessionId difficulty game.houseEdge)), db) := by
  unfold getOpenTowers
  rw [Prog.run_bind_ok hat.run, Prog.run_bind_ok (findOpen_of hb hgame halone)]
  dsimp only
  rw [hd]
  rfl

end Shown

/-! ## What is paid -/

section Paid

variable {db t : Db} {fresh : Fresh} {userId sessionId : Id} {betReference : String} {session : GameSession}
  {game : Game} {bet : Bet} {α : Type}

/-- Both cash-outs pay the stored multiplier. -/
theorem pays_payOut (hb : OpenRound db userId sessionId betReference bet) (slug : GameSlug) {f : Option Money → Sql α}
    {payout : α → Option Money} (hf : ∀ a, (f a).done = true)
    (hanswer : ∀ a, Prog.Returns (fun state => payout state = some (cashOutPayout bet)) (f a)) :
    Prog.Ends exec (payOut fresh slug userId sessionId betReference bet >>= f) db fun answer t =>
      CashedOutFor db t bet (cashOutPayout bet) ∧ ∀ state, answer = .ok state →
        payout state = some (cashOutPayout bet) := by
  have hrows : Prog.Ends exec (payOut fresh slug userId sessionId betReference bet >>= f) db _ :=
    ends_payOut_rows slug f hf
  obtain ⟨hbets, hwallets⟩ : _ ∧ _ := hrows
  refine ⟨⟨?_, fun w hw huser => ?_⟩, fun state hstate => (Prog.returns_bind hanswer).run hstate⟩
  · have hturned := (turned_setBet hb.mem (cashedOutSet fresh.now (cashOutPayout bet))).of_eq hbets
    exact ⟨_, hturned.mem_iff.2 (.inl rfl), rfl, rfl, rfl⟩
  · rw [hwallets]
    refine ⟨_, Table.mem_update.2 ⟨w, hw, Table.updateRow_pos ?_⟩, rfl, rfl⟩
    simp [huser, hb.user]

/-- A call that pays the stored multiplier pays `x` exactly when the two come to the same amount. -/
theorem pays_iff {p : Sql α} {payout : α → Option Money} {x : ℚ} (hb : OpenRound db userId sessionId betReference bet)
    (h : Prog.Ends exec p db fun answer t => CashedOutFor db t bet (cashOutPayout bet) ∧
      ∀ state, answer = .ok state → payout state = some (cashOutPayout bet)) :
    Pays p payout db betReference x ↔ roundMoney (bet.stake.toRat * x) = cashOutPayout bet := by
  obtain ⟨hcash, hpayout⟩ : _ ∧ _ := h
  constructor
  · rintro ⟨bet', hmem, href, hcash', -⟩
    obtain rfl := bet_eq_of_reference hmem hb.mem (href.trans hb.reference.symm)
    obtain ⟨b, hb, hid, -, hpaid⟩ := hcash.closed
    obtain ⟨b', hb', hid', -, hpaid'⟩ := hcash'.closed
    obtain rfl := bet_eq_of_id hb hb' (hid.trans hid'.symm)
    exact hpaid'.symm.trans hpaid
  · intro heq
    unfold Pays Prog.Ends
    refine ⟨bet, hb.mem, hb.reference, ?_, ?_⟩
    · rw [heq]
      exact hcash
    · rw [heq]
      exact hpayout

theorem pays_cashOutMines (hat : AtTable db userId sessionId .mines session game)
    (hb : OpenRound db userId sessionId betReference bet) (hsome : bet.revealed ≠ []) (x : ℚ) :
    Pays (cashOutMines fresh userId sessionId betReference) MinesRoundState.payout db betReference x ↔
      roundMoney (bet.stake.toRat * x) = cashOutPayout bet := by
  refine pays_iff hb ?_
  unfold cashOutMines
  refine Prog.ends_bind_ok hat.run (Prog.ends_bind_ok (findRound_of hb) ?_)
  rw [if_neg hsome]
  exact pays_payOut hb .mines (fun _ => rfl) fun _ => rfl

theorem pays_cashOutTowers (hat : AtTable db userId sessionId .towers session game)
    (hb : OpenRound db userId sessionId betReference bet) (hsome : bet.picks ≠ []) (x : ℚ) :
    Pays (cashOutTowers fresh userId sessionId betReference) TowersRoundState.payout db betReference x ↔
      roundMoney (bet.stake.toRat * x) = cashOutPayout bet := by
  refine pays_iff hb ?_
  unfold cashOutTowers
  refine Prog.ends_bind_ok hat.run (Prog.ends_bind_ok (findRound_of hb) ?_)
  rw [if_neg hsome]
  refine pays_payOut hb .towers (fun _ => ?_) fun _ => ?_
  · cases bet.difficulty <;> rfl
  · cases bet.difficulty
    · trivial
    · rfl

end Paid

/-- **In a state of a run, what is shown is paid exactly when the offers stand.** -/
theorem shownIsPaid_iff {db : Db} (hseated : ∀ b ∈ db.bets.rows, AtSeat db b) (halone : RoundsAlone db) :
    ShownIsPaid db ↔ OffersStand db := by
  constructor
  · intro h slug game bet hres x hx
    obtain ⟨sessionId, session, hat, hb⟩ := hres
    have hgame := (AtSeat.at_table (hseated bet hb.mem) hat hb.session).symm
    cases slug with
    | mines =>
      obtain ⟨hsome, rfl⟩ := mem_shownMultiplier_mines.1 hx
      have hpays := h.mines _ _ _ _ (getOpenMines_of hat hb hgame halone) hsome (freshAt 0)
      exact (pays_cashOutMines hat hb hsome _).1 hpays
    | towers =>
      obtain ⟨hsome, difficulty, hd, rfl⟩ := mem_shownMultiplier_towers.1 hx
      have hpays := h.towers _ _ _ _ (getOpenTowers_of hat hb hgame halone hd) hsome (freshAt 0)
      exact (pays_cashOutTowers hat hb hsome _).1 hpays
    | _ => cases hx
  · intro h
    constructor
    · intro userId sessionId shown t hrun hsome fresh
      obtain ⟨rfl, session, game, bet, hat, hb, rfl⟩ := run_getOpenMines hrun
      obtain rfl := hb.user
      have hoffer := h .mines game bet ⟨sessionId, session, hat, hb⟩ _ (mem_shownMultiplier_mines.2 ⟨hsome, rfl⟩)
      exact (pays_cashOutMines hat hb hsome _).2 hoffer
    · intro userId sessionId shown t hrun hsome fresh
      obtain ⟨rfl, session, game, bet, difficulty, hat, hb, hd, rfl⟩ := run_getOpenTowers hrun
      obtain rfl := hb.user
      have hoffer := h .towers game bet ⟨sessionId, session, hat, hb⟩ _
        (mem_shownMultiplier_towers.2 ⟨hsome, difficulty, hd, rfl⟩)
      exact (pays_cashOutTowers hat hb hsome _).2 hoffer

/-! ## Edits -/

section Edits

variable {db : Db} {gameId userId sessionId : Id} {houseEdge : ℚ} {slug : GameSlug} {session : GameSession}
  {game : Game} {bet : Bet}

@[simp] theorem edited_id : (game.edited gameId houseEdge).id = game.id := by
  unfold Game.edited
  split <;> rfl

@[simp] theorem edited_slug : (game.edited gameId houseEdge).slug = game.slug := by
  unfold Game.edited
  split <;> rfl

@[simp] theorem edited_isActive : (game.edited gameId houseEdge).isActive = game.isActive := by
  unfold Game.edited
  split <;> rfl

@[simp] theorem edited_underMaintenance :
    (game.edited gameId houseEdge).underMaintenance = game.underMaintenance := by
  unfold Game.edited
  split <;> rfl

theorem atTable_edit (hat : AtTable db userId sessionId slug session game) :
    AtTable (db.editHouseEdge gameId houseEdge) userId sessionId slug session (game.edited gameId houseEdge) where
  session_mem := hat.session_mem
  session_id := hat.session_id
  session_user := hat.session_user
  game_mem := List.mem_map_of_mem hat.game_mem
  game_id := edited_id.trans hat.game_id
  game_slug := edited_slug.trans hat.game_slug
  live := hat.live
  active := edited_isActive.trans hat.active
  serviced := edited_underMaintenance.trans hat.serviced

/-- The tables after an edit are those before, with the edited game. -/
theorem resumable_edit_iff : Resumable (db.editHouseEdge gameId houseEdge) slug game bet ↔
    ∃ before, Resumable db slug before bet ∧ game = before.edited gameId houseEdge := by
  constructor
  · rintro ⟨sessionId, session, hat, hb⟩
    obtain ⟨before, hmem, rfl⟩ := List.mem_map.1 hat.game_mem
    refine ⟨before, ⟨sessionId, session, ?_, ⟨hb.mem, rfl, rfl, hb.session, hb.status⟩⟩, rfl⟩
    exact {
      session_mem := hat.session_mem
      session_id := hat.session_id
      session_user := hat.session_user
      game_mem := hmem
      game_id := edited_id.symm.trans hat.game_id
      game_slug := edited_slug.symm.trans hat.game_slug
      live := hat.live
      active := edited_isActive.symm.trans hat.active
      serviced := edited_underMaintenance.symm.trans hat.serviced }
  · rintro ⟨before, ⟨sessionId, session, hat, hb⟩, rfl⟩
    exact ⟨sessionId, session, atTable_edit hat, hb.mem, rfl, rfl, hb.session, hb.status⟩

/-- A round is shown with a multiplier at one edge exactly when it is at another. -/
theorem exists_shownMultiplier {x : ℚ} {houseEdge' : ℚ} (h : x ∈ bet.shownMultiplier slug houseEdge) :
    ∃ y, y ∈ bet.shownMultiplier slug houseEdge' := by
  cases slug with
  | mines => exact ⟨_, mem_shownMultiplier_mines.2 ⟨(mem_shownMultiplier_mines.1 h).1, rfl⟩⟩
  | towers =>
    obtain ⟨hsome, difficulty, hd, -⟩ := mem_shownMultiplier_towers.1 h
    exact ⟨_, mem_shownMultiplier_towers.2 ⟨hsome, difficulty, hd, rfl⟩⟩
  | _ => cases h

/-- **An edit leaves the offers standing exactly when it keeps what every round is shown with.** -/
theorem offersStand_edit (h : OffersStand db) :
    OffersStand (db.editHouseEdge gameId houseEdge) ↔ EditKeeps db gameId houseEdge := by
  constructor
  · intro hafter slug game bet hres hid x hx y hy
    have hoffer := hafter slug _ bet (resumable_edit_iff.2 ⟨game, hres, rfl⟩) y
    rw [Game.edited, if_pos hid] at hoffer
    exact (hoffer hy).trans (h slug game bet hres x hx).symm
  · intro hkeeps slug game bet hafter y hy
    obtain ⟨before, hres, rfl⟩ := resumable_edit_iff.1 hafter
    by_cases hid : before.id = gameId
    · rw [Game.edited, if_pos hid] at hy
      obtain ⟨x, hx⟩ : ∃ x, x ∈ bet.shownMultiplier slug before.houseEdge := exists_shownMultiplier hy
      exact (hkeeps slug before bet hres hid x hx y hy).trans (h slug before bet hres x hx)
    · rw [Game.edited, if_neg hid] at hy
      exact h slug before bet hres y hy

end Edits

/-! ## Requests -/

section Requests

variable {D : Digest} {db t : Db} {slug : GameSlug} {game : Game} {bet bet' : Bet} {houseEdge x : ℚ}

/-- A bet without anything revealed is shown without a multiplier. -/
theorem shownMultiplier_of_new (hrevealed : bet.revealed = []) (hpicks : bet.picks = []) :
    bet.shownMultiplier slug houseEdge = none := by
  cases slug <;> simp [Bet.shownMultiplier, hrevealed, hpicks]

/-- A reveal stores what the round is shown with from then on. -/
theorem MinesMove.stores {step : Option Nat} (h : MinesMove houseEdge bet step bet') (hopen : bet'.status = .open)
    (hx : x ∈ bet'.shownMultiplier .mines houseEdge) : bet'.multiplier = x := by
  obtain ⟨-, rfl⟩ := mem_shownMultiplier_mines.1 hx
  cases h with
  | hit => cases hopen
  | safe tile hlt hnew hsafe hroom =>
    refine (toFixed_minesMultiplier _ _ _).trans ?_
    simp [Bet.mineCount, Bet.minePositions, Bet.revealed, Settable.apply, revealSet]
  | clear => cases hopen
  | cashOut => cases hopen

theorem TowersMove.stores {step : Option Nat} (h : TowersMove houseEdge bet step bet') (hopen : bet'.status = .open)
    (hx : x ∈ bet'.shownMultiplier .towers houseEdge) : bet'.multiplier = x := by
  obtain ⟨-, difficulty, hd', rfl⟩ := mem_shownMultiplier_towers.1 hx
  cases h with
  | hit => cases hopen
  | safe difficulty hd tile hlt hsafe hroom =>
    obtain rfl := Option.some.inj (hd.symm.trans hd')
    refine (toFixed_towersMultiplier _ _ _).trans ?_
    simp [Bet.picks, Settable.apply, revealSet]
  | clear => cases hopen
  | cashOut => cases hopen

/-- A round that can be resumed could be before, if it was there. -/
theorem Resumable.of_persist (h : Resumable t slug game bet) (hmem : bet ∈ db.bets.rows) (hseat : AtSeat db bet)
    (hg : t.games = db.games) (hs : SessionsPersist db t) : Resumable db slug game bet := by
  obtain ⟨sessionId, session, hat, hb⟩ := h
  obtain ⟨s, hmem', hses, hgame, huser⟩ := hseat
  obtain ⟨s', hs', hid, -, hgame', hend⟩ := hs s hmem'
  have hsid : s.id = sessionId := Option.some.inj (hses.symm.trans hb.session)
  obtain rfl := session_eq_of_id hs' hat.session_mem (hid.trans (hsid.trans hat.session_id.symm))
  -- a session that had ended would still have
  have hlive : s.endedAt = none := by
    by_contra hended
    have hstill := hend (Option.isSome_iff_ne_none.2 hended)
    rw [hat.live] at hstill
    cases hstill
  exact ⟨sessionId, s, ⟨⟨hmem', hsid, huser, by rw [← hg]; exact hat.game_mem, hat.game_id.trans hgame',
    hat.game_slug⟩, hlive, hat.active, hat.serviced⟩, hmem, rfl, rfl, hb.session, hb.status⟩

/-- The bets that are not new offer what they did. -/
theorem OffersStand.old (h : OffersStand db) (hseated : ∀ b ∈ db.bets.rows, AtSeat db b) (hg : t.games = db.games)
    (hs : SessionsPersist db t) (hmem : bet ∈ db.bets.rows) (hres : Resumable t slug game bet)
    (hx : x ∈ bet.shownMultiplier slug game.houseEdge) : roundMoney (bet.stake.toRat * x) = cashOutPayout bet :=
  h slug game bet (hres.of_persist hmem (hseated bet hmem) hg hs) x hx

theorem OffersStand.insert (h : OffersStand db) (hseated : ∀ b ∈ db.bets.rows, AtSeat db b) {b : Bet}
    (hins : db.bets.insert b = some t.bets)
    (hb : b.status = .open → ∀ slug houseEdge, b.shownMultiplier slug houseEdge = none) (hg : t.games = db.games)
    (hs : SessionsPersist db t) : OffersStand t := by
  intro slug game bet hres x hx
  obtain ⟨sessionId, session, hat, hround⟩ := hres
  have hmem := hround.mem
  rw [Table.rows_insert hins, List.mem_append, List.mem_singleton] at hmem
  rcases hmem with hmem | rfl
  · exact h.old hseated hg hs hmem ⟨sessionId, session, hat, hround⟩ hx
  · rw [hb hround.status] at hx
    cases hx

theorem OffersStand.moved (h : OffersStand db) (hseated : ∀ b ∈ db.bets.rows, AtSeat db b)
    {move : ℚ → Bet → Option Nat → Bet → Prop} {userId sessionId : Id} {step : Option Nat} {betReference : String}
    (hmove : ∀ {houseEdge a step a'}, move houseEdge a step a' → SameSeat a a')
    (hstores : ∀ {houseEdge a step a' x}, move houseEdge a step a' → a'.status = .open →
      x ∈ a'.shownMultiplier slug houseEdge → a'.multiplier = x)
    (hm : BetMoved slug move step db t userId sessionId betReference) (hg : t.games = db.games)
    (hs : SessionsPersist db t) : OffersStand t := by
  have hafter := atSeat_moved hseated hmove hm hs
  obtain ⟨session, game, bet, bet', hat, hb, hturned, hstep⟩ := hm
  intro slug' game' b hres x hx
  obtain ⟨sessionId', session', hat', hround⟩ := hres
  rcases hturned.mem_iff.1 hround.mem with rfl | ⟨hmem, -⟩
  · -- the bet that has moved is still at the game it was at
    have hgid : game'.id = game.id := by
      rw [AtSeat.at_table (hafter b hround.mem) hat' hround.session, (hmove hstep).gameId_eq]
      exact (AtSeat.at_table (hseated bet hb.mem) hat hb.session).symm
    obtain rfl := game_eq_of_id (by rw [← hg]; exact hat'.game_mem) hat.game_mem hgid
    obtain rfl := hat'.game_slug.symm.trans hat.game_slug
    rw [cashOutPayout, hstores hstep hround.status hx]
  · exact h.old hseated hg hs hmem ⟨sessionId', session', hat', hround⟩ hx

/-- **A request leaves the offers standing.** -/
theorem offersStand_effect (h : OffersStand db) (hseated : ∀ b ∈ db.bets.rows, AtSeat db b) {request : Request}
    (he : BetEffect D db t request) (hg : t.games = db.games) (hs : SessionsPersist db t) : OffersStand t := by
  cases he with
  | same _ hb =>
    intro slug game bet hres x hx
    have hmem : bet ∈ db.bets.rows := by
      obtain ⟨sessionId, session, -, hround⟩ := hres
      rw [← hb]
      exact hround.mem
    exact h.old hseated hg hs hmem hres hx
  | placed hp =>
    obtain ⟨game, forced, selection, raw, b, hplaced, hins⟩ := hp
    refine h.insert hseated hins (fun hopen => ?_) hg hs
    rw [hplaced.status_eq] at hopen
    split at hopen <;> cases hopen
  | openedMines ho =>
    obtain ⟨game, forced, selection, b, hopened, hins⟩ := ho
    refine h.insert hseated hins (fun _ slug houseEdge => shownMultiplier_of_new ?_ ?_) hg hs
    · rw [Bet.revealed, hopened.outcome_eq]
      rfl
    · rw [Bet.picks, hopened.outcome_eq]
      rfl
  | openedTowers ho =>
    obtain ⟨game, forced, selection, b, hopened, hins⟩ := ho
    refine h.insert hseated hins (fun _ slug houseEdge => shownMultiplier_of_new ?_ ?_) hg hs
    · rw [Bet.revealed, hopened.outcome_eq]
      rfl
    · rw [Bet.picks, hopened.outcome_eq]
      rfl
  | shownMines _ hm => exact h.moved hseated MinesMove.seat MinesMove.stores hm hg hs
  | cashedOutMines hm => exact h.moved hseated MinesMove.seat MinesMove.stores hm hg hs
  | shownTowers _ ht => exact h.moved hseated TowersMove.seat TowersMove.stores ht hg hs
  | cashedOutTowers ht => exact h.moved hseated TowersMove.seat TowersMove.stores ht hg hs

end Requests

/-! ## Runs -/

section Runs

variable {D : Digest} {db : Db}

/-- What every event keeps, edits included. -/
structure TablesInv (db : Db) : Prop where
  seated : ∀ b ∈ db.bets.rows, AtSeat db b
  alone : RoundsAlone db

theorem tablesInv_event (h : TablesInv db) (D : Digest) : ∀ event, TablesInv (playEvent D db event)
  | .request fresh request =>
    have he := ends_serve D fresh request db
    ⟨atSeat_effect h.seated he (run_sessions rfl), h.alone.effect he⟩
  | .edit _ _ => ⟨h.seated, h.alone⟩

/-- After an event the offers stand exactly when it meets its condition. -/
theorem offersStand_event (h : TablesInv db) (hoffers : OffersStand db) (D : Digest) :
    ∀ event, OffersStand (playEvent D db event) ↔ event.Keeps db
  | .request fresh request => by
    have he := ends_serve D fresh request db
    exact iff_of_true (offersStand_effect hoffers h.seated he (run_games rfl) (run_sessions rfl)) trivial
  | .edit _ _ => offersStand_edit hoffers

theorem shownIsPaid_run (D : Digest) : ∀ {events : List PlayEvent} {db : Db}, TablesInv db → OffersStand db →
    ((∀ t ∈ playEvents D events db, ShownIsPaid t) ↔ EditsKeep D events db)
  | [], _, _, _ => ⟨fun _ => trivial, fun _ _ ht => nomatch ht⟩
  | event :: rest, db, h, hoffers => by
    have hafter := tablesInv_event h D event
    have hstep := (shownIsPaid_iff hafter.seated hafter.alone).trans (offersStand_event h hoffers D event)
    unfold playEvents EditsKeep
    rw [List.forall_mem_cons, hstep]
    refine and_congr_right fun hkeeps => ?_
    exact shownIsPaid_run D hafter ((offersStand_event h hoffers D event).2 hkeeps)

/-- **In every state of a run what is shown is paid, exactly when every edit of an edge leaves each open round that can
be resumed with the payout it is shown with.** -/
theorem shown_is_paid_iff (D : Digest) (events : List PlayEvent) (db : Db) (hnone : db.bets.rows = []) :
    (∀ t ∈ playEvents D events db, ShownIsPaid t) ↔ EditsKeep D events db := by
  have hno : ∀ b, b ∉ db.bets.rows := by
    rw [hnone]
    exact fun b hb => nomatch hb
  refine shownIsPaid_run D ⟨fun b hb => absurd hb (hno b), fun b hb => absurd hb (hno b)⟩ fun slug game bet hres => ?_
  obtain ⟨sessionId, session, -, hb⟩ := hres
  exact absurd hb.mem (hno bet)

end Runs

/-- A Mines round of $5 with one tile revealed. -/
def minesReveal : List PlayEvent := [
  .request (freshAt 1) (.startMines "u1" "s1" (some 5) (some 3)),
  .request (freshAt 2) (.revealMines "u1" "s1" "MIN-1" (some 20))]

/-- The edge of Mines is changed before anything is revealed, and that of another game after. -/
theorem shown_is_paid_iff_minesReveal :
    (∃ t ∈ playEvents zeroDigest (.edit "mines" (3 / 100) :: minesReveal ++ [.edit "towers" (1 / 2)]) (tableDb .mines),
      t.bets.rows.map (fun b => (b.status, b.revealed)) = [(.open, [20])]) ∧
    ((∀ t ∈ playEvents zeroDigest (.edit "mines" (3 / 100) :: minesReveal ++ [.edit "towers" (1 / 2)]) (tableDb .mines),
      ShownIsPaid t) ↔
      EditsKeep zeroDigest (.edit "mines" (3 / 100) :: minesReveal ++ [.edit "towers" (1 / 2)]) (tableDb .mines)) :=
  ⟨by decide +kernel, shown_is_paid_iff zeroDigest _ (tableDb .mines) rfl⟩

/-- A round that pays something else than its stake times the multiplier it is shown with. -/
theorem not_shownIsPaid {t : Db} {userId sessionId : Id} {fresh : Fresh} {betReference : String} {revealed : List Nat}
    {x : ℚ} {payout : Money}
    (hget : ((getOpenMines userId sessionId).run exec t).1.map (Option.map fun shown =>
      (shown.reference, shown.revealed, shown.multiplier)) = .ok (some (betReference, revealed, x)))
    (hcash : ((cashOutMines fresh userId sessionId betReference).run exec t).1.map MinesRoundState.payout =
      .ok (some payout))
    (hsome : revealed ≠ []) (hpaid : ∀ b ∈ t.bets.rows, roundMoney (b.stake.toRat * x) ≠ payout) :
    ¬ ShownIsPaid t := by
  intro h
  cases hrun : (getOpenMines userId sessionId).run exec t with
  | mk answer u =>
    rw [hrun] at hget
    rcases answer with e | (- | shown)
    · cases hget
    · cases hget
    cases hget
    obtain ⟨rfl, -⟩ := run_getOpenMines hrun
    obtain ⟨bet, hmem, -, -, hanswer⟩ := h.mines _ _ shown _ hrun hsome fresh
    cases hcashed : ((cashOutMines fresh userId sessionId shown.reference).run exec u).1 with
    | error e =>
      rw [hcashed] at hcash
      cases hcash
    | ok state =>
      rw [hcashed] at hcash
      have hstate := (Except.ok.inj hcash).symm.trans (hanswer state hcashed)
      exact hpaid bet hmem (Option.some.inj hstate).symm

/-- The edge of Mines goes from 2% to 50% under an open round: it is shown with 0.57, and pays 1.11 times its stake. -/
theorem shown_not_paid :
    (tableDb .mines).bets.rows = [] ∧
      ∃ t ∈ playEvents zeroDigest (minesReveal ++ [.edit "mines" (1 / 2)]) (tableDb .mines),
        ((getOpenMines "u1" "s1").run exec t).1.map (Option.map fun shown =>
          (shown.reference, shown.revealed, shown.multiplier)) = .ok (some ("MIN-1", [20], 57 / 100)) ∧
        ((cashOutMines (freshAt 3) "u1" "s1" "MIN-1").run exec t).1.map MinesRoundState.payout = .ok (some 555) ∧
        (∀ b ∈ t.bets.rows, roundMoney (b.stake.toRat * (57 / 100)) ≠ 555) ∧ ¬ ShownIsPaid t := by
  refine ⟨rfl, ?_⟩
  obtain ⟨t, ht, hget, hcash, hpaid⟩ :
      ∃ t ∈ playEvents zeroDigest (minesReveal ++ [.edit "mines" (1 / 2)]) (tableDb .mines),
        ((getOpenMines "u1" "s1").run exec t).1.map (Option.map fun shown =>
          (shown.reference, shown.revealed, shown.multiplier)) = .ok (some ("MIN-1", [20], 57 / 100)) ∧
        ((cashOutMines (freshAt 3) "u1" "s1" "MIN-1").run exec t).1.map MinesRoundState.payout = .ok (some 555) ∧
        ∀ b ∈ t.bets.rows, roundMoney (b.stake.toRat * (57 / 100)) ≠ 555 := by
    decide +kernel
  exact ⟨t, ht, hget, hcash, hpaid, not_shownIsPaid hget hcash (List.cons_ne_nil _ _) hpaid⟩

end Smink
