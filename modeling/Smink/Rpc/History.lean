import Smink.Play.Audit
import Smink.Rpc.Engine

/-!
# Do the two histories agree

A session has its history twice: `toSessionDto` builds it from the bets, and the engine sends the items of settled bets
to the session queue, from which the worker keeps a copy in its cache. `placeBet` sends what it has stored
(`post_placeBet_item`). The handlers of the grid games build the item by hand: a cash-out sends a won bet without its
stake, and a reveal that settles the round sends nothing. So the histories agree exactly in the runs that settle no grid
round (`histories_agree_iff`); `histories_differ` is one of the others.
-/

namespace Smink

open Store

/-! ## What is claimed -/

/-- The items of the jobs "history", with the sessions they are for. -/
def queuedHistory (sent : List FanoutCall) : List (Id × SessionHistoryItem) :=
  sent.filterMap fun
    | .queue .session "history" (.history sessionId item) => some (sessionId, item)
    | _ => none

/-- A command, with the draws of its handler. -/
structure Command where
  fresh : Fresh
  emission : Emission
  request : Request

/-- A command that has been handled. -/
structure HandledCommand where
  before : Db
  command : Command
  handled : EngineController.Handled

/-- The command is handled with all queues up. -/
def handleCommand (D : Digest) (command : Command) (db : Db) : HandledCommand :=
  { before := db
    command
    handled := EngineController.handle D command.fresh command.emission (fun _ => false) command.request db }

/-- Commands one after another. -/
def runCommands (D : Digest) : List Command → Db → List HandledCommand
  | [], _ => []
  | command :: rest, db =>
    let step := handleCommand D command db
    step :: runCommands D rest step.handled.after

/-- The command has settled the bet: it is settled, and was open before if it was there. -/
def HandledCommand.Settled (step : HandledCommand) (b : Bet) : Prop :=
  b.status ≠ .open ∧ ∀ a ∈ step.before.bets.rows, a.id = b.id → a.status = .open

/-- For each bet that the command has settled one item is sent, the one that the stored row gives, `settledAt` apart. -/
def HandledCommand.HistoriesAgree (step : HandledCommand) : Prop :=
  ∀ b ∈ step.handled.after.bets.rows, step.Settled b →
    (queuedHistory step.handled.sent).map (fun (sessionId, item) => (some sessionId, { item with settledAt := none })) =
      [(b.sessionId, { historyItem b with settledAt := none })]

instance (step : HandledCommand) (b : Bet) : Decidable (step.Settled b) := inferInstanceAs (Decidable (_ ∧ _))

instance (step : HandledCommand) : Decidable step.HistoriesAgree :=
  inferInstanceAs (Decidable (∀ b ∈ step.handled.after.bets.rows, step.Settled b → _))

/-! ## When it holds -/

/-- The request settles a grid round: it hits, clears the board, reaches the top, or cashes out. -/
inductive SettlesGrid (db : Db) : Request → Prop
  | hitMines {userId sessionId : Id} {betReference : String} {session : GameSession} {game : Game} {bet : Bet}
    (hat : AtTable db userId sessionId .mines session game) (hb : OpenRound db userId sessionId betReference bet)
    {value : Num} {tile : Nat} (htile : naturalNumber value = some tile) (hlt : tile < MINES_TILE_COUNT)
    (hnew : tile ∉ bet.revealed) (hmine : tile ∈ bet.minePositions.getD []) :
    SettlesGrid db (.revealMines userId sessionId betReference value)
  | clearMines {userId sessionId : Id} {betReference : String} {session : GameSession} {game : Game} {bet : Bet}
    (hat : AtTable db userId sessionId .mines session game) (hb : OpenRound db userId sessionId betReference bet)
    {value : Num} {tile : Nat} (htile : naturalNumber value = some tile) (hlt : tile < MINES_TILE_COUNT)
    (hnew : tile ∉ bet.revealed) (hsafe : tile ∉ bet.minePositions.getD [])
    (hfull : MINES_TILE_COUNT ≤ bet.revealed.length + 1 + bet.mineCount) :
    SettlesGrid db (.revealMines userId sessionId betReference value)
  | cashOutMines {userId sessionId : Id} {betReference : String} {session : GameSession} {game : Game} {bet : Bet}
    (hat : AtTable db userId sessionId .mines session game) (hb : OpenRound db userId sessionId betReference bet)
    (hsome : bet.revealed ≠ []) : SettlesGrid db (.cashOutMines userId sessionId betReference)
  | hitTowers {userId sessionId : Id} {betReference : String} {session : GameSession} {game : Game} {bet : Bet}
    (hat : AtTable db userId sessionId .towers session game) (hb : OpenRound db userId sessionId betReference bet)
    {value : Num} {tile : Nat} (htile : naturalNumber value = some tile) {difficulty : TowersDifficulty}
    (hd : bet.difficulty = some difficulty) (hlt : tile < (towersConfig difficulty).tiles)
    (hrow : bet.picks.length < (towersConfig difficulty).rows)
    (htrap : tile ∈ (bet.traps.getD []).getD bet.picks.length []) :
    SettlesGrid db (.revealTowers userId sessionId betReference value)
  | clearTowers {userId sessionId : Id} {betReference : String} {session : GameSession} {game : Game} {bet : Bet}
    (hat : AtTable db userId sessionId .towers session game) (hb : OpenRound db userId sessionId betReference bet)
    {value : Num} {tile : Nat} (htile : naturalNumber value = some tile) {difficulty : TowersDifficulty}
    (hd : bet.difficulty = some difficulty) (hlt : tile < (towersConfig difficulty).tiles)
    (hsafe : tile ∉ (bet.traps.getD []).getD bet.picks.length [])
    (hrow : bet.picks.length + 1 = (towersConfig difficulty).rows) :
    SettlesGrid db (.revealTowers userId sessionId betReference value)
  | cashOutTowers {userId sessionId : Id} {betReference : String} {session : GameSession} {game : Game} {bet : Bet}
    (hat : AtTable db userId sessionId .towers session game) (hb : OpenRound db userId sessionId betReference bet)
    (hsome : bet.picks ≠ []) : SettlesGrid db (.cashOutTowers userId sessionId betReference)

variable {D : Digest} {db t : Db} {fresh : Fresh} {emission : Emission} {userId sessionId : Id} {request : Request}
  {response : Response} {b bet bet' : Bet}

/-! ## What is sent -/

theorem queuedHistory_fanoutBet (settled : SettledBet) :
    queuedHistory (EngineController.fanoutBet emission userId settled).calls =
      [(settled.sessionId, EngineController.queuedItem settled)] := by
  rw [EngineController.calls_fanoutBet]
  split <;> split <;> rfl

/-- A cash-out sends its bet as won. -/
theorem won_of_cashout {routingKey : RoutingKey} {payload : EventPayload} {status : Prop} [Decidable status]
    {reference : String} {slug : GameSlug} {multiplier : ℚ} {payout balance : Option Money} {outcome : GameOutcome} :
    ∀ x ∈ queuedHistory (Fanout.calls (do
      EventsService.publish routingKey payload
      if status then
        EngineController.fanoutBet emission userId
          (EngineController.cashedOut emission reference sessionId slug multiplier payout balance outcome))),
      x.2.status = .won := by
  rw [calls_exchange]
  by_cases h : status
  · rw [if_pos h]
    change ∀ x ∈ queuedHistory (EngineController.fanoutBet emission userId _).calls, _
    rw [queuedHistory_fanoutBet, List.forall_mem_singleton]
    rfl
  · rw [if_neg h]
    exact fun x hx => nomatch hx

/-- What settles a grid round sends no item, or one of a bet that is won. -/
theorem SettlesGrid.items (h : SettlesGrid db request) :
    ∀ x ∈ queuedHistory (EngineController.fanout emission request response).calls, x.2.status = .won := by
  cases h with
  | cashOutMines =>
    cases response with
    | mines data => exact won_of_cashout
    | _ => exact fun x hx => nomatch hx
  | cashOutTowers =>
    cases response with
    | towers data => exact won_of_cashout
    | _ => exact fun x hx => nomatch hx
  | _ => cases response <;> exact fun x hx => nomatch hx

theorem handle_after (D : Digest) (fresh : Fresh) (emission : Emission) (fails : Target → Bool) (request : Request)
    (db : Db) : (EngineController.handle D fresh emission fails request db).after =
      ((serve D fresh request).run exec db).2 := by
  unfold EngineController.handle
  cases (serve D fresh request).run exec db with
  | mk result after =>
    cases result with
    | error e => rfl
    | ok response =>
      dsimp only
      split <;> rfl

theorem sent_ok {u : Db} (h : (serve D fresh request).run exec db = (.ok response, u)) :
    (EngineController.handle D fresh emission (fun _ => false) request db).sent =
      (EngineController.fanout emission request response).calls := by
  unfold EngineController.handle
  rw [h]
  dsimp only
  rw [run_fanout]
  cases Fanout.outcome (fun _ => false) (EngineController.fanout emission request response) <;> rfl

theorem sent_error {e : Fault} {u : Db} (h : (serve D fresh request).run exec db = (.error e, u)) :
    (EngineController.handle D fresh emission (fun _ => false) request db).sent = [] := by
  unfold EngineController.handle
  rw [h]

/-! ## What is settled -/

/-- A bet that was open and is not any more. -/
theorem HandledCommand.settled (step : HandledCommand) (h : Turned step.before step.handled.after bet bet')
    (hopen : bet.status = .open) (hdone : bet'.status ≠ .open) :
    bet' ∈ step.handled.after.bets.rows ∧ step.Settled bet' := by
  refine ⟨h.mem_iff.2 (.inl rfl), hdone, fun a ha hid => ?_⟩
  obtain rfl := bet_eq_of_id ha h.mem (hid.trans h.id_eq)
  exact hopen

/-- What settles a grid round leaves it lost or cashed out. -/
theorem SettlesGrid.ends (h : SettlesGrid db request) (D : Digest) (fresh : Fresh) :
    Prog.Ends exec (serve D fresh request) db fun _ t =>
      ∃ bet bet', bet.status = .open ∧ Turned db t bet bet' ∧ (bet'.status = .lost ∨ bet'.status = .cashedOut) := by
  cases h with
  | hitMines hat hb htile hlt hnew hmine =>
    refine ends_answer ((ends_revealMines_of hat hb htile hlt hnew).mono fun _ t ht => ?_)
    obtain ⟨bet', hturned, -, hhit, -⟩ := ht
    exact ⟨_, bet', hb.status, hturned, .inl (hhit hmine).1⟩
  | clearMines hat hb htile hlt hnew hsafe hfull =>
    refine ends_answer ((ends_revealMines_of hat hb htile hlt hnew).mono fun _ t ht => ?_)
    obtain ⟨bet', hturned, -, -, hclear⟩ := ht
    exact ⟨_, bet', hb.status, hturned, .inr (hclear hsafe hfull).1⟩
  | cashOutMines hat hb hsome =>
    refine ends_answer ((ends_cashOutMines_of hat hb hsome).mono fun _ t ht => ?_)
    exact ⟨_, _, hb.status, (turned_setBet hb.mem _).of_eq ht, .inr rfl⟩
  | hitTowers hat hb htile hd hlt hrow htrap =>
    refine ends_answer ((ends_revealTowers_of hat hb htile hd hlt hrow).mono fun _ t ht => ?_)
    obtain ⟨bet', hturned, -, hhit, -⟩ := ht
    exact ⟨_, bet', hb.status, hturned, .inl (hhit htrap).1⟩
  | clearTowers hat hb htile hd hlt hsafe hrow =>
    refine ends_answer ((ends_revealTowers_of hat hb htile hd hlt (by omega)).mono fun _ t ht => ?_)
    obtain ⟨bet', hturned, -, -, hclear⟩ := ht
    exact ⟨_, bet', hb.status, hturned, .inr (hclear hsafe hrow).1⟩
  | cashOutTowers hat hb hsome =>
    refine ends_answer ((ends_cashOutTowers_of hat hb hsome).mono fun _ t ht => ?_)
    exact ⟨_, _, hb.status, (turned_setBet hb.mem _).of_eq ht, .inr rfl⟩

/-- A Mines round that moves and stays open was not settled. -/
theorem MinesMove.open_or_settles {session : GameSession} {game : Game} {betReference : String} {value : Num}
    {tile : Nat} (hat : AtTable db userId sessionId .mines session game)
    (hb : OpenRound db userId sessionId betReference bet) (htile : naturalNumber value = some tile)
    (hmove : MinesMove game.houseEdge bet (some tile) bet') :
    bet'.status = .open ∨ SettlesGrid db (.revealMines userId sessionId betReference value) := by
  cases hmove with
  | hit now tile hlt hnew hmine => exact .inr (.hitMines hat hb htile hlt hnew hmine)
  | safe => exact .inl hb.status
  | clear now tile hlt hnew hsafe hfull => exact .inr (.clearMines hat hb htile hlt hnew hsafe hfull)

theorem TowersMove.open_or_settles {session : GameSession} {game : Game} {betReference : String} {value : Num}
    {tile : Nat} (hat : AtTable db userId sessionId .towers session game)
    (hb : OpenRound db userId sessionId betReference bet) (htile : naturalNumber value = some tile)
    (hmove : TowersMove game.houseEdge bet (some tile) bet') :
    bet'.status = .open ∨ SettlesGrid db (.revealTowers userId sessionId betReference value) := by
  cases hmove with
  | hit now difficulty hd tile hlt hrow htrap => exact .inr (.hitTowers hat hb htile hd hlt hrow htrap)
  | safe => exact .inl hb.status
  | clear now difficulty hd tile hlt hsafe hrow => exact .inr (.clearTowers hat hb htile hd hlt hsafe hrow)

/-! ## What `placeBet` stores and sends -/

/-- An item without its time. -/
def SessionHistoryItem.untimed (item : SessionHistoryItem) : SessionHistoryItem := { item with settledAt := none }

theorem BetAnswered.item_eq {settled : SettledBet} (h : BetAnswered settled b) (hcent : CentCap settled.multiplier) :
    (historyItem b).untimed = (EngineController.queuedItem settled).untimed := by
  have hwon : decide (b.status = .won ∨ b.status = .cashedOut) = settled.won := by
    rw [h.status_eq]
    cases settled.won <;> rfl
  unfold historyItem EngineController.queuedItem SessionHistoryItem.untimed
  rw [hwon, h.reference_eq, h.stake_eq, h.multiplier_eq, hcent.toFixed, h.payout_eq, h.status_eq, h.outcome_eq]

/-- The caps of the games and of the control rows have two decimals. -/
structure CapsInCents (db : Db) : Prop where
  games : ∀ game ∈ db.games.rows, CentCap game.maxMultiplier
  controls : CentCaps db

/-- A bet that is placed is sent as it is stored, `settledAt` apart. -/
theorem post_placed (hcents : CapsInCents db) (slug : GameSlug) (stakeInput : Num) (selectionInput : RawSelection) :
    Prog.Post exec (serve D fresh (.placeBet userId sessionId slug stakeInput selectionInput)) db fun r t =>
      t.bets = db.bets ∨ ∃ settled b, r = .ok (.settled settled) ∧ db.bets.insert b = some t.bets ∧
        b.sessionId = some settled.sessionId ∧
          (historyItem b).untimed = (EngineController.queuedItem settled).untimed := by
  refine Prog.post_bind ((post_placeBet slug stakeInput selectionInput).mono fun r t ht => ?_)
  rcases ht with ⟨hbets, -⟩ | ⟨settled, b, rfl, hins, -, hanswer, game, hgame, _, _, _, raw, hraw, hmultiplier⟩
  · cases r <;> exact .inl hbets
  · refine .inr ⟨settled, b, rfl, hins, hanswer.sessionId_eq, hanswer.item_eq ?_⟩
    rw [hmultiplier]
    exact cent_capped hcents.controls (resolveRound_cent (hcents.games game hgame) hraw)

/-! ## One command -/

/-- A request that adds an open bet, or none, and closes none has settled nothing. -/
theorem agrees_of_none {step : HandledCommand}
    (h : ∀ b ∈ step.handled.after.bets.rows, b ∈ step.before.bets.rows ∨ b.status = .open) : step.HistoriesAgree := by
  intro b hb hsettled
  rcases h b hb with hold | hopen
  · exact absurd (hsettled.2 b hold rfl) hsettled.1
  · exact absurd hopen hsettled.1

theorem agrees_of_turned {step : HandledCommand} (h : Turned step.before step.handled.after bet bet')
    (hopen : bet'.status = .open) : step.HistoriesAgree := by
  refine agrees_of_none fun b hb => ?_
  rcases h.mem_iff.1 hb with rfl | ⟨hold, -⟩
  · exact .inr hopen
  · exact .inl hold

theorem agrees_of_insert {step : HandledCommand} (h : step.before.bets.insert b = some step.handled.after.bets)
    (hopen : b.status = .open) : step.HistoriesAgree := by
  refine agrees_of_none fun a ha => ?_
  rw [Table.rows_insert h] at ha
  rcases List.mem_append.1 ha with hold | hnew
  · exact .inl hold
  · exact .inr (List.mem_singleton.1 hnew ▸ hopen)

theorem agrees_of_placed {slug : GameSlug} {stakeInput : Num} {selectionInput : RawSelection}
    (hcents : CapsInCents db)
    (hc : (serve D fresh (.placeBet userId sessionId slug stakeInput selectionInput)).Completes exec db) :
    (handleCommand D ⟨fresh, emission, .placeBet userId sessionId slug stakeInput selectionInput⟩
      db).HistoriesAgree := by
  rcases (post_placed hcents slug stakeInput selectionInput).run hc with hbets | ⟨settled, b, hr, hins, hsession, hitem⟩
  · rw [← handle_after D fresh emission fun _ => false] at hbets
    exact agrees_of_none fun a ha => .inl (hbets ▸ ha)
  · intro a ha hsettled
    rw [← handle_after D fresh emission fun _ => false] at hins
    have hplaced := Table.rows_insert hins ▸ ha
    rcases List.mem_append.1 hplaced with hold | hnew
    · exact absurd (hsettled.2 a hold rfl) hsettled.1
    · obtain rfl := List.mem_singleton.1 hnew
      rw [handleCommand, sent_ok (Prod.ext hr rfl)]
      change (queuedHistory (EngineController.fanoutBet emission userId settled).calls).map _ = _
      rw [queuedHistory_fanoutBet, hsession]
      exact congrArg (fun item => [(some settled.sessionId, item)]) hitem.symm

/-- **A command keeps the histories in agreement exactly when it settles no grid round.** -/
theorem historiesAgree_iff {command : Command} (hcents : CapsInCents db)
    (hc : (serve D command.fresh command.request).Completes exec db) :
    (handleCommand D command db).HistoriesAgree ↔ ¬ SettlesGrid db command.request := by
  have hafter : (handleCommand D command db).handled.after =
      ((serve D command.fresh command.request).run exec db).2 := handle_after ..
  constructor
  · intro hagree hsettles
    obtain ⟨bet, bet', hopen, hturned, hstatus⟩ := hsettles.ends D command.fresh
    rw [← hafter] at hturned
    obtain ⟨hmem, hsettled⟩ := (handleCommand D command db).settled hturned hopen
      (by rcases hstatus with h | h <;> rw [h] <;> decide)
    have hqueue := hagree bet' hmem hsettled
    have hwon : ∀ x ∈ queuedHistory (handleCommand D command db).handled.sent, x.2.status = .won := by
      cases hrun : (serve D command.fresh command.request).run exec db with
      | mk result u =>
        cases result with
        | error e =>
          rw [handleCommand, sent_error hrun]
          exact fun x hx => nomatch hx
        | ok response =>
          rw [handleCommand, sent_ok hrun]
          exact hsettles.items
    obtain ⟨x, hx, heq⟩ := List.mem_map.1 (hqueue ▸ List.mem_singleton_self _)
    have hitem : x.2.status = bet'.status := congrArg (fun y => y.2.status) heq
    rw [hwon x hx] at hitem
    rcases hstatus with h | h <;> rw [h] at hitem <;> cases hitem
  · intro hnot
    obtain ⟨fresh, emission, request⟩ := command
    have heffect : BetEffect D db (handleCommand D ⟨fresh, emission, request⟩ db).handled.after request :=
      hafter ▸ ends_serve D fresh request db
    cases heffect with
    | same _ hb => exact agrees_of_none fun b hmem => .inl (hb ▸ hmem)
    | placed hp => exact agrees_of_placed hcents hc
    | openedMines ho =>
      obtain ⟨_, _, _, _, hopened, hins⟩ := ho
      exact agrees_of_insert hins hopened.status_eq
    | openedTowers ho =>
      obtain ⟨_, _, _, _, hopened, hins⟩ := ho
      exact agrees_of_insert hins hopened.status_eq
    | shownMines htile hm =>
      obtain ⟨_, _, _, _, hat, hb, hturned, hmove⟩ := hm
      exact agrees_of_turned hturned ((hmove.open_or_settles hat hb htile).resolve_right hnot)
    | cashedOutMines hm =>
      obtain ⟨_, _, _, _, hat, hb, -, hmove⟩ := hm
      cases hmove with
      | cashOut _ hsome => exact absurd (.cashOutMines hat hb hsome) hnot
    | shownTowers htile hm =>
      obtain ⟨_, _, _, _, hat, hb, hturned, hmove⟩ := hm
      exact agrees_of_turned hturned ((hmove.open_or_settles hat hb htile).resolve_right hnot)
    | cashedOutTowers hm =>
      obtain ⟨_, _, _, _, hat, hb, -, hmove⟩ := hm
      cases hmove with
      | cashOut _ hsome => exact absurd (.cashOutTowers hat hb hsome) hnot

/-! ## Runs -/

theorem run_capsInCents (h : CapsInCents db) : CapsInCents ((serve D fresh request).run exec db).2 := by
  have hgames : ((serve D fresh request).run exec db).2.games = db.games := run_games rfl
  exact ⟨by rw [hgames]; exact h.games, run_centCaps rfl h.controls⟩

/-- Each command that is handled finds the caps as they were, and completes. -/
theorem runCommands_found : ∀ {commands : List Command} {db : Db}, CapsInCents db →
    CompletesAll D (commands.map fun command => (command.fresh, command.request)) db →
    ∀ step ∈ runCommands D commands db, step = handleCommand D step.command step.before ∧ CapsInCents step.before ∧
      (serve D step.command.fresh step.command.request).Completes exec step.before
  | [], _, _, _, _, hstep => nomatch hstep
  | command :: rest, db, hcents, ⟨hc, hrest⟩, step, hstep => by
    rcases List.mem_cons.1 hstep with rfl | hstep
    · exact ⟨rfl, hcents, hc⟩
    · have hafter : (handleCommand D command db).handled.after =
          ((serve D command.fresh command.request).run exec db).2 := handle_after ..
      rw [hafter] at hstep
      exact runCommands_found (run_capsInCents hcents) hrest step hstep

/-- **The two histories agree exactly in the runs that settle no grid round.** -/
theorem histories_agree_iff (D : Digest) (commands : List Command) (db : Db) (hcents : CapsInCents db)
    (hc : CompletesAll D (commands.map fun command => (command.fresh, command.request)) db) :
    (∀ step ∈ runCommands D commands db, step.HistoriesAgree) ↔
      ∀ step ∈ runCommands D commands db, ¬ SettlesGrid step.before step.command.request := by
  refine forall₂_congr fun step hstep => ?_
  obtain ⟨heq, hfound, hcomplete⟩ := runCommands_found hcents hc step hstep
  rw [heq]
  exact historiesAgree_iff hfound hcomplete

theorem tableDb_capsInCents (slug : GameSlug) : CapsInCents (tableDb slug) :=
  ⟨catalogue_cents, fun _ hrow => nomatch hrow⟩

/-- A Plinko drop of $5. -/
def plinkoCommands : List Command :=
  [{ fresh := freshAt 1
     emission := { eventId := "e1", now := 1 }
     request := .placeBet "u1" "s1" .plinko (some 5) { risk := "low", rows := some 8 } }]

theorem histories_agree_iff_plinko :
    (∀ step ∈ runCommands zeroDigest plinkoCommands (tableDb .plinko), step.HistoriesAgree) ∧
      ∃ step ∈ runCommands zeroDigest plinkoCommands (tableDb .plinko),
        (queuedHistory step.handled.sent).map (fun (_, item) => item.reference) = ["BET-1"] := by
  refine ⟨(histories_agree_iff zeroDigest plinkoCommands (tableDb .plinko) (tableDb_capsInCents .plinko)
    (by decide +kernel)).2 fun step hstep hsettles => ?_, by decide +kernel⟩
  obtain rfl := List.mem_singleton.1 hstep
  cases hsettles

/-- Two Mines rounds of $5: one is cashed out, one hits a mine. -/
def minesCommands : List Command :=
  let command (n : Nat) (request : Request) : Command :=
    { fresh := freshAt n, emission := { eventId := "e", now := n }, request }
  [command 1 (.startMines "u1" "s1" (some 5) (some 3)),
    command 2 (.revealMines "u1" "s1" "MIN-1" (some 20)),
    command 3 (.cashOutMines "u1" "s1" "MIN-1"),
    command 4 (.startMines "u1" "s1" (some 5) (some 3)),
    command 5 (.revealMines "u1" "s1" "MIN-4" (some 1))]

/-- The cash-out is sent as won, with no stake; the round that hits is not sent. -/
theorem histories_differ :
    (∃ step ∈ runCommands zeroDigest minesCommands (tableDb .mines), ∃ b ∈ step.handled.after.bets.rows,
      step.Settled b ∧ b.reference = "MIN-1" ∧ b.status = .cashedOut ∧ b.stake = 500 ∧
        (queuedHistory step.handled.sent).map (fun (_, item) => (item.reference, item.status, item.stake)) =
          [("MIN-1", .won, 0)]) ∧
      (∃ step ∈ runCommands zeroDigest minesCommands (tableDb .mines), ∃ b ∈ step.handled.after.bets.rows,
        step.Settled b ∧ b.reference = "MIN-4" ∧ b.status = .lost ∧ queuedHistory step.handled.sent = []) ∧
      ¬ ∀ step ∈ runCommands zeroDigest minesCommands (tableDb .mines), step.HistoriesAgree := by
  decide +kernel

end Smink
