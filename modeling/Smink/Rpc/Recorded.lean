import Smink.Play.Seated
import Smink.Rpc.Net

/-!
# What an answer is about

What PlayService answers with and what the handlers fan out names bets and sessions, of players. What is named is in the
database when the answer is there, under that player and in that session (`recorded_serve`), and nothing takes it away
again (`Recorded`). A bet that pays goes with the ledger row of its payout (`Won`); only rows of deposits are updated,
so that row stays as it is. What a handler sends is about the same (`fanout_truthful`).
-/

namespace Smink

open Store

/-! ## Names of bets and sessions -/

/-- A bet of the user in the session has the reference. -/
def BetOf (db : Db) (userId sessionId : Id) (reference : String) : Prop :=
  ∃ b ∈ db.bets.rows, b.userId = userId ∧ b.sessionId = some sessionId ∧ b.reference = reference

/-- The payout is due for the bet with the reference: the game is the one of the bet's session, and the payout is the
bet's stake times the multiplier, in cents. -/
structure Due (db : Db) (userId sessionId : Id) (reference : String) (gameSlug : GameSlug) (payout : Money)
    (multiplier : ℚ) : Prop where
  seat : ∃ session game, OpenSession db userId sessionId gameSlug session game
  bet : ∃ b ∈ db.bets.rows, b.userId = userId ∧ b.sessionId = some sessionId ∧ b.reference = reference ∧
    payout = roundMoney (b.stake.toRat * multiplier)

/-- The ledger has paid it. -/
structure Won (db : Db) (userId sessionId : Id) (reference : String) (gameSlug : GameSlug) (payout : Money)
    (multiplier : ℚ) : Prop extends Due db userId sessionId reference gameSlug payout multiplier where
  paid : ∃ r ∈ db.sminkTransactions.rows, r.type = .payout ∧ r.userId = userId ∧
    r.metadata.betReference = some reference ∧ r.amount = payout

/-- A bet of the user is there, and it is won if it pays. -/
def Accounted (db : Db) (userId sessionId : Id) (reference : String) (gameSlug : GameSlug) (payout : Money)
    (multiplier : ℚ) : Prop :=
  BetOf db userId sessionId reference ∧ (0 < payout → Won db userId sessionId reference gameSlug payout multiplier)

/-- Nothing that is named in the first database is missing in the second. -/
structure Recorded (db t : Db) : Prop where
  sessions : SessionsPersist db t
  games : t.games = db.games
  bets : ∀ b ∈ db.bets.rows, ∃ b' ∈ t.bets.rows,
    b'.userId = b.userId ∧ b'.sessionId = b.sessionId ∧ b'.reference = b.reference ∧ b'.stake = b.stake
  types : TypesPersist db t
  payouts : ∀ r ∈ db.sminkTransactions.rows, r.type = .payout → r ∈ t.sminkTransactions.rows

def SettledBet.Truthful (db : Db) (userId : Id) (settled : SettledBet) : Prop :=
  Accounted db userId settled.sessionId settled.reference settled.gameSlug settled.payout settled.multiplier

/-- What the payload names is of the user, and in the session. -/
def UpdatePayload.About (db : Db) (userId sessionId : Id) : UpdatePayload → Prop
  | .bet settled => settled.sessionId = sessionId ∧ settled.Truthful db userId
  | .mines round => round.sessionId = sessionId ∧ BetOf db userId sessionId round.reference
  | .towers round => round.sessionId = sessionId ∧ BetOf db userId sessionId round.reference
  | .session data => data.id = sessionId ∧ OwnsSession db userId sessionId ∧
    ∀ item ∈ data.history, ∃ player, BetOf db player sessionId item.reference

/-- The answer is about a bet or a session of the player who has asked; a cash-out is about a bet that is won. -/
def Response.Truthful (db : Db) : Request → Response → Prop
  | .startSession userId _, .session data => (UpdatePayload.session data).About db userId data.id
  | .placeBet userId sessionId _ _ _, .settled bet => (UpdatePayload.bet bet).About db userId sessionId
  | .revealMines userId sessionId _ _, .mines round => (UpdatePayload.mines round).About db userId sessionId
  | .cashOutMines userId sessionId _, .mines round => (UpdatePayload.mines round).About db userId sessionId ∧
    Won db userId sessionId round.reference .mines (round.payout.getD 0) round.multiplier
  | .revealTowers userId sessionId _ _, .towers round => (UpdatePayload.towers round).About db userId sessionId
  | .cashOutTowers userId sessionId _, .towers round => (UpdatePayload.towers round).About db userId sessionId ∧
    Won db userId sessionId round.reference .towers (round.payout.getD 0) round.multiplier
  | _, _ => True

/-- A message is on the channel of the player it is about, or of the session; a live win is in the lobby. -/
def Message.Truthful (db : Db) (message : Message) : Prop :=
  match message.payload with
  | .update payload => ∃ userId sessionId, payload.About db userId sessionId ∧
    (message.channel = channels.user userId ∨ message.channel = channels.session sessionId)
  | .liveWin gameSlug payout multiplier winner => message.channel = channels.lobby ∧ 0 < payout ∧
    ∃ userId sessionId reference, Won db userId sessionId reference gameSlug payout multiplier ∧
      ∀ named ∈ winner, named = userId

/-- The event is about a bet of the player that it names. -/
def BetSettledEvent.Truthful (db : Db) (event : BetSettledEvent) : Prop :=
  Accounted db event.userId event.sessionId event.betReference event.gameSlug event.payout event.multiplier

def FanoutCall.Truthful (db : Db) : FanoutCall → Prop
  | .channel name event payload => Message.Truthful db ⟨name, event, payload.published⟩
  | .exchange _ (.bet event) => event.Truthful db
  | .queue .realtime _ (.update userId sessionId _ payload) => payload.About db userId sessionId
  | _ => True

section Recorded

variable {db t u : Db} {userId sessionId : Id} {reference : String} {gameSlug : GameSlug} {payout : Money}
  {multiplier : ℚ}

theorem Recorded.refl (db : Db) : Recorded db db where
  sessions := .of_eq rfl
  games := rfl
  bets b hb := ⟨b, hb, rfl, rfl, rfl, rfl⟩
  types := .of_eq rfl
  payouts _ hr _ := hr

theorem Recorded.trans (h : Recorded db t) (h' : Recorded t u) : Recorded db u where
  sessions := h.sessions.trans h'.sessions
  games := h'.games.trans h.games
  bets b hb := by
    obtain ⟨b', hb', huser, hses, href, hstake⟩ := h.bets b hb
    obtain ⟨b'', hb'', huser', hses', href', hstake'⟩ := h'.bets b' hb'
    exact ⟨b'', hb'', huser'.trans huser, hses'.trans hses, href'.trans href, hstake'.trans hstake⟩
  types := h.types.trans h'.types
  payouts r hr htype := h'.payouts r (h.payouts r hr htype) htype

/-- The statement updates no ledger rows but those of deposits. -/
def Stmt.UpdatesDeposits (db : Db) : Stmt → Prop
  | .updateTransaction p _ => ∀ r ∈ db.sminkTransactions.rows, p r = true → r.type = .deposit
  | _ => True

theorem exec_payouts {q : Stmt} (hq : q.UpdatesDeposits db) {resp : q.Resp} (h : exec q db = .ok (resp, t)) :
    ∀ r ∈ db.sminkTransactions.rows, r.type = .payout → r ∈ t.sminkTransactions.rows := by
  intro r hr htype
  cases q with
  | updateTransaction p set =>
    cases h
    refine Table.mem_update.2 ⟨r, hr, Table.updateRow_neg ?_⟩
    by_contra hp
    have hdeposit := hq r hr (by simpa using hp)
    rw [htype] at hdeposit
    cases hdeposit
  | insertTransactions rs =>
    obtain ⟨ledger, hins, he⟩ := orThrow_ok h
    cases he
    rw [Table.rows_insertAll hins]
    exact List.mem_append_left _ hr
  | insertWallet userId =>
    have hframe := exec_insertWallet_frame h
    rw [hframe]
    exact hr
  | insertSession s => obtain ⟨u, -, he⟩ := orThrow_ok h; cases he; exact hr
  | insertBet b => obtain ⟨u, -, he⟩ := orThrow_ok h; cases he; exact hr
  | _ => cases h; exact hr

/-- No statement takes a bet away, or gives it to somebody else. -/
theorem exec_bets {q : Stmt} {resp : q.Resp} (h : exec q db = .ok (resp, t)) : ∀ b ∈ db.bets.rows, ∃ b' ∈ t.bets.rows,
    b'.userId = b.userId ∧ b'.sessionId = b.sessionId ∧ b'.reference = b.reference ∧ b'.stake = b.stake := by
  intro b hb
  cases q with
  | insertBet a =>
    obtain ⟨bets, hbets, he⟩ := orThrow_ok h
    cases he
    refine ⟨b, ?_, rfl, rfl, rfl, rfl⟩
    rw [Table.rows_insert hbets]
    exact List.mem_append_left _ hb
  | updateBet p set =>
    cases h
    refine ⟨_, Table.mem_update.2 ⟨b, hb, rfl⟩, ?_⟩
    unfold Table.updateRow
    split <;> exact ⟨rfl, rfl, rfl, rfl⟩
  | _ =>
    refine ⟨b, ?_, rfl, rfl, rfl, rfl⟩
    rw [exec_sparesBets rfl h]
    exact hb

theorem exec_recorded {q : Stmt} (hq : q.UpdatesDeposits db) {resp : q.Resp} (h : exec q db = .ok (resp, t)) :
    Recorded db t where
  sessions := exec_sessions h
  games := exec_games h
  bets := exec_bets h
  types := exec_types h
  payouts := exec_payouts hq h

theorem BetOf.persist (h : BetOf db userId sessionId reference) (hr : Recorded db t) :
    BetOf t userId sessionId reference := by
  obtain ⟨b, hb, huser, hses, href⟩ := h
  obtain ⟨b', hb', huser', hses', href', -⟩ := hr.bets b hb
  exact ⟨b', hb', huser'.trans huser, hses'.trans hses, href'.trans href⟩

/-- The user has a seat at the game as long as the session is there. -/
theorem seat_persist (h : ∃ session game, OpenSession db userId sessionId gameSlug session game)
    (hr : Recorded db t) : ∃ session game, OpenSession t userId sessionId gameSlug session game := by
  obtain ⟨session, game, h⟩ := h
  obtain ⟨s, hs, hid, huser, hgame, -⟩ := hr.sessions session h.session_mem
  exact ⟨s, game, hs, hid.trans h.session_id, huser.trans h.session_user, hr.games ▸ h.game_mem,
    h.game_id.trans hgame.symm, h.game_slug⟩

theorem Due.betOf (h : Due db userId sessionId reference gameSlug payout multiplier) :
    BetOf db userId sessionId reference := by
  obtain ⟨b, hb, huser, hses, href, -⟩ := h.bet
  exact ⟨b, hb, huser, hses, href⟩

theorem Due.persist (h : Due db userId sessionId reference gameSlug payout multiplier) (hr : Recorded db t) :
    Due t userId sessionId reference gameSlug payout multiplier := by
  obtain ⟨b, hb, huser, hses, href, hpayout⟩ := h.bet
  obtain ⟨b', hb', huser', hses', href', hstake⟩ := hr.bets b hb
  exact ⟨seat_persist h.seat hr,
    ⟨b', hb', huser'.trans huser, hses'.trans hses, href'.trans href, hstake ▸ hpayout⟩⟩

theorem Won.persist (h : Won db userId sessionId reference gameSlug payout multiplier) (hr : Recorded db t) :
    Won t userId sessionId reference gameSlug payout multiplier := by
  obtain ⟨r, hrow, htype, hpaid⟩ := h.paid
  exact ⟨h.toDue.persist hr, ⟨r, hr.payouts r hrow htype, htype, hpaid⟩⟩

theorem Accounted.persist (h : Accounted db userId sessionId reference gameSlug payout multiplier)
    (hr : Recorded db t) : Accounted t userId sessionId reference gameSlug payout multiplier :=
  ⟨h.1.persist hr, fun hpos => (h.2 hpos).persist hr⟩

theorem UpdatePayload.About.persist {payload : UpdatePayload} (h : payload.About db userId sessionId)
    (hr : Recorded db t) : payload.About t userId sessionId := by
  cases payload with
  | bet settled => exact ⟨h.1, Accounted.persist h.2 hr⟩
  | mines round => exact ⟨h.1, h.2.persist hr⟩
  | towers round => exact ⟨h.1, h.2.persist hr⟩
  | session data =>
    obtain ⟨hid, howns, hitems⟩ := h
    refine ⟨hid, howns.persist hr.sessions, fun item hitem => ?_⟩
    obtain ⟨player, hb⟩ := hitems item hitem
    exact ⟨player, hb.persist hr⟩

theorem Message.Truthful.persist {message : Message} (h : message.Truthful db) (hr : Recorded db t) :
    message.Truthful t := by
  obtain ⟨channel, event, payload⟩ := message
  cases payload with
  | update payload =>
    obtain ⟨userId, sessionId, habout, hchannel⟩ := h
    exact ⟨userId, sessionId, habout.persist hr, hchannel⟩
  | liveWin gameSlug payout multiplier winner =>
    obtain ⟨hlobby, hpayout, userId, sessionId, reference, hwon, hwinner⟩ := h
    exact ⟨hlobby, hpayout, userId, sessionId, reference, hwon.persist hr, hwinner⟩

theorem FanoutCall.Truthful.persist {call : FanoutCall} (h : call.Truthful db) (hr : Recorded db t) :
    call.Truthful t := by
  cases call with
  | channel name event payload => exact Message.Truthful.persist h hr
  | exchange routingKey payload =>
    cases payload with
    | bet event => exact Accounted.persist h hr
    | _ => trivial
  | queue bull name job =>
    cases bull with
    | session => cases job <;> trivial
    | realtime =>
      cases job with
      | update userId sessionId event payload => exact UpdatePayload.About.persist h hr
      | _ => trivial

/-- A round of the user that is open. -/
theorem OpenRound.betOf {bet : Bet} (h : OpenRound db userId sessionId reference bet) :
    BetOf db userId sessionId reference :=
  ⟨bet, h.mem, h.user, h.session, h.reference⟩

end Recorded

/-! ## PlayService -/

/-- Nothing is held; a step updates no ledger rows but those of deposits. -/
def recordDiscipline : Discipline Call Stmt Db Unit where
  inv _ _ := True
  rely w v := Recorded w.store v.store
  rely_refl w := .refl w.store
  rely_trans := .trans
  ok w _ q := q.UpdatesDeposits w.store

section Play

variable {D : Digest} {i : Call} {w : World Call Stmt Db} {fresh : Fresh} {userId sessionId : Id} {α β : Type}
  {Q : β → Db → Prop}

/-- The result and the database are in the relation where the program returns. -/
def Records (i : Call) (p : Sql α) (w : World Call Stmt Db) (Q : α → Db → Prop) : Prop :=
  Safe recordDiscipline exec i p w 0 fun a v _ => Q a v.store

theorem reads_all (p : Sql α) : Reads (fun _ => true) p := by
  induction p with
  | ret a => trivial
  | throw e => trivial
  | stmt q k ih => exact ⟨rfl, ih⟩

/-- What has been recorded stays so to the end of any program. -/
theorem records_any (p : Sql α) : Records i p w fun _ t => Recorded w.store t := by
  have hall : Respects recordDiscipline exec fun _ => true := fun _ _ _ _ _ _ _ _ hok hr =>
    ⟨exec_recorded hok hr, trivial⟩
  exact (safe_of_respects hall (reads_all p)).mono fun _ _ _ h => h.1

/-- What a program returns, and what has been recorded before it. -/
theorem records_rest {P : α → Prop} {F : Db → Prop} (hF : F w.store) (hstable : ∀ db t, F db → Recorded db t → F t)
    {p : Sql α} (hp : p.Returns P) : Records i p w fun a t => P a ∧ F t :=
  ((records_any p).returns hp).mono fun _ _ _ h => ⟨h.1, hstable _ _ hF h.2⟩

theorem records_bind {p : Sql α} {f : α → Sql β} (hf : ∀ a v, Records i (f a) v Q) : Records i (p >>= f) w Q :=
  safe_bind ((records_any p).mono fun a v _ _ => hf a v)

/-- The rest of a program, with what has been recorded before. -/
theorem records_bind_stable {F : Db → Prop} (hF : F w.store) (hstable : ∀ db t, F db → Recorded db t → F t) {p : Sql α}
    {f : α → Sql β} (hf : ∀ a v, F v.store → Records i (f a) v Q) : Records i (p >>= f) w Q :=
  safe_bind ((records_any p).mono fun a v _ h => hf a v (hstable _ _ hF h))

theorem records_then {P : α → Db → Prop} {p : Sql α} {f : α → Sql β} (hp : Records i p w P)
    (hf : ∀ a v, P a v.store → Records i (f a) v Q) : Records i (p >>= f) w Q :=
  safe_bind (hp.mono fun a v _ h => hf a v h)

theorem records_map {p : Sql α} {f : α → β} (hp : Records i p w fun a t => Q (f a) t) :
    Records i (p >>= fun a => Prog.ret (f a)) w Q :=
  safe_bind (hp.mono fun _ _ _ h => h)

theorem record_free : ReadFree recordDiscipline Stmt.isRead := fun _ _ _ _ _ _ => ⟨.refl _, trivial⟩

/-- The check that finds the session. -/
theorem records_requireOpenSession {slug : GameSlug} {f : GameSession × Game → Sql β}
    (hf : ∀ session game v, OpenSession v.store userId sessionId slug session game →
      Records i (f (session, game)) v Q) :
    Records i (requireOpenSession userId sessionId slug >>= f) w Q :=
  safe_bind (safe_oneRead readOnly record_free (oneRead_requireOpenSession ..) fun v ⟨session, game⟩ _ _ _ hr =>
    hf session game v (run_requireOpenSession hr))

/-- The bet is there once it is inserted. -/
theorem records_insertBet {b : Bet} {f : Unit → Sql β}
    (hf : ∀ v, Recorded w.store v.store → b ∈ v.store.bets.rows → Records i (f ()) v Q) :
    Records i (perform (.insertBet b) >>= f) w Q := by
  intro v hv frame _ hok r t hr
  have hrecorded : Recorded v.store t := exec_recorded (q := .insertBet b) hok hr
  obtain ⟨bets, hins, he⟩ := orThrow_ok hr
  cases he
  exact ⟨hrecorded, 0, trivial, hf _ (hv.trans hrecorded) (Table.mem_of_insert hins)⟩

/-- The ledger rows of a payout that is due. -/
theorem records_pay {gameSlug : GameSlug} {payout : Money} {multiplier : ℚ} {rs : List SminkTransaction}
    {betReference : String} (hdue : Due w.store userId sessionId betReference gameSlug payout multiplier)
    (hrow : ∃ r ∈ rs, r.type = .payout ∧ r.userId = userId ∧ r.metadata.betReference = some betReference ∧
      r.amount = payout) :
    Records i (perform (.insertTransactions rs)) w fun _ t =>
      Won t userId sessionId betReference gameSlug payout multiplier := by
  intro v hv frame _ hok resp t hr
  have hrecorded : Recorded v.store t := exec_recorded (q := .insertTransactions rs) hok hr
  refine ⟨hrecorded, 0, trivial, (hdue.persist hv).persist hrecorded, ?_⟩
  obtain ⟨ledger, hins, he⟩ := orThrow_ok hr
  cases he
  obtain ⟨r, hmem, hpaid⟩ := hrow
  refine ⟨r, ?_, hpaid⟩
  show r ∈ ledger.rows
  rw [Table.rows_insertAll hins]
  exact List.mem_append_right _ hmem

/-- A round that is paid out is won. -/
theorem records_payOut {slug : GameSlug} {betReference : String} {bet : Bet}
    (hdue : Due w.store userId sessionId betReference slug (cashOutPayout bet) bet.multiplier) :
    Records i (payOut fresh slug userId sessionId betReference bet) w fun _ t =>
      Won t userId sessionId betReference slug (cashOutPayout bet) bet.multiplier := by
  refine records_bind_stable hdue (fun _ _ => Due.persist) (p := ask _) fun wallets v hdue => ?_
  refine records_bind_stable hdue (fun _ _ => Due.persist) (p := perform _) fun _ v hdue => ?_
  refine records_then (records_pay hdue ⟨_, List.mem_singleton_self _, rfl, rfl, rfl, rfl⟩) fun _ v hwon => ?_
  refine records_bind_stable hwon (fun _ _ => Won.persist) (p := bumpSession _ _ _) fun _ v hwon => ?_
  exact hwon

/-- The check that finds the round. -/
theorem records_findRound {betReference : String} {P : β → Prop} {f : Bet → Sql β} (hf : ∀ bet, (f bet).Returns P) :
    Records i (findRound userId sessionId betReference >>= f) w fun b t =>
      P b ∧ BetOf t userId sessionId betReference := by
  refine safe_bind (safe_oneRead readOnly record_free (oneRead_findRound ..) fun v bet _ _ _ hr => ?_)
  exact records_rest (F := fun t => BetOf t userId sessionId betReference) (run_findRound hr).betOf
    (fun _ _ => BetOf.persist) (hf bet)

/-- The round that is answered with is the one that was asked for. -/
def IsRound (sessionId : Id) (betReference : String) (sid : Id) (reference : String) : Prop :=
  sid = sessionId ∧ reference = betReference

theorem returns_cashOutMines_round (betReference : String) :
    Prog.Returns (fun round : MinesRoundState => IsRound sessionId betReference round.sessionId round.reference)
      (cashOutMines fresh userId sessionId betReference) := by
  refine Prog.returns_bind fun _ => Prog.returns_bind fun bet => ?_
  split
  · trivial
  · exact Prog.returns_bind fun balance => ⟨rfl, rfl⟩

theorem returns_cashOutTowers_round (betReference : String) :
    Prog.Returns (fun round : TowersRoundState => IsRound sessionId betReference round.sessionId round.reference)
      (cashOutTowers fresh userId sessionId betReference) := by
  refine Prog.returns_bind fun _ => Prog.returns_bind fun bet => ?_
  split
  · trivial
  · exact Prog.returns_bind fun balance => Prog.returns_bind fun difficulty => ⟨rfl, rfl⟩

/-- A round that is answered with is a bet of the user. -/
theorem records_mines {p : Sql MinesRoundState} {betReference : String}
    (h : Records i p w fun round t =>
      IsRound sessionId betReference round.sessionId round.reference ∧ BetOf t userId sessionId betReference) :
    Records i p w fun round t => (UpdatePayload.mines round).About t userId sessionId := by
  refine h.mono fun round v _ hround => ?_
  obtain ⟨⟨hses, href⟩, hb⟩ := hround
  exact ⟨hses, by rw [href]; exact hb⟩

theorem records_towers {p : Sql TowersRoundState} {betReference : String}
    (h : Records i p w fun round t =>
      IsRound sessionId betReference round.sessionId round.reference ∧ BetOf t userId sessionId betReference) :
    Records i p w fun round t => (UpdatePayload.towers round).About t userId sessionId := by
  refine h.mono fun round v _ hround => ?_
  obtain ⟨⟨hses, href⟩, hb⟩ := hround
  exact ⟨hses, by rw [href]; exact hb⟩

/-- The checks of a cash-out find what is due for the round. -/
theorem records_findDue {slug : GameSlug} {betReference : String} {f : Bet → Sql β}
    (hf : ∀ bet v, Due v.store userId sessionId betReference slug (cashOutPayout bet) bet.multiplier →
      Records i (f bet) v Q) :
    Records i (requireOpenSession userId sessionId slug >>= fun _ => findRound userId sessionId betReference >>= f) w
      Q := by
  refine records_requireOpenSession fun session game v hseat => ?_
  refine safe_bind (safe_oneRead readOnly record_free (oneRead_findRound ..) fun u bet _ hu _ hr => ?_)
  have hround := run_findRound hr
  exact hf bet u ⟨seat_persist ⟨session, game, hseat⟩ hu, bet, hround.mem, hround.user, hround.session,
    hround.reference, rfl⟩

theorem records_cashOutMines (betReference : String) :
    Records i (cashOutMines fresh userId sessionId betReference) w fun round t =>
      (UpdatePayload.mines round).About t userId sessionId ∧
        Won t userId sessionId round.reference .mines (round.payout.getD 0) round.multiplier := by
  refine records_findDue fun bet v hdue => ?_
  split
  · exact rfl
  · refine records_then (records_payOut hdue) fun balance u hwon => ?_
    exact ⟨⟨rfl, hwon.betOf⟩, hwon⟩

theorem records_cashOutTowers (betReference : String) :
    Records i (cashOutTowers fresh userId sessionId betReference) w fun round t =>
      (UpdatePayload.towers round).About t userId sessionId ∧
        Won t userId sessionId round.reference .towers (round.payout.getD 0) round.multiplier := by
  refine records_findDue fun bet v hdue => ?_
  split
  · exact rfl
  · refine records_then (records_payOut hdue) fun balance u hwon => ?_
    refine records_bind_stable hwon (fun _ _ => Won.persist) fun difficulty v hwon => ?_
    exact ⟨⟨rfl, hwon.betOf⟩, hwon⟩

theorem records_revealMines (betReference : String) (tile : Num) :
    Records i (revealMines fresh userId sessionId betReference tile) w fun round t =>
      (UpdatePayload.mines round).About t userId sessionId := by
  unfold revealMines
  split
  · split
    · exact rfl
    refine records_mines (records_bind fun _ v => records_findRound fun bet => ?_)
    split
    · trivial
    dsimp only
    split
    · exact Prog.returns_bind fun _ => ⟨rfl, rfl⟩
    refine Prog.returns_bind fun _ => ?_
    split
    · exact returns_cashOutMines_round betReference
    · exact ⟨rfl, rfl⟩
  · exact rfl

theorem records_revealTowers (betReference : String) (tile : Num) :
    Records i (revealTowers fresh userId sessionId betReference tile) w fun round t =>
      (UpdatePayload.towers round).About t userId sessionId := by
  refine records_towers (records_bind fun _ v => records_findRound fun bet => ?_)
  split
  · refine Prog.returns_bind fun difficulty => ?_
    dsimp only
    split
    · trivial
    split
    · trivial
    split
    · exact Prog.returns_bind fun _ => ⟨rfl, rfl⟩
    refine Prog.returns_bind fun _ => ?_
    split
    · exact returns_cashOutTowers_round betReference
    · exact ⟨rfl, rfl⟩
  · trivial

theorem betPayout_of_pos {result : RoundResult} {stake : Money} (h : 0 < betPayout result stake) :
    betPayout result stake = roundMoney (stake.toRat * result.multiplier) := by
  unfold betPayout at h ⊢
  split
  · rfl
  · rename_i hlost
    rw [if_neg hlost] at h
    exact absurd h (lt_irrefl 0)

/-- The ledger rows of a bet that is placed. -/
theorem records_betTransactions {slug : GameSlug} {betRef : String} {stake balance : Money} {result : RoundResult}
    (hseat : ∃ session game, OpenSession w.store userId sessionId slug session game)
    (hbet : ∃ b ∈ w.store.bets.rows, b.userId = userId ∧ b.sessionId = some sessionId ∧ b.reference = betRef ∧
      b.stake = stake) :
    Records i (perform (.insertTransactions (betTransactions fresh userId sessionId slug betRef stake
      (betPayout result stake) balance))) w fun _ t =>
        Accounted t userId sessionId betRef slug (betPayout result stake) result.multiplier := by
  obtain ⟨b, hb, huser, hses, href, rfl⟩ := hbet
  by_cases hpos : 0 < betPayout result b.stake
  · have hdue : Due w.store userId sessionId betRef slug (betPayout result b.stake) result.multiplier :=
      ⟨hseat, b, hb, huser, hses, href, betPayout_of_pos hpos⟩
    refine (records_pay hdue ⟨payoutTransaction fresh userId sessionId slug betRef (betPayout result b.stake)
      (some balance), ?_, rfl, rfl, rfl, rfl⟩).mono fun _ _ _ hwon => ⟨Due.betOf hwon.toDue, fun _ => hwon⟩
    unfold betTransactions
    rw [if_pos hpos]
    exact List.mem_cons_of_mem _ (List.mem_singleton_self _)
  · have hthere : BetOf w.store userId sessionId betRef := ⟨b, hb, huser, hses, href⟩
    exact (records_any _).mono fun _ _ _ hr => ⟨hthere.persist hr, fun h => absurd h hpos⟩

/-- A bet that is placed is there, and won if it pays. -/
theorem records_placeBet (slug : GameSlug) (stakeInput : Num) (selectionInput : RawSelection) :
    Records i (placeBet D fresh userId sessionId slug stakeInput selectionInput) w fun settled t =>
      (UpdatePayload.bet settled).About t userId sessionId := by
  unfold placeBet
  split
  · exact rfl
  refine records_requireOpenSession fun session game v hseat => ?_
  have hseat : ∃ session game, OpenSession v.store userId sessionId slug session game := ⟨session, game, hseat⟩
  refine records_bind_stable hseat (fun _ _ => seat_persist) fun validated v hseat => ?_
  refine records_bind_stable hseat (fun _ _ => seat_persist) fun stake v hseat => ?_
  refine records_bind_stable hseat (fun _ _ => seat_persist) fun wallet v hseat => ?_
  refine records_bind_stable hseat (fun _ _ => seat_persist) fun nonce v hseat => ?_
  refine records_bind_stable hseat (fun _ _ => seat_persist) fun row v hseat => ?_
  refine records_bind_stable hseat (fun _ _ => seat_persist) fun raw v hseat => ?_
  refine records_bind_stable hseat (fun _ _ => seat_persist) (p := ask _) fun debited v hseat => ?_
  split
  · refine records_insertBet fun v hr hb => ?_
    have hseat := seat_persist hseat hr
    refine records_then (records_betTransactions hseat ⟨_, hb, rfl, rfl, rfl, rfl⟩) fun _ v hpaid => ?_
    refine records_bind_stable hpaid (fun _ _ => Accounted.persist) (p := bumpSession _ _ _) fun _ v hpaid => ?_
    refine records_bind_stable hpaid (fun _ _ => Accounted.persist) fun _ v hpaid => ?_
    exact ⟨rfl, hpaid⟩
  · exact rfl

/-- The history is of the bets of the session. -/
theorem records_toSessionDto {now : Time} {slug : GameSlug} (hses : OwnsSession w.store userId sessionId) :
    Records i (toSessionDto now sessionId slug) w
      fun data t => (UpdatePayload.session data).About t userId data.id := by
  refine records_bind_stable (F := fun t => OwnsSession t userId sessionId) hses (fun _ _ ho h => ho.persist h.sessions)
    (p := ask (.selectSession _)) fun found v hses => ?_
  intro u hu frame _ _ rows s hr
  cases hr
  refine ⟨.refl _, 0, trivial, rfl, hses.persist (Recorded.sessions hu), fun item hitem => ?_⟩
  obtain ⟨b, hb, rfl⟩ := List.mem_map.1 hitem
  obtain ⟨hrow, hsession⟩ := Table.mem_select.1 ((List.mem_insertionSort _).1 (List.mem_of_mem_take hb))
  exact ⟨b.userId, b, hrow, rfl, beq_iff_eq.1 hsession, rfl⟩

theorem records_startSession (slug : GameSlug) :
    Records i (startSession fresh userId slug) w fun data t => (UpdatePayload.session data).About t userId data.id := by
  refine records_bind fun game v => records_bind fun _ v => ?_
  intro v hv frame _ hok r s hr
  obtain ⟨sessions, hins, he⟩ := orThrow_ok hr
  cases he
  have hrecorded : Recorded v.store _ := exec_recorded (q := .insertSession _) hok hr
  exact ⟨hrecorded, 0, trivial, records_toSessionDto ⟨_, Table.mem_of_insert hins, rfl, rfl⟩⟩

/-- **What a request is answered with is of the player who has asked**, while others are served. -/
theorem recorded_serve (D : Digest) (fresh : Fresh) (request : Request) :
    Records i (serve D fresh request) w fun response t => response.Truthful t request := by
  cases request with
  | startSession => exact records_map (records_startSession _)
  | placeBet => exact records_map (records_placeBet _ _ _)
  | revealMines => exact records_map (records_revealMines _ _)
  | cashOutMines => exact records_map (records_cashOutMines _)
  | revealTowers => exact records_map (records_revealTowers _ _)
  | cashOutTowers => exact records_map (records_cashOutTowers _)
  | _ => exact (records_any _).mono fun response _ _ _ => by cases response <;> trivial

/-! ## Nothing asked of the statements -/

/-- The programs of the services, with nothing asked of their statements. -/
theorem records_prog {p : Sql α} {Q : α → Db → Prop} (hp : Reads (Stmt.inPlay true) p) (h : Records i p w Q) :
    Safe recordDiscipline.unconditional exec i p w 0 fun a v _ => Q a v.store := by
  refine Safe.unconditional (fun v q hq => ?_) h hp
  cases q with
  | updateTransaction p set => cases hq
  | _ => trivial

/-- The statement updates no other ledger row than the one with the id. -/
def Stmt.UpdatesRow (depositId : Id) : Stmt → Prop
  | .updateTransaction p _ => ∀ r, p r = true → r.id = depositId
  | _ => True

theorem only_creditWallet (depositId userId : Id) (amount : Money) :
    Prog.Only (Stmt.UpdatesRow depositId) (creditWallet userId amount) :=
  ⟨trivial, fun _ => ⟨trivial, fun _ => trivial⟩⟩

/-- The crediting of a deposit updates the row of that deposit. -/
theorem records_creditDeposit (now : Time) (depositId : Id) (extraMetadata : Metadata → Metadata) :
    Safe recordDiscipline.unconditional exec i (creditDeposit now depositId extraMetadata) w 0 fun _ _ g => g = 0 := by
  unfold creditDeposit
  rw [ask_bind]
  intro u hu frame _ _ found s hr
  cases hr
  refine ⟨.refl _, 0, trivial, ?_⟩
  beta_reduce
  split
  · rename_i current hhead
    have hmem := Table.mem_select.1 (List.mem_of_head? hhead)
    obtain ⟨hrow, hp⟩ := hmem
    simp only [Bool.and_eq_true, beq_iff_eq] at hp
    obtain ⟨⟨hid, htype⟩, -⟩ := hp
    refine (safe_only (P := Stmt.UpdatesRow depositId) (fun v q g r t hq hv _ hr => ?_) ?_ (Recorded.refl u.store)).mono
      fun _ _ _ h => h.2
    · refine ⟨exec_recorded ?_ hr, trivial⟩
      cases q with
      | updateTransaction p set =>
        intro a ha hpa
        obtain ⟨b, hb, hbid, hbtype⟩ := Recorded.types hv current hrow
        obtain rfl := transaction_eq_of_id ha hb ((hq a hpa).trans (hid.symm.trans hbid.symm))
        exact hbtype.trans htype
      | _ => trivial
    · refine Prog.only_bind (p := ask _) ⟨fun r hr => ?_, fun _ => trivial⟩ fun claimedRows => ?_
      · exact beq_iff_eq.1 (Bool.and_eq_true_iff.1 hr).1
      · split
        · refine Prog.only_bind (only_creditWallet depositId _ _) fun wallet => ?_
          split
          · exact ⟨fun r hr => beq_iff_eq.1 hr, fun _ => trivial⟩
          · exact ⟨fun r hr => beq_iff_eq.1 hr, fun _ => trivial⟩
        · trivial
  · exact rfl

end Play

/-! ## Fan-outs -/

section Fanouts

variable {db : Db} {emission : Emission} {userId sessionId : Id} {α β : Type} {P : FanoutCall → Prop}

theorem only_add {queue : BullQueue} {name : String} {job : Job} (h : P (.queue queue name job)) :
    Prog.Only P (queue.add name job) := by
  refine ⟨h, fun added => ?_⟩
  cases added <;> trivial

/-- A settled bet is sent to its player, its session and, when it is won, to the lobby. -/
theorem only_fanoutBet {bet : SettledBet} (h : bet.Truthful db userId) :
    Prog.Only (FanoutCall.Truthful db) (EngineController.fanoutBet emission userId bet) := by
  have habout : (UpdatePayload.bet bet).About db userId bet.sessionId := ⟨rfl, h⟩
  have hjobs : Prog.Only (FanoutCall.Truthful db) (do
      BullQueue.realtime.add "bet" (.update userId bet.sessionId .betSettled (.bet bet))
      BullQueue.session.add "history" (.history bet.sessionId (EngineController.queuedItem bet))) :=
    Prog.only_bind (only_add (P := FanoutCall.Truthful db) habout) fun _ =>
      only_add (P := FanoutCall.Truthful db) trivial
  have hrest : Prog.Only (FanoutCall.Truthful db) (do
      EventsService.publish .betSettled (.bet (EngineController.settledEvent emission userId bet))
      BullQueue.realtime.add "bet" (.update userId bet.sessionId .betSettled (.bet bet))
      BullQueue.session.add "history" (.history bet.sessionId (EngineController.queuedItem bet))) :=
    ⟨h, fun _ => hjobs⟩
  have hlobby : Prog.Only (FanoutCall.Truthful db) (do
      if bet.won ∧ bet.payout > 0 then
        RealtimeService.publishToLobby .liveWin (.liveWin bet.gameSlug bet.payout bet.multiplier)
      EventsService.publish .betSettled (.bet (EngineController.settledEvent emission userId bet))
      BullQueue.realtime.add "bet" (.update userId bet.sessionId .betSettled (.bet bet))
      BullQueue.session.add "history" (.history bet.sessionId (EngineController.queuedItem bet))) := by
    by_cases hwon : bet.won ∧ bet.payout > 0
    · rw [if_pos hwon]
      exact ⟨⟨rfl, hwon.2, userId, bet.sessionId, bet.reference, h.2 hwon.2, fun _ hno => by cases hno⟩, fun _ => hrest⟩
    · rw [if_neg hwon]
      exact hrest
  unfold EngineController.fanoutBet
  refine ⟨⟨userId, bet.sessionId, habout, .inl rfl⟩, fun _ => ?_⟩
  by_cases hses : bet.sessionId ≠ ""
  · rw [if_pos hses]
    exact ⟨⟨userId, bet.sessionId, habout, .inr rfl⟩, fun _ => hlobby⟩
  · rw [if_neg hses]
    exact hlobby

/-- The record that a cash-out is fanned out with. -/
theorem Won.cashedOut {betReference : String} {gameSlug : GameSlug} {multiplier : ℚ} {payout balance : Option Money}
    {outcome : GameOutcome} (h : Won db userId sessionId betReference gameSlug (payout.getD 0) multiplier) :
    (EngineController.cashedOut emission betReference sessionId gameSlug multiplier payout balance outcome).Truthful db
      userId :=
  ⟨h.betOf, fun _ => h⟩

/-- **A handler sends what its answer is about.** -/
theorem fanout_truthful {request : Request} {response : Response} (h : response.Truthful db request) :
    Prog.Only (FanoutCall.Truthful db) (EngineController.fanout emission request response) := by
  have cashedOut : ∀ {routingKey : RoutingKey} {payload : EventPayload} {settled : Prop} [Decidable settled]
      {userId : Id} {bet : SettledBet}, (∀ event, payload ≠ .bet event) → bet.Truthful db userId →
        Prog.Only (FanoutCall.Truthful db) (do
          EventsService.publish routingKey payload
          if settled then EngineController.fanoutBet emission userId bet) := by
    intro routingKey payload settled _ userId bet hpayload hb
    refine ⟨?_, fun _ => ?_⟩
    · cases payload with
      | bet event => exact absurd rfl (hpayload event)
      | _ => trivial
    · by_cases hs : settled
      · show Prog.Only _ (if settled then _ else _)
        rw [if_pos hs]
        exact only_fanoutBet hb
      · show Prog.Only _ (if settled then _ else _)
        rw [if_neg hs]
        trivial
  cases request <;> cases response <;> try exact trivial
  case startSession.session => exact ⟨trivial, fun _ => only_add h⟩
  case endSession.ended => exact ⟨trivial, fun _ => only_add trivial⟩
  case placeBet.settled userId sessionId slug stakeInput selectionInput bet =>
    obtain ⟨hses, hb⟩ := h
    exact only_fanoutBet hb
  case startMines.mines => exact ⟨trivial, fun _ => trivial⟩
  case startTowers.towers => exact ⟨trivial, fun _ => trivial⟩
  case revealMines.mines => exact ⟨trivial, fun _ => only_add h⟩
  case revealTowers.towers => exact ⟨trivial, fun _ => only_add h⟩
  case cashOutMines.mines =>
    exact cashedOut (fun _ he => by cases he) h.2.cashedOut
  case cashOutTowers.towers =>
    exact cashedOut (fun _ he => by cases he) h.2.cashedOut

end Fanouts

end Smink
