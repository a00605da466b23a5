import Smink.Play.Owners
import Smink.Play.Seated
import Smink.Play.Secrecy
import Smink.Play.Stranded

/-!
# Players do not touch each other

A request updates some rows by an id alone, after a check that the row is its user's. Each such statement finds rows of
the user only (`within_serve`), as long as bets are in sessions of their players. So a request leaves the rows of others
alone, and the requests of two users commute when they draw different ids (`players_separate`).
-/

namespace Smink

open Store

/-! ## Checks -/

/-- The program keeps to the user's rows and the call's draws. -/
abbrev KeepsToOwn (fresh : Fresh) (userId : Id) {α : Type} (p : Sql α) (db : Db) : Prop :=
  (playRegion userId (fresh.claims userId)).Within p db

section Traversal

variable {α β : Type} {fresh : Fresh} {userId sessionId : Id} {db t : Db} {betReference : String} {bet : Bet}

theorem own_done {p : Sql α} (h : p.done = true) : KeepsToOwn fresh userId p db := Region.within_of_done h db

/-- A check before the rest of a call. -/
theorem own_check {p : Sql α} {f : α → Sql β} (hreads : Reads Stmt.isRead p) (hp : KeepsToOwn fresh userId p db)
    (hf : ∀ a, p.run exec db = (.ok a, db) → KeepsToOwn fresh userId (f a) db) :
    KeepsToOwn fresh userId (p >>= f) db :=
  Region.within_check readOnly hreads hp hf

/-- A check without a statement. -/
theorem own_decision {p : Sql α} {f : α → Sql β} (hp : p.done = true) (hf : ∀ a, KeepsToOwn fresh userId (f a) db) :
    KeepsToOwn fresh userId (p >>= f) db :=
  own_check (reads_of_done hp) (own_done hp) fun a _ => hf a

/-- One statement and a decision. -/
theorem own_oneRead {p : Sql α} (h : OneRead Stmt.isRead p)
    (hin : ∀ q k, p = .stmt q k → InsideOf userId (fresh.claims userId) q db) : KeepsToOwn fresh userId p db := by
  obtain ⟨q, k, rfl, -, hk⟩ := h
  exact ⟨hin q k rfl, fun r t _ => own_done (hk r)⟩

theorem own_findOpen (gameId : Id) : KeepsToOwn fresh userId (findOpen userId gameId sessionId) db :=
  own_oneRead (oneRead_findOpen ..) fun q k h => by
    cases h
    intro b _ hb
    simp only [Bool.and_eq_true, beq_iff_eq] at hb
    exact hb.1.1.1

theorem own_nextNonce : KeepsToOwn fresh userId (nextNonce userId) db :=
  own_oneRead (oneRead_nextNonce ..) fun q k h => by
    cases h
    exact fun b _ hb => beq_iff_eq.1 hb

theorem own_getControlRule (gameId : Id) : KeepsToOwn fresh userId (getControlRule userId gameId) db :=
  own_oneRead (oneRead_getControlRule ..) fun q k h => by
    cases h
    intro c _ hc
    simp only [Bool.and_eq_true, beq_iff_eq] at hc
    exact hc.1

/-! ## Rows found by an id -/

/-- A session that a check found is the user's, whoever else knows its id. -/
theorem picks_session {sessions : Table GameSession} {s : GameSession} (hs : s ∈ sessions.rows)
    (huser : s.userId = userId) : sessions.Picks userId fun a => a.id == s.id :=
  Table.picks_of_key (k := ("id", s.id)) hs huser (by simp [Keyed.keys]) fun a ha => by
    simp [Keyed.keys, beq_iff_eq.1 ha]

theorem OpenSession.picks {slug : GameSlug} {session : GameSession} {game : Game}
    (h : OpenSession db userId sessionId slug session game) :
    db.gameSessions.Picks userId fun s => s.id == sessionId := by
  rw [← h.session_id]
  exact picks_session h.session_mem h.session_user

theorem OpenRound.picks (h : OpenRound db userId sessionId betReference bet) :
    db.bets.Picks userId fun b => b.id == bet.id :=
  Table.picks_of_key (k := ("id", bet.id)) h.mem h.user (by simp [Keyed.keys]) fun a ha => by
    simp [Keyed.keys, beq_iff_eq.1 ha]

/-- The check of a session, before the rest of a call. -/
theorem own_requireOpenSession {slug : GameSlug} {f : GameSession × Game → Sql β}
    (hf : ∀ session game, db.gameSessions.Picks userId (fun s => s.id == sessionId) →
      KeepsToOwn fresh userId (f (session, game)) db) :
    KeepsToOwn fresh userId (requireOpenSession userId sessionId slug >>= f) db := by
  refine own_check (oneRead_requireOpenSession ..).reads (own_oneRead (oneRead_requireOpenSession ..) fun q k h => ?_)
    fun ⟨session, game⟩ h => hf session game (run_requireOpenSession h).picks
  cases h
  intro s _ hs
  simp only [Bool.and_eq_true, beq_iff_eq] at hs
  exact hs.2

theorem own_findRound {f : Bet → Sql β}
    (hf : ∀ bet : Bet, db.bets.Picks userId (fun b => b.id == bet.id) → KeepsToOwn fresh userId (f bet) db) :
    KeepsToOwn fresh userId (findRound userId sessionId betReference >>= f) db := by
  refine own_check (oneRead_findRound ..).reads (own_oneRead (oneRead_findRound ..) fun q k h => ?_) fun bet h =>
    hf bet (run_findRound h).picks
  cases h
  intro b _ hb
  simp only [Bool.and_eq_true, beq_iff_eq] at hb
  exact hb.1.2

theorem picks_controlRow {gameId : Id} {row : UserGameControl} (h : db.controlRow userId gameId = some row) :
    db.userGameControl.Picks userId fun c => c.id == row.id :=
  Table.picks_of_key (k := ("id", row.id)) (mem_of_controlRow h) (user_of_controlRow h) (by simp [Keyed.keys])
    fun a ha => by simp [Keyed.keys, beq_iff_eq.1 ha]

theorem picks_wallet {wallets : Table SminkWallet} : wallets.Picks userId fun w => w.userId == userId :=
  fun _ _ hw => beq_iff_eq.1 hw

/-! ## The wallet -/

theorem own_getOrCreate : KeepsToOwn fresh userId (getOrCreate userId) db := by
  refine Region.within_bind (p := ask _) ⟨picks_wallet, fun _ _ _ => trivial⟩ fun rows t _ => ?_
  split
  · trivial
  · refine Region.within_bind (p := ask _) ⟨⟨rfl, rfl⟩, fun _ _ _ => trivial⟩ fun created u _ => ?_
    split
    · trivial
    · exact ⟨picks_wallet, fun _ _ _ => trivial⟩

/-- The user's wallet is there, or is opened, before the rest of a call. -/
theorem own_requireWallet {f : SminkWallet → Sql α}
    (hf : ∀ wallet wallets, KeepsToOwn fresh userId (f wallet) { db with sminkWallets := wallets }) :
    KeepsToOwn fresh userId (requireWallet userId >>= f) db := by
  refine Region.within_bind (Region.within_bind own_getOrCreate fun wallet t _ => ?_) fun wallet t ht => ?_
  · split
    · split_ifs <;> trivial
    · trivial
  · have hsame := ends_onWallets (onWallets_requireWallet userId) db
    unfold Prog.Ends at hsame
    rw [ht] at hsame
    rw [show t = { db with sminkWallets := t.sminkWallets } from hsame]
    exact hf wallet t.sminkWallets

/-! ## Writes -/

theorem own_updateWallet {p : SminkWallet → Bool} {set : WalletSet} {f : List SminkWallet → Sql α}
    (hp : ∀ w, p w = true → w.userId = userId)
    (hf : ∀ rows wallets, KeepsToOwn fresh userId (f rows) { db with sminkWallets := wallets }) :
    KeepsToOwn fresh userId (ask (.updateWallet p set) >>= f) db := by
  refine ⟨fun w _ => hp w, fun rows t ht => ?_⟩
  cases ht
  exact hf _ _

theorem own_insertBet {f : Unit → Sql α} {kind : String} (hkind : kind ∈ ["BET", "MIN", "TWR"]) {b : Bet}
    (huser : b.userId = userId) (hid : b.id = fresh.betId) (href : b.reference = reference kind fresh.betHex)
    (hf : ∀ bets, KeepsToOwn fresh userId (f ()) { db with bets }) :
    KeepsToOwn fresh userId (perform (.insertBet b) >>= f) db := by
  refine ⟨⟨huser, fun k hk => ?_⟩, fun _ t ht => ?_⟩
  · simp only [Keyed.keys, hid, href, List.mem_cons, List.not_mem_nil, or_false] at hk
    obtain rfl | rfl := hk
    · exact .inl ⟨_, List.mem_singleton_self _, rfl⟩
    · exact .inr ⟨_, List.mem_map.2 ⟨kind, hkind, rfl⟩, rfl⟩
  · obtain ⟨bets, -, he⟩ := orThrow_ok ht
    cases he
    exact hf bets

/-- The row is the stake's or the payout's of the call. -/
def Fresh.Draws (fresh : Fresh) (userId : Id) (r : SminkTransaction) : Prop :=
  r.userId = userId ∧ (r.id = fresh.stakeId ∧ r.reference = reference "STK" fresh.stakeHex ∨
    r.id = fresh.payoutId ∧ r.reference = reference "PAY" fresh.payoutHex)

theorem own_insertTransactions {f : Unit → Sql α} {rs : List SminkTransaction} (hrs : ∀ r ∈ rs, fresh.Draws userId r)
    (hf : ∀ transactions, KeepsToOwn fresh userId (f ()) { db with sminkTransactions := transactions }) :
    KeepsToOwn fresh userId (perform (.insertTransactions rs) >>= f) db := by
  refine ⟨fun r hr => ⟨(hrs r hr).1, fun k hk => ?_⟩, fun _ t ht => ?_⟩
  · obtain ⟨-, ⟨hid, href⟩ | ⟨hid, href⟩⟩ := hrs r hr
    all_goals
      simp only [Keyed.keys, hid, href, List.mem_cons, List.not_mem_nil, or_false] at hk
      obtain rfl | rfl := hk
      · exact .inl ⟨_, by simp [Fresh.transactionIds], rfl⟩
      · exact .inr ⟨_, by simp [Fresh.transactionReferences], rfl⟩
  · obtain ⟨transactions, -, he⟩ := orThrow_ok ht
    cases he
    exact hf transactions

theorem own_bumpSession {f : Unit → Sql α} (staked won : Money)
    (hs : db.gameSessions.Picks userId fun s => s.id == sessionId)
    (hf : ∀ sessions, KeepsToOwn fresh userId (f ()) { db with gameSessions := sessions }) :
    KeepsToOwn fresh userId (bumpSession sessionId staked won >>= f) db := by
  refine ⟨hs, fun _ t ht => ?_⟩
  cases ht
  exact hf _

/-! ## Rounds -/

theorem own_payOut (slug : GameSlug) (hs : db.gameSessions.Picks userId fun s => s.id == sessionId)
    (hb : db.bets.Picks userId fun b => b.id == bet.id) :
    KeepsToOwn fresh userId (payOut fresh slug userId sessionId betReference bet) db := by
  refine ⟨picks_wallet, fun wallets t ht => ?_⟩
  cases ht
  refine ⟨hb, fun _ t ht => ?_⟩
  cases ht
  refine own_insertTransactions (fun r hr => ?_) fun transactions => ?_
  · rw [List.mem_singleton.1 hr]
    exact ⟨rfl, .inr ⟨rfl, rfl⟩⟩
  · exact own_bumpSession _ _ hs fun _ => trivial

theorem own_settleLost (now : Time) (outcome : GameOutcome) (hb : db.bets.Picks userId fun b => b.id == bet.id) :
    KeepsToOwn fresh userId (settleLost now userId bet outcome) db := by
  refine ⟨picks_wallet, fun wallets t ht => ?_⟩
  cases ht
  exact ⟨hb, fun _ _ _ => trivial⟩

theorem own_recordReveal (multiplier : ℚ) (outcome : GameOutcome) (hb : db.bets.Picks userId fun b => b.id == bet.id) :
    KeepsToOwn fresh userId (recordReveal bet multiplier outcome) db :=
  ⟨hb, fun _ _ _ => trivial⟩

theorem own_cashOutMines : KeepsToOwn fresh userId (cashOutMines fresh userId sessionId betReference) db := by
  refine own_requireOpenSession fun session game hsession => ?_
  refine own_findRound fun bet hbet => ?_
  split_ifs
  · trivial
  · exact Region.within_bind (own_payOut _ hsession hbet) fun _ _ _ => trivial

theorem own_cashOutTowers : KeepsToOwn fresh userId (cashOutTowers fresh userId sessionId betReference) db := by
  refine own_requireOpenSession fun session game hsession => ?_
  refine own_findRound fun bet hbet => ?_
  split_ifs
  · trivial
  · refine Region.within_bind (own_payOut _ hsession hbet) fun _ _ _ => ?_
    exact own_decision (done_orThrew _) fun _ => trivial

theorem own_revealMines (value : Num) :
    KeepsToOwn fresh userId (revealMines fresh userId sessionId betReference value) db := by
  unfold revealMines
  split
  · split_ifs
    · trivial
    · refine own_requireOpenSession fun session game _ => ?_
      refine own_findRound fun bet hbet => ?_
      dsimp only
      split_ifs
      · trivial
      · exact Region.within_bind (own_settleLost _ _ hbet) fun _ _ _ => trivial
      · exact Region.within_bind (own_recordReveal _ _ hbet) fun _ _ _ => own_cashOutMines
      · exact Region.within_bind (own_recordReveal _ _ hbet) fun _ _ _ => trivial
  · trivial

theorem own_revealTowers (value : Num) :
    KeepsToOwn fresh userId (revealTowers fresh userId sessionId betReference value) db := by
  refine own_requireOpenSession fun session game _ => ?_
  refine own_findRound fun bet hbet => ?_
  dsimp only
  split
  · refine own_decision (done_orThrew _) fun difficulty => ?_
    split_ifs
    · trivial
    · trivial
    · exact Region.within_bind (own_settleLost _ _ hbet) fun _ _ _ => trivial
    · exact Region.within_bind (own_recordReveal _ _ hbet) fun _ _ _ => own_cashOutTowers
    · exact Region.within_bind (own_recordReveal _ _ hbet) fun _ _ _ => trivial
  · trivial

/-! ## Bets -/

theorem own_openRound {Sel : Type} (G : GridGame Sel) (hkind : G.kind ∈ ["BET", "MIN", "TWR"]) (D : Digest)
    (stakeInput : Num) (selectionInput : RawSelection) :
    KeepsToOwn fresh userId (openRound G D fresh userId sessionId stakeInput selectionInput) db := by
  refine own_requireOpenSession fun session game hsession => ?_
  refine own_decision (done_orInvalid _) fun validated => ?_
  refine own_decision (done_orFail _) fun stake => ?_
  refine own_check ⟨rfl, fun _ => trivial⟩ ⟨fun b _ hb => ?_, fun _ _ _ => trivial⟩ fun (opened : List Bet) _ => ?_
  · simp only [Bool.and_eq_true, beq_iff_eq] at hb
    exact hb.1.1
  · dsimp only
    split_ifs
    · trivial
    · refine own_requireWallet fun wallet wallets => ?_
      refine own_check (oneRead_nextNonce ..).reads own_nextNonce fun nonce _ => ?_
      refine own_check (oneRead_getControlRule ..).reads (own_getControlRule _) fun row _ => ?_
      refine own_decision (done_orThrew _) fun selection => ?_
      unfold debitStake
      rw [Prog.bind_assoc]
      refine own_updateWallet (fun w => canPay_user) fun debited wallets => ?_
      split
      · refine own_insertBet hkind rfl rfl rfl fun bets => ?_
        refine own_insertTransactions (fun r hr => ?_) fun transactions => ?_
        · rw [List.mem_singleton.1 hr]
          exact ⟨rfl, .inl ⟨rfl, rfl⟩⟩
        · exact own_bumpSession _ _ hsession fun _ => trivial
      · trivial

theorem draws_betTransactions {slug : GameSlug} {betRef : String} {stake payout balance : Money} :
    ∀ r ∈ betTransactions fresh userId sessionId slug betRef stake payout balance, fresh.Draws userId r := by
  unfold betTransactions
  intro r hr
  rcases List.mem_cons.1 hr with rfl | hr
  · exact ⟨rfl, .inl ⟨rfl, rfl⟩⟩
  · split_ifs at hr
    · rw [List.mem_singleton.1 hr]
      exact ⟨rfl, .inr ⟨rfl, rfl⟩⟩
    · cases hr

theorem own_consumeForcedRound {row : Option UserGameControl} {f : Unit → Sql α}
    (hrow : ∀ c ∈ row, db.userGameControl.Picks userId fun a => a.id == c.id) (hf : (f ()).done = true) :
    KeepsToOwn fresh userId (consumeForcedRound row >>= f) db := by
  unfold consumeForcedRound
  split
  · exact own_done hf
  · split_ifs
    · exact own_done hf
    · exact own_done hf
    · exact ⟨hrow _ rfl, fun _ _ _ => own_done hf⟩

theorem own_placeBet (D : Digest) (slug : GameSlug) (stakeInput : Num) (selectionInput : RawSelection) :
    KeepsToOwn fresh userId (placeBet D fresh userId sessionId slug stakeInput selectionInput) db := by
  unfold placeBet
  split
  · trivial
  · refine own_requireOpenSession fun session game hsession => ?_
    refine own_decision (done_orInvalid _) fun validated => ?_
    refine own_decision (done_orFail _) fun stake => ?_
    refine own_requireWallet fun wallet wallets => ?_
    refine own_check (oneRead_nextNonce ..).reads own_nextNonce fun nonce _ => ?_
    refine own_check (oneRead_getControlRule ..).reads (own_getControlRule _) fun row hrow => ?_
    have hcontrol : ∀ c ∈ row, db.userGameControl.Picks userId fun a => a.id == c.id := by
      intro c hc
      exact picks_controlRow ((run_controlRow hrow).symm.trans hc)
    refine own_decision (done_orThrew _) fun raw => ?_
    refine own_updateWallet (fun w => canPay_user) fun debited wallets => ?_
    split
    · refine own_insertBet List.mem_cons_self rfl rfl rfl fun bets => ?_
      refine own_insertTransactions draws_betTransactions fun transactions => ?_
      exact own_bumpSession _ _ hsession fun _ => own_consumeForcedRound hcontrol rfl
    · trivial

/-! ## Sessions -/

theorem own_toSessionDto (now : Time) (gameSlug : GameSlug)
    (hs : db.gameSessions.Picks userId fun s => s.id == sessionId)
    (hb : db.bets.Picks userId fun b => b.sessionId == some sessionId) :
    KeepsToOwn fresh userId (toSessionDto now sessionId gameSlug) db := by
  refine ⟨hs, fun _ t ht => ?_⟩
  cases ht
  exact ⟨hb, fun _ _ _ => trivial⟩

theorem own_getPlayableGame (slug : GameSlug) : KeepsToOwn fresh userId (getPlayableGame userId slug) db := by
  unfold getPlayableGame
  refine own_check ⟨rfl, fun _ => trivial⟩ ⟨trivial, fun _ _ _ => trivial⟩ fun games _ => ?_
  split
  · split_ifs
    · trivial
    · trivial
    · refine own_check ⟨rfl, fun _ => trivial⟩ ⟨trivial, fun _ _ _ => trivial⟩ fun hidden _ => own_done ?_
      split_ifs <;> rfl
  · trivial

/-- A session that has just been inserted has no bets. -/
theorem own_startSession (h : BetsSeated db) (gameSlug : GameSlug) :
    KeepsToOwn fresh userId (startSession fresh userId gameSlug) db := by
  refine own_check (reads_getPlayableGame ..) (own_getPlayableGame gameSlug) fun game _ => ?_
  refine ⟨fun s _ hs => ?_, fun _ t ht => ?_⟩
  · simp only [Bool.and_eq_true, beq_iff_eq] at hs
    exact hs.1.1
  · cases ht
    refine ⟨⟨rfl, fun k hk => List.mem_singleton.1 hk⟩, fun _ t ht => ?_⟩
    obtain ⟨sessions, hins, he⟩ := orThrow_ok ht
    cases he
    refine own_toSessionDto _ _ (fun s hs hid => ?_) fun b hb hses => ?_
    · have hnew : ({ id := fresh.sessionId, userId, gameId := game.id, startedAt := fresh.now } : GameSession) ∈
          sessions.rows := by
        rw [Table.rows_insert hins]
        exact List.mem_append_right _ (List.mem_singleton_self _)
      exact picks_session hnew rfl s hs hid
    · obtain ⟨sessionId, hseat, s, hs, hid, -⟩ := h b hb
      have hid : s.id = fresh.sessionId := hid.trans (Option.some.inj (hseat.symm.trans (beq_iff_eq.1 hses)))
      refine absurd ?_ (Table.apart_of_insert hins _ (Table.mem_update.2 ⟨s, hs, rfl⟩) ("id", fresh.sessionId) ?_)
      · exact List.mem_singleton_self _
      · rw [Table.keys_updateRow, ← hid]
        exact List.mem_singleton_self _

theorem own_endSession : KeepsToOwn fresh userId (endSession fresh userId sessionId) db := by
  unfold endSession
  refine own_check ⟨rfl, fun _ => trivial⟩ ⟨fun s _ hs => ?_, fun _ _ _ => trivial⟩ fun sessions hfound => ?_
  · simp only [Bool.and_eq_true, beq_iff_eq] at hs
    exact hs.2
  · split
    · rename_i session hhead
      obtain rfl := Except.ok.inj (Prod.mk.inj hfound).1
      obtain ⟨hmem, hp⟩ := Table.mem_of_select_head hhead
      rw [Bool.and_eq_true, beq_iff_eq, beq_iff_eq] at hp
      split_ifs
      · trivial
      · exact ⟨picks_session hmem hp.2, fun _ _ _ => trivial⟩
    · trivial

/-- A bet of a session is of the session's user. -/
theorem own_getSession (h : BetsSeated db) : KeepsToOwn fresh userId (getSession fresh userId sessionId) db := by
  unfold getSession
  refine own_check ⟨rfl, fun _ => trivial⟩ ⟨fun s _ hs => ?_, fun _ _ _ => trivial⟩ fun found hfound => ?_
  · simp only [Bool.and_eq_true, beq_iff_eq] at hs
    exact hs.2
  · split
    · rename_i session game hhead
      obtain rfl := Except.ok.inj (Prod.mk.inj hfound).1
      obtain ⟨⟨hmem, hp⟩, -, -⟩ := sessionGame_of_head hhead
      rw [Bool.and_eq_true, beq_iff_eq, beq_iff_eq] at hp
      refine own_toSessionDto _ _ (picks_session hmem hp.2) fun b hb hses => ?_
      obtain ⟨sessionId, hseat, s, hs, hid, huser⟩ := h b hb
      obtain rfl := session_eq_of_id hs hmem (hid.trans (Option.some.inj (hseat.symm.trans (beq_iff_eq.1 hses))))
      exact huser.symm.trans hp.2
    · trivial

/-! ## Grid rounds -/

theorem own_getOpenMines : KeepsToOwn fresh userId (getOpenMines userId sessionId) db := by
  refine own_requireOpenSession fun session game _ => ?_
  refine own_check (oneRead_findOpen ..).reads (own_findOpen _) fun bet _ => ?_
  split <;> trivial

theorem own_getOpenTowers : KeepsToOwn fresh userId (getOpenTowers userId sessionId) db := by
  refine own_requireOpenSession fun session game _ => ?_
  refine own_check (oneRead_findOpen ..).reads (own_findOpen _) fun bet _ => ?_
  split
  · exact own_decision (done_orThrew _) fun _ => trivial
  · trivial

/-- **A request keeps to the rows of its user**, whatever ids and references it is given. -/
theorem within_serve (h : BetsSeated db) (D : Digest) (fresh : Fresh) (request : Request) :
    KeepsToOwn fresh request.userId (serve D fresh request) db := by
  cases request with
  | startSession => exact Region.within_bind (own_startSession h _) fun _ _ _ => trivial
  | endSession => exact Region.within_bind own_endSession fun _ _ _ => trivial
  | getSession => exact Region.within_bind (own_getSession h) fun _ _ _ => trivial
  | placeBet => exact Region.within_bind (own_placeBet D _ _ _) fun _ _ _ => trivial
  | startMines =>
    refine Region.within_bind ?_ fun _ _ _ => trivial
    exact Region.within_bind (own_openRound minesGame (by decide) D _ _) fun _ _ _ => trivial
  | revealMines => exact Region.within_bind (own_revealMines _) fun _ _ _ => trivial
  | cashOutMines => exact Region.within_bind own_cashOutMines fun _ _ _ => trivial
  | getOpenMines => exact Region.within_bind own_getOpenMines fun _ _ _ => trivial
  | startTowers =>
    refine Region.within_bind ?_ fun _ _ _ => trivial
    exact Region.within_bind (own_openRound towersGame (by decide) D _ _) fun _ _ _ => trivial
  | revealTowers => exact Region.within_bind (own_revealTowers _) fun _ _ _ => trivial
  | cashOutTowers => exact Region.within_bind own_cashOutTowers fun _ _ _ => trivial
  | getOpenTowers => exact Region.within_bind own_getOpenTowers fun _ _ _ => trivial

end Traversal

/-! ## Two players -/

/-- The rows of the user are as they were. -/
structure RowsUntouched (userId : Id) (db t : Db) : Prop where
  sessions : t.gameSessions.owned userId = db.gameSessions.owned userId
  wallets : t.sminkWallets.owned userId = db.sminkWallets.owned userId
  transactions : t.sminkTransactions.owned userId = db.sminkTransactions.owned userId
  bets : t.bets.owned userId = db.bets.owned userId
  controls : t.userGameControl.owned userId = db.userGameControl.owned userId

/-- The databases hold the same rows. -/
structure SameRows (db t : Db) : Prop where
  users : t.users = db.users
  games : t.games = db.games
  excluded : t.gameExcluded = db.gameExcluded
  sessions : t.gameSessions.rows.Perm db.gameSessions.rows
  wallets : t.sminkWallets.rows.Perm db.sminkWallets.rows
  transactions : t.sminkTransactions.rows.Perm db.sminkTransactions.rows
  bets : t.bets.rows.Perm db.bets.rows
  controls : t.userGameControl.rows.Perm db.userGameControl.rows

section Players

variable {db : Db}

/-- A call changes rows of its user only, and takes no unique values but those it draws. -/
theorem touchedBy_answer (h : BetsSeated db) (D : Digest) (call : Fresh × Request) :
    TouchedBy call.2.userId (call.1.claims call.2.userId) db (answer D call db).2 := by
  have hwithin := within_serve h D call.1 call.2
  exact (hwithin.run hwithin (.refl db)).2.2

theorem TouchedBy.rowsUntouched {userId otherId : Id} {claims : Claims} {t : Db} (h : TouchedBy userId claims db t)
    (hne : otherId ≠ userId) : RowsUntouched otherId db t :=
  ⟨h.sessions.others _ hne, h.wallets.others _ hne, h.transactions.others _ hne, h.bets.others _ hne,
    h.controls.others _ hne⟩

/-- Calls of two users, in either order. -/
theorem sameRows_of_turns {u w : Id} {claims claims' : Claims} {a b ab ba : Db} (hne : u ≠ w)
    (ha : TouchedBy u claims db a) (hab : TouchedBy w claims' a ab) (hb : TouchedBy w claims' db b)
    (hba : TouchedBy u claims b ba) (hu : AlikeTo u claims a ba) (hw : AlikeTo w claims' b ab) : SameRows ab ba where
  users := by rw [hu.users, hab.users]
  games := by rw [hu.games, hab.games]
  excluded := by rw [hu.excluded, hab.excluded]
  sessions := Table.perm_of_turns hne ha.sessions hab.sessions hb.sessions hba.sessions hu.sessions hw.sessions
  wallets := Table.perm_of_turns hne ha.wallets hab.wallets hb.wallets hba.wallets hu.wallets hw.wallets
  transactions := Table.perm_of_turns hne ha.transactions hab.transactions hb.transactions hba.transactions
    hu.transactions hw.transactions
  bets := Table.perm_of_turns hne ha.bets hab.bets hb.bets hba.bets hu.bets hw.bets
  controls := Table.perm_of_turns hne ha.controls hab.controls hb.controls hba.controls hu.controls hw.controls

/-- Calls of two users that draw apart commute. -/
theorem answers_commute (h : BetsSeated db) (D : Digest) {call call' : Fresh × Request}
    (hne : call.2.userId ≠ call'.2.userId) (hapart : call.1.Apart call'.1) :
    (answer D call db).1 = (answer D call (answer D call' db).2).1 ∧
      (answer D call' (answer D call db).2).1 = (answer D call' db).1 ∧
        SameRows (answer D call' (answer D call db).2).2 (answer D call (answer D call' db).2).2 := by
  have hp := touchedBy_answer h D call
  have hq := touchedBy_answer h D call'
  have hseated : BetsSeated (answer D call db).2 := betsSeated_serve h D call.1 call.2
  have hseated' : BetsSeated (answer D call' db).2 := betsSeated_serve h D call'.1 call'.2
  obtain ⟨hres, hres', hlike, hlike'⟩ := Region.commute
    (F := playRegion call.2.userId (call.1.claims call.2.userId))
    (G := playRegion call'.2.userId (call'.1.claims call'.2.userId)) AlikeTo.refl
    (fun htouch => htouch.alikeTo hne.symm (hapart.disjoint hne)) AlikeTo.refl
    (fun htouch => htouch.alikeTo hne (hapart.symm.disjoint hne.symm))
    (within_serve h D call.1 call.2) (within_serve hseated' D call.1 call.2) (within_serve h D call'.1 call'.2)
    (within_serve hseated D call'.1 call'.2)
  exact ⟨hres, hres', sameRows_of_turns hne hp (touchedBy_answer hseated D call') hq
    (touchedBy_answer hseated' D call) hlike hlike'⟩

end Players

/-- **Players do not touch each other.** In every state of every interleaving, a request leaves the rows of all other
users alone, and the requests of two users that draw different ids commute. -/
theorem players_separate (D : Digest) (db : Db) (hnone : db.bets.rows = []) (moves : List (Move Call Fault))
    (c : Pool Call Stmt.Resp Fault Answer Db) (hc : (Pool.init db).replay exec (Call.prog D) moves = some c) :
    (∀ (call : Fresh × Request) (userId : Id), userId ≠ call.2.userId →
        RowsUntouched userId c.store (answer D call c.store).2) ∧
      ∀ call call' : Fresh × Request, call.2.userId ≠ call'.2.userId → call.1.Apart call'.1 →
        (answer D call c.store).1 = (answer D call (answer D call' c.store).2).1 ∧
          (answer D call' (answer D call c.store).2).1 = (answer D call' c.store).1 ∧
            SameRows (answer D call' (answer D call c.store).2).2 (answer D call (answer D call' c.store).2).2 := by
  have hempty : BetsSeated db := by
    intro b hb
    rw [hnone] at hb
    cases hb
  have hseated := betsSeated_replay hempty hc
  constructor
  · intro call userId hne
    exact (touchedBy_answer hseated D call).rowsUntouched hne
  · intro call call' hne hapart
    exact answers_commute hseated D hne hapart

/-- Two players with $100, each at a Mines table. -/
def twoPlayers : Db :=
  { tableDb .mines with
    gameSessions := ⟨[{ id := "s1", userId := "u1", gameId := "mines", startedAt := 0 },
      { id := "s2", userId := "u2", gameId := "mines", startedAt := 0 }], by decide⟩
    sminkWallets := ⟨[{ userId := "u1", balance := 10000 }, { userId := "u2", balance := 10000 }], by decide⟩ }

/-- The first player has opened a round. -/
def openedByFirst : List (Move Call Fault) :=
  .start (.play (freshAt 1) (.startMines "u1" "s1" (some 5) (some 3))) :: List.replicate 9 (.stmt 0)

/-- The second player cannot reveal a tile of it, and opening a round of its own commutes with such a reveal. -/
theorem players_separate_twoPlayers : ∃ c : Pool Call Stmt.Resp Fault Answer Db,
    (Pool.init twoPlayers).replay exec (Call.prog zeroDigest) openedByFirst = some c ∧
      (∃ b ∈ c.store.bets.rows, b.userId = "u1" ∧ b.reference = "MIN-1" ∧ b.status = .open) ∧
      RowsUntouched "u1" c.store
        (answer zeroDigest (freshAt 2, .revealMines "u2" "s1" "MIN-1" (some 20)) c.store).2 ∧
      SameRows
        (answer zeroDigest (freshAt 3, .startMines "u2" "s2" (some 5) (some 3))
          (answer zeroDigest (freshAt 2, .revealMines "u1" "s1" "MIN-1" (some 20)) c.store).2).2
        (answer zeroDigest (freshAt 2, .revealMines "u1" "s1" "MIN-1" (some 20))
          (answer zeroDigest (freshAt 3, .startMines "u2" "s2" (some 5) (some 3)) c.store).2).2 := by
  have hrun : ((Pool.init twoPlayers).replay exec (Call.prog zeroDigest) openedByFirst).any
      (fun c => decide (∃ b ∈ c.store.bets.rows, b.userId = "u1" ∧ b.reference = "MIN-1" ∧ b.status = .open)) =
        true := by decide +kernel
  obtain ⟨c, hc, hopen⟩ := (Option.any_eq_true _ _).1 hrun
  obtain ⟨huntouched, hcommute⟩ := players_separate zeroDigest twoPlayers rfl openedByFirst c hc
  have hids : ∀ id ∈ (freshAt 2).transactionIds, id ∉ (freshAt 3).transactionIds := by decide +kernel
  have hapart : (freshAt 2).Apart (freshAt 3) :=
    ⟨by decide +kernel, by decide +kernel, by decide +kernel, hids, by decide +kernel, by decide +kernel⟩
  exact ⟨c, hc, of_decide_eq_true hopen, huntouched _ "u1" (by decide), (hcommute _ _ (by decide) hapart).2.2⟩

end Smink
