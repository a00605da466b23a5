import Smink.Play.Reads

/-!
# What a request does to the bets

A request inserts a bet, moves one bet on, or leaves the bets alone. What `placeBet` and `openRound` insert is described
by `Placed` and `Opened`, also where a later statement of theirs throws; the moves of a grid round are the constructors
of `MinesMove` and `TowersMove`.
-/

namespace Smink

open Store

variable {db t : Db} {D : Digest} {fresh : Fresh} {userId sessionId : Id} {α β : Type}

/-! ## Frames -/

/-- The statement does not write bets. -/
def Stmt.sparesBets : Stmt → Bool
  | .insertBet _ | .updateBet _ _ => false
  | _ => true

/-- The statement reads, or opens a wallet. -/
def Stmt.onWallets : Stmt → Bool
  | .insertWallet _ => true
  | q => q.isRead

/-- The statement reads, or writes sessions. -/
def Stmt.onSessions : Stmt → Bool
  | .insertSession _ | .updateSession _ _ => true
  | q => q.isRead

/-- The statement reads, or writes control rows. -/
def Stmt.onControls : Stmt → Bool
  | .updateControl _ _ => true
  | q => q.isRead

/-- The databases differ in their wallets only. -/
def SameButWallets (db t : Db) : Prop := t = { db with sminkWallets := t.sminkWallets }

theorem exec_insertWallet_frame {r : List SminkWallet} (h : exec (.insertWallet userId) db = .ok (r, t)) :
    SameButWallets db t := by
  obtain ⟨u, -, he⟩ | ⟨-, he⟩ := exec_insertWallet userId db
  · rw [he] at h
    cases h
    exact rfl
  · rw [he] at h
    cases h
    exact rfl

/-- The catalogue is never written. -/
theorem exec_games {q : Stmt} {r : q.Resp} (h : exec q db = .ok (r, t)) : t.games = db.games := by
  cases q with
  | insertWallet userId =>
    have hframe := exec_insertWallet_frame h
    rw [hframe]
  | insertSession s => obtain ⟨u, -, he⟩ := orThrow_ok h; cases he; rfl
  | insertTransactions rs => obtain ⟨u, -, he⟩ := orThrow_ok h; cases he; rfl
  | insertBet b => obtain ⟨u, -, he⟩ := orThrow_ok h; cases he; rfl
  | _ => cases h; rfl

theorem run_games {p : Sql α} {a : Except Fault α} (h : p.run exec db = (a, t)) : t.games = db.games :=
  Prog.run_keeps h (J := fun u => u.games = db.games) (fun _ _ _ _ hu hr => (exec_games hr).trans hu) rfl

/-- Every session is still there, of the same player and game, and one that has ended stays ended. -/
def SessionsPersist (db t : Db) : Prop :=
  ∀ s ∈ db.gameSessions.rows, ∃ s' ∈ t.gameSessions.rows, s'.id = s.id ∧ s'.userId = s.userId ∧ s'.gameId = s.gameId ∧
    (s.endedAt.isSome = true → s'.endedAt.isSome = true)

theorem SessionsPersist.of_eq (h : t.gameSessions = db.gameSessions) : SessionsPersist db t := by
  intro s hs
  rw [h]
  exact ⟨s, hs, rfl, rfl, rfl, id⟩

theorem SessionsPersist.trans {u : Db} (h : SessionsPersist db t) (h' : SessionsPersist t u) :
    SessionsPersist db u := by
  intro s hs
  obtain ⟨s', hs', hid, hu, hg, he⟩ := h s hs
  obtain ⟨s'', hs'', hid', hu', hg', he'⟩ := h' s' hs'
  exact ⟨s'', hs'', hid'.trans hid, hu'.trans hu, hg'.trans hg, fun hend => he' (he hend)⟩

theorem exec_sessions {q : Stmt} {r : q.Resp} (h : exec q db = .ok (r, t)) : SessionsPersist db t := by
  cases q with
  | insertWallet userId =>
    have hframe := exec_insertWallet_frame h
    exact .of_eq (by rw [hframe])
  | insertSession s =>
    obtain ⟨u, hu, he⟩ := orThrow_ok h
    cases he
    intro a ha
    refine ⟨a, ?_, rfl, rfl, rfl, id⟩
    rw [Table.rows_insert hu]
    exact List.mem_append_left _ ha
  | updateSession p set =>
    cases h
    intro a ha
    refine ⟨_, Table.mem_update.2 ⟨a, ha, rfl⟩, ?_⟩
    cases hp : p a with
    | true =>
      rw [Table.updateRow_pos hp]
      refine ⟨rfl, rfl, rfl, fun hend => ?_⟩
      simp only [Settable.apply, Option.isSome_or, hend, Bool.or_true]
    | false =>
      rw [Table.updateRow_neg hp]
      exact ⟨rfl, rfl, rfl, id⟩
  | insertTransactions rs => obtain ⟨u, -, he⟩ := orThrow_ok h; cases he; exact .of_eq rfl
  | insertBet b => obtain ⟨u, -, he⟩ := orThrow_ok h; cases he; exact .of_eq rfl
  | _ => cases h; exact .of_eq rfl

theorem run_sessions {p : Sql α} {a : Except Fault α} (h : p.run exec db = (a, t)) : SessionsPersist db t :=
  Prog.run_keeps h (J := fun u => SessionsPersist db u) (fun _ _ _ _ hu hr => hu.trans (exec_sessions hr)) (.of_eq rfl)

/-- Every ledger row is still there, of its type. -/
def TypesPersist (db t : Db) : Prop :=
  ∀ a ∈ db.sminkTransactions.rows, ∃ b ∈ t.sminkTransactions.rows, b.id = a.id ∧ b.type = a.type

theorem TypesPersist.of_eq {db t : Db} (h : t.sminkTransactions = db.sminkTransactions) : TypesPersist db t := by
  intro a ha
  exact ⟨a, by rw [h]; exact ha, rfl, rfl⟩

theorem TypesPersist.trans {db t u : Db} (h : TypesPersist db t) (h' : TypesPersist t u) : TypesPersist db u := by
  intro a ha
  obtain ⟨b, hb, hid, htype⟩ := h a ha
  obtain ⟨c, hc, hid', htype'⟩ := h' b hb
  exact ⟨c, hc, hid'.trans hid, htype'.trans htype⟩

theorem exec_types {q : Stmt} {r : q.Resp} {db t : Db} (h : exec q db = .ok (r, t)) : TypesPersist db t := by
  cases q with
  | insertWallet userId =>
    have hframe := exec_insertWallet_frame h
    exact .of_eq (by rw [hframe])
  | insertSession s => obtain ⟨u, -, he⟩ := orThrow_ok h; cases he; exact .of_eq rfl
  | insertBet b => obtain ⟨u, -, he⟩ := orThrow_ok h; cases he; exact .of_eq rfl
  | insertTransactions rs =>
    obtain ⟨u, hu, he⟩ := orThrow_ok h
    cases he
    intro a ha
    refine ⟨a, ?_, rfl, rfl⟩
    rw [Table.rows_insertAll hu]
    exact List.mem_append_left _ ha
  | updateTransaction p set =>
    cases h
    intro a ha
    refine ⟨_, Table.mem_update.2 ⟨a, ha, rfl⟩, ?_⟩
    unfold Table.updateRow
    split <;> exact ⟨rfl, rfl⟩
  | _ => cases h; exact .of_eq rfl

theorem exec_sparesBets {q : Stmt} (hq : q.sparesBets = true) {r : q.Resp} (h : exec q db = .ok (r, t)) :
    t.bets = db.bets := by
  cases q with
  | insertWallet userId =>
    have hframe := exec_insertWallet_frame h
    rw [hframe]
  | insertSession s => obtain ⟨u, -, he⟩ := orThrow_ok h; cases he; rfl
  | insertTransactions rs => obtain ⟨u, -, he⟩ := orThrow_ok h; cases he; rfl
  | insertBet b => cases hq
  | updateBet p set => cases hq
  | _ => cases h; rfl

/-- A program that does not write bets leaves them alone. -/
theorem ends_sparesBets {p : Sql α} (hp : Reads Stmt.sparesBets p) (db : Db) :
    Prog.Ends exec p db fun _ t => t.bets = db.bets :=
  hp.ends_keeps (J := fun t => t.bets = db.bets) (fun _ hq _ _ _ hs hr => (exec_sparesBets hq hr).trans hs) rfl

theorem exec_onWallets {q : Stmt} (hq : q.onWallets = true) {r : q.Resp} (h : exec q db = .ok (r, t)) :
    SameButWallets db t := by
  cases q with
  | insertWallet userId => exact exec_insertWallet_frame h
  | _ => first
    | (cases h; exact rfl)
    | cases hq

theorem ends_onWallets {p : Sql α} (hp : Reads Stmt.onWallets p) (db : Db) :
    Prog.Ends exec p db fun _ t => SameButWallets db t := by
  refine hp.ends_keeps (J := fun t => SameButWallets db t) (fun q hq u r v hu hr => ?_) rfl
  have hv := exec_onWallets hq hr
  unfold SameButWallets at *
  rw [hv, hu]

theorem onWallets_requireWallet (userId : Id) : Reads Stmt.onWallets (requireWallet userId) := by
  refine reads_bind (reads_bind (p := ask _) ⟨rfl, fun _ => trivial⟩ fun rows => ?_) fun wallet => ?_
  · split
    · trivial
    · refine reads_bind (p := ask _) ⟨rfl, fun _ => trivial⟩ fun created => ?_
      split
      · trivial
      · exact ⟨rfl, fun _ => trivial⟩
  · split
    · split_ifs <;> trivial
    · trivial

theorem onControls_consumeForcedRound (row : Option UserGameControl) :
    Reads Stmt.onControls (consumeForcedRound row) := by
  unfold consumeForcedRound
  split
  · trivial
  · split_ifs
    · trivial
    · trivial
    · exact ⟨rfl, fun _ => trivial⟩

theorem onSessions_startSession (gameSlug : GameSlug) : Reads Stmt.onSessions (startSession fresh userId gameSlug) := by
  have read : ∀ q : Stmt, q.isRead = true → q.onSessions = true := by intro q hq; cases q <;> first | rfl | cases hq
  refine reads_bind ((reads_getPlayableGame ..).mono read) fun game => ?_
  exact ⟨rfl, fun _ => ⟨rfl, fun _ => (reads_toSessionDto ..).mono read⟩⟩

theorem onSessions_endSession : Reads Stmt.onSessions (endSession fresh userId sessionId) := by
  refine reads_bind (p := ask _) ⟨rfl, fun _ => trivial⟩ fun rows => ?_
  split
  · split
    · trivial
    · exact ⟨rfl, fun _ => trivial⟩
  · trivial

theorem sparesBets_of_isRead (q : Stmt) (hq : q.isRead = true) : q.sparesBets = true := by
  cases q <;> first | rfl | cases hq

theorem sparesBets_of_onSessions (q : Stmt) (hq : q.onSessions = true) : q.sparesBets = true := by
  cases q <;> first | rfl | cases hq

theorem sparesBets_of_onControls (q : Stmt) (hq : q.onControls = true) : q.sparesBets = true := by
  cases q <;> first | rfl | cases hq

/-! ## Placing a bet -/

/-- The draws of the seeds a bet records. -/
def Bet.draws (D : Digest) (b : Bet) : Stream :=
  seededFloat D { serverSeed := b.serverSeed, clientSeed := b.clientSeed, nonce := b.nonce }

/-- The control row that `getControlRule` finds. -/
def Db.controlRow (db : Db) (userId gameId : Id) : Option UserGameControl :=
  let rows := db.userGameControl.select fun c => c.userId == userId && (c.gameId == some gameId || c.gameId.isNone)
  (rows.find? fun c => c.gameId == some gameId).or rows.head?

theorem run_controlRow {gameId : Id} {row : Option UserGameControl}
    (h : (getControlRule userId gameId).run exec db = (.ok row, t)) : row = db.controlRow userId gameId :=
  (Except.ok.inj (Prod.mk.inj h).1).symm

theorem select_of_controlRow {gameId : Id} {row : UserGameControl} (h : db.controlRow userId gameId = some row) :
    row ∈ db.userGameControl.select fun c => c.userId == userId && (c.gameId == some gameId || c.gameId.isNone) :=
  mem_of_preferred h

theorem mem_of_controlRow {gameId : Id} {row : UserGameControl} (h : db.controlRow userId gameId = some row) :
    row ∈ db.userGameControl.rows :=
  (Table.mem_select.1 (select_of_controlRow h)).1

theorem user_of_controlRow {gameId : Id} {row : UserGameControl} (h : db.controlRow userId gameId = some row) :
    row.userId = userId := by
  have hp := (Table.mem_select.1 (select_of_controlRow h)).2
  rw [Bool.and_eq_true, beq_iff_eq] at hp
  exact hp.1

/-- The control rule that applies. -/
def Db.controlRule (db : Db) (userId gameId : Id) : Option ControlRule :=
  (db.controlRow userId gameId).map UserGameControl.rule

/-- `b` is what `placeBet` records of a round on `game` that `raw` is the result of. -/
structure Placed (D : Digest) (db : Db) (userId : Id) (slug : GameSlug) (game : Game) (forced : ForcedResult)
    (selection : GameSelection) (raw : RoundResult) (b : Bet) : Prop where
  seat : ∃ sessionId session, AtTable db userId sessionId slug session game ∧ b.sessionId = some sessionId
  instant : isInstantGame slug = true
  valid : ∃ value, validateSelection slug value = .ok selection
  userId_eq : b.userId = userId
  gameId_eq : b.gameId = game.id
  stake_pos : 0 < b.stake
  forced_eq : ∃ difficulty,
    forced = resolveControl (db.controlRule userId game.id) difficulty game.difficulty (b.draws D)
  controlled_eq : b.wasControlled = forced.isSome
  selection_eq : b.selection = some selection
  raw_eq : resolveRound slug selection (b.draws D) game.config forced = some raw
  outcome_eq : b.outcome = some (applyWinCap raw (db.controlRule userId game.id)).outcome
  multiplier_eq : b.multiplier = toFixed 4 (applyWinCap raw (db.controlRule userId game.id)).multiplier
  payout_eq : b.payout = betPayout (applyWinCap raw (db.controlRule userId game.id)) b.stake
  status_eq : b.status = if (applyWinCap raw (db.controlRule userId game.id)).won then .won else .lost

/-- The bets after `placeBet`: as before, or with one more. -/
def BetPlaced (D : Digest) (db t : Db) (userId : Id) (slug : GameSlug) : Prop :=
  ∃ game forced selection raw b, Placed D db userId slug game forced selection raw b ∧ db.bets.insert b = some t.bets

/-- **What `placeBet` does to the bets**, also where a statement of it throws. -/
theorem ends_placeBet (slug : GameSlug) (stakeInput : Num) (selectionInput : RawSelection) :
    Prog.Ends exec (placeBet D fresh userId sessionId slug stakeInput selectionInput) db fun _ t =>
      t.bets = db.bets ∨ BetPlaced D db t userId slug := by
  unfold placeBet
  split
  · exact .inl rfl
  rename_i hslug
  refine (oneRead_requireOpenSession ..).reads.ends_bind readOnly (fun ⟨session, game⟩ hrun => ?_) fun _ _ => .inl rfl
  have hseat := AtTable.of_run hrun
  refine (reads_of_done (done_orInvalid _)).ends_bind readOnly (fun validated hvalid => ?_) fun _ _ => .inl rfl
  refine (reads_of_done (done_orFail _)).ends_bind readOnly (fun stake hstake => ?_) fun _ _ => .inl rfl
  refine Prog.ends_bind ((ends_onWallets (onWallets_requireWallet userId) db).mono fun wallet u hu => ?_)
  have hbets : u.bets = db.bets := by rw [hu]
  have hcontrols : u.userGameControl = db.userGameControl := by rw [hu]
  cases wallet with
  | error e => exact .inl hbets
  | ok wallet =>
    refine (oneRead_nextNonce _).reads.ends_bind readOnly (fun nonce _ => ?_) fun _ _ => .inl hbets
    refine (oneRead_getControlRule ..).reads.ends_bind readOnly (fun row hrow => ?_) fun _ _ => .inl hbets
    refine (reads_of_done (done_orThrew _)).ends_bind readOnly (fun raw hraw => ?_) fun _ _ => .inl hbets
    dsimp only
    rw [ask_bind]
    refine Prog.ends_stmt (fun debited v hv => ?_) fun _ _ => .inl hbets
    cases hv
    split
    · rw [perform_bind]
      refine Prog.ends_stmt (fun _ v hv => ?_) fun _ _ => .inl hbets
      obtain ⟨bets, hins, he⟩ := orThrow_ok hv
      cases he
      -- the bet is there, and nothing after it writes bets
      refine (ends_sparesBets ?_ _).mono fun _ t ht => .inr ?_
      · refine reads_bind (p := perform (.insertTransactions _)) ⟨rfl, fun _ => trivial⟩ fun _ => ?_
        refine reads_bind (p := bumpSession _ _ _) ⟨rfl, fun _ => trivial⟩ fun _ => ?_
        exact reads_bind ((onControls_consumeForcedRound row).mono sparesBets_of_onControls) fun _ => trivial
      · have hrule : row.map UserGameControl.rule = db.controlRule userId game.id := by
          rw [run_controlRow hrow, Db.controlRule, Db.controlRow, Db.controlRow, hcontrols]
        rw [hbets, hrule] at hins
        refine ⟨game, controlFor row wallet slug game (resolveSeeds D fresh nonce), validated, raw, _, ?_,
          hins.trans (congrArg some ht.symm)⟩
        exact {
          seat := ⟨sessionId, session, hseat, rfl⟩
          instant := by simpa using hslug
          valid := ⟨selectionInput, orInvalid_ok (run_done (done_orInvalid _) hvalid)⟩
          userId_eq := rfl
          gameId_eq := rfl
          stake_pos := parseStake_pos (orFail_ok (run_done (done_orFail _) hstake))
          forced_eq := ⟨_, by rw [← hrule]; rfl⟩
          controlled_eq := rfl
          selection_eq := rfl
          raw_eq := orThrew_ok (run_done (done_orThrew _) hraw)
          outcome_eq := rfl
          multiplier_eq := rfl
          payout_eq := rfl
          status_eq := rfl }
    · exact .inl hbets

/-! ## The control rows and the answer of a bet -/

def UserGameControl.forces (row : UserGameControl) : Bool := row.mode == .forceWin || row.mode == .forceLoss

/-- The control rows after a round that `row` applied to has counted down. -/
def countDown (row : Option UserGameControl) (controls : Table UserGameControl) : Table UserGameControl :=
  match row with
  | some row =>
    if row.forces && decide (0 < row.forceRounds) then
      controls.update (fun c => c.id == row.id) ({ spend := 1 } : ControlSet)
    else controls
  | none => controls

theorem post_consume (row : Option UserGameControl) {x : β} :
    Prog.Post exec (consumeForcedRound row >>= fun _ => Prog.ret x) db fun r t =>
      r = .ok x ∧ t.bets = db.bets ∧ t.userGameControl = countDown row db.userGameControl := by
  unfold consumeForcedRound countDown UserGameControl.forces
  cases row with
  | none => exact ⟨rfl, rfl, rfl⟩
  | some row =>
    dsimp only
    by_cases hmode : row.mode ≠ .forceWin ∧ row.mode ≠ .forceLoss
    · rw [if_pos hmode, if_neg (by simp [hmode.1, hmode.2])]
      exact ⟨rfl, rfl, rfl⟩
    · rw [if_neg hmode]
      by_cases hleft : row.forceRounds ≤ 0
      · rw [if_pos hleft, if_neg (by simp [not_lt.2 hleft])]
        exact ⟨rfl, rfl, rfl⟩
      · rw [if_neg hleft, if_pos]
        · intro r t ht
          cases ht
          exact ⟨rfl, rfl, rfl⟩
        · rw [Bool.and_eq_true, decide_eq_true_iff, Bool.or_eq_true, beq_iff_eq, beq_iff_eq]
          refine ⟨?_, not_le.1 hleft⟩
          by_contra hnot
          exact hmode ⟨fun h => hnot (.inl h), fun h => hnot (.inr h)⟩

/-- The answer of `placeBet` is the bet that is stored, `settledAt` apart; its multiplier is not rounded to the
column. -/
structure BetAnswered (settled : SettledBet) (b : Bet) : Prop where
  reference_eq : b.reference = settled.reference
  sessionId_eq : b.sessionId = some settled.sessionId
  stake_eq : b.stake = settled.stake
  multiplier_eq : b.multiplier = toFixed 4 settled.multiplier
  payout_eq : b.payout = settled.payout
  status_eq : b.status = if settled.won then .won else .lost
  outcome_eq : b.outcome = some settled.outcome

/-- **What `placeBet` does when no statement throws**: it inserts a bet, counts down the row that applied to it, and
answers with the bet; or it does neither. -/
theorem post_placeBet (slug : GameSlug) (stakeInput : Num) (selectionInput : RawSelection) :
    Prog.Post exec (placeBet D fresh userId sessionId slug stakeInput selectionInput) db fun r t =>
      t.bets = db.bets ∧ t.userGameControl = db.userGameControl ∨
      ∃ settled b, r = .ok settled ∧ db.bets.insert b = some t.bets ∧
        t.userGameControl = countDown (db.controlRow b.userId b.gameId) db.userGameControl ∧ BetAnswered settled b ∧
        ∃ game ∈ db.games.rows, ∃ selection u forced raw, resolveRound slug selection u game.config forced = some raw ∧
          settled.multiplier = (applyWinCap raw (db.controlRule userId game.id)).multiplier := by
  unfold placeBet
  split
  · exact .inl ⟨rfl, rfl⟩
  refine (oneRead_requireOpenSession ..).reads.post_bind readOnly (fun ⟨session, game⟩ hrun => ?_) fun _ _ =>
    .inl ⟨rfl, rfl⟩
  have hat := AtTable.of_run hrun
  refine (reads_of_done (done_orInvalid _)).post_bind readOnly (fun validated _ => ?_) fun _ _ => .inl ⟨rfl, rfl⟩
  refine (reads_of_done (done_orFail _)).post_bind readOnly (fun stake _ => ?_) fun _ _ => .inl ⟨rfl, rfl⟩
  have hwallet := Prog.post_of_ends (ends_onWallets (onWallets_requireWallet userId) db)
  refine Prog.post_bind (hwallet.mono fun wallet u hu => ?_)
  have hbets : u.bets = db.bets := by rw [hu]
  have hcontrols : u.userGameControl = db.userGameControl := by rw [hu]
  cases wallet with
  | error e => exact .inl ⟨hbets, hcontrols⟩
  | ok wallet =>
    refine (oneRead_nextNonce _).reads.post_bind readOnly (fun nonce _ => ?_) fun _ _ => .inl ⟨hbets, hcontrols⟩
    refine (oneRead_getControlRule ..).reads.post_bind readOnly (fun row hrow => ?_) fun _ _ =>
      .inl ⟨hbets, hcontrols⟩
    have happlies : row = db.controlRow userId game.id := by
      rw [run_controlRow hrow, Db.controlRow, Db.controlRow, hcontrols]
    refine (reads_of_done (done_orThrew _)).post_bind readOnly (fun raw hraw => ?_) fun _ _ => .inl ⟨hbets, hcontrols⟩
    dsimp only
    rw [ask_bind]
    intro debited v hv
    cases hv
    beta_reduce
    split
    · intro _ v hv
      obtain ⟨bets, hins, he⟩ := orThrow_ok hv
      cases he
      intro _ v hv
      obtain ⟨ledger, -, he⟩ := orThrow_ok hv
      cases he
      intro _ v hv
      cases hv
      rw [hbets] at hins
      refine (post_consume row).mono fun r t ht => .inr ?_
      obtain ⟨hr, ht, hcount⟩ := ht
      refine ⟨_, _, hr, hins.trans (congrArg some ht.symm), ?_, ⟨rfl, rfl, rfl, rfl, rfl, rfl, rfl⟩, game,
        hat.game_mem, _, _, _, raw, orThrew_ok (run_done (done_orThrew _) hraw), ?_⟩
      · rw [hcount, happlies, hcontrols]
      · rw [Db.controlRule, ← happlies]
    · exact .inl ⟨hbets, hcontrols⟩

/-! ## Opening a round -/

/-- `b` is the round that `openRound` opens. -/
structure Opened {Sel : Type} (G : GridGame Sel) (D : Digest) (db : Db) (userId : Id) (game : Game)
    (forced : ForcedResult) (selection : Sel) (b : Bet) : Prop where
  seat : ∃ sessionId session, AtTable db userId sessionId G.slug session game ∧ b.sessionId = some sessionId
  valid : ∃ value validated, validateSelection G.slug value = .ok validated ∧ G.ofSelection validated = some selection ∧
    b.selection = some validated
  alone : ∀ a ∈ db.bets.rows, a.userId = userId → a.gameId = game.id → a.status ≠ .open
  userId_eq : b.userId = userId
  gameId_eq : b.gameId = game.id
  stake_pos : 0 < b.stake
  forced_eq : ∃ difficulty,
    forced = resolveControl (db.controlRule userId game.id) difficulty game.difficulty (b.draws D)
  outcome_eq : b.outcome = some (G.layout selection (b.draws D) forced)
  status_eq : b.status = .open
  multiplier_eq : b.multiplier = 0
  payout_eq : b.payout = 0

/-- The bets after `openRound`. -/
def BetOpened {Sel : Type} (G : GridGame Sel) (D : Digest) (db t : Db) (userId : Id) : Prop :=
  ∃ game forced selection b, Opened G D db userId game forced selection b ∧ db.bets.insert b = some t.bets

/-- **What `openRound` does to the bets**, also where a statement of it throws. -/
theorem ends_openRound {Sel : Type} (G : GridGame Sel) (stakeInput : Num) (selectionInput : RawSelection) :
    Prog.Ends exec (openRound G D fresh userId sessionId stakeInput selectionInput) db fun _ t =>
      t.bets = db.bets ∨ BetOpened G D db t userId := by
  unfold openRound
  refine (oneRead_requireOpenSession ..).reads.ends_bind readOnly (fun ⟨session, game⟩ hrun => ?_) fun _ _ => .inl rfl
  have hseat := AtTable.of_run hrun
  refine (reads_of_done (done_orInvalid _)).ends_bind readOnly (fun validated hvalid => ?_) fun _ _ => .inl rfl
  refine (reads_of_done (done_orFail _)).ends_bind readOnly (fun stake hstake => ?_) fun _ _ => .inl rfl
  rw [ask_bind]
  refine Prog.ends_stmt (fun opened v hv => ?_) fun _ _ => .inl rfl
  cases hv
  split
  · exact .inl rfl
  rename_i hnone
  refine Prog.ends_bind ((ends_onWallets (onWallets_requireWallet userId) db).mono fun wallet u hu => ?_)
  have hbets : u.bets = db.bets := by rw [hu]
  have hcontrols : u.userGameControl = db.userGameControl := by rw [hu]
  cases wallet with
  | error e => exact .inl hbets
  | ok wallet =>
    refine (oneRead_nextNonce _).reads.ends_bind readOnly (fun nonce _ => ?_) fun _ _ => .inl hbets
    refine (oneRead_getControlRule ..).reads.ends_bind readOnly (fun row hrow => ?_) fun _ _ => .inl hbets
    refine (reads_of_done (done_orThrew _)).ends_bind readOnly (fun selection hsel => ?_) fun _ _ => .inl hbets
    unfold debitStake
    rw [Prog.bind_assoc, ask_bind]
    refine Prog.ends_stmt (fun debited v hv => ?_) fun _ _ => .inl hbets
    cases hv
    split
    · rw [Prog.pure_eq, Prog.ret_bind, perform_bind]
      refine Prog.ends_stmt (fun _ v hv => ?_) fun _ _ => .inl hbets
      obtain ⟨bets, hins, he⟩ := orThrow_ok hv
      cases he
      refine (ends_sparesBets ?_ _).mono fun _ t ht => .inr ?_
      · refine reads_bind (p := perform (.insertTransactions _)) ⟨rfl, fun _ => trivial⟩ fun _ => ?_
        exact reads_bind (p := bumpSession _ _ _) ⟨rfl, fun _ => trivial⟩ fun _ => trivial
      · have hrule : row.map UserGameControl.rule = db.controlRule userId game.id := by
          rw [run_controlRow hrow, Db.controlRule, Db.controlRow, Db.controlRow, hcontrols]
        rw [hbets] at hins
        refine ⟨game, controlFor row wallet G.slug game (resolveSeeds D fresh nonce), selection, _, ?_,
          hins.trans (congrArg some ht.symm)⟩
        exact {
          seat := ⟨sessionId, session, hseat, rfl⟩
          valid := ⟨selectionInput, validated, orInvalid_ok (run_done (done_orInvalid _) hvalid),
            orThrew_ok (run_done (done_orThrew _) hsel), rfl⟩
          alone := fun a ha hu hg ho => by
            have hnot := Table.not_of_select_head hnone ha
            simp [hu, hg, ho] at hnot
          userId_eq := rfl
          gameId_eq := rfl
          stake_pos := parseStake_pos (orFail_ok (run_done (done_orFail _) hstake))
          forced_eq := ⟨_, by rw [← hrule]; rfl⟩
          outcome_eq := rfl
          status_eq := rfl
          multiplier_eq := rfl
          payout_eq := rfl }
    · exact .inl hbets

/-! ## Moving a round on -/

/-- The bet has become `bet'`, and no other bet has changed. -/
structure Turned (db t : Db) (bet bet' : Bet) : Prop where
  mem : bet ∈ db.bets.rows
  id_eq : bet'.id = bet.id
  rows : t.bets.rows = db.bets.rows.map fun a => if a.id = bet.id then bet' else a

section Turned

variable {u : Db} {bet bet' bet'' a : Bet}

theorem turned_setBet (hb : bet ∈ db.bets.rows) (set : BetSet) :
    Turned db (db.setBet bet set) bet (Settable.apply set bet) := by
  refine ⟨hb, rfl, List.map_congr_left fun a ha => ?_⟩
  unfold Table.updateRow
  by_cases hid : a.id = bet.id
  · simp [bet_eq_of_id ha hb hid]
  · simp [hid]

theorem Turned.trans (h : Turned db t bet bet') (h' : Turned t u bet' bet'') : Turned db u bet bet'' := by
  refine ⟨h.mem, h'.id_eq.trans h.id_eq, ?_⟩
  rw [h'.rows, h.rows, List.map_map]
  refine List.map_congr_left fun a _ => ?_
  by_cases hid : a.id = bet.id
  · simp [hid, h.id_eq]
  · simp [hid, h.id_eq]

theorem Turned.of_eq (h : Turned db t bet bet') (hu : u.bets = t.bets) : Turned db u bet bet' :=
  ⟨h.mem, h.id_eq, by rw [hu, h.rows]⟩

/-- The bets now are the one that has moved and the others. -/
theorem Turned.mem_iff (h : Turned db t bet bet') : a ∈ t.bets.rows ↔ a = bet' ∨ a ∈ db.bets.rows ∧ a.id ≠ bet.id := by
  rw [h.rows, List.mem_map]
  constructor
  · rintro ⟨c, hc, rfl⟩
    by_cases hid : c.id = bet.id
    · exact .inl (if_pos hid)
    · rw [if_neg hid]
      exact .inr ⟨hc, hid⟩
  · rintro (rfl | ⟨ha, hid⟩)
    · exact ⟨bet, h.mem, if_pos rfl⟩
    · exact ⟨a, ha, if_neg hid⟩

end Turned

/-- How a request of its owner moves a Mines bet: by a tile, or out. -/
inductive MinesMove (houseEdge : ℚ) (bet : Bet) : Option Nat → Bet → Prop
  | hit (now : Time) (tile : Nat) (hlt : tile < MINES_TILE_COUNT) (hnew : tile ∉ bet.revealed)
    (hmine : tile ∈ bet.minePositions.getD []) :
    MinesMove houseEdge bet (some tile)
      (Settable.apply (lostSet now (.mines (bet.minePositions.getD []) (bet.revealed ++ [tile]))) bet)
  | safe (tile : Nat) (hlt : tile < MINES_TILE_COUNT) (hnew : tile ∉ bet.revealed)
    (hsafe : tile ∉ bet.minePositions.getD []) (hroom : bet.revealed.length + 1 + bet.mineCount < MINES_TILE_COUNT) :
    MinesMove houseEdge bet (some tile) (Settable.apply (revealSet
      (minesMultiplier bet.mineCount (bet.revealed.length + 1) houseEdge)
      (.mines (bet.minePositions.getD []) (bet.revealed ++ [tile]))) bet)
  /-- The board is clear, and the round cashes out by itself. -/
  | clear (now : Time) (tile : Nat) (hlt : tile < MINES_TILE_COUNT) (hnew : tile ∉ bet.revealed)
    (hsafe : tile ∉ bet.minePositions.getD []) (hfull : MINES_TILE_COUNT ≤ bet.revealed.length + 1 + bet.mineCount)
    (shown : Bet) (hshown : shown = Settable.apply (revealSet
      (minesMultiplier bet.mineCount (bet.revealed.length + 1) houseEdge)
      (.mines (bet.minePositions.getD []) (bet.revealed ++ [tile]))) bet) :
    MinesMove houseEdge bet (some tile) (Settable.apply (cashedOutSet now (cashOutPayout shown)) shown)
  | cashOut (now : Time) (hsome : bet.revealed ≠ []) :
    MinesMove houseEdge bet none (Settable.apply (cashedOutSet now (cashOutPayout bet)) bet)

/-- How a request of its owner moves a Towers bet. -/
inductive TowersMove (houseEdge : ℚ) (bet : Bet) : Option Nat → Bet → Prop
  | hit (now : Time) (difficulty : TowersDifficulty) (hd : bet.difficulty = some difficulty) (tile : Nat)
    (hlt : tile < (towersConfig difficulty).tiles) (hrow : bet.picks.length < (towersConfig difficulty).rows)
    (htrap : tile ∈ (bet.traps.getD []).getD bet.picks.length []) :
    TowersMove houseEdge bet (some tile)
      (Settable.apply (lostSet now (.towers (bet.traps.getD []) (bet.picks ++ [tile]))) bet)
  | safe (difficulty : TowersDifficulty) (hd : bet.difficulty = some difficulty) (tile : Nat)
    (hlt : tile < (towersConfig difficulty).tiles)
    (hsafe : tile ∉ (bet.traps.getD []).getD bet.picks.length [])
    (hroom : bet.picks.length + 1 < (towersConfig difficulty).rows) :
    TowersMove houseEdge bet (some tile) (Settable.apply (revealSet
      (towersMultiplier difficulty (bet.picks.length + 1) houseEdge)
      (.towers (bet.traps.getD []) (bet.picks ++ [tile]))) bet)
  /-- The top is reached, and the round cashes out by itself. -/
  | clear (now : Time) (difficulty : TowersDifficulty) (hd : bet.difficulty = some difficulty) (tile : Nat)
    (hlt : tile < (towersConfig difficulty).tiles)
    (hsafe : tile ∉ (bet.traps.getD []).getD bet.picks.length [])
    (hrow : bet.picks.length + 1 = (towersConfig difficulty).rows)
    (shown : Bet) (hshown : shown = Settable.apply (revealSet
      (towersMultiplier difficulty (bet.picks.length + 1) houseEdge)
      (.towers (bet.traps.getD []) (bet.picks ++ [tile]))) bet) :
    TowersMove houseEdge bet (some tile) (Settable.apply (cashedOutSet now (cashOutPayout shown)) shown)
  | cashOut (now : Time) (hsome : bet.picks ≠ []) :
    TowersMove houseEdge bet none (Settable.apply (cashedOutSet now (cashOutPayout bet)) bet)

/-- A bet of the user has moved at the table of its session. -/
def BetMoved (slug : GameSlug) (move : ℚ → Bet → Option Nat → Bet → Prop) (step : Option Nat) (db t : Db)
    (userId sessionId : Id) (betReference : String) : Prop :=
  ∃ session game bet bet', AtTable db userId sessionId slug session game ∧
    OpenRound db userId sessionId betReference bet ∧ Turned db t bet bet' ∧ move game.houseEdge bet step bet'

section Moves

variable {betReference : String} {bet : Bet} {session : GameSession} {game : Game}

/-- A settlement that pays writes the wallet and the bet, and nothing after that touches them. -/
theorem ends_payOut_rows (slug : GameSlug) (f : Option Money → Sql α) (hf : ∀ a, (f a).done = true) :
    Prog.Ends exec (payOut fresh slug userId sessionId betReference bet >>= f) db fun _ t =>
      t.bets = (db.setBet bet (cashedOutSet fresh.now (cashOutPayout bet))).bets ∧
        t.sminkWallets =
          db.sminkWallets.update (fun w => w.userId == userId) (releaseSet bet.stake (cashOutPayout bet)) := by
  refine Prog.ends_stmt (fun _ u hu => ?_) fun _ he => by cases he
  cases hu
  refine Prog.ends_stmt (fun _ u hu => ?_) fun _ he => by cases he
  cases hu
  refine Prog.ends_stmt (fun _ u hu => ?_) fun _ _ => ⟨rfl, rfl⟩
  obtain ⟨ledger, -, he⟩ := orThrow_ok hu
  cases he
  refine Prog.ends_stmt (fun _ u hu => ?_) fun _ he => by cases he
  cases hu
  exact Prog.ends_of_done (hf _) fun _ => ⟨rfl, rfl⟩

theorem ends_payOut (slug : GameSlug) (f : Option Money → Sql α) (hf : ∀ a, (f a).done = true) :
    Prog.Ends exec (payOut fresh slug userId sessionId betReference bet >>= f) db fun _ t =>
      t.bets = (db.setBet bet (cashedOutSet fresh.now (cashOutPayout bet))).bets :=
  (ends_payOut_rows slug f hf).mono fun _ _ ht => ht.1

/-- The store after a lost round. -/
def Db.lose (db : Db) (userId : Id) (bet : Bet) (set : BetSet) : Db :=
  { db.setBet bet set with
    sminkWallets := db.sminkWallets.update (fun w => w.userId == userId) (releaseSet bet.stake 0) }

theorem turned_lose (hb : bet ∈ db.bets.rows) (set : BetSet) :
    Turned db (db.lose userId bet set) bet (Settable.apply set bet) :=
  (turned_setBet hb set).of_eq rfl

theorem ends_settleLost (now : Time) (outcome : GameOutcome) (f : Unit → Sql α) (hf : (f ()).done = true) :
    Prog.Ends exec (settleLost now userId bet outcome >>= f) db fun _ t =>
      t = db.lose userId bet (lostSet now outcome) := by
  refine Prog.ends_stmt (fun _ u hu => ?_) fun _ he => by cases he
  cases hu
  refine Prog.ends_stmt (fun _ u hu => ?_) fun _ he => by cases he
  cases hu
  exact Prog.ends_of_done hf fun _ => rfl

/-- A cash-out that its checks let through. -/
theorem ends_cashOutMines_of (hat : AtTable db userId sessionId .mines session game)
    (hb : OpenRound db userId sessionId betReference bet) (hsome : bet.revealed ≠ []) :
    Prog.Ends exec (cashOutMines fresh userId sessionId betReference) db fun _ t =>
      t.bets = (db.setBet bet (cashedOutSet fresh.now (cashOutPayout bet))).bets := by
  unfold cashOutMines
  refine Prog.ends_bind_ok hat.run (Prog.ends_bind_ok (findRound_of hb) ?_)
  rw [if_neg hsome]
  exact ends_payOut .mines _ fun _ => rfl

theorem ends_cashOutTowers_of (hat : AtTable db userId sessionId .towers session game)
    (hb : OpenRound db userId sessionId betReference bet) (hsome : bet.picks ≠ []) :
    Prog.Ends exec (cashOutTowers fresh userId sessionId betReference) db fun _ t =>
      t.bets = (db.setBet bet (cashedOutSet fresh.now (cashOutPayout bet))).bets := by
  unfold cashOutTowers
  refine Prog.ends_bind_ok hat.run (Prog.ends_bind_ok (findRound_of hb) ?_)
  rw [if_neg hsome]
  exact ends_payOut .towers _ fun _ => by cases bet.difficulty <;> rfl

theorem ends_cashOutMines : Prog.Ends exec (cashOutMines fresh userId sessionId betReference) db fun _ t =>
    t.bets = db.bets ∨ BetMoved .mines MinesMove none db t userId sessionId betReference := by
  unfold cashOutMines
  refine (oneRead_requireOpenSession ..).reads.ends_bind readOnly (fun ⟨session, game⟩ hrun => ?_) fun _ _ => .inl rfl
  refine (oneRead_findRound ..).reads.ends_bind readOnly (fun bet hbet => ?_) fun _ _ => .inl rfl
  have hb := run_findRound hbet
  split
  · exact .inl rfl
  · rename_i hsome
    refine (ends_payOut .mines _ fun _ => rfl).mono fun _ t ht => .inr ?_
    exact ⟨session, game, bet, _, AtTable.of_run hrun, hb, (turned_setBet hb.mem _).of_eq ht, .cashOut _ hsome⟩

theorem ends_cashOutTowers : Prog.Ends exec (cashOutTowers fresh userId sessionId betReference) db fun _ t =>
    t.bets = db.bets ∨ BetMoved .towers TowersMove none db t userId sessionId betReference := by
  unfold cashOutTowers
  refine (oneRead_requireOpenSession ..).reads.ends_bind readOnly (fun ⟨session, game⟩ hrun => ?_) fun _ _ => .inl rfl
  refine (oneRead_findRound ..).reads.ends_bind readOnly (fun bet hbet => ?_) fun _ _ => .inl rfl
  have hb := run_findRound hbet
  split
  · exact .inl rfl
  · rename_i hsome
    refine (ends_payOut .towers _ fun _ => by cases bet.difficulty <;> rfl).mono fun _ t ht => .inr ?_
    exact ⟨session, game, bet, _, AtTable.of_run hrun, hb, (turned_setBet hb.mem _).of_eq ht, .cashOut _ hsome⟩

/-- A reveal of a tile that its checks let through. -/
theorem ends_revealMines_of (hat : AtTable db userId sessionId .mines session game)
    (hb : OpenRound db userId sessionId betReference bet) {value : Num} {tile : Nat}
    (htile : naturalNumber value = some tile)
    (hlt : tile < MINES_TILE_COUNT) (hnew : tile ∉ bet.revealed) :
    Prog.Ends exec (revealMines fresh userId sessionId betReference value) db fun _ t =>
      ∃ bet', Turned db t bet bet' ∧ MinesMove game.houseEdge bet (some tile) bet' ∧
        (tile ∈ bet.minePositions.getD [] → bet'.status = .lost ∧ ∃ set, t = db.lose userId bet set) ∧
        (tile ∉ bet.minePositions.getD [] → MINES_TILE_COUNT ≤ bet.revealed.length + 1 + bet.mineCount →
          bet'.status = .cashedOut ∧
            bet'.multiplier = toFixed 4 (minesMultiplier bet.mineCount (bet.revealed.length + 1) game.houseEdge)) := by
  unfold revealMines
  rw [htile]
  dsimp only
  rw [if_neg (not_le.2 hlt)]
  refine Prog.ends_bind_ok hat.run (Prog.ends_bind_ok (findRound_of hb) ?_)
  dsimp only
  rw [if_neg hnew]
  split
  · rename_i hmine
    refine (ends_settleLost _ _ _ rfl).mono fun _ t ht => ?_
    subst ht
    exact ⟨_, turned_lose hb.mem _, .hit _ _ hlt hnew hmine, fun _ => ⟨rfl, _, rfl⟩, fun hsafe => absurd hmine hsafe⟩
  · rename_i hsafe
    refine Prog.ends_stmt (fun _ u hu => ?_) fun _ he => by cases he
    cases hu
    have hturned := turned_setBet hb.mem (revealSet
      (minesMultiplier bet.mineCount (bet.revealed ++ [tile]).length game.houseEdge)
      (.mines (bet.minePositions.getD []) (bet.revealed ++ [tile])))
    rw [List.length_append, List.length_singleton] at hturned ⊢
    split
    · rename_i hfull
      -- the nested cash-out finds the bet as the reveal has left it
      refine Prog.Ends.mono (ends_cashOutMines_of (hat.of_eq rfl rfl) (openRound_setBet hb rfl) ?_) fun _ t ht => ?_
      · simp [Bet.revealed, Settable.apply, revealSet]
      · refine ⟨_, (hturned.trans (turned_setBet (hturned.mem_iff.2 (.inl rfl)) _)).of_eq ht,
          .clear _ tile hlt hnew hsafe (by omega) _ rfl, fun hmine => absurd hmine hsafe, fun _ _ => ⟨rfl, rfl⟩⟩
    · rename_i hroom
      exact ⟨_, hturned, .safe tile hlt hnew hsafe (by omega), fun hmine => absurd hmine hsafe, fun _ hfull => by omega⟩

theorem ends_revealMines (value : Num) :
    Prog.Ends exec (revealMines fresh userId sessionId betReference value) db fun _ t =>
      t.bets = db.bets ∨ ∃ tile, naturalNumber value = some tile ∧
        BetMoved .mines MinesMove (some tile) db t userId sessionId betReference := by
  by_cases hpass : ∃ session game bet tile, AtTable db userId sessionId .mines session game ∧
      OpenRound db userId sessionId betReference bet ∧ naturalNumber value = some tile ∧ tile < MINES_TILE_COUNT ∧
        tile ∉ bet.revealed
  · obtain ⟨session, game, bet, tile, hat, hb, htile, hlt, hnew⟩ := hpass
    refine (ends_revealMines_of hat hb htile hlt hnew).mono fun _ t ht => .inr ?_
    obtain ⟨bet', hturned, hmove, -⟩ := ht
    exact ⟨tile, htile, session, game, bet, bet', hat, hb, hturned, hmove⟩
  · -- one of the checks answers
    unfold revealMines
    split
    · rename_i tile htile
      split
      · exact .inl rfl
      rename_i hlt
      refine (oneRead_requireOpenSession ..).reads.ends_bind readOnly (fun ⟨session, game⟩ hrun => ?_)
        fun _ _ => .inl rfl
      refine (oneRead_findRound ..).reads.ends_bind readOnly (fun bet hbet => ?_) fun _ _ => .inl rfl
      dsimp only
      split
      · exact .inl rfl
      · rename_i hnew
        exact absurd ⟨session, game, bet, tile, AtTable.of_run hrun, run_findRound hbet, htile, not_le.1 hlt,
          hnew⟩ hpass
    · exact .inl rfl

/-- A pick of a tile that its checks let through. -/
theorem ends_revealTowers_of (hat : AtTable db userId sessionId .towers session game)
    (hb : OpenRound db userId sessionId betReference bet) {value : Num} {tile : Nat}
    (htile : naturalNumber value = some tile)
    {difficulty : TowersDifficulty} (hd : bet.difficulty = some difficulty)
    (hlt : tile < (towersConfig difficulty).tiles)
    (hrow : bet.picks.length < (towersConfig difficulty).rows) :
    Prog.Ends exec (revealTowers fresh userId sessionId betReference value) db fun _ t =>
      ∃ bet', Turned db t bet bet' ∧ TowersMove game.houseEdge bet (some tile) bet' ∧
        (tile ∈ (bet.traps.getD []).getD bet.picks.length [] → bet'.status = .lost ∧
          ∃ set, t = db.lose userId bet set) ∧
        (tile ∉ (bet.traps.getD []).getD bet.picks.length [] → bet.picks.length + 1 = (towersConfig difficulty).rows →
          bet'.status = .cashedOut ∧
            bet'.multiplier = toFixed 4 (towersMultiplier difficulty (bet.picks.length + 1) game.houseEdge)) := by
  unfold revealTowers
  refine Prog.ends_bind_ok hat.run (Prog.ends_bind_ok (findRound_of hb) ?_)
  rw [htile, hd]
  dsimp only [orThrew]
  rw [Prog.pure_eq, Prog.ret_bind, if_neg (not_le.2 hlt), if_neg (not_le.2 hrow)]
  split
  · rename_i htrap
    refine (ends_settleLost _ _ _ rfl).mono fun _ t ht => ?_
    subst ht
    exact ⟨_, turned_lose hb.mem _, .hit _ difficulty hd tile hlt hrow htrap, fun _ => ⟨rfl, _, rfl⟩,
      fun hsafe => absurd htrap hsafe⟩
  · rename_i hsafe
    refine Prog.ends_stmt (fun _ u hu => ?_) fun _ he => by cases he
    cases hu
    have hturned := turned_setBet hb.mem (revealSet
      (towersMultiplier difficulty (bet.picks ++ [tile]).length game.houseEdge)
      (.towers (bet.traps.getD []) (bet.picks ++ [tile])))
    rw [List.length_append, List.length_singleton] at hturned ⊢
    split
    · rename_i hfull
      refine Prog.Ends.mono (ends_cashOutTowers_of (hat.of_eq rfl rfl) (openRound_setBet hb rfl) ?_) fun _ t ht => ?_
      · simp [Bet.picks, Settable.apply, revealSet]
      · refine ⟨_, (hturned.trans (turned_setBet (hturned.mem_iff.2 (.inl rfl)) _)).of_eq ht,
          .clear _ difficulty hd tile hlt hsafe (by omega) _ rfl, fun htrap => absurd htrap hsafe,
          fun _ _ => ⟨rfl, rfl⟩⟩
    · rename_i hroom
      exact ⟨_, hturned, .safe difficulty hd tile hlt hsafe (by omega), fun htrap => absurd htrap hsafe,
        fun _ hfull => by omega⟩

theorem ends_revealTowers (value : Num) :
    Prog.Ends exec (revealTowers fresh userId sessionId betReference value) db fun _ t =>
      t.bets = db.bets ∨ ∃ tile, naturalNumber value = some tile ∧
        BetMoved .towers TowersMove (some tile) db t userId sessionId betReference := by
  by_cases hpass : ∃ session game bet tile difficulty, AtTable db userId sessionId .towers session game ∧
      OpenRound db userId sessionId betReference bet ∧ naturalNumber value = some tile ∧
        bet.difficulty = some difficulty ∧
        tile < (towersConfig difficulty).tiles ∧ bet.picks.length < (towersConfig difficulty).rows
  · obtain ⟨session, game, bet, tile, difficulty, hat, hb, htile, hd, hlt, hrow⟩ := hpass
    refine (ends_revealTowers_of hat hb htile hd hlt hrow).mono fun _ t ht => .inr ?_
    obtain ⟨bet', hturned, hmove, -⟩ := ht
    exact ⟨tile, htile, session, game, bet, bet', hat, hb, hturned, hmove⟩
  · unfold revealTowers
    refine (oneRead_requireOpenSession ..).reads.ends_bind readOnly (fun ⟨session, game⟩ hrun => ?_) fun _ _ => .inl rfl
    refine (oneRead_findRound ..).reads.ends_bind readOnly (fun bet hbet => ?_) fun _ _ => .inl rfl
    split
    · rename_i tile htile
      refine (reads_of_done (done_orThrew _)).ends_bind readOnly (fun difficulty hdiff => ?_) fun _ _ => .inl rfl
      dsimp only
      split
      · exact .inl rfl
      rename_i hlt
      split
      · exact .inl rfl
      · rename_i hrow
        exact absurd ⟨session, game, bet, tile, difficulty, AtTable.of_run hrun, run_findRound hbet, htile,
          orThrew_ok (run_done (done_orThrew _) hdiff), not_le.1 hlt, not_le.1 hrow⟩ hpass
    · exact .inl rfl

end Moves

/-! ## Requests -/

/-- What a request has done to the bets. -/
inductive BetEffect (D : Digest) (db t : Db) : Request → Prop
  | same (request : Request) (h : t.bets = db.bets) : BetEffect D db t request
  | placed {userId sessionId : Id} {slug : GameSlug} {stakeInput : Num} {selectionInput : RawSelection}
    (h : BetPlaced D db t userId slug) : BetEffect D db t (.placeBet userId sessionId slug stakeInput selectionInput)
  | openedMines {userId sessionId : Id} {stakeInput mineCountInput : Num} (h : BetOpened minesGame D db t userId) :
    BetEffect D db t (.startMines userId sessionId stakeInput mineCountInput)
  | openedTowers {userId sessionId : Id} {stakeInput : Num} {difficultyInput : String}
    (h : BetOpened towersGame D db t userId) :
    BetEffect D db t (.startTowers userId sessionId stakeInput difficultyInput)
  | shownMines {userId sessionId : Id} {betReference : String} {value : Num} {tile : Nat}
    (htile : naturalNumber value = some tile)
    (h : BetMoved .mines MinesMove (some tile) db t userId sessionId betReference) :
    BetEffect D db t (.revealMines userId sessionId betReference value)
  | cashedOutMines {userId sessionId : Id} {betReference : String}
    (h : BetMoved .mines MinesMove none db t userId sessionId betReference) :
    BetEffect D db t (.cashOutMines userId sessionId betReference)
  | shownTowers {userId sessionId : Id} {betReference : String} {value : Num} {tile : Nat}
    (htile : naturalNumber value = some tile)
    (h : BetMoved .towers TowersMove (some tile) db t userId sessionId betReference) :
    BetEffect D db t (.revealTowers userId sessionId betReference value)
  | cashedOutTowers {userId sessionId : Id} {betReference : String}
    (h : BetMoved .towers TowersMove none db t userId sessionId betReference) :
    BetEffect D db t (.cashOutTowers userId sessionId betReference)

/-- What a request answers does not touch the store. -/
theorem ends_answer {p : Sql α} {f : α → β} {J : Db → Prop} (h : Prog.Ends exec p db fun _ t => J t) :
    Prog.Ends exec (p >>= fun a => pure (f a)) db fun _ t => J t := by
  refine Prog.ends_bind (h.mono fun r t ht => ?_)
  cases r <;> exact ht

/-- **What a request does to the bets.** -/
theorem ends_serve (D : Digest) (fresh : Fresh) (request : Request) (db : Db) :
    Prog.Ends exec (serve D fresh request) db fun _ t => BetEffect D db t request := by
  have spares : ∀ {γ : Type} {p : Sql γ}, Reads Stmt.sparesBets p →
      Prog.Ends exec p db fun _ t => BetEffect D db t request :=
    fun hp => (ends_sparesBets hp db).mono fun _ _ ht => .same request ht
  cases request with
  | startSession userId gameSlug =>
    exact ends_answer (spares ((onSessions_startSession gameSlug).mono sparesBets_of_onSessions))
  | endSession userId sessionId => exact ends_answer (spares (onSessions_endSession.mono sparesBets_of_onSessions))
  | getSession userId sessionId => exact ends_answer (spares ((reads_getSession ..).mono sparesBets_of_isRead))
  | placeBet userId sessionId slug stakeInput selectionInput =>
    exact ends_answer ((ends_placeBet slug stakeInput selectionInput).mono fun _ _ ht => ht.elim (.same _) .placed)
  | startMines userId sessionId stakeInput mineCountInput =>
    exact ends_answer (ends_answer ((ends_openRound minesGame stakeInput _).mono fun _ _ ht =>
      ht.elim (.same _) .openedMines))
  | revealMines userId sessionId betReference tile =>
    exact ends_answer ((ends_revealMines tile).mono fun _ _ ht => ht.elim (.same _) fun ⟨_, hv, h⟩ => .shownMines hv h)
  | cashOutMines userId sessionId betReference =>
    exact ends_answer (ends_cashOutMines.mono fun _ _ ht => ht.elim (.same _) .cashedOutMines)
  | getOpenMines userId sessionId => exact ends_answer (spares ((reads_getOpenMines ..).mono sparesBets_of_isRead))
  | startTowers userId sessionId stakeInput difficultyInput =>
    exact ends_answer (ends_answer ((ends_openRound towersGame stakeInput _).mono fun _ _ ht =>
      ht.elim (.same _) .openedTowers))
  | revealTowers userId sessionId betReference tile =>
    exact ends_answer ((ends_revealTowers tile).mono fun _ _ ht =>
      ht.elim (.same _) fun ⟨_, hv, h⟩ => .shownTowers hv h)
  | cashOutTowers userId sessionId betReference =>
    exact ends_answer (ends_cashOutTowers.mono fun _ _ ht => ht.elim (.same _) .cashedOutTowers)
  | getOpenTowers userId sessionId => exact ends_answer (spares ((reads_getOpenTowers ..).mono sparesBets_of_isRead))

end Smink
