import Smink.Play.OneRound
import Smink.Play.Serial
import Smink.Store.Alone

/-!
# What a player's row of calls keeps in order

`nextNonce` counts the bets of the player, `startSession` ends the open sessions before it inserts one, `openRound`
looks for an open round before it inserts one. Each reads and inserts in different statements, so calls of one player
that overlap can break all three. Calls in turn cannot, whatever other players do in between and wherever a statement
fails (`turns_keep_order`): nonces count the bets, and a player has one open session and one open round of a game.
-/

namespace Smink

open Store

/-- The bets of a player, in the order in which they were placed. -/
def Db.betsOf (db : Db) (userId : Id) : List Bet := db.bets.select fun b => b.userId == userId

/-- The nonces of a player are `1`, `2` and so on, in the order of the bets. -/
def NoncesInOrder (db : Db) : Prop :=
  ∀ userId, (db.betsOf userId).map Bet.nonce = List.range' 1 (db.betsOf userId).length

/-- The open sessions of a player at a game. -/
def Db.openSessions (db : Db) (userId gameId : Id) : List GameSession :=
  db.gameSessions.select fun s => s.userId == userId && s.gameId == gameId && s.endedAt.isNone

/-- No player has two open sessions of one game. -/
def OneOpenSession (db : Db) : Prop := ∀ userId gameId, (db.openSessions userId gameId).length ≤ 1

structure Orderly (db : Db) : Prop where
  nonces : NoncesInOrder db
  sessions : OneOpenSession db
  rounds : OneOpenRound db

/-! ## One statement -/

/-- The statement inserts neither bet nor session, and opens no bet. -/
def Stmt.addsNothing : Stmt → Bool
  | .insertBet _ | .insertSession _ => false
  | .updateBet _ set => decide (set.status ≠ some .open)
  | _ => true

section Statements

variable {db t : Db}

theorem betsOf_update (p : Bet → Bool) (set : BetSet) (userId : Id) :
    (Db.betsOf { db with bets := db.bets.update p set } userId).map Bet.nonce = (db.betsOf userId).map Bet.nonce := by
  unfold Db.betsOf Table.select
  dsimp only
  rw [Table.rows_update]
  induction db.bets.rows with
  | nil => rfl
  | cons b rows ih =>
    have huser : (Table.updateRow p set b).userId = b.userId := by
      unfold Table.updateRow
      split <;> rfl
    have hnonce : (Table.updateRow p set b).nonce = b.nonce := by
      unfold Table.updateRow
      split <;> rfl
    by_cases hb : b.userId = userId
    · simp [huser, hnonce, hb, ih]
    · simp [huser, hb, ih]

/-- An update ends sessions, and opens none. -/
theorem length_openSessions_update (p : GameSession → Bool) (set : SessionSet) (userId gameId : Id) :
    (Db.openSessions { db with gameSessions := db.gameSessions.update p set } userId gameId).length ≤
      (db.openSessions userId gameId).length := by
  unfold Db.openSessions Table.select
  dsimp only
  rw [Table.rows_update, List.filter_map, List.length_map]
  refine List.Sublist.length_le (List.monotone_filter_right _ fun s hs => ?_)
  unfold Table.updateRow at hs
  dsimp only [Function.comp_apply] at hs
  split at hs
  · simp only [Bool.and_eq_true, beq_iff_eq, Option.isNone_iff_eq_none] at hs ⊢
    obtain ⟨hrow, hnone⟩ := hs
    refine ⟨hrow, ?_⟩
    cases hended : s.endedAt with
    | none => rfl
    | some time =>
      have hset : set.endedAt.or s.endedAt = none := hnone
      rw [hended] at hset
      cases hset' : set.endedAt <;> rw [hset'] at hset <;> cases hset
  · exact hs

theorem NoncesInOrder.of_nonces (h : NoncesInOrder db)
    (ht : ∀ userId, (t.betsOf userId).map Bet.nonce = (db.betsOf userId).map Bet.nonce) : NoncesInOrder t := by
  intro userId
  have hlength := congrArg List.length (ht userId)
  rw [List.length_map, List.length_map] at hlength
  rw [ht, hlength]
  exact h userId

theorem OneOpenSession.of_eq (h : OneOpenSession db) (ht : t.gameSessions = db.gameSessions) : OneOpenSession t := by
  intro userId gameId
  unfold Db.openSessions
  rw [ht]
  exact h userId gameId

/-- A statement that adds nothing. -/
theorem Orderly.exec {q : Stmt} {r : q.Resp} (h : Orderly db) (hq : q.addsNothing = true)
    (hr : exec q db = .ok (r, t)) : Orderly t := by
  cases q with
  | insertBet b => cases hq
  | insertSession s => cases hq
  | updateBet p set =>
    cases hr
    exact {
      nonces := h.nonces.of_nonces fun userId => betsOf_update p set userId
      sessions := h.sessions.of_eq rfl
      rounds := fun userId gameId =>
        (length_openRounds_update (of_decide_eq_true hq) userId gameId).trans (h.rounds userId gameId) }
  | updateSession p set =>
    cases hr
    exact {
      nonces := h.nonces.of_nonces fun _ => rfl
      sessions := fun userId gameId => (length_openSessions_update p set userId gameId).trans (h.sessions userId gameId)
      rounds := h.rounds.of_eq rfl }
  | insertTransactions rs =>
    obtain ⟨v, -, he⟩ := orThrow_ok hr
    cases he
    exact ⟨h.nonces.of_nonces fun _ => rfl, h.sessions.of_eq rfl, h.rounds.of_eq rfl⟩
  | insertWallet id =>
    obtain ⟨u, -, he⟩ | ⟨-, he⟩ := exec_insertWallet id db
    · rw [he] at hr
      cases hr
      exact ⟨h.nonces.of_nonces fun _ => rfl, h.sessions.of_eq rfl, h.rounds.of_eq rfl⟩
    · rw [he] at hr
      cases hr
      exact h
  | _ =>
    cases hr
    exact ⟨h.nonces.of_nonces fun _ => rfl, h.sessions.of_eq rfl, h.rounds.of_eq rfl⟩

/-- A bet with the next nonce, and no round of its player open at the game if it is open itself. -/
theorem Orderly.insertBet {b : Bet} {bets : Table Bet} (h : Orderly db) (hins : db.bets.insert b = some bets)
    (hnonce : b.nonce = (db.betsOf b.userId).length + 1)
    (hopen : b.status = .open → db.openRounds b.userId b.gameId = []) : Orderly { db with bets } where
  nonces := by
    intro userId
    have hbets : Db.betsOf { db with bets } userId = db.betsOf userId ++ if b.userId = userId then [b] else [] := by
      unfold Db.betsOf Table.select
      dsimp only
      rw [Table.rows_insert hins, List.filter_append]
      by_cases hb : b.userId = userId <;> simp [hb]
    rw [hbets]
    by_cases hb : b.userId = userId
    · subst hb
      rw [if_pos rfl, List.map_append, List.length_append, h.nonces, List.map_singleton, List.length_singleton, hnonce,
        List.range'_concat, Nat.one_mul, Nat.add_comm 1]
    · rw [if_neg hb, List.append_nil]
      exact h.nonces userId
  sessions := h.sessions.of_eq rfl
  rounds := by
    intro userId gameId
    rw [openRounds_insertBet hins, List.length_append]
    by_cases hb : b.userId = userId ∧ b.gameId = gameId ∧ b.status = .open
    · obtain ⟨rfl, rfl, hstatus⟩ := hb
      rw [hopen hstatus, if_pos ⟨rfl, rfl, hstatus⟩, List.length_singleton]
      exact le_rfl
    · rw [if_neg hb]
      exact h.rounds userId gameId

/-- A session, when the player has none open at the game. -/
theorem Orderly.insertSession {s : GameSession} {gameSessions : Table GameSession} (h : Orderly db)
    (hins : db.gameSessions.insert s = some gameSessions) (hnone : db.openSessions s.userId s.gameId = []) :
    Orderly { db with gameSessions } where
  nonces := h.nonces.of_nonces fun _ => rfl
  sessions := by
    intro userId gameId
    have hopen : Db.openSessions { db with gameSessions } userId gameId = db.openSessions userId gameId ++
        [s].filter fun s => s.userId == userId && s.gameId == gameId && s.endedAt.isNone := by
      unfold Db.openSessions Table.select
      dsimp only
      rw [Table.rows_insert hins, List.filter_append]
    rw [hopen, List.length_append]
    by_cases hs : s.userId = userId ∧ s.gameId = gameId
    · obtain ⟨rfl, rfl⟩ := hs
      rw [hnone]
      exact (Nat.zero_add _).trans_le (List.length_filter_le _ _)
    · rw [List.filter_cons_of_neg (by simpa using fun hu hg => absurd ⟨hu, hg⟩ hs)]
      exact h.sessions userId gameId
  rounds := h.rounds.of_eq rfl

end Statements

/-! ## Calls that run alone -/

section Calls

variable {db : Db} {D : Digest} {fresh : Fresh} {userId sessionId : Id} {α β : Type} {Q : β → Db → Prop}

/-- Whatever part of the program is executed alone, it keeps the order. -/
def KeepsOrder (p : Sql α) (db : Db) : Prop := Alone exec Orderly p db fun _ _ => True

theorem order_quiet {p : Sql α} (hp : Reads Stmt.addsNothing p) (h : Orderly db) : KeepsOrder p db :=
  (alone_keeping (fun _ h => h) (fun _ hq _ _ _ hs hr => hs.exec hq hr) hp h).mono fun _ _ _ => trivial

theorem order_bind {p : Sql α} {f : α → Sql β} (hp : Alone exec Orderly p db fun a t => KeepsOrder (f a) t) :
    KeepsOrder (p >>= f) db :=
  alone_bind hp

/-- An answer that is put into another form. -/
theorem order_map {p : Sql α} (hp : KeepsOrder p db) (f : α → β) : KeepsOrder (p >>= fun a => Prog.ret (f a)) db :=
  order_bind (hp.mono fun _ _ _ => trivial)

/-- A check before the bet is inserted. -/
theorem order_check {p : Sql α} {f : α → Sql β} (hp : Reads Stmt.isRead p) (h : Orderly db)
    (hf : ∀ a, p.run exec db = (.ok a, db) → KeepsOrder (f a) db) : KeepsOrder (p >>= f) db := by
  refine order_bind ((alone_check readOnly hp h).mono fun a t ht => ?_)
  obtain ⟨rfl, hrun⟩ := ht
  exact hf a hrun

theorem addsNothing_of_isRead (q : Stmt) (hq : q.isRead = true) : q.addsNothing = true := by
  cases q <;> first | rfl | cases hq

/-- The wallet is looked for, and opened if there is none; the bets stay. -/
theorem order_requireWallet {f : SminkWallet → Sql β} (h : Orderly db)
    (hf : ∀ wallet t, Orderly t → t.bets = db.bets → KeepsOrder (f wallet) t) :
    KeepsOrder (requireWallet userId >>= f) db := by
  have hkeeps : ∀ q : Stmt, q.onWallets = true → ∀ s (r : q.Resp) t, Orderly s ∧ s.bets = db.bets →
      exec q s = .ok (r, t) → Orderly t ∧ t.bets = db.bets := by
    intro q hq s r t hs hr
    have hnothing : q.addsNothing = true := by cases q <;> first | rfl | cases hq
    have hspares : q.sparesBets = true := by cases q <;> first | rfl | cases hq
    exact ⟨hs.1.exec hnothing hr, (exec_sparesBets hspares hr).trans hs.2⟩
  exact order_bind ((alone_keeping (fun _ h => h.1) hkeeps (onWallets_requireWallet userId) ⟨h, rfl⟩).mono
    fun wallet t ht => hf wallet t ht.1 ht.2)

/-- The stake is debited; the bets stay. -/
theorem order_debit {p : SminkWallet → Bool} {set : WalletSet} {f : List SminkWallet → Sql β} (h : Orderly db)
    (hf : ∀ rows t, Orderly t → t.bets = db.bets → KeepsOrder (f rows) t) :
    KeepsOrder (ask (.updateWallet p set) >>= f) db := by
  intro rows t hr
  have ht : Orderly t := h.exec rfl hr
  exact ⟨ht, hf rows t ht (exec_sparesBets rfl hr)⟩

/-- The bet is inserted, and nothing is added after it. -/
theorem order_insertBet {b : Bet} {f : Unit → Sql α} (h : Orderly db)
    (hnonce : b.nonce = (db.betsOf b.userId).length + 1)
    (hopen : b.status = .open → db.openRounds b.userId b.gameId = []) (hf : Reads Stmt.addsNothing (f ())) :
    KeepsOrder (perform (.insertBet b) >>= f) db := by
  intro r t hr
  obtain ⟨bets, hins, he⟩ := orThrow_ok hr
  cases he
  have ht := h.insertBet hins hnonce hopen
  exact ⟨ht, order_quiet hf ht⟩

theorem run_nextNonce {nonce : Nat} (h : (nextNonce userId).run exec db = (.ok nonce, db)) :
    nonce = (db.betsOf userId).length + 1 := by
  cases h
  rfl

theorem order_openRound {Sel : Type} (G : GridGame Sel) (stakeInput : Num) (selectionInput : RawSelection)
    (h : Orderly db) : KeepsOrder (openRound G D fresh userId sessionId stakeInput selectionInput) db := by
  unfold openRound
  refine order_check (oneRead_requireOpenSession ..).reads h fun ⟨_, game⟩ _ => ?_
  refine order_check (reads_of_done (done_orInvalid _)) h fun validated _ => ?_
  refine order_check (reads_of_done (done_orFail _)) h fun stake _ => ?_
  refine order_check (p := ask _) ⟨rfl, fun _ => trivial⟩ h fun opened hopened => ?_
  split
  · trivial
  rename_i hnone
  have hopen : db.openRounds userId game.id = [] := by
    cases hopened
    cases hrows : db.openRounds userId game.id with
    | nil => rfl
    | cons b rows =>
      refine absurd ?_ hnone
      show ((db.openRounds userId game.id).head?).isSome = true
      rw [hrows]
      rfl
  refine order_requireWallet h fun wallet t ht hbets => ?_
  refine order_check (oneRead_nextNonce _).reads ht fun nonce hnonce => ?_
  refine order_check (oneRead_getControlRule ..).reads ht fun row _ => ?_
  refine order_check (reads_of_done (done_orThrew _)) ht fun selection _ => ?_
  unfold debitStake
  rw [Prog.bind_assoc]
  refine order_debit ht fun rows v hv hbets' => ?_
  split
  · refine order_insertBet hv ?_ (fun _ => ?_) ⟨rfl, fun _ => ⟨rfl, fun _ => trivial⟩⟩
    · show nonce = (v.betsOf userId).length + 1
      rw [run_nextNonce hnonce]
      unfold Db.betsOf
      rw [hbets']
    · show v.openRounds userId game.id = []
      unfold Db.openRounds
      rw [hbets', hbets]
      exact hopen
  · trivial

theorem order_placeBet (slug : GameSlug) (stakeInput : Num) (selectionInput : RawSelection) (h : Orderly db) :
    KeepsOrder (placeBet D fresh userId sessionId slug stakeInput selectionInput) db := by
  unfold placeBet
  split
  · trivial
  refine order_check (oneRead_requireOpenSession ..).reads h fun ⟨_, game⟩ _ => ?_
  refine order_check (reads_of_done (done_orInvalid _)) h fun validated _ => ?_
  refine order_check (reads_of_done (done_orFail _)) h fun stake _ => ?_
  refine order_requireWallet h fun wallet t ht _ => ?_
  refine order_check (oneRead_nextNonce _).reads ht fun nonce hnonce => ?_
  refine order_check (oneRead_getControlRule ..).reads ht fun row _ => ?_
  refine order_check (reads_of_done (done_orThrew _)) ht fun raw _ => ?_
  refine order_debit ht fun rows v hv hbets => ?_
  split
  · refine order_insertBet hv ?_ (fun hstatus => ?_) ?_
    · show nonce = (v.betsOf userId).length + 1
      rw [run_nextNonce hnonce]
      unfold Db.betsOf
      rw [hbets]
    · -- an instant bet is never open
      dsimp only at hstatus
      split at hstatus <;> cases hstatus
    · refine reads_bind (p := perform (.insertTransactions _)) ⟨rfl, fun _ => trivial⟩ fun _ => ?_
      refine reads_bind (p := bumpSession _ _ _) ⟨rfl, fun _ => trivial⟩ fun _ => ?_
      refine reads_bind ((onControls_consumeForcedRound row).mono fun q hq => ?_) fun _ => trivial
      cases q <;> first | rfl | cases hq
  · trivial

/-- The open sessions are ended, and one is inserted. -/
theorem order_startSession (gameSlug : GameSlug) (h : Orderly db) :
    KeepsOrder (startSession fresh userId gameSlug) db := by
  unfold startSession
  refine order_check (reads_getPlayableGame ..) h fun game _ => ?_
  intro r t hr
  have ht : Orderly t := h.exec rfl hr
  have hnone : t.openSessions userId game.id = [] := by
    cases hr
    refine List.filter_eq_nil_iff.2 fun s hs => ?_
    obtain ⟨a, -, rfl⟩ := Table.mem_update.1 hs
    unfold Table.updateRow
    split
    · rename_i hp
      simp [Settable.apply]
    · assumption
  refine ⟨ht, fun r' u hr' => ?_⟩
  obtain ⟨gameSessions, hins, he⟩ := orThrow_ok hr'
  cases he
  have hu := ht.insertSession hins hnone
  exact ⟨hu, order_quiet ((reads_toSessionDto ..).mono addsNothing_of_isRead) hu⟩

theorem addsNothing_of_onRound (q : Stmt) (hq : q.onRound = true) : q.addsNothing = true := by
  cases q <;> first | rfl | exact hq

theorem order_serve (D : Digest) (fresh : Fresh) (request : Request) (h : Orderly db) :
    KeepsOrder (serve D fresh request) db := by
  have read : ∀ {γ : Type} {p : Sql γ}, Reads Stmt.isRead p → KeepsOrder p db :=
    fun hp => order_quiet (hp.mono addsNothing_of_isRead) h
  have round : ∀ {γ : Type} {p : Sql γ}, Reads Stmt.onRound p → KeepsOrder p db :=
    fun hp => order_quiet (hp.mono addsNothing_of_onRound) h
  cases request with
  | startSession => exact order_map (order_startSession _ h) _
  | endSession userId sessionId =>
    refine order_bind ((order_quiet ?_ h).mono fun _ _ _ => trivial)
    unfold endSession
    refine reads_bind (p := ask _) ⟨rfl, fun _ => trivial⟩ fun rows => ?_
    split
    · split
      · trivial
      · exact ⟨rfl, fun _ => trivial⟩
    · trivial
  | getSession => exact order_map (read (reads_getSession ..)) _
  | placeBet => exact order_map (order_placeBet _ _ _ h) _
  | startMines => exact order_map (order_map (order_openRound minesGame _ _ h) _) _
  | revealMines => exact order_map (round (onRound_revealMines ..)) _
  | cashOutMines => exact order_map (round (onRound_cashOutMines _)) _
  | getOpenMines => exact order_map (read (reads_getOpenMines ..)) _
  | startTowers => exact order_map (order_map (order_openRound towersGame _ _ h) _) _
  | revealTowers => exact order_map (round (onRound_revealTowers ..)) _
  | cashOutTowers => exact order_map (round (onRound_cashOutTowers _)) _
  | getOpenTowers => exact order_map (read (reads_getOpenTowers ..)) _

theorem order_prog (D : Digest) (i : Call) (h : Orderly db) : KeepsOrder (i.prog D) db := by
  cases i with
  | play fresh request => exact order_map (order_serve D fresh request h) _
  | credit now depositId extraMetadata =>
    refine order_map (order_quiet ((onDeposit_creditDeposit now depositId extraMetadata).mono fun q hq => ?_) h) _
    cases q <;> first | rfl | cases hq

/-- Databases that look the same to every player. -/
theorem Orderly.of_looksSame {t : Db} (h : LooksSame db t) (hdb : Orderly db) : Orderly t where
  nonces := by
    refine hdb.nonces.of_nonces fun userId => ?_
    have hbets : t.betsOf userId = db.betsOf userId :=
      (h userId).bets.select_eq (fun _ _ hb => beq_iff_eq.1 hb) fun _ _ hb => beq_iff_eq.1 hb
    rw [hbets]
  sessions := by
    intro userId gameId
    have picks : ∀ sessions : Table GameSession, sessions.Picks userId fun s =>
        s.userId == userId && s.gameId == gameId && s.endedAt.isNone := by
      intro sessions s _ hs
      simp only [Bool.and_eq_true, beq_iff_eq] at hs
      exact hs.1.1
    have hopen : t.openSessions userId gameId = db.openSessions userId gameId :=
      (h userId).sessions.select_eq (picks _) (picks _)
    rw [hopen]
    exact hdb.sessions userId gameId
  rounds := by
    intro userId gameId
    have picks : ∀ bets : Table Bet, bets.Picks userId fun b =>
        b.userId == userId && b.gameId == gameId && b.status == .open := by
      intro bets b _ hb
      simp only [Bool.and_eq_true, beq_iff_eq] at hb
      exact hb.1.1
    have hopen : t.openRounds userId gameId = db.openRounds userId gameId :=
      (h userId).bets.select_eq (picks _) (picks _)
    rw [hopen]
    exact hdb.rounds userId gameId

end Calls

/-- **Taking turns keeps the order.** In every state of every interleaving in which the calls of each player take turns,
also where statements fail and while calls are in flight: the nonces of a player number its bets, and a player has at
most one open session and at most one open round of a game. -/
theorem turns_keep_order (D : Digest) (holder : Id → Id) (db : Db) (horder : Orderly db) (hseated : BetsSeated db)
    (hheld : Held holder db) (moves : List (Move Call Fault)) (c : Pool Call Stmt.Resp Fault Answer Db)
    (hc : (Pool.init db).replay exec (Call.prog D) moves = some c)
    (hapart : AllStartApart (Call.Lawful holder) (Call.Apart holder) exec (Call.prog D) (Pool.init db) moves) :
    NoncesInOrder c.store ∧ OneOpenSession c.store ∧ OneOpenRound c.store := by
  have horderly : Orderly c.store := alone_keeps (P := services D holder)
    (fun _ _ hsame ht => ht.of_looksSame fun userId => (hsame userId).symm) (fun i _ hs => order_prog D i hs)
    ⟨hseated, hheld⟩ horder hc hapart
  exact ⟨horderly.nonces, horderly.sessions, horderly.rounds⟩

/-- Two players open a round each. The ledger row of the first fails; the first opens a new session, and the second goes
on. -/
def cutShort : List (Move Call Fault) :=
  [.start (.play (freshAt 1) (.startMines "u1" "s1" (some 5) (some 3))),
    .start (.play (freshAt 2) (.startMines "u2" "s2" (some 7) (some 4)))] ++
  [.stmt 0, .stmt 1, .stmt 0, .stmt 1, .stmt 0, .stmt 1, .stmt 0, .stmt 1, .stmt 0, .stmt 0, .stmt 0, .fail 0 .threw,
    .start (.play (freshAt 3) (.startSession "u1" .mines)), .stmt 2, .stmt 1, .stmt 2, .stmt 1, .stmt 2, .stmt 2,
      .stmt 1]

theorem turns_keep_order_cutShort : ∃ c : Pool Call Stmt.Resp Fault Answer Db,
    (Pool.init twoPlayers).replay exec (Call.prog zeroDigest) cutShort = some c ∧
      c.store.bets.rows.map (fun b => (b.userId, b.nonce)) = [("u1", 1), ("u2", 1)] ∧
        NoncesInOrder c.store ∧ OneOpenSession c.store ∧ OneOpenRound c.store := by
  have hrun : ((Pool.init twoPlayers).replay exec (Call.prog zeroDigest) cutShort).any
      (fun c => decide (c.store.bets.rows.map (fun b => (b.userId, b.nonce)) = [("u1", 1), ("u2", 1)])) = true := by
    decide +kernel
  obtain ⟨c, hc, hreached⟩ := (Option.any_eq_true _ _).1 hrun
  have horder : Orderly twoPlayers := by
    refine ⟨fun _ => rfl, fun userId gameId => ?_, fun _ _ => Nat.zero_le 1⟩
    have hseats : ∀ s : GameSession, (s.userId == userId && s.gameId == gameId && s.endedAt.isNone) = true →
        (s.userId == userId) = true := fun s hs => by
      simp only [Bool.and_eq_true] at hs
      exact hs.1.1
    refine (List.Sublist.length_le (List.monotone_filter_right _ hseats)).trans ?_
    · by_cases hu : userId = "u1"
      · subst hu
        exact le_rfl
      · simp [twoPlayers, Ne.symm hu, List.filter_cons]
        split <;> simp
  have hseated : BetsSeated twoPlayers := fun b hb => by cases hb
  exact ⟨c, hc, of_decide_eq_true hreached, turns_keep_order zeroDigest holderOfTwo twoPlayers horder hseated
    (by decide +kernel) cutShort c hc (by decide +kernel)⟩

end Smink
