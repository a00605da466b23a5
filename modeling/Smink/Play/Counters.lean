import Smink.Db.Seed
import Smink.Play.Books

/-!
# Counters are recomputable from the bets

Every method of the play service takes books that balance to books that balance (`keepsBooks_serve`), by one lemma for
each part the methods share and one for each method. A run of requests from empty books therefore keeps every counter
equal to the sum over the bets that it stands for: `counters_recomputable`.
-/

namespace Smink

open Store

variable {db : Db} {D : Digest} {fresh : Fresh} {userId sessionId : Id} {α β : Type}

/-- The books balance. -/
def Balanced (db : Db) : Prop := Books db 0

/-- The program ends with balanced books, whatever it answers. -/
def KeepsBooks (p : Sql α) (db : Db) : Prop := Prog.Post exec p db fun _ t => Balanced t

/-! ## The shared parts -/

theorem keepsBooks_read {p : Sql α} {f : α → Sql β} (h : Balanced db) (hp : Reads Stmt.isRead p)
    (hf : ∀ a, p.run exec db = (.ok a, db) → KeepsBooks (f a) db) : KeepsBooks (p >>= f) db :=
  hp.post_bind readOnly hf fun _ _ => h

/-- A check without a statement. -/
theorem keepsBooks_done {p : Sql α} {f : α → Sql β} (h : Balanced db) (hp : p.done = true)
    (hf : ∀ a, p = .ret a → KeepsBooks (f a) db) : KeepsBooks (p >>= f) db := by
  obtain ⟨a, rfl⟩ | ⟨e, rfl⟩ := Prog.done_cases hp
  · exact hf a rfl
  · exact h

theorem keepsBooks_bind {p : Sql α} {f : α → Sql β} (hp : KeepsBooks p db)
    (hf : ∀ a t, Balanced t → KeepsBooks (f a) t) : KeepsBooks (p >>= f) db :=
  Prog.post_bind_inv hp hf

theorem keepsBooks_bump {g : Counter → Money} (staked won : Money) (h : Books db g) (hs : HasSession db sessionId)
    (hg : ∀ c, g c + bumpDelta sessionId staked won c = 0) : KeepsBooks (bumpSession sessionId staked won) db := by
  obtain ⟨s, hs, hid⟩ := hs
  refine Prog.post_stmt rfl ((h.updateSession _ (select_session hs hid)).congr fun c => ?_)
  rw [sessionCounter_bump, hid]
  exact hg c

/-- The ledger is no part of the books. -/
theorem keepsBooks_insertTransactions {rs : List SminkTransaction} {f : Unit → Sql α}
    (hf : ∀ t, t.sminkWallets = db.sminkWallets → t.gameSessions = db.gameSessions → t.bets = db.bets →
      KeepsBooks (f ()) t) : KeepsBooks (perform (.insertTransactions rs) >>= f) db := by
  intro r t hr
  obtain ⟨x, -, he⟩ := orThrow_ok hr
  cases he
  exact hf _ rfl rfl rfl

/-- The debit that opens a bet finds the owner's wallet, or nothing and changes nothing. -/
theorem keepsBooks_debit {p : SminkWallet → Bool} {set : WalletSet} {f : List SminkWallet → Sql α} (userId : Id)
    (h : Balanced db) (hpin : ∀ w, p w = true → w.userId = userId) (hnone : KeepsBooks (f []) db)
    (hsome : ∀ w t, w.userId = userId → HasWallet t userId → t.gameSessions = db.gameSessions →
      Books t (fun c => walletCounter c (Settable.apply set w) - walletCounter c w) →
        KeepsBooks (f [Settable.apply set w]) t) :
    KeepsBooks (ask (.updateWallet p set) >>= f) db := by
  refine Prog.post_stmt rfl ?_
  rw [Table.updated_eq_map]
  obtain hsel | ⟨w, hw, hp, hsel⟩ := db.sminkWallets.select_of_key (p := p) (k := ("user_id", userId))
    fun a _ ha => by simp [Keyed.keys, hpin a ha]
  · rw [hsel, Table.update_eq_self hsel]
    exact hnone
  · rw [hsel]
    refine hsome w _ (hpin w hp) (hasWallet_update ⟨w, hw, hpin w hp⟩) rfl ?_
    exact (Books.updateWallet h set hsel).congr fun c => zero_add _

/-- A part that keeps the books, and some more. -/
theorem keepsBooks_bind_post {P : Db → Prop} {p : Sql α} {f : α → Sql β}
    (hp : Prog.Post exec p db fun _ t => Balanced t ∧ P t) (hf : ∀ a t, Balanced t → P t → KeepsBooks (f a) t) :
    KeepsBooks (p >>= f) db := by
  refine Prog.post_bind (hp.mono fun r t ht => ?_)
  cases r with
  | ok a => exact hf a t ht.1 ht.2
  | error e => exact ht.1

/-- A wallet that is created has no counters yet. -/
theorem post_getOrCreate (h : Balanced db) (userId : Id) :
    Prog.Post exec (getOrCreate userId) db fun _ t => Balanced t ∧ t.gameSessions = db.gameSessions := by
  unfold getOrCreate
  rw [ask_bind]
  refine Prog.post_stmt rfl ?_
  split
  · exact ⟨h, rfl⟩
  · rw [ask_bind]
    intro r t hr
    obtain ⟨u, hu, he⟩ | ⟨-, he⟩ := exec_insertWallet userId db
    · rw [he] at hr
      cases hr
      exact ⟨Books.insertWallet h hu, rfl⟩
    · rw [he] at hr
      cases hr
      exact Prog.post_stmt rfl ⟨h, rfl⟩

theorem post_requireWallet (h : Balanced db) (userId : Id) :
    Prog.Post exec (requireWallet userId) db fun _ t => Balanced t ∧ t.gameSessions = db.gameSessions := by
  refine Prog.post_bind ((post_getOrCreate h userId).mono fun r t ht => ?_)
  cases r with
  | error e => exact ht
  | ok wallet =>
    cases wallet with
    | none => exact ht
    | some wallet =>
      dsimp only
      split_ifs
      · exact ht
      · exact ht

/-! ## Settling a round -/

section Settle

variable {betReference : String} {bet : Bet}

/-- The wallet that holds the stake of an open bet. -/
theorem exists_wallet (h : Balanced db) (hb : OpenRound db userId sessionId betReference bet) :
    ∃ w ∈ db.sminkWallets.rows, w.userId = userId ∧ bet.stake ≤ w.lockedBalance ∧
      db.sminkWallets.select (fun a => a.userId == userId) = [w] := by
  obtain ⟨w, hw, hu⟩ := h.owned bet hb.mem
  have hwu : w.userId = userId := hu.trans hb.user
  refine ⟨w, hw, hwu, Books.stake_le_locked h hb.mem hb.status hw hu, select_wallet hw (by simp [hwu]) fun a ha => ?_⟩
  rw [hwu]
  exact beq_iff_eq.1 ha

theorem keepsBooks_settleLost (h : Balanced db) (hb : OpenRound db userId sessionId betReference bet) (now : Time)
    (outcome : GameOutcome) : KeepsBooks (settleLost now userId bet outcome) db := by
  obtain ⟨w, -, hwu, hle, hsel⟩ := exists_wallet h hb
  unfold settleLost
  rw [perform_bind]
  refine Prog.post_stmt rfl (Prog.post_stmt rfl ?_)
  have h₁ := Books.updateWallet h (releaseSet bet.stake 0) hsel
  refine (h₁.updateBet (lostSet now outcome) hb.mem (select_bet hb.mem) fun hs => by cases hs).congr fun c => ?_
  rw [walletCounter_release hle 0 c, betCounter_close hb.status (h.unpaid bet hb.mem hb.status) hb.session rfl
    (by decide) rfl, hwu, hb.user]
  cases c <;> simp [bumpDelta]

theorem keepsBooks_recordReveal (h : Balanced db) (hb : bet ∈ db.bets.rows) (hs : bet.status = .open)
    (multiplier : ℚ) (outcome : GameOutcome) : KeepsBooks (recordReveal bet multiplier outcome) db := by
  refine Prog.post_stmt rfl ((Books.updateBet h (revealSet multiplier outcome) hb (select_bet hb)
    fun _ => h.unpaid bet hb hs).congr fun c => ?_)
  have hval : betCounter c (Settable.apply (revealSet multiplier outcome) bet) = betCounter c bet := by cases c <;> rfl
  rw [hval]
  simp

theorem keepsBooks_payOut (h : Balanced db) (hb : OpenRound db userId sessionId betReference bet)
    (hs : HasSession db sessionId) (slug : GameSlug) :
    KeepsBooks (payOut fresh slug userId sessionId betReference bet) db := by
  obtain ⟨w, -, hwu, hle, hsel⟩ := exists_wallet h hb
  unfold payOut
  rw [ask_bind]
  refine Prog.post_stmt rfl ?_
  dsimp only
  rw [perform_bind]
  refine Prog.post_stmt rfl ?_
  have h₁ := Books.updateWallet h (releaseSet bet.stake (cashOutPayout bet)) hsel
  have h₂ := h₁.updateBet (cashedOutSet fresh.now (cashOutPayout bet)) hb.mem (select_bet hb.mem) fun hs => by cases hs
  refine keepsBooks_insertTransactions fun t htw hts htb => ?_
  have h₃ := h₂.of_eq htw hts htb
  refine keepsBooks_bind (keepsBooks_bump 0 (cashOutPayout bet) h₃ (by rw [HasSession, hts]; exact hs) fun c => ?_)
    fun _ t ht => ht
  rw [walletCounter_release hle _ c, betCounter_close hb.status (h.unpaid bet hb.mem hb.status) hb.session rfl
    (by decide) rfl, hwu, hb.user]
  simp

end Settle

/-! ## The methods -/

theorem keepsBooks_cashOutMines (h : Balanced db) (betReference : String) :
    KeepsBooks (cashOutMines fresh userId sessionId betReference) db := by
  unfold cashOutMines
  refine keepsBooks_read h (oneRead_requireOpenSession ..).reads fun ⟨session, game⟩ hrun => ?_
  have hs := run_requireOpenSession hrun
  refine keepsBooks_read h (oneRead_findRound ..).reads fun bet hbet => ?_
  split
  · exact h
  · exact keepsBooks_bind (keepsBooks_payOut h (run_findRound hbet) ⟨session, hs.session_mem, hs.session_id⟩ _)
      fun _ t ht => ht

theorem keepsBooks_cashOutTowers (h : Balanced db) (betReference : String) :
    KeepsBooks (cashOutTowers fresh userId sessionId betReference) db := by
  unfold cashOutTowers
  refine keepsBooks_read h (oneRead_requireOpenSession ..).reads fun ⟨session, game⟩ hrun => ?_
  have hs := run_requireOpenSession hrun
  refine keepsBooks_read h (oneRead_findRound ..).reads fun bet hbet => ?_
  split
  · exact h
  · refine keepsBooks_bind (keepsBooks_payOut h (run_findRound hbet) ⟨session, hs.session_mem, hs.session_id⟩ _)
      fun _ t ht => ?_
    exact keepsBooks_done ht (done_orThrew _) fun _ _ => ht

theorem keepsBooks_revealMines (h : Balanced db) (betReference : String) (tile : Num) :
    KeepsBooks (revealMines fresh userId sessionId betReference tile) db := by
  unfold revealMines
  split
  · split
    · exact h
    · refine keepsBooks_read h (oneRead_requireOpenSession ..).reads fun ⟨session, game⟩ _ => ?_
      refine keepsBooks_read h (oneRead_findRound ..).reads fun bet hbet => ?_
      have hb := run_findRound hbet
      dsimp only
      split
      · exact h
      · split
        · exact keepsBooks_bind (keepsBooks_settleLost h hb _ _) fun _ t ht => ht
        · refine keepsBooks_bind (keepsBooks_recordReveal h hb.mem hb.status _ _) fun _ t ht => ?_
          split
          · exact keepsBooks_cashOutMines ht betReference
          · exact ht
  · exact h

theorem keepsBooks_revealTowers (h : Balanced db) (betReference : String) (tile : Num) :
    KeepsBooks (revealTowers fresh userId sessionId betReference tile) db := by
  unfold revealTowers
  refine keepsBooks_read h (oneRead_requireOpenSession ..).reads fun ⟨session, game⟩ _ => ?_
  refine keepsBooks_read h (oneRead_findRound ..).reads fun bet hbet => ?_
  have hb := run_findRound hbet
  split
  · refine keepsBooks_done h (done_orThrew _) fun difficulty _ => ?_
    dsimp only
    split
    · exact h
    · split
      · exact h
      · split
        · exact keepsBooks_bind (keepsBooks_settleLost h hb _ _) fun _ t ht => ht
        · refine keepsBooks_bind (keepsBooks_recordReveal h hb.mem hb.status _ _) fun _ t ht => ?_
          split
          · exact keepsBooks_cashOutTowers ht betReference
          · exact ht
  · exact h

/-! ## Placing a bet -/

theorem keepsBooks_consumeForcedRound (h : Balanced db) (row : Option UserGameControl) :
    KeepsBooks (consumeForcedRound row) db := by
  unfold consumeForcedRound
  split
  · exact h
  · split_ifs
    · exact h
    · exact h
    · exact Prog.post_stmt rfl (h.of_eq rfl rfl rfl)

/-- The statements after the debit: the bet, its ledger rows and the session's counters. -/
theorem keepsBooks_record {b : Bet} {rs : List SminkTransaction} {f : Unit → Sql α}
    (h : Books db (placeDelta b.userId b.stake (if b.status = .open then b.stake else 0) b.payout))
    (hw : HasWallet db b.userId) (hs : HasSession db sessionId) (hses : b.sessionId = some sessionId)
    (hpaid : b.status = .open → b.payout = 0) (hstake : 0 ≤ b.stake) (hf : ∀ t, Balanced t → KeepsBooks (f ()) t) :
    KeepsBooks (perform (.insertBet b) >>= fun _ => perform (.insertTransactions rs) >>= fun _ =>
      bumpSession sessionId b.stake b.payout >>= f) db := by
  intro r t hr
  obtain ⟨bets, hins, he⟩ := orThrow_ok hr
  cases he
  have h₁ := h.insertBet hins hpaid hstake hw
  refine keepsBooks_insertTransactions fun t htw hts htb => ?_
  have h₂ := h₁.of_eq htw hts htb
  refine keepsBooks_bind (keepsBooks_bump b.stake b.payout h₂ (by rw [HasSession, hts]; exact hs) fun c => ?_)
    fun _ t ht => hf t ht
  rw [betCounter_new hses c]
  ring

theorem keepsBooks_openRound {Sel : Type} (h : Balanced db) (G : GridGame Sel) (stakeInput : Num)
    (selectionInput : RawSelection) :
    KeepsBooks (openRound G D fresh userId sessionId stakeInput selectionInput) db := by
  unfold openRound
  refine keepsBooks_read h (oneRead_requireOpenSession ..).reads fun ⟨session, game⟩ hrun => ?_
  have hs := run_requireOpenSession hrun
  refine keepsBooks_done h (done_orInvalid _) fun validated _ => ?_
  refine keepsBooks_done h (done_orFail _) fun stake hstake => ?_
  refine keepsBooks_read h (reads_ask (f := .ret) rfl fun _ => trivial) fun opened _ => ?_
  split
  · exact h
  refine keepsBooks_bind_post (post_requireWallet h userId) fun wallet t ht hts => ?_
  refine keepsBooks_read ht (oneRead_nextNonce _).reads fun nonce _ => ?_
  refine keepsBooks_read ht (oneRead_getControlRule ..).reads fun row _ => ?_
  refine keepsBooks_done ht (done_orThrew _) fun selection _ => ?_
  unfold debitStake
  rw [Prog.bind_assoc]
  refine keepsBooks_debit userId ht (fun w hw => canPay_user hw) ht fun w u hw hu hus hbooks => ?_
  refine keepsBooks_record (hbooks.congr fun c => ?_) hu ⟨session, ?_, hs.session_id⟩ rfl (fun _ => rfl)
    (parseStake_pos (orFail_ok hstake)).le fun t ht => ht
  · rw [walletCounter_place rfl, hw]
    rfl
  · rw [hus, hts]
    exact hs.session_mem

theorem keepsBooks_placeBet (h : Balanced db) (slug : GameSlug) (stakeInput : Num) (selectionInput : RawSelection) :
    KeepsBooks (placeBet D fresh userId sessionId slug stakeInput selectionInput) db := by
  unfold placeBet
  split
  · exact h
  refine keepsBooks_read h (oneRead_requireOpenSession ..).reads fun ⟨session, game⟩ hrun => ?_
  have hs := run_requireOpenSession hrun
  refine keepsBooks_done h (done_orInvalid _) fun validated _ => ?_
  refine keepsBooks_done h (done_orFail _) fun stake hstake => ?_
  refine keepsBooks_bind_post (post_requireWallet h userId) fun wallet t ht hts => ?_
  refine keepsBooks_read ht (oneRead_nextNonce _).reads fun nonce _ => ?_
  refine keepsBooks_read ht (oneRead_getControlRule ..).reads fun row _ => ?_
  refine keepsBooks_done ht (done_orThrew _) fun raw _ => ?_
  refine keepsBooks_debit userId ht (fun w hw => canPay_user hw) ht fun w u hw hu hus hbooks => ?_
  refine keepsBooks_record (hbooks.congr fun c => ?_) hu ⟨session, ?_, hs.session_id⟩ rfl ?_
    (parseStake_pos (orFail_ok hstake)).le fun t ht => ?_
  · rw [walletCounter_place rfl, hw]
    dsimp only [betSet]
    rw [if_neg (by split <;> simp)]
  · rw [hus, hts]
    exact hs.session_mem
  · dsimp only
    intro hopen
    split at hopen <;> cases hopen
  · exact keepsBooks_bind (keepsBooks_consumeForcedRound ht row) fun _ t ht => ht

/-! ## Sessions -/

theorem keepsBooks_startSession (h : Balanced db) (gameSlug : GameSlug) :
    KeepsBooks (startSession fresh userId gameSlug) db := by
  unfold startSession
  refine keepsBooks_read h (reads_getPlayableGame ..) fun game _ => ?_
  refine Prog.post_stmt rfl ?_
  have h₁ := h.endSessions (fun s => s.userId == userId && s.gameId == game.id && s.endedAt.isNone) fresh.now
  intro r t hr
  obtain ⟨sessions, hins, he⟩ := orThrow_ok hr
  cases he
  have h₂ : Balanced { db with gameSessions := sessions } := by
    refine ⟨fun c => ?_, h.unpaid, h.staked, h.owned⟩
    rw [← h₁.gap c]
    unfold Db.gap
    rw [Table.total_insert _ hins]
    have hzero : sessionCounter c { id := fresh.sessionId, userId, gameId := game.id, startedAt := fresh.now } = 0 := by
      cases c <;> simp [sessionCounter]
    rw [hzero, add_zero]
  exact (reads_toSessionDto ..).post readOnly fun _ => h₂

theorem keepsBooks_endSession (h : Balanced db) : KeepsBooks (endSession fresh userId sessionId) db := by
  unfold endSession
  rw [ask_bind]
  refine Prog.post_stmt rfl ?_
  split
  · split
    · exact h
    · exact Prog.post_stmt rfl (h.endSessions _ _)
  · exact h

/-! ## The service -/

/-- What a request answers does not touch the books. -/
theorem keepsBooks_answer {p : Sql α} {f : α → β} (hp : KeepsBooks p db) :
    KeepsBooks (p >>= fun a => pure (f a)) db :=
  keepsBooks_bind hp fun _ _ ht => ht

theorem keepsBooks_of_reads {p : Sql α} (h : Balanced db) (hp : Reads Stmt.isRead p) : KeepsBooks p db :=
  hp.post readOnly fun _ => h

/-- **Every request keeps the books balanced.** -/
theorem keepsBooks_serve (h : Balanced db) (D : Digest) (fresh : Fresh) (request : Request) :
    KeepsBooks (serve D fresh request) db := by
  cases request with
  | startSession userId gameSlug => exact keepsBooks_answer (keepsBooks_startSession h gameSlug)
  | endSession userId sessionId => exact keepsBooks_answer (keepsBooks_endSession h)
  | getSession userId sessionId => exact keepsBooks_answer (keepsBooks_of_reads h (reads_getSession ..))
  | placeBet userId sessionId slug stakeInput selectionInput =>
    exact keepsBooks_answer (keepsBooks_placeBet h slug stakeInput selectionInput)
  | startMines userId sessionId stakeInput mineCountInput =>
    exact keepsBooks_answer (keepsBooks_answer (keepsBooks_openRound h minesGame stakeInput _))
  | revealMines userId sessionId betReference tile =>
    exact keepsBooks_answer (keepsBooks_revealMines h betReference tile)
  | cashOutMines userId sessionId betReference => exact keepsBooks_answer (keepsBooks_cashOutMines h betReference)
  | getOpenMines userId sessionId => exact keepsBooks_answer (keepsBooks_of_reads h (reads_getOpenMines ..))
  | startTowers userId sessionId stakeInput difficultyInput =>
    exact keepsBooks_answer (keepsBooks_answer (keepsBooks_openRound h towersGame stakeInput _))
  | revealTowers userId sessionId betReference tile =>
    exact keepsBooks_answer (keepsBooks_revealTowers h betReference tile)
  | cashOutTowers userId sessionId betReference => exact keepsBooks_answer (keepsBooks_cashOutTowers h betReference)
  | getOpenTowers userId sessionId => exact keepsBooks_answer (keepsBooks_of_reads h (reads_getOpenTowers ..))

/-! ## Runs of requests -/

/-- The store after each of the requests, answered one after another. -/
def runRequests (D : Digest) : List (Fresh × Request) → Db → List Db
  | [], _ => []
  | (fresh, request) :: rest, db =>
    let after := ((serve D fresh request).run exec db).2
    after :: runRequests D rest after

/-- No statement of the run throws. -/
def CompletesAll (D : Digest) : List (Fresh × Request) → Db → Prop
  | [], _ => True
  | (fresh, request) :: rest, db =>
    (serve D fresh request).Completes exec db ∧ CompletesAll D rest ((serve D fresh request).run exec db).2

instance decidableCompletesAll (D : Digest) : ∀ (requests : List (Fresh × Request)) (db : Db),
    Decidable (CompletesAll D requests db)
  | [], _ => .isTrue trivial
  | (fresh, request) :: rest, db =>
    @instDecidableAnd _ _ (Prog.decidableCompletes ..)
      (decidableCompletesAll D rest ((serve D fresh request).run exec db).2)

/-- Every request of a run leaves balanced books. -/
theorem balanced_runRequests (D : Digest) : ∀ {requests : List (Fresh × Request)} {db : Db}, Balanced db →
    CompletesAll D requests db → ∀ t ∈ runRequests D requests db, Balanced t
  | [], _, _, _, _, ht => by cases ht
  | (fresh, request) :: rest, db, h, hc, t, ht => by
    have hafter : Balanced ((serve D fresh request).run exec db).2 := (keepsBooks_serve h D fresh request).run hc.1
    rcases List.mem_cons.1 ht with rfl | ht
    · exact hafter
    · exact balanced_runRequests D hafter hc.2 t ht

/-- The five counters are the sums over the bets that they stand for, and no release is ever clamped. -/
structure Recomputable (db : Db) : Prop where
  totalWagered : ∀ w ∈ db.sminkWallets.rows,
    w.totalWagered = ((db.bets.select fun b => b.userId == w.userId).map Bet.stake).sum
  walletWon : ∀ w ∈ db.sminkWallets.rows,
    w.totalWon = ((db.bets.select fun b => b.userId == w.userId).map Bet.payout).sum
  lockedBalance : ∀ w ∈ db.sminkWallets.rows,
    w.lockedBalance = ((db.bets.select fun b => b.userId == w.userId && b.status == .open).map Bet.stake).sum
  unclamped : ∀ b ∈ db.bets.rows, b.status = .open → ∀ w ∈ db.sminkWallets.rows, w.userId = b.userId →
    0 ≤ w.lockedBalance - b.stake
  totalStaked : ∀ s ∈ db.gameSessions.rows,
    s.totalStaked = ((db.bets.select fun b => b.sessionId == some s.id).map Bet.stake).sum
  sessionWon : ∀ s ∈ db.gameSessions.rows,
    s.totalWon = ((db.bets.select fun b => b.sessionId == some s.id).map Bet.payout).sum

/-- No bets, and counters at zero. -/
structure ZeroCounters (db : Db) : Prop where
  bets : db.bets.rows = []
  wallets : ∀ w ∈ db.sminkWallets.rows, w.totalWagered = 0 ∧ w.totalWon = 0 ∧ w.lockedBalance = 0
  sessions : ∀ s ∈ db.gameSessions.rows, s.totalStaked = 0 ∧ s.totalWon = 0

theorem ZeroCounters.balanced (h : ZeroCounters db) : Balanced db := by
  refine ⟨fun c => ?_, ?_, ?_, ?_⟩
  · unfold Db.gap Table.total
    have hw : ∀ w ∈ db.sminkWallets.rows, walletCounter c w = 0 := fun w hw => by
      obtain ⟨h₁, h₂, h₃⟩ := h.wallets w hw
      cases c <;> simp [walletCounter, h₁, h₂, h₃]
    have hs : ∀ s ∈ db.gameSessions.rows, sessionCounter c s = 0 := fun s hs => by
      obtain ⟨h₁, h₂⟩ := h.sessions s hs
      cases c <;> simp [sessionCounter, h₁, h₂]
    rw [List.map_congr_left hw, List.map_congr_left hs, h.bets]
    simp
  all_goals
    rw [h.bets]
    intro b hb
    cases hb

/-- A wallet's counter in balanced books. -/
theorem Balanced.wallet (h : Balanced db) {w : SminkWallet} (hw : w ∈ db.sminkWallets.rows) {c : Counter}
    {p : Bet → Bool} {f : Bet → Money} (hz : ∀ a : SminkWallet, a.userId ≠ w.userId → walletCounter c a = 0)
    (hs : ∀ s, sessionCounter c s = 0) (hp : ∀ b, p b = true → betCounter c b = f b)
    (hn : ∀ b, p b = false → betCounter c b = 0) : walletCounter c w = ((db.bets.select p).map f).sum := by
  have hgap := Books.gap h c
  unfold Db.gap at hgap
  rw [total_walletCounter hw hz, total_zero hs, Table.total_eq_sum_select hp hn, Pi.zero_apply] at hgap
  linarith

/-- A session's counter in balanced books. -/
theorem Balanced.session (h : Balanced db) {s : GameSession} (hs : s ∈ db.gameSessions.rows) {c : Counter}
    {p : Bet → Bool} {f : Bet → Money} (hz : ∀ a : GameSession, a.id ≠ s.id → sessionCounter c a = 0)
    (hw : ∀ w, walletCounter c w = 0) (hp : ∀ b, p b = true → betCounter c b = f b)
    (hn : ∀ b, p b = false → betCounter c b = 0) : sessionCounter c s = ((db.bets.select p).map f).sum := by
  have hgap := Books.gap h c
  unfold Db.gap at hgap
  rw [total_sessionCounter hs hz, total_zero hw, Table.total_eq_sum_select hp hn, Pi.zero_apply] at hgap
  linarith

theorem Balanced.recomputable (h : Balanced db) : Recomputable db where
  totalWagered w hw := by
    have hc := h.wallet hw (c := .wagered w.userId) (p := fun b => b.userId == w.userId) (f := Bet.stake)
      (fun a ha => if_neg ha) (fun _ => rfl) (fun b hb => if_pos (by simpa using hb))
      fun b hb => if_neg (by simpa using hb)
    rwa [walletCounter, if_pos rfl] at hc
  walletWon w hw := by
    have hc := h.wallet hw (c := .won w.userId) (p := fun b => b.userId == w.userId) (f := Bet.payout)
      (fun a ha => if_neg ha) (fun _ => rfl) (fun b hb => if_pos (by simpa using hb))
      fun b hb => if_neg (by simpa using hb)
    rwa [walletCounter, if_pos rfl] at hc
  lockedBalance w hw := by
    have hc := h.wallet hw (c := .locked w.userId) (p := fun b => b.userId == w.userId && b.status == .open)
      (f := Bet.stake) (fun a ha => if_neg ha) (fun _ => rfl) (fun b hb => if_pos (by simpa using hb))
      fun b hb => if_neg (by simpa using hb)
    rwa [walletCounter, if_pos rfl] at hc
  unclamped b hb hs w hw hu := sub_nonneg.2 (Books.stake_le_locked h hb hs hw hu)
  totalStaked s hs := by
    have hc := h.session hs (c := .staked s.id) (p := fun b => b.sessionId == some s.id) (f := Bet.stake)
      (fun a ha => if_neg ha) (fun _ => rfl) (fun b hb => if_pos (by simpa using hb))
      fun b hb => if_neg (by simpa using hb)
    rwa [sessionCounter, if_pos rfl] at hc
  sessionWon s hs := by
    have hc := h.session hs (c := .sessionWon s.id) (p := fun b => b.sessionId == some s.id) (f := Bet.payout)
      (fun a ha => if_neg ha) (fun _ => rfl) (fun b hb => if_pos (by simpa using hb))
      fun b hb => if_neg (by simpa using hb)
    rwa [sessionCounter, if_pos rfl] at hc

/-- **After every request of every run, the counters are recomputable from the bets.** -/
theorem counters_recomputable (D : Digest) (requests : List (Fresh × Request)) (db : Db) (hzero : ZeroCounters db)
    (hc : CompletesAll D requests db) : ∀ t ∈ runRequests D requests db, Recomputable t :=
  fun t ht => (balanced_runRequests D hzero.balanced hc t ht).recomputable

theorem tableDb_zeroCounters (slug : GameSlug) : ZeroCounters (tableDb slug) where
  bets := rfl
  wallets w hw := by
    obtain rfl := List.mem_singleton.1 hw
    exact ⟨rfl, rfl, rfl⟩
  sessions s hs := by
    obtain rfl := List.mem_singleton.1 hs
    exact ⟨rfl, rfl⟩

/-- A Mines round of $5: opened, one tile revealed, cashed out. -/
def minesRound : List (Fresh × Request) := [
  (freshAt 1, .startMines "u1" "s1" (some 5) (some 3)),
  (freshAt 2, .revealMines "u1" "s1" "MIN-1" (some 20)),
  (freshAt 3, .cashOutMines "u1" "s1" "MIN-1")]

/-- The round pays: the wallet ends above the $100 it began with. -/
theorem counters_recomputable_minesRound :
    (∃ t ∈ runRequests zeroDigest minesRound (tableDb .mines), t.sminkWallets.rows.map SminkWallet.totalWon = [555]) ∧
    ∀ t ∈ runRequests zeroDigest minesRound (tableDb .mines), Recomputable t :=
  ⟨by decide +kernel, counters_recomputable zeroDigest minesRound (tableDb .mines) (tableDb_zeroCounters .mines)
    (by decide +kernel)⟩

end Smink
