import Smink.Play.Counters
import Smink.Play.Effects

/-!
# What is locked covers the open bets

A statement that throws half-way through a request can leave a counter above the sum it stands for, but never the locked
balance of a wallet below the stakes of the open bets: a stake is locked before its bet is inserted, and nothing throws
between the release of a stake and the closing of its bet. So the locked balance covers the open bets in every state of
every run (`locksCover_serve`), and a release takes the whole stake.
-/

namespace Smink

open Store

variable {db t : Db} {D : Digest} {fresh : Fresh} {userId sessionId : Id} {α β : Type}

/-- The wallets lock at least the stakes of the open bets. -/
def LocksCover (db : Db) : Prop := ∃ g, Books db g ∧ ∀ userId, 0 ≤ g (.locked userId)

/-- The program ends with the open bets covered, also where a statement throws. -/
def KeepsLocks (p : Sql α) (db : Db) : Prop := Prog.Ends exec p db fun _ t => LocksCover t

theorem gap_locked (db : Db) (userId : Id) : db.gap (.locked userId) =
    db.sminkWallets.total (walletCounter (.locked userId)) - db.bets.total (betCounter (.locked userId)) := by
  have hsession : db.gameSessions.total (sessionCounter (.locked userId)) = 0 := total_zero fun _ => rfl
  unfold Db.gap
  rw [hsession, add_zero]

/-- The stake of an open bet is locked. -/
theorem LocksCover.stake_le (h : LocksCover db) {b : Bet} {w : SminkWallet} (hb : b ∈ db.bets.rows)
    (hs : b.status = .open)
    (hw : w ∈ db.sminkWallets.rows) (hu : w.userId = b.userId) : b.stake ≤ w.lockedBalance := by
  obtain ⟨g, hbooks, hlocked⟩ := h
  have hgap := hbooks.gap (.locked w.userId)
  have hnonneg := hlocked w.userId
  have hle := hbooks.stake_le_open hb hs
  rw [hu] at hgap hnonneg
  rw [gap_locked] at hgap
  have hwallet : db.sminkWallets.total (walletCounter (.locked b.userId)) = w.lockedBalance :=
    (total_walletCounter (c := .locked b.userId) hw fun a ha => if_neg (by rwa [← hu])).trans (if_pos hu)
  linarith

/-! ## Statements that leave the locks alone -/

/-- The statement writes neither wallets nor bets, or opens an empty wallet. -/
def Stmt.sparesLocks : Stmt → Bool
  | .updateWallet _ _ | .insertBet _ | .updateBet _ _ => false
  | _ => true

theorem sparesLocks_of_isRead (q : Stmt) (hq : q.isRead = true) : q.sparesLocks = true := by
  cases q <;> first | rfl | cases hq

theorem sparesLocks_of_onWallets (q : Stmt) (hq : q.onWallets = true) : q.sparesLocks = true := by
  cases q <;> first | rfl | cases hq

theorem sparesLocks_of_onSessions (q : Stmt) (hq : q.onSessions = true) : q.sparesLocks = true := by
  cases q <;> first | rfl | cases hq

theorem sparesLocks_of_onControls (q : Stmt) (hq : q.onControls = true) : q.sparesLocks = true := by
  cases q <;> first | rfl | cases hq

theorem LocksCover.of_eq (h : LocksCover db) (hw : t.sminkWallets = db.sminkWallets) (hb : t.bets = db.bets) :
    LocksCover t := by
  obtain ⟨g, hbooks, hlocked⟩ := h
  refine ⟨t.gap, ⟨fun _ => rfl, ?_, ?_, ?_⟩, fun userId => ?_⟩
  · rw [hb]; exact hbooks.unpaid
  · rw [hb]; exact hbooks.staked
  · rw [hb, hw]; exact hbooks.owned
  · rw [gap_locked, hw, hb, ← gap_locked, hbooks.gap]
    exact hlocked userId

theorem locksCover_sparesLocks {q : Stmt} (hq : q.sparesLocks = true) {r : q.Resp} (h : LocksCover db)
    (hr : exec q db = .ok (r, t)) : LocksCover t := by
  cases q with
  | insertWallet userId =>
    obtain ⟨u, hu, he⟩ | ⟨-, he⟩ := exec_insertWallet userId db
    · rw [he] at hr
      cases hr
      obtain ⟨g, hbooks, hlocked⟩ := h
      exact ⟨g, hbooks.insertWallet hu, hlocked⟩
    · rw [he] at hr
      cases hr
      exact h
  | insertSession s => obtain ⟨u, -, he⟩ := orThrow_ok hr; cases he; exact h.of_eq rfl rfl
  | insertTransactions rs => obtain ⟨u, -, he⟩ := orThrow_ok hr; cases he; exact h.of_eq rfl rfl
  | insertBet b => cases hq
  | updateWallet p set => cases hq
  | updateBet p set => cases hq
  | _ => cases hr; exact h.of_eq rfl rfl

theorem keepsLocks_of_spares {p : Sql α} (hp : Reads Stmt.sparesLocks p) (h : LocksCover db) : KeepsLocks p db :=
  hp.ends_keeps (J := LocksCover) (fun _ hq _ _ _ hs hr => locksCover_sparesLocks hq hs hr) h

/-- A part that leaves the locks alone. -/
theorem keepsLocks_bind {p : Sql α} {f : α → Sql β} (hp : Reads Stmt.sparesLocks p) (h : LocksCover db)
    (hf : ∀ a t, LocksCover t → KeepsLocks (f a) t) : KeepsLocks (p >>= f) db := by
  refine Prog.ends_bind ((keepsLocks_of_spares hp h).mono fun r t ht => ?_)
  cases r with
  | ok a => exact hf a t ht
  | error e => exact ht

/-- A check, with what it has found. -/
theorem keepsLocks_read {p : Sql α} {f : α → Sql β} (hp : Reads Stmt.isRead p) (h : LocksCover db)
    (hf : ∀ a, p.run exec db = (.ok a, db) → KeepsLocks (f a) db) : KeepsLocks (p >>= f) db :=
  hp.ends_bind readOnly hf fun _ _ => h

/-! ## Debits and new bets -/

/-- At least `spare` more than the open bets is locked for the user. -/
def LocksSpare (db : Db) (userId : Id) (spare : Money) : Prop :=
  ∃ g, Books db g ∧ ∀ u, (if userId = u then spare else 0) ≤ g (.locked u)

theorem LocksSpare.cover {spare : Money} (h : LocksSpare db userId spare) (hspare : 0 ≤ spare) : LocksCover db := by
  obtain ⟨g, hbooks, hlocked⟩ := h
  refine ⟨g, hbooks, fun u => le_trans ?_ (hlocked u)⟩
  split_ifs
  · exact hspare
  · exact le_refl 0

/-- A debit, from the owner's wallet or from none. -/
theorem keepsLocks_debit {stake : Money} {set : WalletSet} {f : List SminkWallet → Sql α} (hset : set.release = none)
    (h : LocksCover db) (hnone : KeepsLocks (f []) db)
    (hsome : ∀ w t, HasWallet t userId → LocksSpare t userId set.lock → KeepsLocks (f [Settable.apply set w]) t) :
    KeepsLocks (ask (.updateWallet (canPay userId stake) set) >>= f) db := by
  refine Prog.ends_stmt (fun r t ht => ?_) fun _ he => by cases he
  cases ht
  rw [Table.updated_eq_map]
  obtain hsel | ⟨w, hw, hp, hsel⟩ := db.sminkWallets.select_of_key (p := canPay userId stake) (k := ("user_id", userId))
    fun a _ ha => by simp [Keyed.keys, canPay_user ha]
  · rw [hsel, Table.update_eq_self hsel]
    exact hnone
  · rw [hsel]
    obtain ⟨g, hbooks, hlocked⟩ := h
    refine hsome w _ (hasWallet_update ⟨w, hw, canPay_user hp⟩) ⟨_, hbooks.updateWallet set hsel, fun u => ?_⟩
    rw [walletCounter_place hset, canPay_user hp]
    have hu := hlocked u
    unfold placeDelta
    dsimp only
    split_ifs
    · linarith
    · linarith

/-- A new bet, whose stake is locked if it is open. -/
theorem keepsLocks_insertBet {b : Bet} {spare : Money} {f : Unit → Sql α} (h : LocksSpare db b.userId spare)
    (hopen : (if b.status = .open then b.stake else 0) ≤ spare) (hpaid : b.status = .open → b.payout = 0)
    (hstake : 0 ≤ b.stake) (hown : HasWallet db b.userId) (hf : Reads Stmt.sparesLocks (f ())) :
    KeepsLocks (perform (.insertBet b) >>= f) db := by
  have hspare : 0 ≤ spare := by
    refine le_trans ?_ hopen
    split_ifs
    · exact hstake
    · exact le_refl 0
  refine Prog.ends_stmt (fun r t ht => ?_) fun _ _ => h.cover hspare
  obtain ⟨bets, hins, he⟩ := orThrow_ok ht
  cases he
  refine keepsLocks_of_spares hf ?_
  obtain ⟨g, hbooks, hlocked⟩ := h
  refine ⟨_, hbooks.insertBet hins hpaid hstake hown, fun u => ?_⟩
  have hu := hlocked u
  unfold betCounter
  dsimp only
  by_cases hown : b.userId = u
  · rw [if_pos hown] at hu
    simp only [hown, true_and]
    linarith
  · rw [if_neg hown] at hu
    simp only [hown, false_and, if_false]
    linarith

theorem keepsLocks_openRound {Sel : Type} (G : GridGame Sel) (stakeInput : Num) (selectionInput : RawSelection)
    (h : LocksCover db) : KeepsLocks (openRound G D fresh userId sessionId stakeInput selectionInput) db := by
  unfold openRound
  refine keepsLocks_read (oneRead_requireOpenSession ..).reads h fun ⟨session, game⟩ _ => ?_
  refine keepsLocks_read (reads_of_done (done_orInvalid _)) h fun validated _ => ?_
  refine keepsLocks_read (reads_of_done (done_orFail _)) h fun stake hstake => ?_
  have hpos := parseStake_pos (orFail_ok (run_done (done_orFail _) hstake))
  refine keepsLocks_read (reads_ask (f := .ret) rfl fun _ => trivial) h fun opened _ => ?_
  split
  · exact h
  refine keepsLocks_bind ((onWallets_requireWallet userId).mono sparesLocks_of_onWallets) h fun wallet t ht => ?_
  refine keepsLocks_read (oneRead_nextNonce _).reads ht fun nonce _ => ?_
  refine keepsLocks_read (oneRead_getControlRule ..).reads ht fun row _ => ?_
  refine keepsLocks_read (reads_of_done (done_orThrew _)) ht fun selection _ => ?_
  unfold debitStake
  rw [Prog.bind_assoc]
  refine keepsLocks_debit rfl ht ht fun w u hown hspare => ?_
  refine keepsLocks_insertBet hspare (le_of_eq (if_pos rfl)) (fun _ => rfl) hpos.le hown ?_
  refine reads_bind (p := perform (.insertTransactions _)) ⟨rfl, fun _ => trivial⟩ fun _ => ?_
  exact reads_bind (p := bumpSession _ _ _) ⟨rfl, fun _ => trivial⟩ fun _ => trivial

theorem keepsLocks_placeBet (slug : GameSlug) (stakeInput : Num) (selectionInput : RawSelection) (h : LocksCover db) :
    KeepsLocks (placeBet D fresh userId sessionId slug stakeInput selectionInput) db := by
  unfold placeBet
  split
  · exact h
  refine keepsLocks_read (oneRead_requireOpenSession ..).reads h fun ⟨session, game⟩ _ => ?_
  refine keepsLocks_read (reads_of_done (done_orInvalid _)) h fun validated _ => ?_
  refine keepsLocks_read (reads_of_done (done_orFail _)) h fun stake hstake => ?_
  have hpos := parseStake_pos (orFail_ok (run_done (done_orFail _) hstake))
  refine keepsLocks_bind ((onWallets_requireWallet userId).mono sparesLocks_of_onWallets) h fun wallet t ht => ?_
  refine keepsLocks_read (oneRead_nextNonce _).reads ht fun nonce _ => ?_
  refine keepsLocks_read (oneRead_getControlRule ..).reads ht fun row _ => ?_
  refine keepsLocks_read (reads_of_done (done_orThrew _)) ht fun raw _ => ?_
  refine keepsLocks_debit rfl ht ht fun w u hown hspare => ?_
  have hstatus :
      (if (applyWinCap raw (row.map UserGameControl.rule)).won = true then BetStatus.won else .lost) ≠ .open := by
    split <;> decide
  refine keepsLocks_insertBet hspare (le_of_eq (if_neg hstatus)) (fun hs => absurd hs hstatus) hpos.le hown ?_
  refine reads_bind (p := perform (.insertTransactions _)) ⟨rfl, fun _ => trivial⟩ fun _ => ?_
  refine reads_bind (p := bumpSession _ _ _) ⟨rfl, fun _ => trivial⟩ fun _ => ?_
  exact reads_bind ((onControls_consumeForcedRound row).mono sparesLocks_of_onControls) fun _ => trivial

/-! ## Settlements -/

section Settle

variable {betReference : String} {bet : Bet}

/-- The release of a stake and the closing of its bet, one after the other. -/
theorem LocksCover.settle (h : LocksCover db) (hb : OpenRound db userId sessionId betReference bet) (payout : Money)
    {set : BetSet} {st : BetStatus} (hst : set.status = some st) (hne : st ≠ .open) (hpay : set.payout = some payout) :
    LocksCover { db.setBet bet set with
      sminkWallets := db.sminkWallets.update (fun w => w.userId == userId) (releaseSet bet.stake payout) } := by
  have hle : ∀ w ∈ db.sminkWallets.rows, w.userId = bet.userId → bet.stake ≤ w.lockedBalance := fun w hw hu =>
    h.stake_le hb.mem hb.status hw hu
  obtain ⟨g, hbooks, hlocked⟩ := h
  obtain ⟨w, hw, hu⟩ := hbooks.owned bet hb.mem
  have hsel : db.sminkWallets.select (fun a => a.userId == userId) = [w] :=
    select_wallet hw (by simp [hu, hb.user]) fun a ha => by rw [hu, hb.user]; exact beq_iff_eq.1 ha
  have hunpaid := hbooks.unpaid bet hb.mem hb.status
  have h₁ := hbooks.updateWallet (releaseSet bet.stake payout) hsel
  have h₂ := h₁.updateBet set hb.mem (select_bet hb.mem) fun hs => absurd hs (by simp [Settable.apply, hst, hne])
  refine ⟨_, h₂, fun u => ?_⟩
  rw [walletCounter_release (hle w hw hu), betCounter_close hb.status hunpaid hb.session hst hne hpay, hu]
  have hu := hlocked u
  simp only [bumpDelta, add_zero]
  linarith

theorem keepsLocks_settleLost (h : LocksCover db) (hb : OpenRound db userId sessionId betReference bet) (now : Time)
    (outcome : GameOutcome) (f : Unit → Sql α) (hf : Reads Stmt.sparesLocks (f ())) :
    KeepsLocks (settleLost now userId bet outcome >>= f) db := by
  refine Prog.ends_stmt (fun _ t ht => ?_) fun _ he => by cases he
  cases ht
  refine Prog.ends_stmt (fun _ t ht => ?_) fun _ he => by cases he
  cases ht
  exact keepsLocks_of_spares hf (h.settle hb 0 rfl (by decide) rfl)

theorem keepsLocks_payOut (h : LocksCover db) (hb : OpenRound db userId sessionId betReference bet) (slug : GameSlug)
    (f : Option Money → Sql α) (hf : ∀ a, Reads Stmt.sparesLocks (f a)) :
    KeepsLocks (payOut fresh slug userId sessionId betReference bet >>= f) db := by
  refine Prog.ends_stmt (fun _ t ht => ?_) fun _ he => by cases he
  cases ht
  refine Prog.ends_stmt (fun _ t ht => ?_) fun _ he => by cases he
  cases ht
  refine keepsLocks_of_spares ?_ (h.settle hb (cashOutPayout bet) rfl (by decide) rfl)
  exact ⟨rfl, fun _ => ⟨rfl, fun _ => hf _⟩⟩

/-- A safe reveal moves no stake. -/
theorem LocksCover.reveal (h : LocksCover db) (hb : OpenRound db userId sessionId betReference bet) (multiplier : ℚ)
    (outcome : GameOutcome) : LocksCover (db.setBet bet (revealSet multiplier outcome)) := by
  obtain ⟨g, hbooks, hlocked⟩ := h
  have hval : ∀ c, betCounter c (Settable.apply (revealSet multiplier outcome) bet) = betCounter c bet := fun c => by
    cases c <;> rfl
  have h₁ := hbooks.updateBet (revealSet multiplier outcome) hb.mem (select_bet hb.mem) fun _ =>
    hbooks.unpaid bet hb.mem hb.status
  refine ⟨_, h₁, fun u => ?_⟩
  rw [hval, sub_self, sub_zero]
  exact hlocked u

theorem keepsLocks_cashOutMines (h : LocksCover db) :
    KeepsLocks (cashOutMines fresh userId sessionId betReference) db := by
  unfold cashOutMines
  refine keepsLocks_read (oneRead_requireOpenSession ..).reads h fun ⟨session, game⟩ _ => ?_
  refine keepsLocks_read (oneRead_findRound ..).reads h fun bet hbet => ?_
  split
  · exact h
  · exact keepsLocks_payOut h (run_findRound hbet) .mines _ fun _ => trivial

theorem keepsLocks_cashOutTowers (h : LocksCover db) :
    KeepsLocks (cashOutTowers fresh userId sessionId betReference) db := by
  unfold cashOutTowers
  refine keepsLocks_read (oneRead_requireOpenSession ..).reads h fun ⟨session, game⟩ _ => ?_
  refine keepsLocks_read (oneRead_findRound ..).reads h fun bet hbet => ?_
  split
  · exact h
  · refine keepsLocks_payOut h (run_findRound hbet) .towers _ fun _ => ?_
    exact reads_bind (reads_of_done (done_orThrew _)) fun _ => trivial

theorem keepsLocks_revealMines (h : LocksCover db) (value : Num) :
    KeepsLocks (revealMines fresh userId sessionId betReference value) db := by
  unfold revealMines
  split
  · split
    · exact h
    refine keepsLocks_read (oneRead_requireOpenSession ..).reads h fun ⟨session, game⟩ _ => ?_
    refine keepsLocks_read (oneRead_findRound ..).reads h fun bet hbet => ?_
    have hb := run_findRound hbet
    dsimp only
    split
    · exact h
    split
    · exact keepsLocks_settleLost h hb _ _ _ trivial
    · refine Prog.ends_stmt (fun _ t ht => ?_) fun _ he => by cases he
      cases ht
      split
      · exact keepsLocks_cashOutMines (h.reveal hb _ _)
      · exact h.reveal hb _ _
  · exact h

theorem keepsLocks_revealTowers (h : LocksCover db) (value : Num) :
    KeepsLocks (revealTowers fresh userId sessionId betReference value) db := by
  unfold revealTowers
  refine keepsLocks_read (oneRead_requireOpenSession ..).reads h fun ⟨session, game⟩ _ => ?_
  refine keepsLocks_read (oneRead_findRound ..).reads h fun bet hbet => ?_
  have hb := run_findRound hbet
  split
  · refine keepsLocks_read (reads_of_done (done_orThrew _)) h fun difficulty _ => ?_
    dsimp only
    split
    · exact h
    split
    · exact h
    split
    · exact keepsLocks_settleLost h hb _ _ _ trivial
    · refine Prog.ends_stmt (fun _ t ht => ?_) fun _ he => by cases he
      cases ht
      split
      · exact keepsLocks_cashOutTowers (h.reveal hb _ _)
      · exact h.reveal hb _ _
  · exact h

end Settle

/-! ## Requests -/

/-- **A request keeps the open bets covered.** -/
theorem locksCover_serve (h : LocksCover db) (D : Digest) (fresh : Fresh) (request : Request) :
    KeepsLocks (serve D fresh request) db := by
  cases request with
  | startSession userId gameSlug =>
    exact ends_answer (keepsLocks_of_spares ((onSessions_startSession gameSlug).mono sparesLocks_of_onSessions) h)
  | endSession userId sessionId =>
    exact ends_answer (keepsLocks_of_spares (onSessions_endSession.mono sparesLocks_of_onSessions) h)
  | getSession userId sessionId =>
    exact ends_answer (keepsLocks_of_spares ((reads_getSession ..).mono sparesLocks_of_isRead) h)
  | placeBet userId sessionId slug stakeInput selectionInput => exact ends_answer (keepsLocks_placeBet slug _ _ h)
  | startMines userId sessionId stakeInput mineCountInput =>
    exact ends_answer (ends_answer (keepsLocks_openRound minesGame _ _ h))
  | revealMines userId sessionId betReference tile => exact ends_answer (keepsLocks_revealMines h tile)
  | cashOutMines userId sessionId betReference => exact ends_answer (keepsLocks_cashOutMines h)
  | getOpenMines userId sessionId =>
    exact ends_answer (keepsLocks_of_spares ((reads_getOpenMines ..).mono sparesLocks_of_isRead) h)
  | startTowers userId sessionId stakeInput difficultyInput =>
    exact ends_answer (ends_answer (keepsLocks_openRound towersGame _ _ h))
  | revealTowers userId sessionId betReference tile => exact ends_answer (keepsLocks_revealTowers h tile)
  | cashOutTowers userId sessionId betReference => exact ends_answer (keepsLocks_cashOutTowers h)
  | getOpenTowers userId sessionId =>
    exact ends_answer (keepsLocks_of_spares ((reads_getOpenTowers ..).mono sparesLocks_of_isRead) h)

end Smink
