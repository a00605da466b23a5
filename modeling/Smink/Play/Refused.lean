import Smink.Play.Effects
import Smink.Play.Stranded
import Smink.Store.Refusal

/-!
# A refused request changes nothing

A request that answers `{ ok: false }` has refused before its first change, apart from the empty wallet that a bet opens
for a player who has none (`OnlyOpensWallet`). The checks come first in every method but two. A debit may find no
wallet that holds the stake, and then has updated no row. And a reveal that clears the board writes the bet before the
cash-out checks the session and the round again; they are as the reveal left them, so these checks pass
(`committed_cashOutMines`).
-/

namespace Smink

open Store

variable {db t : Db} {D : Digest} {fresh : Fresh} {userId sessionId : Id} {α β : Type}

/-- The call answers `{ ok: false }`. -/
def Fault.refuses : Fault → Prop
  | .fail _ => True
  | .threw => False

/-- The store is as it was, or has one empty wallet more. -/
def OnlyOpensWallet (userId : Id) (db t : Db) : Prop :=
  t = db ∨ ∃ wallets, db.sminkWallets.insert { userId } = some wallets ∧ t = { db with sminkWallets := wallets }

/-- The program refuses cleanly. -/
abbrev RefusesCleanly (userId : Id) (p : Sql α) (db : Db) : Prop :=
  CleanRefusal Fault.refuses (OnlyOpensWallet userId) exec p db

theorem statementsCommitted : StatementsCommitted Fault.refuses exec := by
  intro q db e he
  cases q with
  | insertWallet userId =>
    obtain ⟨_, -, h⟩ | ⟨-, h⟩ := exec_insertWallet userId db <;> rw [h] at he <;> cases he
  | insertSession s =>
    simp only [exec] at he
    cases hins : db.gameSessions.insert s <;> rw [hins] at he <;> cases he
    exact id
  | insertTransactions rs =>
    simp only [exec] at he
    cases hins : db.sminkTransactions.insertAll rs <;> rw [hins] at he <;> cases he
    exact id
  | insertBet b =>
    simp only [exec] at he
    cases hins : db.bets.insert b <;> rw [hins] at he <;> cases he
    exact id
  | _ => cases he

/-! ## The pieces -/

theorem refuses_done {p : Sql α} (h : p.done = true) : RefusesCleanly userId p db :=
  Prog.ends_of_done h fun _ _ _ _ => .inl rfl

theorem refuses_read {p : Sql α} {f : α → Sql β} (hp : Reads Stmt.isRead p)
    (hf : ∀ a, p.run exec db = (.ok a, db) → RefusesCleanly userId (f a) db) : RefusesCleanly userId (p >>= f) db :=
  cleanRefusal_read readOnly (fun _ => .inl rfl) hp hf

theorem refuses_reads {p : Sql α} (hp : Reads Stmt.isRead p) : RefusesCleanly userId p db :=
  fun _ _ _ => .inl (hp.run_store readOnly rfl)

theorem refuses_committed {p : Sql α} (hp : Committed Fault.refuses p) : RefusesCleanly userId p db :=
  cleanRefusal_of_committed statementsCommitted hp db

theorem committed_orThrew (a : Option α) : Committed Fault.refuses (orThrew a) := by
  cases a with
  | none => exact id
  | some a => trivial

theorem committed_toSessionDto (now : Time) (sessionId : Id) (slug : GameSlug) :
    Committed Fault.refuses (toSessionDto now sessionId slug) :=
  fun _ _ => trivial

/-- The wallet of a bet is there, or is opened empty. -/
theorem ends_requireWallet (userId : Id) (db : Db) :
    Prog.Ends exec (requireWallet userId) db fun _ t => OnlyOpensWallet userId db t := by
  have hget : Prog.Ends exec (getOrCreate userId) db fun _ t => OnlyOpensWallet userId db t := by
    unfold getOrCreate
    rw [ask_bind]
    refine Prog.ends_stmt (fun rows u hu => ?_) fun _ _ => .inl rfl
    cases hu
    split
    · exact .inl rfl
    · rw [ask_bind]
      obtain ⟨wallets, hins, he⟩ | ⟨-, he⟩ := exec_insertWallet userId db
      · refine Prog.ends_stmt (fun created u hu => ?_) fun _ _ => .inl rfl
        rw [he] at hu
        cases hu
        exact .inr ⟨wallets, hins, rfl⟩
      · refine Prog.ends_stmt (fun created u hu => ?_) fun _ _ => .inl rfl
        rw [he] at hu
        cases hu
        exact .inl rfl
  unfold requireWallet
  refine Prog.ends_bind (hget.mono fun wallet t ht => ?_)
  cases wallet with
  | error e => exact ht
  | ok wallet =>
    dsimp only
    split
    · split_ifs
      · exact ht
      · exact ht
    · exact ht

/-- A check after the wallet has been looked up. -/
theorem ends_read {p : Sql α} {f : α → Sql β} {u : Db} (hu : OnlyOpensWallet userId db u) (hp : Reads Stmt.isRead p)
    (hf : ∀ a, Prog.Ends exec (f a) u fun b t => ∀ e, b = .error e → e.refuses → OnlyOpensWallet userId db t) :
    Prog.Ends exec (p >>= f) u fun b t => ∀ e, b = .error e → e.refuses → OnlyOpensWallet userId db t :=
  hp.ends_bind readOnly (fun a _ => hf a) fun _ _ _ _ _ => hu

/-- A debit is refused when no wallet holds the stake, and then has changed none. -/
theorem ends_debit {u : Db} (hu : OnlyOpensWallet userId db u) {stake : Money} {set : WalletSet}
    {k : List SminkWallet → Sql α} (hnone : ∃ e : RpcError, k [] = fail e.error e.code)
    (hsome : ∀ w rest, Committed Fault.refuses (k (w :: rest))) :
    Prog.Ends exec (.stmt (.updateWallet (canPay userId stake) set) k) u fun b t =>
      ∀ e, b = .error e → e.refuses → OnlyOpensWallet userId db t := by
  refine Prog.ends_stmt (fun debited v hv => ?_) fun _ he => by cases he
  cases hv
  cases hrows : u.sminkWallets.updated (canPay userId stake) set with
  | nil =>
    have hsame : u.sminkWallets.update (canPay userId stake) set = u.sminkWallets :=
      Table.update_eq_self (List.map_eq_nil_iff.1 hrows)
    obtain ⟨e, he⟩ := hnone
    rw [he, hsame]
    exact fun _ _ _ => hu
  | cons w rest =>
    exact ((hsome w rest).ends statementsCommitted _).mono fun _ _ h e he hr => absurd hr (h e he)

/-! ## The methods -/

theorem refuses_startSession (slug : GameSlug) : RefusesCleanly userId (startSession fresh userId slug) db := by
  unfold startSession
  refine refuses_read (reads_getPlayableGame ..) fun game _ => refuses_committed ?_
  exact fun _ => fun _ => committed_toSessionDto _ _ _

theorem refuses_endSession : RefusesCleanly userId (endSession fresh userId sessionId) db := by
  unfold endSession
  refine refuses_read (p := ask _) ⟨rfl, fun _ => trivial⟩ fun rows _ => ?_
  split
  · split
    · exact refuses_done rfl
    · exact refuses_committed fun _ => trivial
  · exact refuses_done rfl

theorem committed_consumeForcedRound (row : Option UserGameControl) :
    Committed Fault.refuses (consumeForcedRound row) := by
  unfold consumeForcedRound
  split
  · trivial
  · split_ifs
    · trivial
    · trivial
    · exact fun _ => trivial

theorem refuses_placeBet (slug : GameSlug) (stakeInput : Num) (selectionInput : RawSelection) :
    RefusesCleanly userId (placeBet D fresh userId sessionId slug stakeInput selectionInput) db := by
  unfold placeBet
  split
  · exact refuses_done rfl
  refine refuses_read (oneRead_requireOpenSession ..).reads fun ⟨session, game⟩ _ => ?_
  refine refuses_read (reads_of_done (done_orInvalid _)) fun validated _ => ?_
  refine refuses_read (reads_of_done (done_orFail _)) fun stake _ => ?_
  refine cleanRefusal_bind (ends_requireWallet userId db) fun wallet u hu => ?_
  refine ends_read hu (oneRead_nextNonce _).reads fun nonce => ?_
  refine ends_read hu (oneRead_getControlRule ..).reads fun row => ?_
  refine ends_read hu (reads_of_done (done_orThrew _)) fun raw => ?_
  refine ends_debit hu ⟨⟨"Insufficient balance", .insufficient⟩, rfl⟩ fun w rest => ?_
  refine committed_bind (p := perform _) (fun _ => trivial) fun _ => ?_
  refine committed_bind (p := perform _) (fun _ => trivial) fun _ => ?_
  refine committed_bind (p := bumpSession _ _ _) (fun _ => trivial) fun _ => ?_
  exact committed_bind (committed_consumeForcedRound row) fun _ => trivial

theorem refuses_openRound {Sel : Type} (G : GridGame Sel) (stakeInput : Num) (selectionInput : RawSelection) :
    RefusesCleanly userId (openRound G D fresh userId sessionId stakeInput selectionInput) db := by
  unfold openRound
  refine refuses_read (oneRead_requireOpenSession ..).reads fun ⟨session, game⟩ _ => ?_
  refine refuses_read (reads_of_done (done_orInvalid _)) fun validated _ => ?_
  refine refuses_read (reads_of_done (done_orFail _)) fun stake _ => ?_
  refine refuses_read (p := ask _) ⟨rfl, fun _ => trivial⟩ fun opened _ => ?_
  split
  · exact refuses_done rfl
  refine cleanRefusal_bind (ends_requireWallet userId db) fun wallet u hu => ?_
  refine ends_read hu (oneRead_nextNonce _).reads fun nonce => ?_
  refine ends_read hu (oneRead_getControlRule ..).reads fun row => ?_
  refine ends_read hu (reads_of_done (done_orThrew _)) fun selection => ?_
  unfold debitStake
  rw [Prog.bind_assoc]
  refine ends_debit hu ⟨⟨"Insufficient balance", .insufficient⟩, rfl⟩ fun w rest => ?_
  exact fun _ => fun _ => fun _ => trivial

section Grid

variable {betReference : String} {bet : Bet} {session : GameSession} {game : Game}

theorem committed_payOut (slug : GameSlug) {f : Option Money → Sql α} (hf : ∀ a, Committed Fault.refuses (f a)) :
    Committed Fault.refuses (payOut fresh slug userId sessionId betReference bet >>= f) :=
  fun _ _ _ _ => hf _

theorem refuses_cashOutMines : RefusesCleanly userId (cashOutMines fresh userId sessionId betReference) db := by
  unfold cashOutMines
  refine refuses_read (oneRead_requireOpenSession ..).reads fun ⟨session, game⟩ _ => ?_
  refine refuses_read (oneRead_findRound ..).reads fun bet _ => ?_
  split
  · exact refuses_done rfl
  · refine refuses_committed (committed_payOut .mines ?_)
    exact fun _ => trivial

theorem refuses_cashOutTowers : RefusesCleanly userId (cashOutTowers fresh userId sessionId betReference) db := by
  unfold cashOutTowers
  refine refuses_read (oneRead_requireOpenSession ..).reads fun ⟨session, game⟩ _ => ?_
  refine refuses_read (oneRead_findRound ..).reads fun bet _ => ?_
  split
  · exact refuses_done rfl
  · refine refuses_committed (committed_payOut .towers ?_)
    exact fun _ => committed_bind (committed_orThrew _) fun _ => trivial

/-- A cash-out that its checks let through is not refused. -/
theorem committed_cashOutMines (hat : AtTable db userId sessionId .mines session game)
    (hb : OpenRound db userId sessionId betReference bet) (hsome : bet.revealed ≠ []) :
    Prog.Ends exec (cashOutMines fresh userId sessionId betReference) db fun a _ =>
      ∀ e, a = .error e → ¬ e.refuses := by
  unfold cashOutMines
  refine Prog.ends_bind_ok hat.run (Prog.ends_bind_ok (findRound_of hb) ?_)
  rw [if_neg hsome]
  refine Committed.ends statementsCommitted (committed_payOut .mines ?_) db
  exact fun _ => trivial

theorem committed_cashOutTowers (hat : AtTable db userId sessionId .towers session game)
    (hb : OpenRound db userId sessionId betReference bet) (hsome : bet.picks ≠ []) :
    Prog.Ends exec (cashOutTowers fresh userId sessionId betReference) db fun a _ =>
      ∀ e, a = .error e → ¬ e.refuses := by
  unfold cashOutTowers
  refine Prog.ends_bind_ok hat.run (Prog.ends_bind_ok (findRound_of hb) ?_)
  rw [if_neg hsome]
  refine Committed.ends statementsCommitted (committed_payOut .towers ?_) db
  exact fun _ => committed_bind (committed_orThrew _) fun _ => trivial

/-- A program that is not refused after a statement. -/
theorem refuses_perform {q : Stmt} {k : Unit → Sql α}
    (h : ∀ r t, exec q db = .ok (r, t) →
      Prog.Ends exec (k ()) t fun a _ => ∀ e, a = .error e → ¬ e.refuses) :
    RefusesCleanly userId (perform q >>= k) db := by
  rw [perform_bind]
  refine Prog.ends_stmt (fun r t hr => ?_) fun e he e' he' hr => ?_
  · exact (h r t hr).mono fun _ _ ha e he hr => absurd hr (ha e he)
  · cases he'
    exact absurd hr (statementsCommitted q db e he)

theorem refuses_revealMines (tile : Num) :
    RefusesCleanly userId (revealMines fresh userId sessionId betReference tile) db := by
  unfold revealMines
  split
  · rename_i tile _
    split
    · exact refuses_done rfl
    refine refuses_read (oneRead_requireOpenSession ..).reads fun ⟨session, game⟩ hrun => ?_
    refine refuses_read (oneRead_findRound ..).reads fun bet hbet => ?_
    have hb := run_findRound hbet
    split
    · exact refuses_done rfl
    dsimp only
    split
    · exact refuses_committed fun _ => fun _ => trivial
    · refine refuses_perform fun _ t ht => ?_
      cases ht
      split
      · -- the cash-out finds the session open and the round as it has just been written
        refine committed_cashOutMines ((AtTable.of_run hrun).of_eq rfl rfl) (openRound_setBet hb rfl) ?_
        simp [Bet.revealed, Settable.apply, revealSet]
      · exact fun _ he => by cases he
  · exact refuses_done rfl

theorem refuses_revealTowers (tile : Num) :
    RefusesCleanly userId (revealTowers fresh userId sessionId betReference tile) db := by
  unfold revealTowers
  refine refuses_read (oneRead_requireOpenSession ..).reads fun ⟨session, game⟩ hrun => ?_
  refine refuses_read (oneRead_findRound ..).reads fun bet hbet => ?_
  have hb := run_findRound hbet
  split
  · rename_i tile _
    refine refuses_read (reads_of_done (done_orThrew _)) fun difficulty _ => ?_
    dsimp only
    split
    · exact refuses_done rfl
    split
    · exact refuses_done rfl
    split
    · exact refuses_committed fun _ => fun _ => trivial
    · refine refuses_perform fun _ t ht => ?_
      cases ht
      split
      · refine committed_cashOutTowers ((AtTable.of_run hrun).of_eq rfl rfl) (openRound_setBet hb rfl) ?_
        simp [Bet.picks, Settable.apply, revealSet]
      · exact fun _ he => by cases he
  · exact refuses_done rfl

end Grid

/-! ## Requests -/

/-- What a request answers on success makes no difference. -/
theorem refuses_answer {p : Sql α} {f : α → β} (h : RefusesCleanly userId p db) :
    RefusesCleanly userId (p >>= fun a => pure (f a)) db := by
  refine Prog.ends_bind (h.mono fun a t ht => ?_)
  cases a with
  | ok a => exact fun _ he => by cases he
  | error e => exact fun e' he => ht e' (congrArg Except.error (Except.error.inj he))

/-- **A refused request changes nothing**: a run that answers `{ ok: false }` leaves every row as it was, and at most
opens an empty wallet for the player. -/
theorem refused_changes_nothing (D : Digest) (fresh : Fresh) (request : Request) (db t : Db) (e : RpcError)
    (h : (serve D fresh request).run exec db = (.error (.fail e), t)) : OnlyOpensWallet request.userId db t := by
  have hclean : RefusesCleanly request.userId (serve D fresh request) db := by
    cases request with
    | startSession userId gameSlug => exact refuses_answer (refuses_startSession gameSlug)
    | endSession userId sessionId => exact refuses_answer refuses_endSession
    | getSession userId sessionId => exact refuses_answer (refuses_reads (reads_getSession ..))
    | placeBet userId sessionId slug stakeInput selectionInput =>
      exact refuses_answer (refuses_placeBet slug stakeInput selectionInput)
    | startMines userId sessionId stakeInput mineCountInput =>
      exact refuses_answer (refuses_answer (refuses_openRound minesGame stakeInput _))
    | revealMines userId sessionId betReference tile => exact refuses_answer (refuses_revealMines tile)
    | cashOutMines userId sessionId betReference => exact refuses_answer refuses_cashOutMines
    | getOpenMines userId sessionId => exact refuses_answer (refuses_reads (reads_getOpenMines ..))
    | startTowers userId sessionId stakeInput difficultyInput =>
      exact refuses_answer (refuses_answer (refuses_openRound towersGame stakeInput _))
    | revealTowers userId sessionId betReference tile => exact refuses_answer (refuses_revealTowers tile)
    | cashOutTowers userId sessionId betReference => exact refuses_answer refuses_cashOutTowers
    | getOpenTowers userId sessionId => exact refuses_answer (refuses_reads (reads_getOpenTowers ..))
  have hends := hclean (.fail e) (by rw [h])
  rw [h] at hends
  exact hends trivial

/-- A stake of $500 from a wallet with $100. -/
theorem refused_changes_nothing_overStake :
    OnlyOpensWallet "u1" (tableDb .dice) ((serve zeroDigest (freshAt 1)
      (.placeBet "u1" "s1" .dice (some 500) { target := some 50, direction := "under" })).run exec (tableDb .dice)).2 :=
  refused_changes_nothing zeroDigest (freshAt 1)
    (.placeBet "u1" "s1" .dice (some 500) { target := some 50, direction := "under" }) (tableDb .dice) _
    ⟨"Insufficient balance", .insufficient⟩ (Prod.ext (by decide +kernel) rfl)

end Smink
