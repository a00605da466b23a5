import Smink.Db.Seed
import Smink.Deposits.Credit
import Smink.Play.Ledger
import Smink.Store.Pool

/-!
# The ledger explains the balance

The calls that move money, running side by side. Between its wallet update and its ledger rows a call holds what the
ledger does not explain yet; the invariant of `ledgerDiscipline` says that nothing else is unexplained, beyond the
opening balances. `explains_prog` shows that every call keeps to it at every program point, and
`ledger_explains_balance` is what is left when no call is in flight.
-/

namespace Smink

open Store

/-- A call of the services: a request of the play service, or the crediting of a deposit. -/
inductive Call
  | play (fresh : Fresh) (request : Request)
  | credit (now : Time) (depositId : Id) (extraMetadata : Metadata → Metadata)

inductive Answer
  | play (response : Response)
  | credit (row : Option SminkTransaction)

def Call.prog (D : Digest) : Call → Sql Answer
  | .play fresh request => return .play (← serve D fresh request)
  | .credit now depositId extraMetadata => return .credit (← creditDeposit now depositId extraMetadata)

/-- Nobody loses the wallet. -/
def WalletsPersist (db t : Db) : Prop := ∀ userId, HasWallet db userId → HasWallet t userId

/-- What the calls hold is what the ledger does not explain yet. -/
def ledgerDiscipline (opening : Id → Money) : Discipline Call Stmt Db (Id → Money) where
  inv w g := Accounts w.store (opening + g)
  rely w v := WalletsPersist w.store v.store
  rely_refl _ _ h := h
  rely_trans h₁ h₂ userId h := h₂ userId (h₁ userId h)
  ok _ _ _ := True

variable {D : Digest} {opening : Id → Money} {i : Call} {w : World Call Stmt Db} {g : Id → Money} {fresh : Fresh}
  {userId sessionId : Id} {α β : Type} {Q : α → World Call Stmt Db → (Id → Money) → Prop}

/-- The program keeps to the discipline, holding `g` at its start. -/
def Explains (opening : Id → Money) (i : Call) (p : Sql α) (w : World Call Stmt Db) (g : Id → Money)
    (Q : α → World Call Stmt Db → (Id → Money) → Prop) : Prop :=
  Safe (ledgerDiscipline opening) exec i p w g Q

/-! ## One statement -/

theorem ledger_readFree (opening : Id → Money) : ReadFree (ledgerDiscipline opening) Stmt.isRead :=
  fun _ _ _ _ _ h => ⟨fun _ hw => hw, h⟩

/-- A statement that moves what is unexplained by `δ`. -/
theorem explains_stmt {q : Stmt} {k : q.Resp → Sql α} (δ : q.Resp → Id → Money)
    (hq : ∀ v x r s, WalletsPersist w.store v → Accounts v x → exec q v = .ok (r, s) →
      WalletsPersist v s ∧ Accounts s (x + δ r))
    (hk : ∀ v r u, WalletsPersist w.store v → WalletsPersist v u.store → exec q v = .ok (r, u.store) →
      Explains opening i (k r) u (g + δ r) Q) :
    Explains opening i (.stmt q k) w g Q := by
  intro v hv frame hi _ r s hr
  obtain ⟨hw, ha⟩ := hq v.store _ r s hv hi hr
  refine ⟨hw, g + δ r, ?_, hk v.store r _ hv hw hr⟩
  have hsum : opening + (g + frame) + δ r = opening + (g + δ r + frame) := by abel
  rw [hsum] at ha
  exact ha

/-- A statement that moves nothing. -/
theorem explains_neutral {q : Stmt} {f : Unit → Sql α}
    (hq : ∀ v x r s, WalletsPersist w.store v → Accounts v x → exec q v = .ok (r, s) →
      WalletsPersist v s ∧ Accounts s x)
    (hk : ∀ u, WalletsPersist w.store u.store → Explains opening i (f ()) u g Q) :
    Explains opening i (perform q >>= f) w g Q := by
  refine explains_stmt (fun _ => 0) (fun v x r s hv hx hr => ?_) fun v r u hv hu _ => ?_
  · rw [add_zero]
    exact hq v x r s hv hx hr
  · rw [add_zero]
    exact hk u fun a ha => hu a (hv a ha)

theorem explains_done {p : Sql α} {f : α → Sql β} {Q : β → World Call Stmt Db → (Id → Money) → Prop}
    (hp : p.done = true) (hf : ∀ a, p = .ret a → Explains opening i (f a) w 0 Q) :
    Explains opening i (p >>= f) w 0 Q := by
  obtain ⟨a, rfl⟩ | ⟨e, rfl⟩ := Prog.done_cases hp
  · exact hf a rfl
  · exact rfl

/-- A check, with what it found in a store where the accounts hold. -/
theorem explains_oneRead {p : Sql α} {f : α → Sql β} {Q : β → World Call Stmt Db → (Id → Money) → Prop}
    (hp : OneRead Stmt.isRead p)
    (hf : ∀ v a x, WalletsPersist w.store v.store → Accounts v.store x → p.run exec v.store = (.ok a, v.store) →
      Explains opening i (f a) v 0 Q) :
    Explains opening i (p >>= f) w 0 Q :=
  safe_bind (safe_oneRead readOnly (ledger_readFree opening) hp fun v a _ hv hx hr => hf v a _ hv hx hr)

/-! ## The statements of the calls -/

theorem exec_updateWallet {p : SminkWallet → Bool} {set : WalletSet} {v s : Db} {r : List SminkWallet}
    (h : exec (.updateWallet p set) v = .ok (r, s)) :
    r = v.sminkWallets.updated p set ∧ s = { v with sminkWallets := v.sminkWallets.update p set } := by
  cases h
  exact ⟨rfl, rfl⟩

/-- The update of the wallet of a user who has one: it is the row that is answered. -/
theorem explains_updateWallet {set : WalletSet} {k : List SminkWallet → Sql α} (hw : HasWallet w.store userId)
    (hk : ∀ u a, WalletsPersist w.store u.store →
      Explains opening i (k [a]) u (g + Pi.single userId set.balance) Q) :
    Explains opening i (ask (.updateWallet (fun a => a.userId == userId) set) >>= k) w g Q := by
  change Explains opening i (.stmt (.updateWallet (fun a => a.userId == userId) set) k) w g Q
  refine explains_stmt (fun _ => Pi.single userId set.balance) (fun v x r s hv hx hr => ?_)
    fun v r u hv hu hr => ?_
  · obtain ⟨-, rfl⟩ := exec_updateWallet hr
    obtain ⟨a, hau, hsel⟩ := (hv userId hw).select
    have hset := hx.updateWallet set hsel
    rw [hau] at hset
    exact ⟨fun _ => hasWallet_update, hset⟩
  · obtain ⟨hrow, -⟩ := exec_updateWallet hr
    obtain ⟨a, -, hsel⟩ := (hv userId hw).select
    rw [hrow, Table.updated_eq_map, hsel]
    exact hk u _ fun b hb => hu b (hv b hb)

/-- After `ON CONFLICT DO NOTHING` the user has a wallet; a new one is empty. -/
theorem explains_insertWallet {k : List SminkWallet → Sql α}
    (hk : ∀ r u, HasWallet u.store userId → Explains opening i (k r) u g Q) :
    Explains opening i (.stmt (.insertWallet userId) k) w g Q := by
  refine explains_stmt (fun _ => 0) (fun v x r s _ hx hr => ?_) fun v r u _ _ hr => ?_
  · rw [add_zero]
    obtain ⟨t, ht, he⟩ | ⟨-, he⟩ := exec_insertWallet userId v
    · rw [he] at hr
      cases hr
      exact ⟨fun _ => hasWallet_insert ht, hx.insertWallet ht⟩
    · rw [he] at hr
      cases hr
      exact ⟨fun _ h => h, hx⟩
  · rw [add_zero]
    exact hk r u (hasWallet_insertWallet hr)

/-- The debit that opens a bet: nothing happens, or the owner's wallet moves. -/
theorem explains_debit {stake : Money} {set : WalletSet} {k : List SminkWallet → Sql α}
    (hnone : ∀ u, Explains opening i (k []) u g Q)
    (hsome : ∀ u a, HasWallet u.store userId →
      Explains opening i (k [a]) u (g + Pi.single userId set.balance) Q) :
    Explains opening i (ask (.updateWallet (canPay userId stake) set) >>= k) w g Q := by
  have hsel : ∀ v : Db, v.sminkWallets.select (canPay userId stake) = [] ∨
      ∃ a ∈ v.sminkWallets.rows, canPay userId stake a = true ∧ v.sminkWallets.select (canPay userId stake) = [a] :=
    fun v => v.sminkWallets.select_of_key (k := ("user_id", userId)) fun a _ ha => by
      simp [Keyed.keys, canPay_user ha]
  change Explains opening i (.stmt (.updateWallet (canPay userId stake) set) k) w g Q
  refine explains_stmt (fun r : List SminkWallet => if r.isEmpty then 0 else Pi.single userId set.balance)
    (fun v x r s _ hx hr => ?_) fun v r u _ hu hr => ?_
  · obtain ⟨rfl, rfl⟩ := exec_updateWallet hr
    refine ⟨fun _ => hasWallet_update, ?_⟩
    obtain hnil | ⟨a, -, hp, hone⟩ := hsel v
    · rw [Table.updated_eq_map, hnil, Table.update_eq_self hnil]
      simpa using hx
    · rw [Table.updated_eq_map, hone]
      have hset := hx.updateWallet set hone
      rw [canPay_user hp] at hset
      exact hset
  · obtain ⟨rfl, -⟩ := exec_updateWallet hr
    obtain hnil | ⟨a, ha, hp, hone⟩ := hsel v
    · rw [Table.updated_eq_map, hnil]
      simpa using hnone u
    · rw [Table.updated_eq_map, hone]
      exact hsome u _ (hu userId ⟨a, ha, canPay_user hp⟩)

theorem explains_insertBet {bet : Bet} {f : Unit → Sql α} (hw : HasWallet w.store bet.userId)
    (hk : ∀ u, WalletsPersist w.store u.store → Explains opening i (f ()) u g Q) :
    Explains opening i (perform (.insertBet bet) >>= f) w g Q :=
  explains_neutral (fun v x r s hv hx hr => by
    obtain ⟨t, ht, he⟩ := orThrow_ok hr
    cases he
    exact ⟨fun _ h => h, hx.insertBet ht (hv _ hw)⟩) hk

theorem explains_updateBet {p : Bet → Bool} {set : BetSet} {f : Unit → Sql α} (hset : set.status ≠ some .open)
    (hk : ∀ u, WalletsPersist w.store u.store → Explains opening i (f ()) u g Q) :
    Explains opening i (perform (.updateBet p set) >>= f) w g Q :=
  explains_neutral (fun v x r s hv hx hr => by
    cases hr
    exact ⟨fun _ h => h, hx.updateBet p hset⟩) hk

/-- The ledger rows of one user settle what they sum up to. -/
theorem explains_insertTransactions {rs : List SminkTransaction} {f : Unit → Sql α} (userId : Id) (amount : Money)
    (hrs : ∀ u, (rs.map (confirmedOf u)).sum = (Pi.single userId amount : Id → Money) u)
    (hk : ∀ u, Explains opening i (f ()) u (g - Pi.single userId amount) Q) :
    Explains opening i (perform (.insertTransactions rs) >>= f) w g Q := by
  refine explains_stmt (fun _ => -Pi.single userId amount) (fun v x r s _ hx hr => ?_) fun v r u _ _ _ => ?_
  · obtain ⟨t, ht, he⟩ := orThrow_ok hr
    cases he
    rw [← sub_eq_add_neg]
    exact ⟨fun _ h => h, hx.insertTransactions ht hrs⟩
  · rw [← sub_eq_add_neg]
    exact hk u

theorem explains_updateSession {p : GameSession → Bool} {set : SessionSet} {f : Unit → Sql α}
    (hk : ∀ u, WalletsPersist w.store u.store → Explains opening i (f ()) u g Q) :
    Explains opening i (perform (.updateSession p set) >>= f) w g Q :=
  explains_neutral (fun v x r s hv hx hr => by
    cases hr
    exact ⟨fun _ h => h, hx.of_eq rfl rfl rfl rfl rfl⟩) hk

/-! ## The pieces of a round -/

theorem explains_getOrCreate (userId : Id) : Explains opening i (getOrCreate userId) w 0 Released := by
  refine explains_oneRead (p := ask (.selectWallet fun a => a.userId == userId)) ⟨_, _, rfl, rfl, fun _ => rfl⟩
    fun v rows x _ _ _ => ?_
  split
  · exact rfl
  · rw [ask_bind]
    refine explains_insertWallet fun r u _ => ?_
    split
    · exact rfl
    · exact explains_oneRead ⟨_, _, rfl, rfl, fun _ => rfl⟩ fun _ _ _ _ _ _ => rfl

theorem explains_requireWallet (userId : Id) : Explains opening i (requireWallet userId) w 0 Released := by
  refine safe_bind_released (explains_getOrCreate userId) fun wallet v => ?_
  split
  · split_ifs <;> exact rfl
  · exact rfl

/-- The rows of one transaction sum up to its amount. -/
theorem sum_confirmedOf {t : SminkTransaction} (ht : t.status = .confirmed) (u : Id) :
    ([t].map (confirmedOf u)).sum = (Pi.single t.userId t.amount : Id → Money) u := by
  simp [confirmedOf, ht, Pi.single_apply, eq_comm]

theorem explains_settleLost (now : Time) (bet : Bet) (outcome : GameOutcome) (hw : HasWallet w.store userId) :
    Explains opening i (settleLost now userId bet outcome) w 0 Released := by
  refine explains_updateWallet hw fun u a _ => ?_
  refine explains_updateBet (f := fun _ => .ret ()) (by simp [lostSet]) fun v _ => ?_
  simp [Explains, Safe, Released, releaseSet]

theorem explains_payOut (slug : GameSlug) (betReference : String) (bet : Bet) (hw : HasWallet w.store userId) :
    Explains opening i (payOut fresh slug userId sessionId betReference bet) w 0 Released := by
  unfold payOut
  refine explains_updateWallet hw fun u a _ => ?_
  refine explains_updateBet (by simp [cashedOutSet]) fun v _ => ?_
  refine explains_insertTransactions userId (cashOutPayout bet) (sum_confirmedOf rfl) fun x => ?_
  refine explains_updateSession fun _ _ => ?_
  simp [Explains, Safe, Released, releaseSet]

/-- The round a call has found belongs to a user with a wallet. -/
theorem hasWallet_of_round {db : Db} {x : Id → Money} {betReference : String} {bet : Bet} (h : Accounts db x)
    (hb : OpenRound db userId sessionId betReference bet) : HasWallet db userId :=
  hb.user ▸ h.owners bet hb.mem hb.status

/-! ## The methods -/

theorem explains_cashOutMines (betReference : String) :
    Explains opening i (cashOutMines fresh userId sessionId betReference) w 0 Released := by
  refine explains_oneRead (oneRead_requireOpenSession ..) fun _ _ _ _ _ _ => ?_
  refine explains_oneRead (oneRead_findRound ..) fun v bet x _ hx hbet => ?_
  split
  · exact rfl
  · exact safe_bind_released (explains_payOut _ _ _ (hasWallet_of_round hx (run_findRound hbet))) fun _ _ => rfl

theorem explains_cashOutTowers (betReference : String) :
    Explains opening i (cashOutTowers fresh userId sessionId betReference) w 0 Released := by
  refine explains_oneRead (oneRead_requireOpenSession ..) fun _ _ _ _ _ _ => ?_
  refine explains_oneRead (oneRead_findRound ..) fun v bet x _ hx hbet => ?_
  split
  · exact rfl
  · refine safe_bind_released (explains_payOut _ _ _ (hasWallet_of_round hx (run_findRound hbet))) fun _ _ => ?_
    exact explains_done (done_orThrew _) fun _ _ => rfl

theorem explains_recordReveal {f : Unit → Sql α} {bet : Bet} {multiplier : ℚ} {outcome : GameOutcome}
    (hk : ∀ u, Explains opening i (f ()) u 0 Q) :
    Explains opening i (recordReveal bet multiplier outcome >>= f) w 0 Q :=
  explains_updateBet (by simp [revealSet]) fun u _ => hk u

theorem explains_revealMines (betReference : String) (tile : Num) :
    Explains opening i (revealMines fresh userId sessionId betReference tile) w 0 Released := by
  unfold revealMines
  split
  · split
    · exact rfl
    refine explains_oneRead (oneRead_requireOpenSession ..) fun _ _ _ _ _ _ => ?_
    refine explains_oneRead (oneRead_findRound ..) fun v bet x _ hx hbet => ?_
    dsimp only
    split
    · exact rfl
    split
    · exact safe_bind_released (explains_settleLost _ _ _ (hasWallet_of_round hx (run_findRound hbet))) fun _ _ => rfl
    · refine explains_recordReveal fun u => ?_
      split
      · exact explains_cashOutMines betReference
      · exact rfl
  · exact rfl

theorem explains_revealTowers (betReference : String) (tile : Num) :
    Explains opening i (revealTowers fresh userId sessionId betReference tile) w 0 Released := by
  refine explains_oneRead (oneRead_requireOpenSession ..) fun _ _ _ _ _ _ => ?_
  refine explains_oneRead (oneRead_findRound ..) fun v bet x _ hx hbet => ?_
  split
  · refine explains_done (done_orThrew _) fun difficulty _ => ?_
    dsimp only
    split
    · exact rfl
    split
    · exact rfl
    split
    · exact safe_bind_released (explains_settleLost _ _ _ (hasWallet_of_round hx (run_findRound hbet))) fun _ _ => rfl
    · refine explains_recordReveal fun u => ?_
      split
      · exact explains_cashOutTowers betReference
      · exact rfl
  · exact rfl

theorem explains_openRound {Sel : Type} (G : GridGame Sel) (stakeInput : Num) (selectionInput : RawSelection) :
    Explains opening i (openRound G D fresh userId sessionId stakeInput selectionInput) w 0 Released := by
  refine explains_oneRead (oneRead_requireOpenSession ..) fun _ ⟨_, game⟩ _ _ _ _ => ?_
  refine explains_done (done_orInvalid _) fun validated _ => ?_
  refine explains_done (done_orFail _) fun stake _ => ?_
  refine explains_oneRead ⟨_, _, rfl, rfl, fun _ => rfl⟩ fun _ opened _ _ _ _ => ?_
  split
  · exact rfl
  refine safe_bind_released (explains_requireWallet userId) fun wallet _ => ?_
  refine explains_oneRead (oneRead_nextNonce _) fun _ nonce _ _ _ _ => ?_
  refine explains_oneRead (oneRead_getControlRule ..) fun _ row _ _ _ _ => ?_
  refine explains_done (done_orThrew _) fun selection _ => ?_
  unfold debitStake
  rw [Prog.bind_assoc]
  refine explains_debit (fun _ => rfl) fun v a hw => ?_
  refine explains_insertBet hw fun v _ => ?_
  refine explains_insertTransactions userId (-stake) (sum_confirmedOf rfl) fun v => ?_
  refine explains_updateSession fun v _ => ?_
  simp [Explains, Safe, Released, debitSet]

/-- The ledger rows of an instant bet sum up to its net result, as long as it pays no negative amount. -/
theorem sum_betTransactions {slug : GameSlug} {betRef : String} {stake payout balance : Money} (h : 0 ≤ payout)
    (u : Id) : ((betTransactions fresh userId sessionId slug betRef stake payout balance).map (confirmedOf u)).sum =
      (Pi.single userId (payout - stake) : Id → Money) u := by
  unfold betTransactions
  split
  · rw [List.map_cons, List.sum_cons, sum_confirmedOf rfl]
    simp only [confirmedOf, stakeTransaction, payoutTransaction, Pi.single_apply, eq_comm (a := u), and_true]
    split <;> ring
  · have hzero : payout = 0 := le_antisymm (not_lt.1 ‹_›) h
    rw [sum_confirmedOf rfl, hzero]
    simp [stakeTransaction]

theorem betPayout_nonneg {result : RoundResult} {stake : Money} (hs : 0 < stake) (hm : 0 ≤ result.multiplier) :
    0 ≤ betPayout result stake := by
  unfold betPayout
  split
  · refine roundMoney_nonneg (mul_nonneg ?_ hm)
    unfold Money.toRat
    have : (0 : ℚ) < (stake : ℚ) := by exact_mod_cast hs
    positivity
  · exact le_refl 0

theorem explains_consumeForcedRound (row : Option UserGameControl) {f : Unit → Sql α}
    (hk : ∀ u, Explains opening i (f ()) u g Q) : Explains opening i (consumeForcedRound row >>= f) w g Q := by
  unfold consumeForcedRound
  split
  · exact hk w
  split_ifs
  · exact hk w
  · exact hk w
  · exact explains_neutral (fun v x r s _ hx hr => by
      cases hr
      exact ⟨fun _ h => h, hx.updateControl _ _⟩) fun u _ => hk u

/-- The cap of a control row is not negative. -/
theorem cap_nonneg {db : Db} {x : Id → Money} {gameId : Id} {row : Option UserGameControl} {t : Db} (h : Accounts db x)
    (hrow : (getControlRule userId gameId).run exec db = (.ok row, t)) (cap : ℚ)
    (hcap : (row.map UserGameControl.rule).bind ControlRule.maxWinMultiplier = some cap) : 0 ≤ cap := by
  cases row with
  | none => cases hcap
  | some row => exact h.caps row (run_getControlRule hrow) cap hcap

theorem explains_placeBet (slug : GameSlug) (stakeInput : Num) (selectionInput : RawSelection) :
    Explains opening i (placeBet D fresh userId sessionId slug stakeInput selectionInput) w 0 Released := by
  unfold placeBet
  split
  · exact rfl
  refine explains_oneRead (oneRead_requireOpenSession ..) fun _ ⟨_, game⟩ _ _ hx hrun => ?_
  obtain ⟨hedge, hmax⟩ := hx.games game (run_requireOpenSession hrun).game_mem
  refine explains_done (done_orInvalid _) fun validated _ => ?_
  refine explains_done (done_orFail _) fun stake hstake => ?_
  refine safe_bind_released (explains_requireWallet userId) fun wallet _ => ?_
  refine explains_oneRead (oneRead_nextNonce _) fun _ nonce _ _ _ _ => ?_
  refine explains_oneRead (oneRead_getControlRule ..) fun _ row _ _ hx hrow => ?_
  refine explains_done (done_orThrew _) fun raw hraw => ?_
  have hmult := applyWinCap_nonneg (resolveRound_nonneg hedge hmax (orThrew_ok hraw)) (cap_nonneg hx hrow)
  have hpayout := betPayout_nonneg (parseStake_pos (orFail_ok hstake)) hmult
  refine explains_debit (fun _ => rfl) fun v a hw => ?_
  refine explains_insertBet hw fun v _ => ?_
  refine explains_insertTransactions userId _ (sum_betTransactions hpayout) fun v => ?_
  refine explains_updateSession fun v _ => ?_
  refine explains_consumeForcedRound row fun v => ?_
  simp [Explains, Safe, Released, betSet]

theorem explains_reads {p : Sql α} (hp : Reads Stmt.isRead p) : Explains opening i p w 0 Released :=
  (safe_reads readOnly (ledger_readFree opening) hp).mono fun _ _ _ h => h.2

theorem explains_startSession (gameSlug : GameSlug) :
    Explains opening i (startSession fresh userId gameSlug) w 0 Released := by
  refine safe_bind_released (explains_reads (reads_getPlayableGame ..)) fun game v => ?_
  refine explains_updateSession fun v _ => ?_
  refine explains_neutral (fun v x r s _ hx hr => ?_) fun v _ => explains_reads (reads_toSessionDto ..)
  obtain ⟨t, -, he⟩ := orThrow_ok hr
  cases he
  exact ⟨fun _ h => h, hx.of_eq rfl rfl rfl rfl rfl⟩

theorem explains_endSession : Explains opening i (endSession fresh userId sessionId) w 0 Released := by
  refine explains_oneRead ⟨_, _, rfl, rfl, fun _ => rfl⟩ fun _ rows _ _ _ _ => ?_
  split
  · split
    · exact rfl
    · exact explains_updateSession (f := fun _ => .ret ()) fun _ _ => rfl
  · exact rfl

theorem explains_serve (D : Digest) (fresh : Fresh) (request : Request) :
    Explains opening i (serve D fresh request) w 0 Released := by
  cases request with
  | startSession userId gameSlug => exact safe_bind_released (explains_startSession gameSlug) fun _ _ => rfl
  | endSession userId sessionId => exact safe_bind_released explains_endSession fun _ _ => rfl
  | getSession userId sessionId => exact safe_bind_released (explains_reads (reads_getSession ..)) fun _ _ => rfl
  | placeBet userId sessionId slug stakeInput selectionInput =>
    exact safe_bind_released (explains_placeBet slug stakeInput selectionInput) fun _ _ => rfl
  | startMines userId sessionId stakeInput mineCountInput =>
    refine safe_bind_released (safe_bind_released (explains_openRound minesGame stakeInput _) fun _ _ => rfl) ?_
    exact fun _ _ => rfl
  | revealMines userId sessionId betReference tile =>
    exact safe_bind_released (explains_revealMines betReference tile) fun _ _ => rfl
  | cashOutMines userId sessionId betReference =>
    exact safe_bind_released (explains_cashOutMines betReference) fun _ _ => rfl
  | getOpenMines userId sessionId => exact safe_bind_released (explains_reads (reads_getOpenMines ..)) fun _ _ => rfl
  | startTowers userId sessionId stakeInput difficultyInput =>
    refine safe_bind_released (safe_bind_released (explains_openRound towersGame stakeInput _) fun _ _ => rfl) ?_
    exact fun _ _ => rfl
  | revealTowers userId sessionId betReference tile =>
    exact safe_bind_released (explains_revealTowers betReference tile) fun _ _ => rfl
  | cashOutTowers userId sessionId betReference =>
    exact safe_bind_released (explains_cashOutTowers betReference) fun _ _ => rfl
  | getOpenTowers userId sessionId => exact safe_bind_released (explains_reads (reads_getOpenTowers ..)) fun _ _ => rfl

/-! ## Deposits -/

/-- The credit finds a wallet, and takes back what the claim has put into the ledger. -/
theorem explains_creditWallet (userId : Id) (amount : Money) :
    Explains opening i (creditWallet userId amount) w (-Pi.single userId amount) fun r _ g =>
      g = 0 ∧ ∃ a, r = some a := by
  unfold creditWallet
  refine explains_insertWallet fun _ u hu => ?_
  refine explains_updateWallet hu fun v a _ => ⟨?_, a, rfl⟩
  simp

/-- What a claim finds: the deposit, if it can be credited. -/
theorem select_claimable (t : Table SminkTransaction) (depositId : Id) :
    t.select (fun t => t.id == depositId && creditable t.status) = [] ∨
      ∃ r ∈ t.rows, r.id = depositId ∧ creditable r.status = true ∧
        t.select (fun t => t.id == depositId && creditable t.status) = [r] := by
  obtain h | ⟨r, hr, hp, h⟩ := t.select_of_key (p := fun t => t.id == depositId && creditable t.status)
    (k := ("id", depositId)) fun a _ ha => by
      rw [Bool.and_eq_true, beq_iff_eq] at ha
      simp [Keyed.keys, ha.1]
  · exact .inl h
  · rw [Bool.and_eq_true, beq_iff_eq] at hp
    exact .inr ⟨r, hr, hp.1, hp.2, h⟩

theorem ne_confirmed_of_creditable {status : TxStatus} (h : creditable status = true) : status ≠ .confirmed := by
  rintro rfl
  cases h

theorem explains_creditDeposit (now : Time) (depositId : Id) (extraMetadata : Metadata → Metadata) :
    Explains opening i (creditDeposit now depositId extraMetadata) w 0 Released := by
  refine explains_oneRead ⟨_, _, rfl, rfl, fun _ => rfl⟩ fun _ rows _ _ _ _ => ?_
  split
  · rename_i current _
    rw [ask_bind]
    -- the claim confirms a row: until the wallet is credited, its amount is unexplained the other way
    refine explains_stmt
      (fun rows : List SminkTransaction => rows.head?.elim 0 fun claimed => -Pi.single claimed.userId claimed.amount)
      (fun v x rows s _ hx hr => ?_) fun v rows u _ _ hr => ?_
    · cases hr
      obtain hnil | ⟨r, -, -, hst, hone⟩ := select_claimable v.sminkTransactions depositId
      · refine ⟨fun _ h => h, ?_⟩
        rw [Table.updated_eq_map, hnil, Table.update_eq_self hnil]
        simpa using hx
      · refine ⟨fun _ h => h, ?_⟩
        rw [Table.updated_eq_map, hone]
        have hset : (claimSet now (extraMetadata current.metadata)).status = some .confirmed := rfl
        have hclaim := hx.claim hone (ne_confirmed_of_creditable hst) hset
        rw [sub_eq_add_neg] at hclaim
        exact hclaim
    · have hrows := (Prod.mk.inj (Except.ok.inj hr)).1
      rw [Table.updated_eq_map] at hrows
      obtain hnil | ⟨r, -, -, -, hone⟩ := select_claimable v.sminkTransactions depositId
      · rw [hnil] at hrows
        subst hrows
        exact rfl
      · rw [hone] at hrows
        subst hrows
        rw [zero_add]
        refine safe_bind (Safe.mono (explains_creditWallet _ _) ?_)
        rintro wallet v _ ⟨rfl, a, rfl⟩
        refine explains_stmt (fun _ => 0) (fun v x r s _ hx hr => ?_) fun v r u _ _ _ => ?_
        · cases hr
          rw [add_zero]
          exact ⟨fun _ h => h, hx.annotate _ rfl⟩
        · rw [add_zero]
          exact rfl
  · exact rfl

/-- **At every program point, a call holds exactly what it has not explained yet.** -/
theorem explains_prog (D : Digest) (i : Call) (w : World Call Stmt Db) :
    Explains opening i (i.prog D) w 0 Released := by
  cases i with
  | play fresh request => exact safe_bind_released (explains_serve D fresh request) fun _ _ => rfl
  | credit now depositId extraMetadata =>
    exact safe_bind_released (explains_creditDeposit now depositId extraMetadata) fun _ _ => rfl

/-! ## All interleavings -/

/-- A store to start from: nothing confirmed yet, the numbers in range, and an open bet's owner has a wallet, as
`requireWallet` sees to before there is a bet. -/
structure Opening (db : Db) : Prop where
  unconfirmed : ∀ t ∈ db.sminkTransactions.rows, t.status ≠ .confirmed
  games : ∀ game ∈ db.games.rows, 0 ≤ game.houseEdge ∧ game.houseEdge ≤ 1 ∧ 0 ≤ game.maxMultiplier
  caps : ∀ row ∈ db.userGameControl.rows, ∀ cap, row.maxWinMultiplier = some cap → 0 ≤ cap
  owners : ∀ bet ∈ db.bets.rows, bet.status = .open → HasWallet db bet.userId

/-- A user's balance, zero without a wallet. -/
def Db.balance (db : Db) (userId : Id) : Money :=
  ((db.sminkWallets.select fun w => w.userId == userId).map SminkWallet.balance).sum

/-- The sum of a user's confirmed ledger rows. -/
def Db.confirmed (db : Db) (userId : Id) : Money :=
  ((db.sminkTransactions.select fun t => t.userId == userId && t.status == .confirmed).map SminkTransaction.amount).sum

theorem unexplained_eq (db : Db) (userId : Id) : db.unexplained userId = db.balance userId - db.confirmed userId :=
  congrArg₂ (· - ·)
    (Table.total_eq_sum_select (fun w hw => if_pos (by simpa using hw)) fun w hw => if_neg (by simpa using hw))
    (Table.total_eq_sum_select (fun t ht => if_pos (by simpa using ht)) fun t ht => if_neg (by simpa using ht))

theorem Opening.accounts {db : Db} (h : Opening db) : Accounts db (db.balance + 0) where
  unexplained := by
    funext userId
    have hzero : db.confirmed userId = 0 := by
      unfold Db.confirmed Table.select
      rw [List.filter_eq_nil_iff.2 fun t ht => by simp [h.unconfirmed t ht]]
      rfl
    rw [unexplained_eq, hzero, sub_zero, add_zero]
  games game hg := (h.games game hg).2
  caps := h.caps
  owners := h.owners

/-- **Whenever no call is in flight, the ledger explains every balance.** -/
theorem ledger_explains_balance (D : Digest) (db : Db) (h : Opening db) (moves : List (Move Call Fault))
    (hok : ∀ m ∈ moves, m.ok = true) (c : Pool Call Stmt.Resp Fault Answer Db)
    (hc : (Pool.init db).replay exec (Call.prog D) moves = some c) (hidle : c.Idle) (userId : Id) :
    c.store.balance userId = db.balance userId + c.store.confirmed userId := by
  have hinv : PoolInv (ledgerDiscipline db.balance) exec (Pool.init db : Pool Call Stmt.Resp Fault Answer Db) :=
    poolInv_init h.accounts
  have hend := idle_inv (replay_safe (explains_prog D) hc (okMoves_of_ok (fun _ _ _ => trivial) hok) hinv).2 hidle
  have hgap := congrFun hend.unexplained userId
  rw [unexplained_eq] at hgap
  simp only [Pi.add_apply, Pi.zero_apply, add_zero] at hgap
  linarith

def pendingDeposit25 : SminkTransaction where
  id := "d1"
  userId := "u1"
  type := .deposit
  status := .pending
  amount := 2500
  reference := "DEP-1"
  createdAt := 0

/-- The player of `tableDb` with a deposit of $25 on the way. -/
def depositDb : Db :=
  { tableDb .dice with
    sminkTransactions := ⟨[pendingDeposit25], List.pairwise_singleton _ _⟩ }

/-- A dice bet of $5 and the crediting of the deposit, statement by statement in turns. -/
def betAndDeposit : List (Move Call Fault) :=
  [.start (.play (freshAt 1) (.placeBet "u1" "s1" .dice (some 5) { target := some 50, direction := "under" })),
    .start (.credit 2 "d1" id)] ++
  [0, 1, 0, 1, 0, 1, 0, 1, 0, 1, 0, 0, 0].map .stmt

theorem depositDb_opening : Opening depositDb where
  unconfirmed t ht := by
    obtain rfl := List.mem_singleton.1 ht
    decide
  games := catalogue_sound
  caps row hrow := by cases hrow
  owners bet hbet := by cases hbet

/-- Deposit, stake and payout all arrive: $100 + $25 - $5 + $9.80. -/
theorem ledger_explains_balance_betAndDeposit :
    ∃ c, (Pool.init depositDb).replay exec (Call.prog zeroDigest) betAndDeposit = some c ∧
      c.store.balance "u1" = 12980 ∧ c.store.balance "u1" = depositDb.balance "u1" + c.store.confirmed "u1" := by
  have hrun : ((Pool.init depositDb).replay exec (Call.prog zeroDigest) betAndDeposit).any
      (fun c => decide (c.Idle ∧ c.store.balance "u1" = 12980)) = true := by decide +kernel
  obtain ⟨c, hc, hidle⟩ := (Option.any_eq_true _ _).1 hrun
  rw [decide_eq_true_eq] at hidle
  exact ⟨c, hc, hidle.2, ledger_explains_balance zeroDigest depositDb depositDb_opening betAndDeposit (by decide) c hc
    hidle.1 "u1"⟩

end Smink
