import Smink.Engine.Layouts
import Smink.Play.Effects
import Smink.Play.Explained
import Mathlib.Algebra.Order.PUnit

/-!
# No overdraft

The debit of a bet asks that the wallet hold the stake, and adds the net result of a round resolved before. It takes no
more than the stake, because no game pays a negative multiplier; a cash-out and a deposit add. `Solvent` is what every
statement of every call keeps, at whatever moment it is executed: no wallet is below zero, and the numbers that a payout
is computed from are in range. A call holds nothing, so it may also fail at any statement.
-/

namespace Smink

open Store

/-! ## Multipliers of grid rounds -/

theorem minesSurvivalOdds_pos {safe : ℤ} (hs : safe ≤ MINES_TILE_COUNT) : ∀ {revealed : ℕ}, (revealed : ℤ) ≤ safe →
    0 < minesSurvivalOdds safe revealed
  | 0, _ => one_pos
  | k + 1, hk => by
    have hlt : (k : ℤ) < safe := by push_cast at hk; omega
    have hsafe : (0 : ℚ) < safe - k := by
      rw [sub_pos]
      exact_mod_cast hlt
    have htotal : (0 : ℚ) < MINES_TILE_COUNT - k := by
      rw [sub_pos]
      exact_mod_cast hlt.trans_le hs
    exact mul_pos (minesSurvivalOdds_pos hs hlt.le) (div_pos hsafe htotal)

theorem minesMultiplier_nonneg {houseEdge : ℚ} (h : houseEdge ≤ 1) (mineCount revealed : ℕ) :
    0 ≤ minesMultiplier mineCount revealed houseEdge := by
  unfold minesMultiplier
  dsimp only
  split_ifs with hzero hmore
  · exact le_refl 0
  · exact le_refl 0
  · exact round2_nonneg (div_nonneg (by linarith) (minesSurvivalOdds_pos (by omega) (by omega)).le)

theorem towersMultiplier_nonneg {houseEdge : ℚ} (h : houseEdge ≤ 1) (difficulty : TowersDifficulty) (climbed : ℕ) :
    0 ≤ towersMultiplier difficulty climbed houseEdge := by
  have hrate : 0 ≤ towersSurviveRate difficulty := by cases difficulty <;> decide +kernel
  unfold towersMultiplier
  split
  · exact le_refl 0
  · exact round2_nonneg (div_nonneg (by linarith) (pow_nonneg hrate _))

/-! ## What no statement breaks -/

structure Solvent (db : Db) : Prop where
  wallets : ∀ w ∈ db.sminkWallets.rows, 0 ≤ w.balance ∧ 0 ≤ w.lockedBalance
  games : ∀ game ∈ db.games.rows, game.houseEdge ≤ 1 ∧ 0 ≤ game.maxMultiplier
  caps : ∀ row ∈ db.userGameControl.rows, ∀ cap, row.maxWinMultiplier = some cap → 0 ≤ cap
  rounds : ∀ bet ∈ db.bets.rows, bet.status = .open → 0 ≤ bet.stake ∧ 0 ≤ bet.multiplier
  deposits : ∀ t ∈ db.sminkTransactions.rows, t.type = .deposit → 0 ≤ t.amount

namespace Solvent

variable {db : Db}

/-- A statement on other tables. -/
theorem of_eq {t : Db} (h : Solvent db) (hw : t.sminkWallets = db.sminkWallets) (hg : t.games = db.games)
    (hc : t.userGameControl = db.userGameControl) (hb : t.bets = db.bets)
    (ht : t.sminkTransactions = db.sminkTransactions) : Solvent t :=
  ⟨by rw [hw]; exact h.wallets, by rw [hg]; exact h.games, by rw [hc]; exact h.caps, by rw [hb]; exact h.rounds,
    by rw [ht]; exact h.deposits⟩

/-- A wallet update that takes no wallet it finds below zero. -/
theorem updateWallet (h : Solvent db) {p : SminkWallet → Bool} {set : WalletSet}
    (hset : ∀ w ∈ db.sminkWallets.rows, p w = true → 0 ≤ w.balance → 0 ≤ w.lockedBalance →
      0 ≤ (Settable.apply set w : SminkWallet).balance ∧ 0 ≤ (Settable.apply set w : SminkWallet).lockedBalance) :
    Solvent { db with sminkWallets := db.sminkWallets.update p set } := by
  refine ⟨fun w' hw' => ?_, h.games, h.caps, h.rounds, h.deposits⟩
  obtain ⟨w, hw, rfl⟩ := Table.mem_update.1 hw'
  obtain ⟨hbalance, hlocked⟩ := h.wallets w hw
  unfold Table.updateRow
  split
  · exact hset w hw ‹_› hbalance hlocked
  · exact ⟨hbalance, hlocked⟩

theorem insertWallet (h : Solvent db) {userId : Id} {t : Table SminkWallet}
    (hins : db.sminkWallets.insert { userId } = some t) : Solvent { db with sminkWallets := t } := by
  refine ⟨fun w hw => ?_, h.games, h.caps, h.rounds, h.deposits⟩
  rw [Table.rows_insert hins] at hw
  rcases List.mem_append.1 hw with hw | hw
  · exact h.wallets w hw
  · rw [List.mem_singleton.1 hw]
    exact ⟨le_refl 0, le_refl 0⟩

theorem insertBet (h : Solvent db) {bet : Bet} {t : Table Bet} (hins : db.bets.insert bet = some t)
    (hbet : bet.status = .open → 0 ≤ bet.stake ∧ 0 ≤ bet.multiplier) : Solvent { db with bets := t } := by
  refine ⟨h.wallets, h.games, h.caps, fun b hb => ?_, h.deposits⟩
  rw [Table.rows_insert hins] at hb
  rcases List.mem_append.1 hb with hb | hb
  · exact h.rounds b hb
  · rw [List.mem_singleton.1 hb]
    exact hbet

theorem updateBet (h : Solvent db) {p : Bet → Bool} {set : BetSet} (hset : set.status ≠ some .open)
    (hmult : ∀ m, set.multiplier = some m → 0 ≤ m) : Solvent { db with bets := db.bets.update p set } := by
  refine ⟨h.wallets, h.games, h.caps, fun b' hb' hopen => ?_, h.deposits⟩
  obtain ⟨b, hb, rfl⟩ := Table.mem_update.1 hb'
  unfold Table.updateRow at hopen ⊢
  split at hopen
  · rw [if_pos ‹_›]
    obtain ⟨hstake, hold⟩ := h.rounds b hb (open_of_apply hset hopen)
    refine ⟨hstake, ?_⟩
    simp only [Settable.apply]
    cases hm : set.multiplier with
    | none => exact hold
    | some m => exact hmult m hm
  · rw [if_neg ‹_›]
    exact h.rounds b hb hopen

theorem insertTransactions (h : Solvent db) {rs : List SminkTransaction} {t : Table SminkTransaction}
    (hins : db.sminkTransactions.insertAll rs = some t) (hrs : ∀ r ∈ rs, r.type ≠ .deposit) :
    Solvent { db with sminkTransactions := t } := by
  refine ⟨h.wallets, h.games, h.caps, h.rounds, fun r hr htype => ?_⟩
  rw [Table.rows_insertAll hins] at hr
  rcases List.mem_append.1 hr with hr | hr
  · exact h.deposits r hr htype
  · exact absurd htype (hrs r hr)

/-- No update of the ledger touches the type or the amount of a row. -/
theorem updateTransaction (h : Solvent db) (p : SminkTransaction → Bool) (set : TransactionSet) :
    Solvent { db with sminkTransactions := db.sminkTransactions.update p set } := by
  refine ⟨h.wallets, h.games, h.caps, h.rounds, fun r' hr' => ?_⟩
  obtain ⟨r, hr, rfl⟩ := Table.mem_update.1 hr'
  unfold Table.updateRow
  split
  · exact h.deposits r hr
  · exact h.deposits r hr

theorem updateControl (h : Solvent db) (p : UserGameControl → Bool) (set : ControlSet) :
    Solvent { db with userGameControl := db.userGameControl.update p set } := by
  refine ⟨h.wallets, h.games, fun row' hrow' => ?_, h.rounds, h.deposits⟩
  obtain ⟨row, hrow, rfl⟩ := Table.mem_update.1 hrow'
  unfold Table.updateRow
  split
  · exact h.caps row hrow
  · exact h.caps row hrow

end Solvent

/-! ## One statement -/

/-- Nothing is held; solvency is the invariant. -/
def solventDiscipline : Discipline Call Stmt Db Unit where
  inv w _ := Solvent w.store
  rely w v := TypesPersist w.store v.store
  rely_refl _ := .of_eq rfl
  rely_trans := .trans
  ok _ _ _ := True

variable {D : Digest} {i : Call} {w : World Call Stmt Db} {fresh : Fresh} {userId sessionId : Id} {α β : Type}
  {Q : α → World Call Stmt Db → Unit → Prop}

/-- Every statement that the program can execute keeps the store solvent. -/
def StaysSolvent (i : Call) (p : Sql α) (w : World Call Stmt Db) (Q : α → World Call Stmt Db → Unit → Prop) : Prop :=
  Safe solventDiscipline exec i p w 0 Q

theorem solvent_stmt {q : Stmt} {k : q.Resp → Sql α} (hq : ∀ v r s, Solvent v → exec q v = .ok (r, s) → Solvent s)
    (hk : ∀ v r u, TypesPersist w.store v → Solvent v → exec q v = .ok (r, u.store) → StaysSolvent i (k r) u Q) :
    StaysSolvent i (.stmt q k) w Q := by
  intro v hv _ hi _ r s hr
  exact ⟨exec_types hr, 0, hq v.store r s hi hr, hk v.store r _ hv hi hr⟩

/-- A statement whose answer is not looked at. -/
theorem solvent_perform {q : Stmt} {f : Unit → Sql α} (hq : ∀ v r s, Solvent v → exec q v = .ok (r, s) → Solvent s)
    (hf : ∀ u, StaysSolvent i (f ()) u Q) : StaysSolvent i (perform q >>= f) w Q :=
  solvent_stmt hq fun _ _ u _ _ _ => hf u

theorem solvent_readFree : ReadFree solventDiscipline Stmt.isRead := fun _ _ _ _ _ h => ⟨.of_eq rfl, h⟩

theorem solvent_done {p : Sql α} {f : α → Sql β} {Q : β → World Call Stmt Db → Unit → Prop} (hp : p.done = true)
    (hf : ∀ a, p = .ret a → StaysSolvent i (f a) w Q) : StaysSolvent i (p >>= f) w Q := by
  obtain ⟨a, rfl⟩ | ⟨e, rfl⟩ := Prog.done_cases hp
  · exact hf a rfl
  · exact rfl

/-- A check, with what it found in a solvent store. -/
theorem solvent_oneRead {p : Sql α} {f : α → Sql β} {Q : β → World Call Stmt Db → Unit → Prop}
    (hp : OneRead Stmt.isRead p)
    (hf : ∀ v a, Solvent v.store → p.run exec v.store = (.ok a, v.store) → StaysSolvent i (f a) v Q) :
    StaysSolvent i (p >>= f) w Q :=
  safe_bind (safe_oneRead readOnly solvent_readFree hp fun v a _ _ hv hr => hf v a hv hr)

theorem solvent_bind {p : Sql α} {f : α → Sql β} {Q : β → World Call Stmt Db → Unit → Prop}
    (hp : StaysSolvent i p w Released) (hf : ∀ a v, StaysSolvent i (f a) v Q) : StaysSolvent i (p >>= f) w Q :=
  safe_bind (hp.mono fun a v _ _ => hf a v)

theorem solvent_reads {p : Sql α} (hp : Reads Stmt.isRead p) : StaysSolvent i p w Released :=
  (safe_reads readOnly solvent_readFree hp).mono fun _ _ _ h => h.2

theorem solvent_updateSession {p : GameSession → Bool} {set : SessionSet} {v s : Db} {r : Unit} (h : Solvent v)
    (hr : exec (.updateSession p set) v = .ok (r, s)) : Solvent s := by
  cases hr
  exact h.of_eq rfl rfl rfl rfl rfl

theorem solvent_insertTransactions {rs : List SminkTransaction} {v s : Db} {r : Unit} (h : Solvent v)
    (hrs : ∀ t ∈ rs, t.type ≠ .deposit) (hr : exec (.insertTransactions rs) v = .ok (r, s)) : Solvent s := by
  obtain ⟨t, ht, he⟩ := orThrow_ok hr
  cases he
  exact h.insertTransactions ht hrs

/-! ## The pieces of a round -/

theorem solvent_insertWallet {v s : Db} {r : List SminkWallet} (h : Solvent v)
    (hr : exec (.insertWallet userId) v = .ok (r, s)) : Solvent s := by
  obtain ⟨t, ht, he⟩ | ⟨-, he⟩ := exec_insertWallet userId v
  · rw [he] at hr
    cases hr
    exact h.insertWallet ht
  · rw [he] at hr
    cases hr
    exact h

theorem solvent_requireWallet (userId : Id) : StaysSolvent i (requireWallet userId) w Released := by
  have hcreate : StaysSolvent i (getOrCreate userId) w Released := by
    refine solvent_oneRead (p := ask _) ⟨_, _, rfl, rfl, fun _ => rfl⟩ fun v rows _ _ => ?_
    split
    · exact rfl
    · rw [ask_bind]
      refine solvent_stmt (fun _ _ _ => solvent_insertWallet) fun _ r u _ _ _ => ?_
      split
      · exact rfl
      · exact solvent_oneRead ⟨_, _, rfl, rfl, fun _ => rfl⟩ fun _ _ _ _ => rfl
  refine solvent_bind hcreate fun wallet v => ?_
  split
  · split_ifs <;> exact rfl
  · exact rfl

/-- A credit, with a release of locked money: `GREATEST` keeps the locked balance at zero at least. -/
theorem solvent_release {p : SminkWallet → Bool} {stake payout : Money} {v s : Db} {r : List SminkWallet}
    (hpayout : 0 ≤ payout) (h : Solvent v) (hr : exec (.updateWallet p (releaseSet stake payout)) v = .ok (r, s)) :
    Solvent s := by
  obtain ⟨-, rfl⟩ := exec_updateWallet hr
  exact h.updateWallet fun a _ _ hbalance _ => ⟨add_nonneg hbalance hpayout, le_max_right _ _⟩

/-- The debit that opens a bet takes what the wallet has: the guard is on the stake, and the round pays nothing back
below zero. -/
theorem solvent_debit {stake : Money} {set : WalletSet} (hset : -stake ≤ set.balance) (hlock : 0 ≤ set.lock)
    (hrelease : set.release = none) {v s : Db} {r : List SminkWallet} (h : Solvent v)
    (hr : exec (.updateWallet (canPay userId stake) set) v = .ok (r, s)) : Solvent s := by
  obtain ⟨-, rfl⟩ := exec_updateWallet hr
  refine h.updateWallet fun a _ hpay _ hlocked => ?_
  have hholds : stake ≤ a.balance := by
    simp only [canPay, Bool.and_eq_true, decide_eq_true_eq] at hpay
    exact hpay.2
  simp only [Settable.apply, hrelease]
  constructor <;> linarith

theorem solvent_debitStake {stake : Money} (h : 0 ≤ stake) : StaysSolvent i (debitStake userId stake) w Released := by
  unfold debitStake
  rw [ask_bind]
  refine solvent_stmt (fun _ _ _ => solvent_debit (le_refl _) h rfl) fun _ r _ _ _ _ => ?_
  split <;> exact rfl

theorem solvent_settleLost (now : Time) (bet : Bet) (outcome : GameOutcome) :
    StaysSolvent i (settleLost now userId bet outcome) w Released := by
  refine solvent_perform (fun _ _ _ => solvent_release (le_refl 0)) fun u => ?_
  refine solvent_perform (f := fun _ => .ret ()) (fun v r s h hr => ?_) fun _ => rfl
  cases hr
  exact h.updateBet (by simp [lostSet]) fun m hm => (Option.some.inj hm) ▸ le_refl 0

theorem cashOutPayout_nonneg {bet : Bet} (h : 0 ≤ bet.stake ∧ 0 ≤ bet.multiplier) : 0 ≤ cashOutPayout bet := by
  refine roundMoney_nonneg (mul_nonneg ?_ h.2)
  unfold Money.toRat
  have hcast : (0 : ℚ) ≤ (bet.stake : ℚ) := by exact_mod_cast h.1
  positivity

theorem solvent_payOut (slug : GameSlug) (betReference : String) {bet : Bet} (h : 0 ≤ bet.stake ∧ 0 ≤ bet.multiplier) :
    StaysSolvent i (payOut fresh slug userId sessionId betReference bet) w Released := by
  unfold payOut
  dsimp only
  rw [ask_bind]
  refine solvent_stmt (fun _ _ _ => solvent_release (cashOutPayout_nonneg h)) fun _ _ u _ _ _ => ?_
  refine solvent_perform (fun v r s hv hr => ?_) fun u => ?_
  · cases hr
    exact hv.updateBet (by simp [cashedOutSet]) fun m hm => nomatch hm
  refine solvent_perform (fun _ _ _ hv hr => solvent_insertTransactions hv (by simp [payoutTransaction]) hr) fun u => ?_
  exact solvent_perform (fun _ _ _ => solvent_updateSession) fun _ => rfl

/-- A round that a call has found open, in a solvent store. -/
theorem Solvent.of_round {db : Db} {betReference : String} {bet : Bet} (h : Solvent db)
    (hb : OpenRound db userId sessionId betReference bet) : 0 ≤ bet.stake ∧ 0 ≤ bet.multiplier :=
  h.rounds bet hb.mem hb.status

/-! ## The methods -/

theorem solvent_cashOutMines (betReference : String) :
    StaysSolvent i (cashOutMines fresh userId sessionId betReference) w Released := by
  refine solvent_oneRead (oneRead_requireOpenSession ..) fun _ _ _ _ => ?_
  refine solvent_oneRead (oneRead_findRound ..) fun v bet hv hbet => ?_
  split
  · exact rfl
  · exact solvent_bind (solvent_payOut _ _ (hv.of_round (run_findRound hbet))) fun _ _ => rfl

theorem solvent_cashOutTowers (betReference : String) :
    StaysSolvent i (cashOutTowers fresh userId sessionId betReference) w Released := by
  refine solvent_oneRead (oneRead_requireOpenSession ..) fun _ _ _ _ => ?_
  refine solvent_oneRead (oneRead_findRound ..) fun v bet hv hbet => ?_
  split
  · exact rfl
  · refine solvent_bind (solvent_payOut _ _ (hv.of_round (run_findRound hbet))) fun _ _ => ?_
    exact solvent_done (done_orThrew _) fun _ _ => rfl

theorem solvent_recordReveal {f : Unit → Sql α} {bet : Bet} {multiplier : ℚ} {outcome : GameOutcome}
    (hm : 0 ≤ toFixed 4 multiplier) (hf : ∀ u, StaysSolvent i (f ()) u Q) :
    StaysSolvent i (recordReveal bet multiplier outcome >>= f) w Q :=
  solvent_perform (fun v r s h hr => by
    cases hr
    exact h.updateBet (by simp [revealSet]) fun m hset => (Option.some.inj hset) ▸ hm) hf

theorem solvent_revealMines (betReference : String) (tile : Num) :
    StaysSolvent i (revealMines fresh userId sessionId betReference tile) w Released := by
  unfold revealMines
  split
  · split
    · exact rfl
    refine solvent_oneRead (oneRead_requireOpenSession ..) fun _ ⟨_, game⟩ hv hrun => ?_
    have hedge := (hv.games game (run_requireOpenSession hrun).game_mem).1
    refine solvent_oneRead (oneRead_findRound ..) fun v bet _ _ => ?_
    dsimp only
    split
    · exact rfl
    split
    · exact solvent_bind (solvent_settleLost _ _ _) fun _ _ => rfl
    · refine solvent_recordReveal ?_ fun u => ?_
      · rw [toFixed_minesMultiplier]
        exact minesMultiplier_nonneg hedge _ _
      split
      · exact solvent_cashOutMines betReference
      · exact rfl
  · exact rfl

theorem solvent_revealTowers (betReference : String) (tile : Num) :
    StaysSolvent i (revealTowers fresh userId sessionId betReference tile) w Released := by
  refine solvent_oneRead (oneRead_requireOpenSession ..) fun _ ⟨_, game⟩ hv hrun => ?_
  have hedge := (hv.games game (run_requireOpenSession hrun).game_mem).1
  refine solvent_oneRead (oneRead_findRound ..) fun v bet _ _ => ?_
  split
  · refine solvent_done (done_orThrew _) fun difficulty _ => ?_
    dsimp only
    split
    · exact rfl
    split
    · exact rfl
    split
    · exact solvent_bind (solvent_settleLost _ _ _) fun _ _ => rfl
    · refine solvent_recordReveal ?_ fun u => ?_
      · rw [toFixed_towersMultiplier]
        exact towersMultiplier_nonneg hedge _ _
      split
      · exact solvent_cashOutTowers betReference
      · exact rfl
  · exact rfl

theorem solvent_openRound {Sel : Type} (G : GridGame Sel) (stakeInput : Num) (selectionInput : RawSelection) :
    StaysSolvent i (openRound G D fresh userId sessionId stakeInput selectionInput) w Released := by
  refine solvent_oneRead (oneRead_requireOpenSession ..) fun _ ⟨_, game⟩ _ _ => ?_
  refine solvent_done (done_orInvalid _) fun validated _ => ?_
  refine solvent_done (done_orFail _) fun stake hstake => ?_
  have hpos := parseStake_pos (orFail_ok hstake)
  refine solvent_oneRead ⟨_, _, rfl, rfl, fun _ => rfl⟩ fun _ opened _ _ => ?_
  split
  · exact rfl
  refine solvent_bind (solvent_requireWallet userId) fun wallet _ => ?_
  refine solvent_oneRead (oneRead_nextNonce _) fun _ nonce _ _ => ?_
  refine solvent_oneRead (oneRead_getControlRule ..) fun _ row _ _ => ?_
  refine solvent_done (done_orThrew _) fun selection _ => ?_
  refine solvent_bind (solvent_debitStake hpos.le) fun _ v => ?_
  refine solvent_perform (fun v r s h hr => ?_) fun v => ?_
  · obtain ⟨t, ht, he⟩ := orThrow_ok hr
    cases he
    exact h.insertBet ht fun _ => ⟨hpos.le, le_refl 0⟩
  refine solvent_perform (fun _ _ _ h hr => solvent_insertTransactions h (by simp [stakeTransaction]) hr) fun v => ?_
  exact solvent_perform (fun _ _ _ => solvent_updateSession) fun _ => rfl

theorem solvent_consumeForcedRound (row : Option UserGameControl) {f : Unit → Sql α}
    (hf : ∀ u, StaysSolvent i (f ()) u Q) : StaysSolvent i (consumeForcedRound row >>= f) w Q := by
  unfold consumeForcedRound
  split
  · exact hf w
  split_ifs
  · exact hf w
  · exact hf w
  · exact solvent_perform (fun v r s h hr => by cases hr; exact h.updateControl _ _) hf

/-- The cap of the control row that a call has read. -/
theorem Solvent.cap_nonneg {db t : Db} {gameId : Id} {row : Option UserGameControl} (h : Solvent db)
    (hrow : (getControlRule userId gameId).run exec db = (.ok row, t)) (cap : ℚ)
    (hcap : (row.map UserGameControl.rule).bind ControlRule.maxWinMultiplier = some cap) : 0 ≤ cap := by
  cases row with
  | none => cases hcap
  | some row => exact h.caps row (run_getControlRule hrow) cap hcap

/-- An instant bet: its net result is no less than the stake lost, whatever the game has decided. -/
theorem solvent_placeBet (slug : GameSlug) (stakeInput : Num) (selectionInput : RawSelection) :
    StaysSolvent i (placeBet D fresh userId sessionId slug stakeInput selectionInput) w Released := by
  unfold placeBet
  split
  · exact rfl
  refine solvent_oneRead (oneRead_requireOpenSession ..) fun _ ⟨_, game⟩ hv hrun => ?_
  obtain ⟨hedge, hmax⟩ := hv.games game (run_requireOpenSession hrun).game_mem
  refine solvent_done (done_orInvalid _) fun validated _ => ?_
  refine solvent_done (done_orFail _) fun stake hstake => ?_
  refine solvent_bind (solvent_requireWallet userId) fun wallet _ => ?_
  refine solvent_oneRead (oneRead_nextNonce _) fun _ nonce _ _ => ?_
  refine solvent_oneRead (oneRead_getControlRule ..) fun _ row hv hrow => ?_
  refine solvent_done (done_orThrew _) fun raw hraw => ?_
  have hmult := applyWinCap_nonneg (resolveRound_nonneg hedge hmax (orThrew_ok hraw)) (hv.cap_nonneg hrow)
  have hpayout := betPayout_nonneg (parseStake_pos (orFail_ok hstake)) hmult
  dsimp only
  rw [ask_bind]
  refine solvent_stmt (fun _ _ _ => solvent_debit ?_ (le_refl 0) rfl) fun _ debited _ _ _ _ => ?_
  · simp only [betSet]
    linarith
  split
  · refine solvent_perform (fun v r s h hr => ?_) fun v => ?_
    · obtain ⟨t, ht, he⟩ := orThrow_ok hr
      cases he
      refine h.insertBet ht fun hopen => ?_
      split at hopen <;> cases hopen
    refine solvent_perform (fun _ _ _ h hr => solvent_insertTransactions h ?_ hr) fun v => ?_
    · unfold betTransactions
      split <;> simp [stakeTransaction, payoutTransaction]
    refine solvent_perform (fun _ _ _ => solvent_updateSession) fun v => ?_
    exact solvent_consumeForcedRound row fun v => rfl
  · exact rfl

theorem solvent_startSession (gameSlug : GameSlug) :
    StaysSolvent i (startSession fresh userId gameSlug) w Released := by
  refine solvent_bind (solvent_reads (reads_getPlayableGame ..)) fun game v => ?_
  refine solvent_perform (fun _ _ _ => solvent_updateSession) fun v => ?_
  refine solvent_perform (fun v r s h hr => ?_) fun v => solvent_reads (reads_toSessionDto ..)
  obtain ⟨t, -, he⟩ := orThrow_ok hr
  cases he
  exact h.of_eq rfl rfl rfl rfl rfl

theorem solvent_endSession : StaysSolvent i (endSession fresh userId sessionId) w Released := by
  refine solvent_oneRead ⟨_, _, rfl, rfl, fun _ => rfl⟩ fun _ rows _ _ => ?_
  split
  · split
    · exact rfl
    · exact solvent_perform (f := fun _ => .ret ()) (fun _ _ _ => solvent_updateSession) fun _ => rfl
  · exact rfl

theorem solvent_serve (D : Digest) (fresh : Fresh) (request : Request) :
    StaysSolvent i (serve D fresh request) w Released := by
  cases request with
  | startSession userId gameSlug => exact solvent_bind (solvent_startSession gameSlug) fun _ _ => rfl
  | endSession userId sessionId => exact solvent_bind solvent_endSession fun _ _ => rfl
  | getSession userId sessionId => exact solvent_bind (solvent_reads (reads_getSession ..)) fun _ _ => rfl
  | placeBet userId sessionId slug stakeInput selectionInput =>
    exact solvent_bind (solvent_placeBet slug stakeInput selectionInput) fun _ _ => rfl
  | startMines userId sessionId stakeInput mineCountInput =>
    exact solvent_bind (solvent_bind (solvent_openRound minesGame stakeInput _) fun _ _ => rfl) fun _ _ => rfl
  | revealMines userId sessionId betReference tile =>
    exact solvent_bind (solvent_revealMines betReference tile) fun _ _ => rfl
  | cashOutMines userId sessionId betReference => exact solvent_bind (solvent_cashOutMines betReference) fun _ _ => rfl
  | getOpenMines userId sessionId => exact solvent_bind (solvent_reads (reads_getOpenMines ..)) fun _ _ => rfl
  | startTowers userId sessionId stakeInput difficultyInput =>
    exact solvent_bind (solvent_bind (solvent_openRound towersGame stakeInput _) fun _ _ => rfl) fun _ _ => rfl
  | revealTowers userId sessionId betReference tile =>
    exact solvent_bind (solvent_revealTowers betReference tile) fun _ _ => rfl
  | cashOutTowers userId sessionId betReference =>
    exact solvent_bind (solvent_cashOutTowers betReference) fun _ _ => rfl
  | getOpenTowers userId sessionId => exact solvent_bind (solvent_reads (reads_getOpenTowers ..)) fun _ _ => rfl

/-! ## Deposits -/

theorem solvent_updateTransaction {p : SminkTransaction → Bool} {set : TransactionSet} {v s : Db}
    {r : List SminkTransaction} (h : Solvent v) (hr : exec (.updateTransaction p set) v = .ok (r, s)) : Solvent s := by
  cases hr
  exact h.updateTransaction p set

theorem solvent_creditWallet {amount : Money} (h : 0 ≤ amount) :
    StaysSolvent i (creditWallet userId amount) w Released := by
  unfold creditWallet
  refine solvent_perform (fun _ _ _ => solvent_insertWallet) fun u => ?_
  refine solvent_stmt (fun v r s hv hr => ?_) fun _ _ _ _ _ _ => rfl
  obtain ⟨-, rfl⟩ := exec_updateWallet hr
  refine hv.updateWallet fun a _ _ hbalance hlocked => ?_
  simp only [Settable.apply]
  constructor <;> linarith

theorem solvent_creditDeposit (now : Time) (depositId : Id) (extraMetadata : Metadata → Metadata) :
    StaysSolvent i (creditDeposit now depositId extraMetadata) w Released := by
  refine solvent_oneRead ⟨_, _, rfl, rfl, fun _ => rfl⟩ fun v rows _ hr => ?_
  obtain rfl := Except.ok.inj (Prod.mk.inj hr).1
  split
  · rename_i current hcurrent
    obtain ⟨hmem, hcurrent⟩ := Table.mem_of_select_head hcurrent
    simp only [Bool.and_eq_true, beq_iff_eq] at hcurrent
    rw [ask_bind]
    refine solvent_stmt (fun _ _ _ => solvent_updateTransaction) fun y claimedRows z hy hsolvent hclaim => ?_
    obtain ⟨rfl, -⟩ := Prod.mk.inj (Except.ok.inj hclaim)
    split
    · rename_i claimed hclaimed
      -- the claimed row is the deposit that was read
      have hpos : 0 ≤ claimed.amount := by
        rw [Table.updated_eq_map, List.head?_map] at hclaimed
        obtain ⟨a, ha, rfl⟩ := Option.map_eq_some_iff.1 hclaimed
        obtain ⟨hamem, ha⟩ := Table.mem_of_select_head ha
        simp only [Bool.and_eq_true, beq_iff_eq] at ha
        obtain ⟨b, hb, hid, htype⟩ := hy current hmem
        obtain rfl : b = a := transaction_eq_of_id hb hamem (by rw [hid, hcurrent.1.1, ha.1])
        exact hsolvent.deposits b hb (htype.trans hcurrent.1.2)
      refine solvent_bind (solvent_creditWallet hpos) fun wallet _ => ?_
      split
      · exact solvent_perform (fun _ _ _ => solvent_updateTransaction) fun _ => rfl
      · exact solvent_stmt (fun _ _ _ => solvent_updateTransaction) fun _ _ _ _ _ _ => rfl
    · exact rfl
  · exact rfl

/-- Every statement of every call keeps the store solvent. -/
theorem solvent_prog (D : Digest) (i : Call) (w : World Call Stmt Db) : StaysSolvent i (i.prog D) w Released := by
  cases i with
  | play fresh request => exact solvent_bind (solvent_serve D fresh request) fun _ _ => rfl
  | credit now depositId extraMetadata =>
    exact solvent_bind (solvent_creditDeposit now depositId extraMetadata) fun _ _ => rfl

/-! ## All interleavings -/

/-- **In every state of every interleaving, also where statements fail, no wallet is overdrawn.** -/
theorem never_overdrawn (D : Digest) (db : Db) (h : Solvent db) (moves : List (Move Call Fault))
    (c : Pool Call Stmt.Resp Fault Answer Db) (hc : (Pool.init db).replay exec (Call.prog D) moves = some c) :
    ∀ w ∈ c.store.sminkWallets.rows, 0 ≤ w.balance ∧ 0 ≤ w.lockedBalance := by
  have hinv : PoolInv solventDiscipline exec (Pool.init db : Pool Call Stmt.Resp Fault Answer Db) := poolInv_init h
  have hmay : MayMoves solventDiscipline exec (Call.prog D) (Pool.init db) moves :=
    mayMoves_of_ok (fun _ _ _ => trivial) moves _
  have hend : Solvent c.store := (replay_safe_fail (solvent_prog D) hc hmay hinv).2.inv
  exact hend.wallets

theorem tableDb_solvent (slug : GameSlug) : Solvent (tableDb slug) where
  wallets w hw := by
    obtain rfl := List.mem_singleton.1 hw
    decide
  games game hgame := (catalogue_sound game hgame).2
  caps row hrow := by cases hrow
  rounds bet hbet := by cases hbet
  deposits t ht := by cases ht

def betEightyAt (n : Nat) : Call :=
  .play (freshAt n) (.placeBet "u1" "s1" .dice (some 80) { target := some 50, direction := "over" })

/-- Two bets of $80 that lose, from a wallet with $100: both calls have read the wallet before either debits it. -/
def bothBet : List (Move Call Fault) :=
  [.start (betEightyAt 1), .start (betEightyAt 2)] ++ [0, 0, 0, 0, 1, 1, 1, 1, 0, 1, 0, 0, 0].map .stmt

theorem never_overdrawn_bothBet :
    ∃ c, (Pool.init (tableDb .dice)).replay exec (Call.prog zeroDigest) bothBet = some c ∧ c.Idle ∧
      c.store.balance "u1" = 2000 ∧ ∀ w ∈ c.store.sminkWallets.rows, 0 ≤ w.balance ∧ 0 ≤ w.lockedBalance := by
  have hrun : ((Pool.init (tableDb .dice)).replay exec (Call.prog zeroDigest) bothBet).any
      (fun c => decide (c.Idle ∧ c.store.balance "u1" = 2000)) = true := by decide +kernel
  obtain ⟨c, hc, hidle⟩ := (Option.any_eq_true _ _).1 hrun
  rw [decide_eq_true_eq] at hidle
  exact ⟨c, hc, hidle.1, hidle.2, never_overdrawn zeroDigest (tableDb .dice) (tableDb_solvent .dice) bothBet c hc⟩

end Smink
