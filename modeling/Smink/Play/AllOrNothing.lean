import Smink.Db.Seed
import Smink.Play.Explained
import Smink.Store.Atomic

/-!
# All-or-nothing settlement

Each of the eight calls that move money issues its statements one by one, with no transaction around them. A call is
all-or-nothing where a throw of any statement leaves the state of before, or the state of a call that went through;
`all_or_nothing_iff` says for which calls and stores that is so (`LeavesOneChange`): those that stop at a check, and
those whose run changes one row only.
-/

namespace Smink

open Store

/-! ## The state of the books -/

/-- The wallet of a user; a missing wallet counts as an empty one. -/
def Db.wallet (db : Db) (userId : Id) : SminkWallet :=
  ((db.sminkWallets.select fun w => w.userId == userId).head?).getD { userId }

/-- The same wallets, bets, ledger, sessions and controls, an empty wallet row aside. -/
structure SameState (db t : Db) : Prop where
  wallet : ∀ userId, db.wallet userId = t.wallet userId
  bets : db.bets = t.bets
  sminkTransactions : db.sminkTransactions = t.sminkTransactions
  gameSessions : db.gameSessions = t.gameSessions
  userGameControl : db.userGameControl = t.userGameControl

theorem sameState_equivalence : Equivalence SameState where
  refl _ := ⟨fun _ => rfl, rfl, rfl, rfl, rfl⟩
  symm h := ⟨fun u => (h.wallet u).symm, h.bets.symm, h.sminkTransactions.symm, h.gameSessions.symm,
    h.userGameControl.symm⟩
  trans h₁ h₂ := ⟨fun u => (h₁.wallet u).trans (h₂.wallet u), h₁.bets.trans h₂.bets,
    h₁.sminkTransactions.trans h₂.sminkTransactions, h₁.gameSessions.trans h₂.gameSessions,
    h₁.userGameControl.trans h₂.userGameControl⟩

variable {db : Db} {userId sessionId : Id} {α β : Type} {D : Digest} {fresh : Fresh}

/-- A throw of any statement of the program leaves the state of before or of after. -/
def Atomic (p : Sql α) (db : Db) : Prop := AllOrNothing SameState exec p db

theorem wallet_of_mem {w : SminkWallet} (hw : w ∈ db.sminkWallets.rows) (hu : w.userId = userId) :
    db.wallet userId = w := by
  unfold Db.wallet
  rw [select_wallet hw (by simp [hu]) fun a ha => by rw [hu]; exact beq_iff_eq.1 ha]
  rfl

/-- A new wallet row is an empty one. -/
theorem sameState_insertWallet {r : List SminkWallet} {t : Db} (h : exec (.insertWallet userId) db = .ok (r, t)) :
    SameState db t := by
  obtain ⟨ws, hins, he⟩ | ⟨-, he⟩ := exec_insertWallet userId db
  · rw [he] at h
    cases h
    refine ⟨fun u => ?_, rfl, rfl, rfl, rfl⟩
    unfold Db.wallet Table.select
    rw [Table.rows_insert hins, List.filter_append]
    cases hsel : db.sminkWallets.rows.filter fun w => w.userId == u with
    | cons a as => rfl
    | nil =>
      by_cases hu : userId = u
      · simp [hu]
      · simp [hu]
  · rw [he] at h
    cases h
    exact sameState_equivalence.refl db

/-! ## Checks and programs -/

theorem atomic_read {p : Sql α} {f : α → Sql β} (hp : Reads Stmt.isRead p) :
    Atomic (p >>= f) db ↔ ∀ a, p.run exec db = (.ok a, db) → Atomic (f a) db :=
  allOrNothing_read sameState_equivalence readOnly hp

theorem atomic_ask {q : Stmt} {r : q.Resp} {f : q.Resp → Sql β} (h : exec q db = .ok (r, db)) :
    Atomic (ask q >>= f) db ↔ Atomic (f r) db := by
  rw [ask_bind]
  exact allOrNothing_same sameState_equivalence h (sameState_equivalence.refl db)

theorem atomic_orFail {a : Except RpcError α} {f : α → Sql β} :
    Atomic (orFail a >>= f) db ↔ ∀ x, a = .ok x → Atomic (f x) db := by
  rw [atomic_read (reads_of_done (done_orFail a))]
  cases a <;> simp [orFail]

theorem atomic_orInvalid {a : Except String α} {f : α → Sql β} :
    Atomic (orInvalid a >>= f) db ↔ ∀ x, a = .ok x → Atomic (f x) db := by
  rw [atomic_read (reads_of_done (done_orInvalid a))]
  cases a <;> simp [orInvalid, fail]

theorem atomic_orThrew {a : Option α} {f : α → Sql β} :
    Atomic (orThrew a >>= f) db ↔ ∀ x, a = some x → Atomic (f x) db := by
  rw [atomic_read (reads_of_done (done_orThrew a))]
  cases a <;> simp [orThrew]

theorem atomic_done {p : Sql α} (h : p.done = true) : Atomic p db := allOrNothing_of_done h

theorem atomic_map {f : α → β} (p : Sql α) : Atomic (p >>= fun a => Prog.ret (f a)) db ↔ Atomic p db :=
  allOrNothing_map p

theorem keeps_of_reads {p : Sql α} (hp : Reads Stmt.isRead p) : Keeps SameState exec p db :=
  hp.keeps sameState_equivalence readOnly

theorem exists_insertWallet (userId : Id) (db : Db) : ∃ r t, exec (.insertWallet userId) db = .ok (r, t) := by
  obtain ⟨_, -, he⟩ | ⟨-, he⟩ := exec_insertWallet userId db <;> exact ⟨_, _, he⟩

/-- The wallet a bet is placed from is looked up, or created empty. -/
theorem keeps_requireWallet (userId : Id) (db : Db) : Keeps SameState exec (requireWallet userId) db := by
  refine keeps_bind (keeps_bind (keeps_of_reads (p := ask _) ⟨rfl, fun _ => trivial⟩) fun rows t => ?_)
    fun wallet t => ?_
  · split
    · trivial
    · obtain ⟨r, u, hr⟩ := exists_insertWallet userId t
      refine keeps_bind (p := ask _) ⟨r, u, hr, sameState_insertWallet hr, trivial⟩ fun created v => ?_
      split
      · trivial
      · exact keeps_of_reads ⟨rfl, fun _ => trivial⟩
  · split
    · split_ifs <;> trivial
    · trivial

theorem run_getOrCreate {w : SminkWallet} {t : Db} (h : (getOrCreate userId).run exec db = (.ok (some w), t)) :
    w ∈ t.sminkWallets.rows ∧ w.userId = userId := by
  have hfound : ∀ {u : Db}, ((u.sminkWallets.select fun a => a.userId == userId).head?) = some w →
      w ∈ u.sminkWallets.rows ∧ w.userId = userId := fun hs => by
    obtain ⟨hm, hp⟩ := Table.mem_of_select_head hs
    exact ⟨hm, beq_iff_eq.1 hp⟩
  unfold getOrCreate at h
  rw [ask_bind, Prog.run_stmt rfl] at h
  split at h
  · rename_i hhead
    cases h
    exact hfound hhead
  · rw [ask_bind] at h
    obtain ⟨ws, hins, he⟩ | ⟨-, he⟩ := exec_insertWallet userId db
    · rw [Prog.run_stmt he] at h
      cases h
      exact ⟨by rw [Table.rows_insert hins]; simp, rfl⟩
    · rw [Prog.run_stmt he] at h
      obtain ⟨hhead, rfl⟩ := Prod.mk.inj h
      exact hfound (Except.ok.inj hhead)

theorem run_requireWallet {w : SminkWallet} {t : Db} (h : (requireWallet userId).run exec db = (.ok w, t)) :
    w ∈ t.sminkWallets.rows ∧ w.userId = userId := by
  obtain ⟨wallet, u, hget, hrest⟩ := Prog.run_bind_inv h
  cases wallet with
  | none => cases hrest
  | some wallet =>
    dsimp only at hrest
    split_ifs at hrest
    · cases hrest
    · cases hrest
      exact run_getOrCreate hget

/-! ## Placing a bet -/

/-- The checks before the debit refuse the bet, or the wallet does not hold the stake. `free` is what the call asks of
the game besides. -/
def StakeRefused (db : Db) (userId sessionId : Id) (slug : GameSlug) (stakeInput : Num) (selectionInput : RawSelection)
    (free : Game → Prop) : Prop :=
  ∀ session game, (requireOpenSession userId sessionId slug).run exec db = (.ok (session, game), db) →
    ∀ validated, validateSelection slug selectionInput = .ok validated →
      ∀ stake, parseStake stakeInput game.minBet game.maxBet = .ok stake → free game →
        ∀ wallet t, (requireWallet userId).run exec db = (.ok wallet, t) → wallet.balance < stake

/-- A debit finds the wallet, or nothing and changes nothing; where it finds one, the bet is inserted next. -/
theorem atomic_debit {w : SminkWallet} {stake : Money} {set : WalletSet} {k : List SminkWallet → Sql α}
    (hw : w ∈ db.sminkWallets.rows) (hu : w.userId = userId) (hset : set.totalWagered ≠ 0)
    (hnone : (k []).done = true)
    (hsome : ∀ a t, (k [a]).done = false ∧ Prog.Post exec (k [a]) t fun _ u =>
      t.bets.rows.length < u.bets.rows.length) :
    Atomic (ask (.updateWallet (canPay userId stake) set) >>= k) db ↔ w.balance < stake := by
  change Atomic (.stmt (.updateWallet (canPay userId stake) set) k) db ↔ w.balance < stake
  by_cases hpay : w.balance < stake
  · have hnil : db.sminkWallets.select (canPay userId stake) = [] := by
      rw [Table.select, List.filter_eq_nil_iff]
      intro a ha hp
      obtain rfl : a = w := wallet_eq_of_userId ha hw ((canPay_user hp).trans hu.symm)
      simp only [canPay, Bool.and_eq_true, decide_eq_true_eq] at hp
      exact absurd hp.2 (not_le.2 hpay)
    have hq : exec (.updateWallet (canPay userId stake) set) db = .ok ([], db) := by
      simp only [exec, Table.updated_eq_map, hnil, Table.update_eq_self hnil, List.map_nil]
    exact (allOrNothing_same sameState_equivalence hq (sameState_equivalence.refl db)).trans
      (iff_of_true (atomic_done hnone) hpay)
  · have hp : canPay userId stake w = true := by
      simp only [canPay, Bool.and_eq_true, beq_iff_eq, decide_eq_true_eq]
      exact ⟨hu, not_lt.1 hpay⟩
    have hone : db.sminkWallets.select (canPay userId stake) = [w] :=
      select_wallet hw hp fun a ha => (canPay_user ha).trans hu.symm
    refine iff_of_false ?_ hpay
    obtain ⟨hk, hpost⟩ := hsome (Settable.apply set w)
      { db with sminkWallets := db.sminkWallets.update (canPay userId stake) set }
    have hq : exec (.updateWallet (canPay userId stake) set) db = .ok ([Settable.apply set w],
        { db with sminkWallets := db.sminkWallets.update (canPay userId stake) set }) := by
      simp only [exec, Table.updated_eq_map, hone, List.map_singleton]
    refine not_allOrNothing hq (fun hsame => ?_) hk (hpost.mono fun _ u hlt hsame => ?_)
    · -- the debit counts the stake as wagered
      have hbefore : db.wallet userId = w := wallet_of_mem hw hu
      have hafter : Db.wallet { db with sminkWallets := db.sminkWallets.update (canPay userId stake) set } userId =
          Settable.apply set w := wallet_of_mem (Table.mem_update.2 ⟨w, hw, Table.updateRow_pos hp⟩) hu
      have heq := congrArg SminkWallet.totalWagered (hbefore.symm.trans ((hsame.wallet userId).trans hafter))
      simp only [Settable.apply] at heq
      exact hset (by linarith)
    · rw [← hsame.bets] at hlt
      exact lt_irrefl _ hlt

/-- The bet that has been inserted stays. -/
theorem post_record {bet : Bet} {rs : List SminkTransaction} {staked won : Money} {f : Unit → Sql α}
    (hf : ∀ t, Prog.Post exec (f ()) t fun _ u => u.bets = t.bets) :
    Prog.Post exec (perform (.insertBet bet) >>= fun _ => perform (.insertTransactions rs) >>= fun _ =>
      bumpSession sessionId staked won >>= f) db fun _ u => db.bets.rows.length < u.bets.rows.length := by
  intro r t hr
  obtain ⟨bets, hins, he⟩ := orThrow_ok hr
  cases he
  intro r t hr
  obtain ⟨ledger, -, he⟩ := orThrow_ok hr
  cases he
  intro r t hr
  cases hr
  refine (hf _).mono fun _ u hu => ?_
  rw [hu, Table.rows_insert hins, List.length_append]
  exact Nat.lt_succ_self _

theorem post_consumeForcedRound (row : Option UserGameControl) {x : β} {t : Db} :
    Prog.Post exec (consumeForcedRound row >>= fun _ => Prog.ret x) t fun _ u => u.bets = t.bets := by
  unfold consumeForcedRound
  split
  · rfl
  split_ifs
  · rfl
  · rfl
  · intro r u hr
    cases hr
    rfl

theorem atomic_requireWallet {f : SminkWallet → Sql α} :
    Atomic (requireWallet userId >>= f) db ↔
      ∀ wallet t, (requireWallet userId).run exec db = (.ok wallet, t) → Atomic (f wallet) t :=
  allOrNothing_bind sameState_equivalence (keeps_requireWallet userId db)

theorem atomic_nextNonce {f : Nat → Sql α} :
    Atomic (nextNonce userId >>= f) db ↔
      Atomic (f ((db.bets.select fun b => b.userId == userId).length + 1)) db := by
  rw [atomic_read (oneRead_nextNonce userId).reads]
  exact ⟨fun h => h _ rfl, fun h a ha => by cases ha; exact h⟩

theorem atomic_getControlRule {gameId : Id} {f : Option UserGameControl → Sql α} :
    Atomic (getControlRule userId gameId >>= f) db ↔
      ∀ row, (getControlRule userId gameId).run exec db = (.ok row, db) → Atomic (f row) db :=
  atomic_read (oneRead_getControlRule userId gameId).reads

/-- The rows of a user's controls are there to be read. -/
theorem exists_controlRule (userId gameId : Id) (db : Db) :
    ∃ row, (getControlRule userId gameId).run exec db = (.ok row, db) := ⟨_, rfl⟩

theorem atomic_placeBet (slug : GameSlug) (stakeInput : Num) (selectionInput : RawSelection) :
    Atomic (placeBet D fresh userId sessionId slug stakeInput selectionInput) db ↔
      (isInstantGame slug = true →
        StakeRefused db userId sessionId slug stakeInput selectionInput fun _ => True) := by
  unfold placeBet
  split
  · rename_i hslug
    exact iff_of_true (atomic_done rfl) fun h => by simp [h] at hslug
  rename_i hslug
  have hinst : isInstantGame slug = true := by simpa using hslug
  rw [atomic_read (oneRead_requireOpenSession ..).reads, imp_iff_right hinst]
  simp only [Prod.forall, atomic_orInvalid, atomic_orFail, atomic_requireWallet, atomic_nextNonce,
    atomic_getControlRule, atomic_orThrew]
  refine forall_congr' fun session => forall_congr' fun game => imp_congr_right fun hrun => ?_
  refine forall_congr' fun validated => imp_congr_right fun hval => ?_
  refine forall_congr' fun stake => imp_congr_right fun hstake => ?_
  rw [true_imp_iff]
  refine forall_congr' fun wallet => forall_congr' fun t => imp_congr_right fun hwallet => ?_
  have hpos := parseStake_pos hstake
  obtain ⟨hw, hu⟩ := run_requireWallet hwallet
  refine Iff.trans (forall_congr' fun row => imp_congr_right fun _ => forall_congr' fun raw => imp_congr_right fun _ =>
    atomic_debit hw hu hpos.ne' rfl fun a u => ⟨rfl, post_record fun v => post_consumeForcedRound row⟩) ?_
  constructor
  · intro h
    obtain ⟨row, hrow⟩ := exists_controlRule userId game.id t
    obtain ⟨raw, hraw⟩ := validateSelection_resolves hinst hval _ _ _
    exact h row hrow raw hraw
  · exact fun h _ _ _ _ => h

/-- The player has no open round of the game. -/
def NoOpenRound (db : Db) (userId : Id) (game : Game) : Prop :=
  ∀ b ∈ db.bets.rows, ¬ (b.userId = userId ∧ b.gameId = game.id ∧ b.status = .open)

theorem atomic_openRound {Sel : Type} (G : GridGame Sel) (stakeInput : Num) (selectionInput : RawSelection)
    (hsel : ∀ validated, validateSelection G.slug selectionInput = .ok validated →
      ∃ selection, G.ofSelection validated = some selection) :
    Atomic (openRound G D fresh userId sessionId stakeInput selectionInput) db ↔
      StakeRefused db userId sessionId G.slug stakeInput selectionInput (NoOpenRound db userId) := by
  unfold openRound
  rw [atomic_read (oneRead_requireOpenSession ..).reads]
  simp only [Prod.forall, atomic_orInvalid, atomic_orFail]
  refine forall_congr' fun session => forall_congr' fun game => imp_congr_right fun hrun => ?_
  refine forall_congr' fun validated => imp_congr_right fun hval => ?_
  refine forall_congr' fun stake => imp_congr_right fun hstake => ?_
  have hopen : (db.bets.select fun b => b.userId == userId && b.gameId == game.id && b.status == .open).head?.isSome =
      false ↔ NoOpenRound db userId game := by
    simp only [NoOpenRound, Table.select, Option.isSome_eq_false_iff, Option.isNone_iff_eq_none, List.head?_eq_none_iff,
      List.filter_eq_nil_iff, Bool.and_eq_true, beq_iff_eq, and_assoc]
  rw [← hopen]
  refine (atomic_ask rfl).trans ?_
  split
  · rename_i hsome
    exact iff_of_true (atomic_done rfl) fun hnone => by rw [hsome] at hnone; cases hnone
  rename_i hnone
  rw [imp_iff_right (by simpa using hnone)]
  simp only [atomic_requireWallet, atomic_nextNonce, atomic_getControlRule, atomic_orThrew]
  refine forall_congr' fun wallet => forall_congr' fun t => imp_congr_right fun hwallet => ?_
  have hpos := parseStake_pos hstake
  obtain ⟨hw, hu⟩ := run_requireWallet hwallet
  unfold debitStake
  simp only [Prog.bind_assoc]
  refine Iff.trans (forall_congr' fun row => imp_congr_right fun _ => forall_congr' fun sel => imp_congr_right fun _ =>
    atomic_debit hw hu hpos.ne' rfl fun a u => ⟨rfl, post_record fun v => rfl⟩) ?_
  constructor
  · intro h
    obtain ⟨row, hrow⟩ := exists_controlRule userId game.id t
    obtain ⟨selection, hselection⟩ := hsel validated hval
    exact h row hrow selection hselection
  · exact fun h _ _ _ _ => h

/-! ## Settling a round -/

section Settle

variable {betReference : String} {bet : Bet}

/-- The store after an update of the user's wallet. -/
def Db.setWallet (db : Db) (userId : Id) (set : WalletSet) : Db :=
  { db with sminkWallets := db.sminkWallets.update (fun w => w.userId == userId) set }

/-- An update of one bet that changes it changes the table. -/
theorem update_bet_ne {set : BetSet} (hb : bet ∈ db.bets.rows) (hset : (Settable.apply set bet : Bet) ≠ bet) :
    (db.setBet bet set).bets ≠ db.bets := by
  intro heq
  have hmem : bet ∈ (db.setBet bet set).bets.rows := by rw [heq]; exact hb
  obtain ⟨a, ha, hrow⟩ := Table.mem_update.1 hmem
  by_cases hid : a.id = bet.id
  · obtain rfl : a = bet := bet_eq_of_id ha hb hid
    rw [Table.updateRow_pos (by simp)] at hrow
    exact hset hrow
  · rw [Table.updateRow_neg (by simpa using hid)] at hrow
    exact hid (by rw [hrow])

theorem close_ne {set : BetSet} {st : BetStatus} (hs : bet.status = .open) (hset : set.status = some st)
    (hst : st ≠ .open) : (Settable.apply set bet : Bet) ≠ bet := by
  intro h
  have heq := congrArg Bet.status h
  simp only [Settable.apply, hset, Option.getD_some, hs] at heq
  exact hst heq

/-- The payout enters the ledger. -/
theorem post_payOut (slug : GameSlug) {f : Option Money → Sql α} (hf : ∀ a, (f a).done = true) :
    Prog.Post exec (payOut fresh slug userId sessionId betReference bet >>= f) db fun _ t =>
      db.sminkTransactions.rows.length < t.sminkTransactions.rows.length := by
  intro r t hr
  cases hr
  intro r t hr
  cases hr
  intro r t hr
  obtain ⟨ledger, hins, he⟩ := orThrow_ok hr
  cases he
  intro r t hr
  cases hr
  refine Prog.post_of_done (hf _) fun _ => ?_
  rw [Table.rows_insertAll hins, List.length_append]
  exact Nat.lt_succ_self _

/-- Between the wallet update and the ledger row there is a state of its own. -/
theorem not_atomic_payOut (hb : OpenRound db userId sessionId betReference bet) (slug : GameSlug)
    {f : Option Money → Sql α} (hf : ∀ a, (f a).done = true) :
    ¬ Atomic (payOut fresh slug userId sessionId betReference bet >>= f) db := by
  have hne : (db.setBet bet (cashedOutSet fresh.now (cashOutPayout bet))).bets ≠ db.bets :=
    update_bet_ne hb.mem (close_ne hb.status rfl (by decide))
  by_cases hsame : SameState db (db.setWallet userId (releaseSet bet.stake (cashOutPayout bet)))
  · refine mt (allOrNothing_same sameState_equivalence rfl hsame).1 ?_
    refine not_allOrNothing rfl (fun h => hne h.bets.symm) rfl ?_
    intro r t hr
    obtain ⟨ledger, hins, he⟩ := orThrow_ok hr
    cases he
    intro r t hr
    cases hr
    refine Prog.post_of_done (hf _) fun _ h => ?_
    have hlen := congrArg (fun t : Table SminkTransaction => t.rows.length) h.sminkTransactions
    simp only [Table.rows_insertAll hins, List.length_append, List.length_singleton] at hlen
    omega
  · refine not_allOrNothing rfl hsame rfl ?_
    intro r t hr
    cases hr
    intro r t hr
    obtain ⟨ledger, -, he⟩ := orThrow_ok hr
    cases he
    intro r t hr
    cases hr
    exact Prog.post_of_done (hf _) fun _ h => hne h.bets.symm

/-- The release of a lost stake changes nothing: there is no wallet, or nothing of the stake is locked in it. -/
def ReleaseIdle (db : Db) (userId : Id) (stake : Money) : Prop :=
  ∀ w ∈ db.sminkWallets.rows, w.userId = userId → max (w.lockedBalance - stake) 0 = w.lockedBalance

theorem releaseIdle_iff {stake : Money} :
    ReleaseIdle db userId stake ↔ SameState db (db.setWallet userId (releaseSet stake 0)) := by
  constructor
  · intro h
    have hself : db.sminkWallets.update (fun w => w.userId == userId) (releaseSet stake 0) = db.sminkWallets := by
      apply Table.ext
      rw [Table.rows_update]
      refine (List.map_congr_left fun w hw => ?_).trans (List.map_id _)
      by_cases hu : w.userId = userId
      · rw [Table.updateRow_pos (by simp [hu])]
        simp [Settable.apply, releaseSet, h w hw hu]
      · exact Table.updateRow_neg (by simp [hu])
    rw [Db.setWallet, hself]
    exact sameState_equivalence.refl db
  · intro h w hw hu
    have hbefore : db.wallet userId = w := wallet_of_mem hw hu
    have hafter : (db.setWallet userId (releaseSet stake 0)).wallet userId = Settable.apply (releaseSet stake 0) w :=
      wallet_of_mem (Table.mem_update.2 ⟨w, hw, Table.updateRow_pos (by simp [hu])⟩) hu
    exact (congrArg SminkWallet.lockedBalance (hbefore.symm.trans ((h.wallet userId).trans hafter))).symm

theorem atomic_settleLost (hb : OpenRound db userId sessionId betReference bet) (now : Time) (outcome : GameOutcome)
    {f : Unit → Sql α} (hf : (f ()).done = true) :
    Atomic (settleLost now userId bet outcome >>= f) db ↔ ReleaseIdle db userId bet.stake := by
  rw [releaseIdle_iff]
  by_cases hsame : SameState db (db.setWallet userId (releaseSet bet.stake 0))
  · refine iff_of_true ((allOrNothing_same sameState_equivalence rfl hsame).2 ?_) hsame
    exact allOrNothing_last sameState_equivalence fun _ => hf
  · refine iff_of_false (not_allOrNothing rfl hsame rfl ?_) hsame
    intro r t hr
    cases hr
    exact Prog.post_of_done hf fun _ h => update_bet_ne hb.mem (close_ne hb.status rfl (by decide)) h.bets.symm

/-- A safe reveal is one change, unless it clears the board and the round cashes out by itself. -/
theorem atomic_recordReveal (hb : OpenRound db userId sessionId betReference bet) {multiplier : ℚ}
    {outcome : GameOutcome} (hne : bet.outcome ≠ some outcome) {clear : Prop} [Decidable clear] {cashOut stop : Sql α}
    (hdone : stop.done = true) (hstmt : cashOut.done = false)
    (hpost : clear → Prog.Post exec cashOut (db.setBet bet (revealSet multiplier outcome)) fun _ t =>
      db.sminkTransactions.rows.length < t.sminkTransactions.rows.length) :
    Atomic (recordReveal bet multiplier outcome >>= fun _ => if clear then cashOut else stop) db ↔ ¬ clear := by
  by_cases hclear : clear
  · refine iff_of_false (not_allOrNothing rfl (fun h => ?_) ?_ ?_) (not_not.2 hclear)
    · refine update_bet_ne hb.mem (fun heq => ?_) h.bets.symm
      exact hne (congrArg Bet.outcome heq).symm
    · change (if clear then cashOut else stop).done = false
      rw [if_pos hclear]
      exact hstmt
    · change Prog.Post exec (if clear then cashOut else stop) _ _
      rw [if_pos hclear]
      refine (hpost hclear).mono fun _ t hlt hsame => ?_
      rw [← hsame.sminkTransactions] at hlt
      exact lt_irrefl _ hlt
  · refine iff_of_true (allOrNothing_last sameState_equivalence fun _ => ?_) hclear
    change (if clear then cashOut else stop).done = true
    rw [if_neg hclear]
    exact hdone

/-! ## Reveals and cash-outs -/

/-- The round is found, and has not been climbed or opened yet: there is nothing to cash out. -/
def CashOutRefused (db : Db) (userId sessionId : Id) (slug : GameSlug) (betReference : String)
    (steps : Bet → List Nat) : Prop :=
  ∀ session game, (requireOpenSession userId sessionId slug).run exec db = (.ok (session, game), db) →
    ∀ bet, (findRound userId sessionId betReference).run exec db = (.ok bet, db) → steps bet = []

theorem atomic_cashOutMines : Atomic (cashOutMines fresh userId sessionId betReference) db ↔
    CashOutRefused db userId sessionId .mines betReference Bet.revealed := by
  unfold cashOutMines
  rw [atomic_read (oneRead_requireOpenSession ..).reads]
  simp only [Prod.forall, atomic_read (oneRead_findRound ..).reads]
  refine forall_congr' fun session => forall_congr' fun game => imp_congr_right fun _ => ?_
  refine forall_congr' fun bet => imp_congr_right fun hbet => ?_
  split
  · rename_i hrev
    exact iff_of_true (atomic_done rfl) hrev
  · rename_i hrev
    exact iff_of_false (not_atomic_payOut (run_findRound hbet) .mines fun _ => rfl) hrev

theorem atomic_cashOutTowers : Atomic (cashOutTowers fresh userId sessionId betReference) db ↔
    CashOutRefused db userId sessionId .towers betReference Bet.picks := by
  unfold cashOutTowers
  rw [atomic_read (oneRead_requireOpenSession ..).reads]
  simp only [Prod.forall, atomic_read (oneRead_findRound ..).reads]
  refine forall_congr' fun session => forall_congr' fun game => imp_congr_right fun _ => ?_
  refine forall_congr' fun bet => imp_congr_right fun hbet => ?_
  split
  · rename_i hpicks
    exact iff_of_true (atomic_done rfl) hpicks
  · rename_i hpicks
    refine iff_of_false (not_atomic_payOut (run_findRound hbet) .towers fun _ => ?_) hpicks
    cases bet.difficulty <;> rfl

/-- The checks read the same after an update of a bet. -/
theorem requireOpenSession_setBet {slug : GameSlug} {set : BetSet} {a : GameSession × Game}
    (h : (requireOpenSession userId sessionId slug).run exec db = (.ok a, db)) :
    (requireOpenSession userId sessionId slug).run exec (db.setBet bet set) = (.ok a, db.setBet bet set) := by
  have hat : AtTable (db.setBet bet set) userId sessionId slug a.1 a.2 := (AtTable.of_run h).of_eq rfl rfl
  exact hat.run

/-- A cash-out that is not refused pays. -/
theorem post_cashOutMines {a : GameSession × Game}
    (hrun : (requireOpenSession userId sessionId .mines).run exec db = (.ok a, db))
    (hb : OpenRound db userId sessionId betReference bet) (hrev : bet.revealed ≠ []) :
    Prog.Post exec (cashOutMines fresh userId sessionId betReference) db fun _ t =>
      db.sminkTransactions.rows.length < t.sminkTransactions.rows.length := by
  refine (oneRead_requireOpenSession ..).reads.post_bind readOnly (fun _ _ => ?_) fun e he => ?_
  · refine (oneRead_findRound ..).reads.post_bind readOnly (fun bet' hbet' => ?_) fun e he => ?_
    · rw [findRound_of hb] at hbet'
      cases hbet'
      rw [if_neg hrev]
      exact post_payOut .mines fun _ => rfl
    · rw [findRound_of hb] at he
      cases he
  · rw [hrun] at he
    cases he

theorem post_cashOutTowers {a : GameSession × Game}
    (hrun : (requireOpenSession userId sessionId .towers).run exec db = (.ok a, db))
    (hb : OpenRound db userId sessionId betReference bet) (hpicks : bet.picks ≠ []) :
    Prog.Post exec (cashOutTowers fresh userId sessionId betReference) db fun _ t =>
      db.sminkTransactions.rows.length < t.sminkTransactions.rows.length := by
  refine (oneRead_requireOpenSession ..).reads.post_bind readOnly (fun _ _ => ?_) fun e he => ?_
  · refine (oneRead_findRound ..).reads.post_bind readOnly (fun bet' hbet' => ?_) fun e he => ?_
    · rw [findRound_of hb] at hbet'
      cases hbet'
      rw [if_neg hpicks]
      exact post_payOut .towers fun _ => by cases bet.difficulty <;> rfl
    · rw [findRound_of hb] at he
      cases he
  · rw [hrun] at he
    cases he

/-- The reveal of a tile is refused, or hits a mine with nothing to release, or is safe and leaves the board open. -/
def RevealsOneTile (db : Db) (userId sessionId : Id) (betReference : String) (tile : Num) : Prop :=
  ∀ n, naturalNumber tile = some n → n < MINES_TILE_COUNT →
    ∀ session game, (requireOpenSession userId sessionId .mines).run exec db = (.ok (session, game), db) →
      ∀ bet, (findRound userId sessionId betReference).run exec db = (.ok bet, db) → n ∉ bet.revealed →
        if n ∈ bet.minePositions.getD [] then ReleaseIdle db userId bet.stake
        else ¬ ((bet.revealed ++ [n]).length : ℤ) ≥ (MINES_TILE_COUNT : ℤ) - bet.mineCount

theorem atomic_revealMines (tile : Num) : Atomic (revealMines fresh userId sessionId betReference tile) db ↔
    RevealsOneTile db userId sessionId betReference tile := by
  unfold revealMines RevealsOneTile
  split
  · rename_i n hn
    split
    · rename_i hlarge
      refine iff_of_true (atomic_done rfl) fun m hm hlt => ?_
      rw [hn] at hm
      cases hm
      exact absurd hlt (not_lt.2 hlarge)
    rename_i hsmall
    rw [atomic_read (oneRead_requireOpenSession ..).reads]
    simp only [Prod.forall, atomic_read (oneRead_findRound ..).reads, hn, Option.some.injEq, forall_eq',
      imp_iff_right (not_le.1 hsmall)]
    refine forall_congr' fun session => forall_congr' fun game => imp_congr_right fun hrun => ?_
    refine forall_congr' fun bet => imp_congr_right fun hbet => ?_
    have hb := run_findRound hbet
    split
    · rename_i hold
      exact iff_of_true (atomic_done rfl) fun hnew => absurd hold hnew
    rename_i hnew
    rw [imp_iff_right hnew]
    split
    · exact atomic_settleLost hb _ _ rfl
    · refine atomic_recordReveal hb (fun heq => ?_) rfl rfl fun _ => ?_
      · have hrev : bet.revealed = bet.revealed ++ [n] := by
          nth_rewrite 1 [Bet.revealed]
          rw [heq]
        exact absurd hrev (by simp)
      · refine post_cashOutMines (requireOpenSession_setBet hrun) (openRound_setBet hb rfl) ?_
        simp [Bet.revealed, Settable.apply, revealSet]
  · rename_i hn
    exact iff_of_true (atomic_done rfl) fun m hm => (hn m hm).elim

/-- The pick of a tile is refused, or hits a trap with nothing to release, or is safe and leaves floors to climb. -/
def PicksOneTile (db : Db) (userId sessionId : Id) (betReference : String) (tile : Num) : Prop :=
  ∀ session game, (requireOpenSession userId sessionId .towers).run exec db = (.ok (session, game), db) →
    ∀ bet, (findRound userId sessionId betReference).run exec db = (.ok bet, db) →
      ∀ n, naturalNumber tile = some n → ∀ difficulty, bet.difficulty = some difficulty →
        n < (towersConfig difficulty).tiles → bet.picks.length < (towersConfig difficulty).rows →
          if n ∈ (bet.traps.getD []).getD bet.picks.length [] then ReleaseIdle db userId bet.stake
          else ¬ (bet.picks ++ [n]).length ≥ (towersConfig difficulty).rows

theorem atomic_revealTowers (tile : Num) : Atomic (revealTowers fresh userId sessionId betReference tile) db ↔
    PicksOneTile db userId sessionId betReference tile := by
  unfold revealTowers PicksOneTile
  rw [atomic_read (oneRead_requireOpenSession ..).reads]
  simp only [Prod.forall, atomic_read (oneRead_findRound ..).reads]
  refine forall_congr' fun session => forall_congr' fun game => imp_congr_right fun hrun => ?_
  refine forall_congr' fun bet => imp_congr_right fun hbet => ?_
  have hb := run_findRound hbet
  split
  · rename_i n hn
    simp only [hn, Option.some.injEq, forall_eq', atomic_orThrew]
    refine forall_congr' fun difficulty => imp_congr_right fun _ => ?_
    split
    · rename_i hlarge
      exact iff_of_true (atomic_done rfl) fun hlt => absurd hlt (not_lt.2 hlarge)
    rename_i hsmall
    rw [imp_iff_right (not_le.1 hsmall)]
    split
    · rename_i hclear
      exact iff_of_true (atomic_done rfl) fun hlt => absurd hlt (not_lt.2 hclear)
    rename_i hclimb
    rw [imp_iff_right (not_le.1 hclimb)]
    split
    · exact atomic_settleLost hb _ _ rfl
    · refine atomic_recordReveal hb (fun heq => ?_) rfl rfl fun _ => ?_
      · have hpicks : bet.picks = bet.picks ++ [n] := by
          nth_rewrite 1 [Bet.picks]
          rw [heq]
        exact absurd hpicks (by simp)
      · refine post_cashOutTowers (requireOpenSession_setBet hrun) (openRound_setBet hb rfl) ?_
        simp [Bet.picks, Settable.apply, revealSet]
  · rename_i hn
    exact iff_of_true (atomic_done rfl) fun m hm => (hn m hm).elim

end Settle

/-! ## Deposits -/

/-- The deposit is there to be claimed. -/
def claimable (depositId : Id) (t : SminkTransaction) : Bool :=
  t.id == depositId && t.type == .deposit && creditable t.status

/-- There is nothing to claim, or the deposit is of nothing and its `balanceAfter` is up to date. -/
def CreditsNothing (db : Db) (depositId : Id) : Prop :=
  ∀ current, (db.sminkTransactions.select (claimable depositId)).head? = some current →
    current.amount = 0 ∧ current.balanceAfter = some (db.wallet current.userId).balance

section Credit

variable {now : Time} {depositId : Id} {current : SminkTransaction} {metadata : Metadata}

/-- The store after the claim. -/
def Db.claim (db : Db) (now : Time) (depositId : Id) (metadata : Metadata) : Db :=
  { db with
    sminkTransactions := db.sminkTransactions.update (fun t => t.id == depositId && creditable t.status)
      (claimSet now metadata) }

theorem select_claim (h : (db.sminkTransactions.select (claimable depositId)).head? = some current) :
    current ∈ db.sminkTransactions.rows ∧ current.id = depositId ∧ current.status ≠ .confirmed ∧
      db.sminkTransactions.select (fun t => t.id == depositId && creditable t.status) = [current] := by
  obtain ⟨hm, hp⟩ := Table.mem_of_select_head h
  simp only [claimable, Bool.and_eq_true, beq_iff_eq] at hp
  obtain ⟨⟨hid, -⟩, hst⟩ := hp
  refine ⟨hm, hid, fun hs => by simp [hs, creditable] at hst, ?_⟩
  refine db.sminkTransactions.select_eq_of_key (k := ("id", depositId)) hm (by simp [hid, hst]) fun a _ ha => ?_
  simp only [Bool.and_eq_true, beq_iff_eq] at ha
  simp [Keyed.keys, ha.1]

/-- After the wallet is inserted, if it was missing, it is the one the books knew. -/
theorem wallet_insertWallet {r : List SminkWallet} {t : Db} (h : exec (.insertWallet userId) db = .ok (r, t)) :
    ∃ w ∈ t.sminkWallets.rows, w.userId = userId ∧ db.wallet userId = w ∧
      t.sminkWallets.select (fun a => a.userId == userId) = [w] := by
  obtain ⟨w, hw, hu⟩ := hasWallet_insertWallet h
  refine ⟨w, hw, hu, ((sameState_insertWallet h).wallet userId).trans (wallet_of_mem hw hu), ?_⟩
  exact select_wallet hw (by simp [hu]) fun a ha => by rw [hu]; exact beq_iff_eq.1 ha

/-- The update of a credited wallet. -/
def creditSet (amount : Money) : WalletSet := { balance := amount, totalDeposited := amount }

/-- The update that notes the balance on the deposit. -/
def balanceSet (balance : Money) : TransactionSet := { balanceAfter := some balance }

variable {f : Option SminkWallet → Sql α} {amount : Money} {claimed : SminkTransaction}

/-- The rows of a deposit after the balance has been noted on it. -/
theorem balanceAfter_update (hc : claimed ∈ db.sminkTransactions.rows) (hid : claimed.id = depositId)
    (balance : Money) :
    db.sminkTransactions.update (fun t => t.id == depositId) (balanceSet balance) = db.sminkTransactions ↔
      claimed.balanceAfter = some balance := by
  have hrow : ∀ a ∈ db.sminkTransactions.rows, a.id = depositId → a = claimed := fun a ha hai =>
    transaction_eq_of_id ha hc (hai.trans hid.symm)
  constructor
  · intro h
    have hmem : (Settable.apply (balanceSet balance) claimed : SminkTransaction) ∈ db.sminkTransactions.rows := by
      rw [← h]
      exact Table.mem_update.2 ⟨claimed, hc, Table.updateRow_pos (by simp [hid])⟩
    exact (congrArg SminkTransaction.balanceAfter (hrow _ hmem hid)).symm
  · intro h
    apply Table.ext
    rw [Table.rows_update]
    refine (List.map_congr_left fun a ha => ?_).trans (List.map_id _)
    by_cases hai : a.id = depositId
    · rw [Table.updateRow_pos (by simp [hai]), hrow a ha hai]
      cases claimed
      simp only at h
      simp [Settable.apply, balanceSet, h]
    · exact Table.updateRow_neg (by simpa using hai)

/-- The credit of nothing changes nothing. -/
theorem sameState_credit {w : SminkWallet} (hw : w ∈ db.sminkWallets.rows) (hu : w.userId = userId) :
    SameState db (db.setWallet userId (creditSet amount)) ↔ amount = 0 := by
  constructor
  · intro h
    have hbefore : db.wallet userId = w := wallet_of_mem hw hu
    have hafter : (db.setWallet userId (creditSet amount)).wallet userId = Settable.apply (creditSet amount) w :=
      wallet_of_mem (Table.mem_update.2 ⟨w, hw, Table.updateRow_pos (by simp [hu])⟩) hu
    have heq := congrArg SminkWallet.balance (hbefore.symm.trans ((h.wallet userId).trans hafter))
    simp only [Settable.apply, creditSet] at heq
    linarith
  · rintro rfl
    have hself : db.sminkWallets.update (fun w => w.userId == userId) (creditSet 0) = db.sminkWallets := by
      apply Table.ext
      rw [Table.rows_update]
      refine (List.map_congr_left fun a _ => ?_).trans (List.map_id _)
      by_cases ha : a.userId = userId
      · rw [Table.updateRow_pos (by simp [ha])]
        simp [Settable.apply, creditSet]
      · exact Table.updateRow_neg (by simp [ha])
    rw [Db.setWallet, hself]
    exact sameState_equivalence.refl db

theorem exec_creditWallet {w : SminkWallet} (hsel : db.sminkWallets.select (fun a => a.userId == userId) = [w]) :
    exec (.updateWallet (fun a => a.userId == userId) (creditSet amount)) db =
      .ok ([Settable.apply (creditSet amount) w], db.setWallet userId (creditSet amount)) := by
  simp only [exec, Table.updated_eq_map, hsel, List.map_singleton, Db.setWallet]

/-- The rest of the call notes the new balance on the deposit, and returns. -/
def NotesBalance (depositId : Id) (f : Option SminkWallet → Sql α) : Prop :=
  ∀ w, ∃ k, f (some w) = .stmt (.updateTransaction (fun t => t.id == depositId) (balanceSet w.balance)) k ∧
    ∀ r, (k r).done = true

/-- A credit of nothing, of which the deposit knows. -/
theorem keeps_credit (hf : NotesBalance depositId f) (hc : claimed ∈ db.sminkTransactions.rows)
    (hid : claimed.id = depositId) (hzero : amount = 0)
    (hnoted : claimed.balanceAfter = some (db.wallet userId).balance) :
    Keeps SameState exec (creditWallet userId amount >>= f) db := by
  obtain ⟨r, t, hr⟩ := exists_insertWallet userId db
  have hsame := sameState_insertWallet hr
  obtain ⟨w, hw, hu, hwallet, hsel⟩ := wallet_insertWallet hr
  refine ⟨r, t, hr, hsame, ?_⟩
  refine ⟨_, _, exec_creditWallet hsel, (sameState_credit hw hu).2 hzero, ?_⟩
  obtain ⟨k, hk, hdone⟩ := hf (Settable.apply (creditSet amount) w)
  change Keeps SameState exec (f (some _)) _
  rw [hk]
  refine ⟨_, _, rfl, ?_, ?_⟩
  · rw [hsame.sminkTransactions] at hc
    have hself : t.sminkTransactions.update (fun t => t.id == depositId)
        (balanceSet (Settable.apply (creditSet amount) w : SminkWallet).balance) = t.sminkTransactions := by
      refine (balanceAfter_update hc hid _).2 ?_
      rw [hnoted, hwallet, hzero]
      simp [Settable.apply, creditSet]
    exact ⟨fun _ => rfl, rfl, hself.symm, rfl, rfl⟩
  · exact keeps_of_reads (reads_of_done (hdone _))

/-- Any other credit leaves a state of its own behind the claim. -/
theorem post_credit (hf : NotesBalance depositId f) (hc : claimed ∈ db.sminkTransactions.rows)
    (hid : claimed.id = depositId)
    (hne : ¬ (amount = 0 ∧ claimed.balanceAfter = some (db.wallet userId).balance)) :
    Prog.Post exec (creditWallet userId amount >>= f) db fun _ t => ¬ SameState db t := by
  intro r t hr
  have hsame := sameState_insertWallet hr
  obtain ⟨w, hw, hu, hwallet, hsel⟩ := wallet_insertWallet hr
  refine Prog.post_stmt (exec_creditWallet hsel) ?_
  obtain ⟨k, hk, hdone⟩ := hf (Settable.apply (creditSet amount) w)
  change Prog.Post exec (f (some _)) _ _
  rw [hk]
  refine Prog.post_stmt rfl (Prog.post_of_done (hdone _) fun _ h => hne ?_)
  have hpaid : SameState t (t.setWallet userId (creditSet amount)) :=
    ⟨fun u => (hsame.wallet u).symm.trans (h.wallet u), rfl, rfl, rfl, rfl⟩
  have hzero : amount = 0 := (sameState_credit hw hu).1 hpaid
  refine ⟨hzero, ?_⟩
  have hnoted := (balanceAfter_update hc hid _).1 (h.sminkTransactions.trans
    (by rw [hsame.sminkTransactions]; rfl)).symm
  rw [hnoted, hwallet, hzero]
  simp [Settable.apply, creditSet]

theorem atomic_creditDeposit (extraMetadata : Metadata → Metadata) :
    Atomic (creditDeposit now depositId extraMetadata) db ↔ CreditsNothing db depositId := by
  unfold creditDeposit
  refine (atomic_ask (q := .selectTransaction (claimable depositId)) rfl).trans ?_
  unfold CreditsNothing
  split
  · rename_i current hcurrent
    obtain ⟨hm, hid, hst, hone⟩ := select_claim hcurrent
    simp only [hcurrent, Option.some.injEq, forall_eq']
    have hq : exec (.updateTransaction (fun t => t.id == depositId && creditable t.status)
        (claimSet now (extraMetadata current.metadata))) db =
          .ok ([Settable.apply (claimSet now (extraMetadata current.metadata)) current],
            db.claim now depositId (extraMetadata current.metadata)) := by
      simp only [exec, Table.updated_eq_map, hone, List.map_singleton, Db.claim]
    -- the row as it is after the claim
    have hclaimed : (Settable.apply (claimSet now (extraMetadata current.metadata)) current : SminkTransaction) ∈
        (db.claim now depositId (extraMetadata current.metadata)).sminkTransactions.rows := by
      have hsel : current ∈ db.sminkTransactions.select (fun t => t.id == depositId && creditable t.status) := by
        rw [hone]
        exact List.mem_singleton_self current
      exact Table.mem_update.2 ⟨current, hm, Table.updateRow_pos (Table.mem_select.1 hsel).2⟩
    by_cases hnothing : current.amount = 0 ∧ current.balanceAfter = some (db.wallet current.userId).balance
    · refine iff_of_true (allOrNothing_first sameState_equivalence hq ?_) hnothing
      exact keeps_credit (fun w => ⟨_, rfl, fun _ => rfl⟩) hclaimed hid hnothing.1 hnothing.2
    · refine iff_of_false (not_allOrNothing hq (fun h => ?_) rfl ?_) hnothing
      · have hkey := hclaimed
        rw [← h.sminkTransactions] at hkey
        have heq := transaction_eq_of_id hkey hm rfl
        exact hst (congrArg SminkTransaction.status heq).symm
      · exact post_credit (fun w => ⟨_, rfl, fun _ => rfl⟩) hclaimed hid hnothing
  · rename_i hnone
    exact iff_of_true (atomic_done rfl) fun current hc => (hnone current hc).elim

end Credit

/-! ## The eight calls -/

inductive MoneyCall
  | placeBet (fresh : Fresh) (userId sessionId : Id) (slug : GameSlug) (stakeInput : Num)
    (selectionInput : RawSelection)
  | startMines (fresh : Fresh) (userId sessionId : Id) (stakeInput mineCountInput : Num)
  | startTowers (fresh : Fresh) (userId sessionId : Id) (stakeInput : Num) (difficultyInput : String)
  | revealMines (fresh : Fresh) (userId sessionId : Id) (betReference : String) (tile : Num)
  | revealTowers (fresh : Fresh) (userId sessionId : Id) (betReference : String) (tile : Num)
  | cashOutMines (fresh : Fresh) (userId sessionId : Id) (betReference : String)
  | cashOutTowers (fresh : Fresh) (userId sessionId : Id) (betReference : String)
  | creditDeposit (now : Time) (depositId : Id) (extraMetadata : Metadata → Metadata)

def MoneyCall.call : MoneyCall → Call
  | .placeBet fresh userId sessionId slug stakeInput selectionInput =>
    .play fresh (.placeBet userId sessionId slug stakeInput selectionInput)
  | .startMines fresh userId sessionId stakeInput mineCountInput =>
    .play fresh (.startMines userId sessionId stakeInput mineCountInput)
  | .startTowers fresh userId sessionId stakeInput difficultyInput =>
    .play fresh (.startTowers userId sessionId stakeInput difficultyInput)
  | .revealMines fresh userId sessionId betReference tile =>
    .play fresh (.revealMines userId sessionId betReference tile)
  | .revealTowers fresh userId sessionId betReference tile =>
    .play fresh (.revealTowers userId sessionId betReference tile)
  | .cashOutMines fresh userId sessionId betReference => .play fresh (.cashOutMines userId sessionId betReference)
  | .cashOutTowers fresh userId sessionId betReference => .play fresh (.cashOutTowers userId sessionId betReference)
  | .creditDeposit now depositId extraMetadata => .credit now depositId extraMetadata

/-- The call is refused before it changes anything, or the branch it takes changes one row only. -/
def LeavesOneChange (db : Db) : MoneyCall → Prop
  | .placeBet _ userId sessionId slug stakeInput selectionInput =>
    isInstantGame slug = true → StakeRefused db userId sessionId slug stakeInput selectionInput fun _ => True
  | .startMines _ userId sessionId stakeInput mineCountInput =>
    StakeRefused db userId sessionId .mines stakeInput { mineCount := mineCountInput } (NoOpenRound db userId)
  | .startTowers _ userId sessionId stakeInput difficultyInput =>
    StakeRefused db userId sessionId .towers stakeInput { difficulty := difficultyInput } (NoOpenRound db userId)
  | .revealMines _ userId sessionId betReference tile => RevealsOneTile db userId sessionId betReference tile
  | .revealTowers _ userId sessionId betReference tile => PicksOneTile db userId sessionId betReference tile
  | .cashOutMines _ userId sessionId betReference =>
    CashOutRefused db userId sessionId .mines betReference Bet.revealed
  | .cashOutTowers _ userId sessionId betReference =>
    CashOutRefused db userId sessionId .towers betReference Bet.picks
  | .creditDeposit _ depositId _ => CreditsNothing db depositId

theorem validateMines_selection {value : RawSelection} {validated : GameSelection}
    (h : validateSelection .mines value = .ok validated) : ∃ s, minesGame.ofSelection validated = some s := by
  obtain ⟨s, rfl, -, -⟩ := validateMines_ok h
  exact ⟨s, rfl⟩

theorem validateTowers_selection {value : RawSelection} {validated : GameSelection}
    (h : validateSelection .towers value = .ok validated) : ∃ s, towersGame.ofSelection validated = some s := by
  obtain ⟨s, rfl⟩ := validateTowers_ok h
  exact ⟨s, rfl⟩

theorem atomic_play {p : Sql α} {f : α → Response} :
    Atomic ((p >>= fun a => Prog.ret (f a)) >>= fun r => Prog.ret (Answer.play r)) db ↔ Atomic p db :=
  (atomic_map _).trans (atomic_map p)

/-- **Exactly the calls that leave one change at most are all-or-nothing.** -/
theorem all_or_nothing_iff (D : Digest) (i : MoneyCall) (db : Db) :
    AllOrNothing SameState exec (i.call.prog D) db ↔ LeavesOneChange db i := by
  cases i with
  | placeBet fresh userId sessionId slug stakeInput selectionInput =>
    exact atomic_play.trans (atomic_placeBet slug stakeInput selectionInput)
  | startMines fresh userId sessionId stakeInput mineCountInput =>
    exact atomic_play.trans ((atomic_map _).trans
      (atomic_openRound minesGame stakeInput _ fun _ => validateMines_selection))
  | startTowers fresh userId sessionId stakeInput difficultyInput =>
    exact atomic_play.trans ((atomic_map _).trans
      (atomic_openRound towersGame stakeInput _ fun _ => validateTowers_selection))
  | revealMines fresh userId sessionId betReference tile => exact atomic_play.trans (atomic_revealMines tile)
  | revealTowers fresh userId sessionId betReference tile => exact atomic_play.trans (atomic_revealTowers tile)
  | cashOutMines fresh userId sessionId betReference => exact atomic_play.trans atomic_cashOutMines
  | cashOutTowers fresh userId sessionId betReference => exact atomic_play.trans atomic_cashOutTowers
  | creditDeposit now depositId extraMetadata =>
    exact (atomic_map _).trans (atomic_creditDeposit extraMetadata)

/-- A dice bet of $5 of the player of `tableDb`. -/
def diceBet : MoneyCall :=
  .placeBet (freshAt 1) "u1" "s1" .dice (some 5) { target := some 50, direction := "under" }

/-- When the insert of the bet throws, the wallet has been settled and there is no bet. -/
theorem debit_without_bet : ∃ t, (diceBet.call.prog zeroDigest).crash exec (tableDb .dice) 5 = some t ∧
    ¬ SameState (tableDb .dice) t ∧ ¬ SameState t ((diceBet.call.prog zeroDigest).run exec (tableDb .dice)).2 := by
  have hrun : ((diceBet.call.prog zeroDigest).crash exec (tableDb .dice) 5).any (fun t =>
      decide (((tableDb .dice).wallet "u1").balance ≠ (t.wallet "u1").balance ∧
        t.bets ≠ ((diceBet.call.prog zeroDigest).run exec (tableDb .dice)).2.bets)) = true := by
    decide +kernel
  obtain ⟨t, ht, h⟩ := (Option.any_eq_true _ _).1 hrun
  rw [decide_eq_true_eq] at h
  exact ⟨t, ht, fun hs => h.1 (by rw [hs.wallet]), fun hs => h.2 hs.bets⟩

end Smink
