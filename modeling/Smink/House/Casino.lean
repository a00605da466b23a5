import Smink.House.Rounds
import Smink.Play.Balances
import Smink.Play.Overdraft
import Smink.Play.Turns

/-!
# The play service is a house

What the service is for, its tables aside: `Db.house` reads a house off the database, with the balances of the wallets
and a round for each bet, known by its reference. Each call that runs alone is one act of that house (`acts_prog`).

Where the calls of each player take turns and no statement fails, calls of all players in any interleaving are therefore
acts of the house as well, one for each call, in the order in which they started (`casino_refined`).
-/

namespace Smink

open Store House

variable {db t : Db} {D : Digest} {fresh : Fresh} {userId sessionId : Id} {α β : Type}

/-! ## The house of a database -/

def Bet.round (b : Bet) : Round Id Id Money :=
  { player := b.userId
    game := b.gameId
    stake := b.stake
    payout := if b.status = .open then none else some b.payout }

/-- The balances, and the rounds by their references. -/
def Db.house (db : Db) : House Id Id String Money :=
  { balance := db.balance
    rounds := fun ref => (db.bets.rows.find? fun b => b.reference == ref).map Bet.round }

theorem rounds_eq_some {ref : String} {x : Round Id Id Money} :
    db.house.rounds ref = some x ↔ ∃ b ∈ db.bets.rows, b.reference = ref ∧ b.round = x := by
  show Option.map _ _ = _ ↔ _
  rw [Option.map_eq_some_iff]
  constructor
  · rintro ⟨b, hb, rfl⟩
    exact ⟨b, List.mem_of_find?_eq_some hb, by simpa using List.find?_some hb, rfl⟩
  · rintro ⟨b, hb, rfl, rfl⟩
    cases hfind : db.bets.rows.find? fun a => a.reference == b.reference with
    | none => exact absurd (List.find?_eq_none.1 hfind b hb) (by simp)
    | some a =>
      have hab : a = b :=
        bet_eq_of_reference (List.mem_of_find?_eq_some hfind) hb (by simpa using List.find?_some hfind)
      exact ⟨a, rfl, by rw [hab]⟩

theorem rounds_of_mem {b : Bet} (hb : b ∈ db.bets.rows) : db.house.rounds b.reference = some b.round :=
  rounds_eq_some.2 ⟨b, hb, rfl, rfl⟩

theorem rounds_eq_none {ref : String} : db.house.rounds ref = none ↔ ∀ b ∈ db.bets.rows, b.reference ≠ ref := by
  rw [Option.eq_none_iff_forall_ne_some]
  constructor
  · rintro h b hb rfl
    exact h b.round (rounds_of_mem hb)
  · intro h x hx
    obtain ⟨b, hb, hr, -⟩ := rounds_eq_some.1 hx
    exact h b hb hr

/-- Two databases with the same bets have the same rounds. -/
theorem rounds_congr (h : ∀ b, b ∈ t.bets.rows ↔ b ∈ db.bets.rows) : t.house.rounds = db.house.rounds := by
  funext ref
  refine Option.ext fun x => ?_
  rw [rounds_eq_some, rounds_eq_some]
  simp only [h]

/-! ## What a wallet counts -/

/-- What a wallet says about its owner, apart from what has come in: the balance, the stakes put back and the wins taken
off. -/
def netOf (userId : Id) (w : SminkWallet) : Money :=
  if w.userId = userId then w.balance + w.totalWagered - w.totalWon else 0

/-- What a bet has earned its player. -/
def earnedOf (userId : Id) (b : Bet) : Money := if b.userId = userId then b.payout - b.stake else 0

/-- The statement counts in a wallet what it moves: a stake as wagered, a payout as won. -/
def Stmt.counts : Stmt → Bool
  | .updateWallet _ set => decide (set.balance + set.totalWagered = set.totalWon)
  | _ => true

theorem exec_counts {q : Stmt} (hq : q.counts = true) {r : q.Resp} (h : exec q db = .ok (r, t)) (userId : Id) :
    t.sminkWallets.total (netOf userId) = db.sminkWallets.total (netOf userId) := by
  cases q with
  | updateWallet p set =>
    cases h
    refine Table.total_update_of_eq _ fun w _ _ => ?_
    have hset : set.balance + set.totalWagered = set.totalWon := of_decide_eq_true hq
    simp only [netOf, Settable.apply]
    split
    · linarith
    · rfl
  | insertWallet owner =>
    obtain ⟨u, hu, he⟩ | ⟨-, he⟩ := exec_insertWallet owner db
    · rw [he] at h
      cases h
      rw [Table.total_insert _ hu]
      simp [netOf]
    · rw [he] at h
      cases h
      rfl
  | insertSession s => obtain ⟨u, -, he⟩ := orThrow_ok h; cases he; rfl
  | insertTransactions rs => obtain ⟨u, -, he⟩ := orThrow_ok h; cases he; rfl
  | insertBet b => obtain ⟨u, -, he⟩ := orThrow_ok h; cases he; rfl
  | _ => cases h; rfl

theorem counts_of_isRead (q : Stmt) (hq : q.isRead = true) : q.counts = true := by
  cases q <;> first | rfl | cases hq

theorem counts_of_onSessions (q : Stmt) (hq : q.onSessions = true) : q.counts = true := by
  cases q <;> first | rfl | cases hq

theorem counts_oneRead {p : Sql α} {f : α → Sql β} (hp : OneRead Stmt.isRead p) (hf : ∀ a, Reads Stmt.counts (f a)) :
    Reads Stmt.counts (p >>= f) :=
  reads_bind (hp.reads.mono counts_of_isRead) hf

theorem counts_done {p : Sql α} {f : α → Sql β} (hp : p.done = true) (hf : ∀ a, Reads Stmt.counts (f a)) :
    Reads Stmt.counts (p >>= f) :=
  reads_bind (reads_of_done hp) hf

theorem counts_requireWallet (userId : Id) : Reads Stmt.counts (requireWallet userId) :=
  (onWallets_requireWallet userId).mono fun q hq => by cases q <;> first | rfl | cases hq

/-- A release counts the payout as won. -/
theorem counts_release (p : SminkWallet → Bool) (stake payout : Money) :
    (Stmt.updateWallet p (releaseSet stake payout)).counts = true :=
  decide_eq_true (add_zero payout)

theorem counts_settleLost (now : Time) (bet : Bet) (outcome : GameOutcome) :
    Reads Stmt.counts (settleLost now userId bet outcome) :=
  ⟨counts_release .., fun _ => ⟨rfl, fun _ => trivial⟩⟩

theorem counts_payOut (slug : GameSlug) (betReference : String) (bet : Bet) :
    Reads Stmt.counts (payOut fresh slug userId sessionId betReference bet) :=
  ⟨counts_release .., fun _ => ⟨rfl, fun _ => ⟨rfl, fun _ => ⟨rfl, fun _ => trivial⟩⟩⟩⟩

theorem counts_cashOutMines (betReference : String) :
    Reads Stmt.counts (cashOutMines fresh userId sessionId betReference) := by
  refine counts_oneRead (oneRead_requireOpenSession ..) fun _ => ?_
  refine counts_oneRead (oneRead_findRound ..) fun bet => ?_
  split
  · trivial
  · exact reads_bind (counts_payOut ..) fun _ => trivial

theorem counts_cashOutTowers (betReference : String) :
    Reads Stmt.counts (cashOutTowers fresh userId sessionId betReference) := by
  refine counts_oneRead (oneRead_requireOpenSession ..) fun _ => ?_
  refine counts_oneRead (oneRead_findRound ..) fun bet => ?_
  split
  · trivial
  · exact reads_bind (counts_payOut ..) fun _ => counts_done (done_orThrew _) fun _ => trivial

theorem counts_revealMines (betReference : String) (tile : Num) :
    Reads Stmt.counts (revealMines fresh userId sessionId betReference tile) := by
  unfold revealMines
  split
  · split
    · trivial
    refine counts_oneRead (oneRead_requireOpenSession ..) fun _ => ?_
    refine counts_oneRead (oneRead_findRound ..) fun bet => ?_
    dsimp only
    split
    · trivial
    split
    · exact reads_bind (counts_settleLost ..) fun _ => trivial
    · refine reads_bind (p := recordReveal ..) ⟨rfl, fun _ => trivial⟩ fun _ => ?_
      split
      · exact counts_cashOutMines betReference
      · trivial
  · trivial

theorem counts_revealTowers (betReference : String) (tile : Num) :
    Reads Stmt.counts (revealTowers fresh userId sessionId betReference tile) := by
  refine counts_oneRead (oneRead_requireOpenSession ..) fun _ => ?_
  refine counts_oneRead (oneRead_findRound ..) fun bet => ?_
  split
  · refine counts_done (done_orThrew _) fun difficulty => ?_
    dsimp only
    split
    · trivial
    split
    · trivial
    split
    · exact reads_bind (counts_settleLost ..) fun _ => trivial
    · refine reads_bind (p := recordReveal ..) ⟨rfl, fun _ => trivial⟩ fun _ => ?_
      split
      · exact counts_cashOutTowers betReference
      · trivial
  · trivial

theorem counts_openRound {Sel : Type} (G : GridGame Sel) (stakeInput : Num) (selectionInput : RawSelection) :
    Reads Stmt.counts (openRound G D fresh userId sessionId stakeInput selectionInput) := by
  refine counts_oneRead (oneRead_requireOpenSession ..) fun _ => ?_
  refine counts_done (done_orInvalid _) fun validated => ?_
  refine counts_done (done_orFail _) fun stake => ?_
  refine counts_oneRead ⟨_, _, rfl, rfl, fun _ => rfl⟩ fun opened => ?_
  split
  · trivial
  refine reads_bind (counts_requireWallet userId) fun wallet => ?_
  refine counts_oneRead (oneRead_nextNonce _) fun nonce => ?_
  refine counts_oneRead (oneRead_getControlRule ..) fun row => ?_
  refine counts_done (done_orThrew _) fun selection => ?_
  refine reads_bind (reads_bind (p := ask _) ⟨decide_eq_true ?_, fun _ => trivial⟩ fun debited => ?_) fun _ => ?_
  · exact neg_add_cancel stake
  · split <;> trivial
  · exact ⟨rfl, fun _ => ⟨rfl, fun _ => ⟨rfl, fun _ => trivial⟩⟩⟩

theorem counts_placeBet (slug : GameSlug) (stakeInput : Num) (selectionInput : RawSelection) :
    Reads Stmt.counts (placeBet D fresh userId sessionId slug stakeInput selectionInput) := by
  unfold placeBet
  split
  · trivial
  refine counts_oneRead (oneRead_requireOpenSession ..) fun _ => ?_
  refine counts_done (done_orInvalid _) fun validated => ?_
  refine counts_done (done_orFail _) fun stake => ?_
  refine reads_bind (counts_requireWallet userId) fun wallet => ?_
  refine counts_oneRead (oneRead_nextNonce _) fun nonce => ?_
  refine counts_oneRead (oneRead_getControlRule ..) fun row => ?_
  refine counts_done (done_orThrew _) fun raw => ?_
  refine reads_bind (p := ask _) ⟨decide_eq_true ?_, fun _ => trivial⟩ fun debited => ?_
  · exact sub_add_cancel _ _
  split
  · refine reads_bind (p := perform _) ⟨rfl, fun _ => trivial⟩ fun _ => ?_
    refine reads_bind (p := perform _) ⟨rfl, fun _ => trivial⟩ fun _ => ?_
    refine reads_bind (p := bumpSession _ _ _) ⟨rfl, fun _ => trivial⟩ fun _ => ?_
    refine reads_bind ((onControls_consumeForcedRound row).mono fun q hq => ?_) fun _ => trivial
    exact by cases q <;> first | rfl | cases hq
  · trivial

theorem counts_serve (D : Digest) (fresh : Fresh) (request : Request) : Reads Stmt.counts (serve D fresh request) := by
  cases request with
  | startSession userId gameSlug =>
    exact reads_bind ((onSessions_startSession gameSlug).mono counts_of_onSessions) fun _ => trivial
  | endSession userId sessionId =>
    exact reads_bind (onSessions_endSession.mono counts_of_onSessions) fun _ => trivial
  | getSession userId sessionId => exact reads_bind ((reads_getSession ..).mono counts_of_isRead) fun _ => trivial
  | placeBet userId sessionId slug stakeInput selectionInput =>
    exact reads_bind (counts_placeBet slug stakeInput selectionInput) fun _ => trivial
  | startMines userId sessionId stakeInput mineCountInput =>
    exact reads_bind (reads_bind (counts_openRound minesGame stakeInput _) fun _ => trivial) fun _ => trivial
  | revealMines userId sessionId betReference tile =>
    exact reads_bind (counts_revealMines betReference tile) fun _ => trivial
  | cashOutMines userId sessionId betReference => exact reads_bind (counts_cashOutMines betReference) fun _ => trivial
  | getOpenMines userId sessionId => exact reads_bind ((reads_getOpenMines ..).mono counts_of_isRead) fun _ => trivial
  | startTowers userId sessionId stakeInput difficultyInput =>
    exact reads_bind (reads_bind (counts_openRound towersGame stakeInput _) fun _ => trivial) fun _ => trivial
  | revealTowers userId sessionId betReference tile =>
    exact reads_bind (counts_revealTowers betReference tile) fun _ => trivial
  | cashOutTowers userId sessionId betReference => exact reads_bind (counts_cashOutTowers betReference) fun _ => trivial
  | getOpenTowers userId sessionId => exact reads_bind ((reads_getOpenTowers ..).mono counts_of_isRead) fun _ => trivial

/-! ## Balances -/

theorem total_sub {ρ : Type} [Keyed ρ] (t : Table ρ) (f g : ρ → Money) :
    t.total (fun r => f r - g r) = t.total f - t.total g := by
  unfold Table.total
  induction t.rows with
  | nil => rfl
  | cons r rs ih =>
    simp only [List.map_cons, List.sum_cons, ih]
    ring

/-- With balanced books, a balance is what the wallet has besides the bets, and what the bets have earned. -/
theorem Balanced.balance_eq (h : Balanced db) (userId : Id) :
    db.balance userId = db.sminkWallets.total (netOf userId) + db.bets.total (earnedOf userId) := by
  have hcounter : ∀ c : Counter, (∀ s, sessionCounter c s = 0) →
      db.sminkWallets.total (walletCounter c) = db.bets.total (betCounter c) := by
    intro c hs
    have hgap : db.gap c = 0 := Books.gap h c
    unfold Db.gap at hgap
    rw [total_zero hs] at hgap
    linarith
  have hnet : netOf userId = fun w =>
      balanceOf userId w - (walletCounter (.won userId) w - walletCounter (.wagered userId) w) := by
    funext w
    simp only [netOf, balanceOf, walletCounter]
    split <;> ring
  have hearned : earnedOf userId = fun b => betCounter (.won userId) b - betCounter (.wagered userId) b := by
    funext b
    simp only [earnedOf, betCounter]
    split <;> ring
  rw [hnet, hearned, total_sub, total_sub, total_sub, hcounter _ fun _ => rfl, hcounter _ fun _ => rfl,
    balance_eq_total]
  ring

/-- A request moves a balance by what the bets have earned in it. -/
theorem balance_serve (h : Balanced db) (D : Digest) (fresh : Fresh) (request : Request)
    (hc : (serve D fresh request).Completes exec db) (userId : Id) :
    ((serve D fresh request).run exec db).2.balance userId =
      db.balance userId + (((serve D fresh request).run exec db).2.bets.total (earnedOf userId) -
        db.bets.total (earnedOf userId)) := by
  have hbooks : Balanced ((serve D fresh request).run exec db).2 := (keepsBooks_serve h D fresh request).run hc
  have hnet : Prog.Ends exec (serve D fresh request) db fun _ t =>
      t.sminkWallets.total (netOf userId) = db.sminkWallets.total (netOf userId) :=
    (counts_serve D fresh request).ends_keeps (J := fun t => t.sminkWallets.total (netOf userId) =
      db.sminkWallets.total (netOf userId)) (fun q hq _ _ _ ht hr => (exec_counts hq hr userId).trans ht) rfl
  rw [hbooks.balance_eq, h.balance_eq, show Table.total _ _ = _ from hnet]
  ring

/-! ## What a bet adds -/

theorem total_turned {bet bet' : Bet} (h : Turned db t bet bet') (f : Bet → Money) :
    t.bets.total f = db.bets.total f + (f bet' - f bet) := by
  have hmoved : db.bets.total (fun a => f (if a.id = bet.id then bet' else a) - f a) = f bet' - f bet := by
    rw [Table.total_eq_of_key (k := ("id", bet.id)) (r := bet) (fun a ha => ?_) h.mem (by simp [Keyed.keys])]
    · rw [if_pos rfl]
    · rw [if_neg fun he => ha (by simp [Keyed.keys, he]), sub_self]
  have hrows : t.bets.total f = db.bets.total fun a => f (if a.id = bet.id then bet' else a) := by
    unfold Table.total
    rw [h.rows, List.map_map]
    rfl
  rw [total_sub] at hmoved
  rw [hrows]
  linarith

theorem rounds_insert {b : Bet} (h : db.bets.insert b = some t.bets) :
    t.house.rounds = Function.update db.house.rounds b.reference (some b.round) := by
  have hmem : ∀ a, a ∈ t.bets.rows ↔ a ∈ db.bets.rows ∨ a = b := fun a => by
    rw [Table.rows_insert h, List.mem_append, List.mem_singleton]
  funext ref
  by_cases hr : ref = b.reference
  · subst hr
    rw [Function.update_self, rounds_of_mem ((hmem b).2 (.inr rfl))]
  · rw [Function.update_of_ne hr]
    refine Option.ext fun x => ?_
    rw [rounds_eq_some, rounds_eq_some]
    constructor
    · rintro ⟨a, ha, hra, hx⟩
      rcases (hmem a).1 ha with ha | rfl
      · exact ⟨a, ha, hra, hx⟩
      · exact absurd hra.symm hr
    · rintro ⟨a, ha, hra, hx⟩
      exact ⟨a, (hmem a).2 (.inl ha), hra, hx⟩

theorem rounds_turned {bet bet' : Bet} (h : Turned db t bet bet') (hr : bet'.reference = bet.reference) :
    t.house.rounds = Function.update db.house.rounds bet.reference (some bet'.round) := by
  funext ref
  by_cases hne : ref = bet.reference
  · subst hne
    rw [Function.update_self, ← hr, rounds_of_mem (h.mem_iff.2 (.inl rfl))]
  · rw [Function.update_of_ne hne]
    refine Option.ext fun x => ?_
    rw [rounds_eq_some, rounds_eq_some]
    constructor
    · rintro ⟨a, ha, hra, hx⟩
      rcases h.mem_iff.1 ha with rfl | ⟨ha, -⟩
      · exact absurd (hra.symm.trans hr) hne
      · exact ⟨a, ha, hra, hx⟩
    · rintro ⟨a, ha, hra, hx⟩
      refine ⟨a, h.mem_iff.2 (.inr ⟨ha, fun hid => ?_⟩), hra, hx⟩
      rw [bet_eq_of_id ha h.mem hid] at hra
      exact hne hra.symm

/-! ## What covers a stake -/

/-- The bet is new, and its player can cover the stake asked for. -/
structure Staked (db t : Db) (kind : String) (fresh : Fresh) (userId : Id) (stakeInput : Num) (b : Bet) : Prop where
  inserted : db.bets.insert b = some t.bets
  reference_eq : b.reference = reference kind fresh.betHex
  stake_eq : ∃ minBet maxBet, parseStake stakeInput minBet maxBet = .ok b.stake
  covered : b.stake ≤ db.balance userId

theorem ends_placeBet_staked (slug : GameSlug) (stakeInput : Num) (selectionInput : RawSelection) :
    Prog.Ends exec (placeBet D fresh userId sessionId slug stakeInput selectionInput) db fun _ t =>
      t.bets = db.bets ∨ ∃ b, Staked db t "BET" fresh userId stakeInput b := by
  unfold placeBet
  split
  · exact .inl rfl
  refine (oneRead_requireOpenSession ..).reads.ends_bind readOnly (fun ⟨session, game⟩ _ => ?_) fun _ _ => .inl rfl
  refine (reads_of_done (done_orInvalid _)).ends_bind readOnly (fun validated _ => ?_) fun _ _ => .inl rfl
  refine (reads_of_done (done_orFail _)).ends_bind readOnly (fun stake hstake => ?_) fun _ _ => .inl rfl
  refine Prog.ends_bind ((ends_requireWallet_balance userId db).mono fun wallet u ⟨hbets, hbalance⟩ => ?_)
  cases wallet with
  | error e => exact .inl hbets
  | ok wallet =>
    refine (oneRead_nextNonce _).reads.ends_bind readOnly (fun nonce _ => ?_) fun _ _ => .inl hbets
    refine (oneRead_getControlRule ..).reads.ends_bind readOnly (fun row _ => ?_) fun _ _ => .inl hbets
    refine (reads_of_done (done_orThrew _)).ends_bind readOnly (fun raw _ => ?_) fun _ _ => .inl hbets
    dsimp only
    rw [ask_bind]
    refine Prog.ends_stmt (fun debited v hv => ?_) fun _ _ => .inl hbets
    cases hv
    split
    · rename_i updated hupdated
      have hcovered := covered_of_debited hupdated
      rw [perform_bind]
      refine Prog.ends_stmt (fun _ v hv => ?_) fun _ _ => .inl hbets
      obtain ⟨bets, hins, he⟩ := orThrow_ok hv
      cases he
      refine (ends_sparesBets ?_ _).mono fun _ t ht => .inr ?_
      · refine reads_bind (p := perform (.insertTransactions _)) ⟨rfl, fun _ => trivial⟩ fun _ => ?_
        refine reads_bind (p := bumpSession _ _ _) ⟨rfl, fun _ => trivial⟩ fun _ => ?_
        exact reads_bind ((onControls_consumeForcedRound row).mono sparesBets_of_onControls) fun _ => trivial
      · rw [hbets] at hins
        rw [hbalance] at hcovered
        exact ⟨_, hins.trans (congrArg some ht.symm), rfl, ⟨_, _, orFail_ok (run_done (done_orFail _) hstake)⟩,
          hcovered⟩
    · exact .inl hbets

theorem ends_openRound_staked {Sel : Type} (G : GridGame Sel) (stakeInput : Num) (selectionInput : RawSelection) :
    Prog.Ends exec (openRound G D fresh userId sessionId stakeInput selectionInput) db fun _ t =>
      t.bets = db.bets ∨ ∃ b, Staked db t G.kind fresh userId stakeInput b := by
  unfold openRound
  refine (oneRead_requireOpenSession ..).reads.ends_bind readOnly (fun ⟨session, game⟩ _ => ?_) fun _ _ => .inl rfl
  refine (reads_of_done (done_orInvalid _)).ends_bind readOnly (fun validated _ => ?_) fun _ _ => .inl rfl
  refine (reads_of_done (done_orFail _)).ends_bind readOnly (fun stake hstake => ?_) fun _ _ => .inl rfl
  rw [ask_bind]
  refine Prog.ends_stmt (fun opened v hv => ?_) fun _ _ => .inl rfl
  cases hv
  split
  · exact .inl rfl
  refine Prog.ends_bind ((ends_requireWallet_balance userId db).mono fun wallet u ⟨hbets, hbalance⟩ => ?_)
  cases wallet with
  | error e => exact .inl hbets
  | ok wallet =>
    refine (oneRead_nextNonce _).reads.ends_bind readOnly (fun nonce _ => ?_) fun _ _ => .inl hbets
    refine (oneRead_getControlRule ..).reads.ends_bind readOnly (fun row _ => ?_) fun _ _ => .inl hbets
    refine (reads_of_done (done_orThrew _)).ends_bind readOnly (fun selection _ => ?_) fun _ _ => .inl hbets
    unfold debitStake
    rw [Prog.bind_assoc, ask_bind]
    refine Prog.ends_stmt (fun debited v hv => ?_) fun _ _ => .inl hbets
    cases hv
    split
    · rename_i updated hupdated
      have hcovered := covered_of_debited hupdated
      rw [Prog.pure_eq, Prog.ret_bind, perform_bind]
      refine Prog.ends_stmt (fun _ v hv => ?_) fun _ _ => .inl hbets
      obtain ⟨bets, hins, he⟩ := orThrow_ok hv
      cases he
      refine (ends_sparesBets ?_ _).mono fun _ t ht => .inr ?_
      · refine reads_bind (p := perform (.insertTransactions _)) ⟨rfl, fun _ => trivial⟩ fun _ => ?_
        exact reads_bind (p := bumpSession _ _ _) ⟨rfl, fun _ => trivial⟩ fun _ => trivial
      · rw [hbets] at hins
        rw [hbalance] at hcovered
        exact ⟨_, hins.trans (congrArg some ht.symm), rfl, ⟨_, _, orFail_ok (run_done (done_orFail _) hstake)⟩,
          hcovered⟩
    · exact .inl hbets

/-! ## Acts -/

/-- The balances have moved by what the bets have earned. -/
def Earns (db t : Db) : Prop :=
  ∀ userId, t.balance userId =
    db.balance userId + (t.bets.total (earnedOf userId) - db.bets.total (earnedOf userId))

theorem house_ext {h h' : House Id Id String Money} (hb : h.balance = h'.balance) (hr : h.rounds = h'.rounds) :
    h = h' := by
  cases h; cases h'; cases hb; cases hr; rfl

theorem Earns.pass (h : Earns db t) (hbets : t.bets = db.bets) : Step db.house .pass t.house := by
  refine ⟨trivial, house_ext ?_ (rounds_congr fun b => by rw [hbets])⟩
  funext userId
  show t.balance userId = db.balance userId + 0
  rw [h userId, hbets, sub_self]

section Inserted

variable {kind : String} {stakeInput : Num} {b : Bet}

theorem Staked.covers (h : Staked db t kind fresh userId stakeInput b) (hpos : 0 < b.stake) :
    db.house.Covers b.reference userId b.stake := by
  refine ⟨rounds_eq_none.2 fun a ha hr => ?_, hpos, h.covered⟩
  exact Table.apart_of_insert h.inserted a ha ("reference", a.reference) (by simp [Keyed.keys])
    (by simp [Keyed.keys, hr])

theorem balance_inserted (h : Earns db t) (hins : db.bets.insert b = some t.bets) :
    t.balance = db.balance + Pi.single b.userId (b.payout - b.stake) := by
  funext userId
  rw [h userId, Table.total_insert _ hins, Pi.add_apply, Pi.single_apply]
  simp only [earnedOf, eq_comm (a := userId)]
  ring

/-- A bet that is settled when it is inserted. -/
theorem Earns.play (h : Earns db t) (hs : Staked db t kind fresh userId stakeInput b) (hu : b.userId = userId)
    (hpos : 0 < b.stake) (hpayout : 0 ≤ b.payout) (hstatus : b.status ≠ .open) :
    Step db.house (.play (reference kind fresh.betHex) userId b.gameId b.stake b.payout) t.house := by
  have hround : b.round = ⟨userId, b.gameId, b.stake, some b.payout⟩ := by
    unfold Bet.round
    rw [if_neg hstatus, hu]
  rw [← hs.reference_eq]
  refine ⟨⟨hs.covers hpos, hpayout⟩, house_ext ?_ ?_⟩
  · rw [← hu]
    exact balance_inserted h hs.inserted
  · rw [rounds_insert hs.inserted, hround]
    rfl

/-- A round that is open when it is inserted. -/
theorem Earns.start (h : Earns db t) (hs : Staked db t kind fresh userId stakeInput b) (hu : b.userId = userId)
    (hpos : 0 < b.stake) (hpayout : b.payout = 0) (hstatus : b.status = .open)
    (halone : ∀ a ∈ db.bets.rows, a.userId = userId → a.gameId = b.gameId → a.status ≠ .open) :
    Step db.house (.start (reference kind fresh.betHex) userId b.gameId b.stake) t.house := by
  have hround : b.round = ⟨userId, b.gameId, b.stake, none⟩ := by
    unfold Bet.round
    rw [if_pos hstatus, hu]
  rw [← hs.reference_eq]
  refine ⟨⟨hs.covers hpos, fun other x hx hplayer hgame => ?_⟩, house_ext ?_ ?_⟩
  · obtain ⟨a, ha, -, rfl⟩ := rounds_eq_some.1 hx
    simp [Bet.round, halone a ha hplayer hgame]
  · have hbalance := balance_inserted h hs.inserted
    rw [hpayout, zero_sub, hu] at hbalance
    exact hbalance
  · rw [rounds_insert hs.inserted, hround]
    rfl

end Inserted

/-- How a move leaves a round: open and unpaid as before, or over with what it pays. -/
def RoundEnds (bet bet' : Bet) : Prop :=
  bet'.status = .open ∧ bet'.payout = bet.payout ∨ bet'.status ≠ .open ∧ 0 ≤ bet'.payout

section Moved

variable {bet bet' : Bet} {betReference : String}

theorem balance_turned (h : Earns db t) (hturned : Turned db t bet bet') (hseat : SameSeat bet bet') :
    t.balance = db.balance + Pi.single bet.userId (bet'.payout - bet.payout) := by
  funext userId
  rw [h userId, total_turned hturned, Pi.add_apply, Pi.single_apply]
  simp only [earnedOf, hseat.userId_eq, hseat.stake_eq, eq_comm (a := userId)]
  split <;> ring

/-- An open round moves: it stays open, or is over and pays. -/
theorem Earns.moved (h : Earns db t) (hunpaid : bet.payout = 0) (hopen : OpenRound db userId sessionId betReference bet)
    (hturned : Turned db t bet bet') (hseat : SameSeat bet bet') (href : bet'.reference = bet.reference)
    (hends : RoundEnds bet bet') :
    Step db.house .pass t.house ∨ ∃ payout, Step db.house (.finish betReference userId payout) t.house := by
  have hbalance := balance_turned h hturned hseat
  have hrounds := rounds_turned hturned href
  have hbefore := rounds_of_mem hopen.mem
  obtain ⟨hstatus, hpayout⟩ | ⟨hstatus, hpayout⟩ := hends
  · refine .inl ⟨trivial, house_ext ?_ ?_⟩
    · rw [hpayout, sub_self, Pi.single_zero] at hbalance
      exact hbalance
    · have hround : bet'.round = bet.round := by
        simp [Bet.round, hseat.userId_eq, hseat.gameId_eq, hseat.stake_eq, hstatus, hopen.status]
      rw [hrounds, hround, ← hbefore, Function.update_eq_self]
      rfl
  · refine .inr ⟨bet'.payout, ⟨⟨⟨bet.round, ?_, hopen.user, ?_⟩, hpayout⟩, house_ext ?_ ?_⟩⟩
    · rw [← hopen.reference]
      exact hbefore
    · simp [Bet.round, hopen.status]
    · rw [hunpaid, sub_zero, hopen.user] at hbalance
      exact hbalance
    · have hround : bet'.round = { bet.round with payout := some bet'.payout } := by
        simp only [Bet.round, hseat.userId_eq, hseat.gameId_eq, hseat.stake_eq, if_neg hstatus]
      rw [hrounds, hround, ← hopen.reference]
      show _ = Function.update db.house.rounds bet.reference _
      rw [hbefore]
      rfl

end Moved

/-! ## Requests -/

theorem MinesMove.ends {houseEdge : ℚ} {bet bet' : Bet} {step : Option Nat} (h : MinesMove houseEdge bet step bet')
    (hedge : houseEdge ≤ 1) (hb : 0 ≤ bet.stake ∧ 0 ≤ bet.multiplier) (hopen : bet.status = .open) :
    bet'.reference = bet.reference ∧ RoundEnds bet bet' := by
  cases h with
  | hit now tile => exact ⟨rfl, .inr ⟨by simp [Settable.apply, lostSet], le_refl 0⟩⟩
  | safe tile => exact ⟨rfl, .inl ⟨hopen, rfl⟩⟩
  | clear now tile _ _ _ _ shown hshown =>
    subst hshown
    refine ⟨rfl, .inr ⟨by simp [Settable.apply, cashedOutSet], cashOutPayout_nonneg ⟨hb.1, ?_⟩⟩⟩
    show 0 ≤ toFixed 4 _
    rw [toFixed_minesMultiplier]
    exact minesMultiplier_nonneg hedge _ _
  | cashOut now => exact ⟨rfl, .inr ⟨by simp [Settable.apply, cashedOutSet], cashOutPayout_nonneg hb⟩⟩

theorem TowersMove.ends {houseEdge : ℚ} {bet bet' : Bet} {step : Option Nat} (h : TowersMove houseEdge bet step bet')
    (hedge : houseEdge ≤ 1) (hb : 0 ≤ bet.stake ∧ 0 ≤ bet.multiplier) (hopen : bet.status = .open) :
    bet'.reference = bet.reference ∧ RoundEnds bet bet' := by
  cases h with
  | hit now difficulty hd tile => exact ⟨rfl, .inr ⟨by simp [Settable.apply, lostSet], le_refl 0⟩⟩
  | safe difficulty hd tile => exact ⟨rfl, .inl ⟨hopen, rfl⟩⟩
  | clear now difficulty hd tile _ _ _ shown hshown =>
    subst hshown
    refine ⟨rfl, .inr ⟨by simp [Settable.apply, cashedOutSet], cashOutPayout_nonneg ⟨hb.1, ?_⟩⟩⟩
    show 0 ≤ toFixed 4 _
    rw [toFixed_towersMultiplier]
    exact towersMultiplier_nonneg hedge _ _
  | cashOut now => exact ⟨rfl, .inr ⟨by simp [Settable.apply, cashedOutSet], cashOutPayout_nonneg hb⟩⟩

/-- No game pays a negative amount. -/
theorem Placed.payout_nonneg {slug : GameSlug} {game : Game} {forced : ForcedResult} {selection : GameSelection}
    {raw : RoundResult} {b : Bet} (h : Placed D db userId slug game forced selection raw b) (hs : Solvent db) :
    0 ≤ b.payout := by
  obtain ⟨_, _, hat, -⟩ := h.seat
  obtain ⟨hedge, hmax⟩ := hs.games game hat.game_mem
  rw [h.payout_eq]
  refine betPayout_nonneg h.stake_pos (applyWinCap_nonneg (resolveRound_nonneg hedge hmax h.raw_eq) fun cap hcap => ?_)
  obtain ⟨rule, hrule, hcap⟩ := Option.bind_eq_some_iff.1 hcap
  obtain ⟨row, hrow, rfl⟩ := Option.map_eq_some_iff.1 hrule
  exact hs.caps row (mem_of_controlRow hrow) cap hcap

/-- What a call may do as an act: it is its owner's, and the round is the one that it names. -/
inductive Call.Does (holder : Id → Id) : Call → Act Id Id String Money → Prop
  | pass (i : Call) : Does holder i .pass
  | deposit {now : Time} {depositId : Id} {extraMetadata : Metadata → Metadata} (amount : Money) :
    Does holder (.credit now depositId extraMetadata) (.deposit (holder depositId) amount)
  | placeBet {fresh : Fresh} {userId sessionId : Id} {slug : GameSlug} {stakeInput : Num}
    {selectionInput : RawSelection} {minBet maxBet stake : Money} (gameId : Id) (payout : Money)
    (hstake : parseStake stakeInput minBet maxBet = .ok stake) :
    Does holder (.play fresh (.placeBet userId sessionId slug stakeInput selectionInput))
      (.play (reference "BET" fresh.betHex) userId gameId stake payout)
  | startMines {fresh : Fresh} {userId sessionId : Id} {stakeInput mineCountInput : Num} {minBet maxBet stake : Money}
    (gameId : Id) (hstake : parseStake stakeInput minBet maxBet = .ok stake) :
    Does holder (.play fresh (.startMines userId sessionId stakeInput mineCountInput))
      (.start (reference "MIN" fresh.betHex) userId gameId stake)
  | startTowers {fresh : Fresh} {userId sessionId : Id} {stakeInput : Num} {difficultyInput : String}
    {minBet maxBet stake : Money} (gameId : Id) (hstake : parseStake stakeInput minBet maxBet = .ok stake) :
    Does holder (.play fresh (.startTowers userId sessionId stakeInput difficultyInput))
      (.start (reference "TWR" fresh.betHex) userId gameId stake)
  | revealMines {fresh : Fresh} {userId sessionId : Id} {betReference : String} {tile : Num} (payout : Money) :
    Does holder (.play fresh (.revealMines userId sessionId betReference tile)) (.finish betReference userId payout)
  | cashOutMines {fresh : Fresh} {userId sessionId : Id} {betReference : String} (payout : Money) :
    Does holder (.play fresh (.cashOutMines userId sessionId betReference)) (.finish betReference userId payout)
  | revealTowers {fresh : Fresh} {userId sessionId : Id} {betReference : String} {tile : Num} (payout : Money) :
    Does holder (.play fresh (.revealTowers userId sessionId betReference tile)) (.finish betReference userId payout)
  | cashOutTowers {fresh : Fresh} {userId sessionId : Id} {betReference : String} (payout : Money) :
    Does holder (.play fresh (.cashOutTowers userId sessionId betReference)) (.finish betReference userId payout)

/-- What a request that takes a stake has inserted, if anything. -/
def StakedBy (db t : Db) (fresh : Fresh) : Request → Prop
  | .placeBet userId _ _ stakeInput _ => t.bets = db.bets ∨ ∃ b, Staked db t "BET" fresh userId stakeInput b
  | .startMines userId _ stakeInput _ => t.bets = db.bets ∨ ∃ b, Staked db t "MIN" fresh userId stakeInput b
  | .startTowers userId _ stakeInput _ => t.bets = db.bets ∨ ∃ b, Staked db t "TWR" fresh userId stakeInput b
  | _ => True

theorem ends_serve_staked (D : Digest) (fresh : Fresh) (request : Request) (db : Db) :
    Prog.Ends exec (serve D fresh request) db fun _ t => StakedBy db t fresh request := by
  cases request with
  | placeBet userId sessionId slug stakeInput selectionInput =>
    exact ends_answer (ends_placeBet_staked slug stakeInput selectionInput)
  | startMines userId sessionId stakeInput mineCountInput =>
    exact ends_answer (ends_answer (ends_openRound_staked minesGame stakeInput _))
  | startTowers userId sessionId stakeInput difficultyInput =>
    exact ends_answer (ends_answer (ends_openRound_staked towersGame stakeInput _))
  | _ => trivial

theorem insert_inj {ρ : Type} [Keyed ρ] {t u : Table ρ} {a b : ρ} (ha : t.insert a = some u)
    (hb : t.insert b = some u) : a = b := by
  have hrows := (Table.rows_insert ha).symm.trans (Table.rows_insert hb)
  simpa using List.append_cancel_left hrows

section Acts

variable {holder : Id → Id} {request : Request}

/-- The act of a request that has opened a round. -/
theorem Earns.opened {Sel : Type} {G : GridGame Sel} {stakeInput : Num} (h : Earns db t)
    (hopened : BetOpened G D db t userId)
    (hstaked : t.bets = db.bets ∨ ∃ b, Staked db t G.kind fresh userId stakeInput b) :
    Step db.house .pass t.house ∨ ∃ gameId stake minBet maxBet, parseStake stakeInput minBet maxBet = .ok stake ∧
      Step db.house (.start (reference G.kind fresh.betHex) userId gameId stake) t.house := by
  rcases hstaked with hbets | ⟨b, hs⟩
  · exact .inl (h.pass hbets)
  · obtain ⟨game, forced, selection, b', ho, hins⟩ := hopened
    obtain rfl := insert_inj hs.inserted hins
    obtain ⟨minBet, maxBet, hstake⟩ := hs.stake_eq
    refine .inr ⟨b.gameId, b.stake, minBet, maxBet, hstake, ?_⟩
    exact h.start hs ho.userId_eq ho.stake_pos ho.payout_eq ho.status_eq fun a ha hu hg =>
      ho.alone a ha hu (hg.trans ho.gameId_eq)

/-- The act of a request that has moved a round. -/
theorem Earns.turned {slug : GameSlug} {move : ℚ → Bet → Option Nat → Bet → Prop} {step : Option Nat}
    {betReference : String} (h : Earns db t) (hbooks : Balanced db) (hsolvent : Solvent db)
    (hmoved : BetMoved slug move step db t userId sessionId betReference)
    (hseat : ∀ {houseEdge bet bet'}, move houseEdge bet step bet' → SameSeat bet bet')
    (hends : ∀ {houseEdge bet bet'}, move houseEdge bet step bet' → houseEdge ≤ 1 →
      0 ≤ bet.stake ∧ 0 ≤ bet.multiplier → bet.status = .open → bet'.reference = bet.reference ∧ RoundEnds bet bet') :
    Step db.house .pass t.house ∨ ∃ payout, Step db.house (.finish betReference userId payout) t.house := by
  obtain ⟨session, game, bet, bet', hat, hopen, hturned, hmove⟩ := hmoved
  obtain ⟨href, hround⟩ := hends hmove (hsolvent.games game hat.game_mem).1 (hsolvent.of_round hopen) hopen.status
  exact h.moved (Books.unpaid hbooks bet hopen.mem hopen.status) hopen hturned (hseat hmove) href hround

/-- **A request that runs alone is one act of the house.** -/
theorem acts_serve (D : Digest) (fresh : Fresh) (request : Request) (hbooks : Balanced db) (hsolvent : Solvent db)
    (hc : (serve D fresh request).Completes exec db) :
    ∃ a, Call.Does holder (.play fresh request) a ∧
      Step db.house a ((serve D fresh request).run exec db).2.house := by
  have heffect : BetEffect D db ((serve D fresh request).run exec db).2 request := ends_serve D fresh request db
  have hstaked : StakedBy db ((serve D fresh request).run exec db).2 fresh request :=
    ends_serve_staked D fresh request db
  have hearns : Earns db ((serve D fresh request).run exec db).2 := balance_serve hbooks D fresh request hc
  generalize ((serve D fresh request).run exec db).2 = t at heffect hstaked hearns
  cases heffect with
  | same request h => exact ⟨_, .pass _, hearns.pass h⟩
  | placed h =>
    rcases hstaked with hbets | ⟨b, hs⟩
    · exact ⟨_, .pass _, hearns.pass hbets⟩
    · obtain ⟨game, forced, selection, raw, b', hp, hins⟩ := h
      obtain rfl := insert_inj hs.inserted hins
      obtain ⟨minBet, maxBet, hstake⟩ := hs.stake_eq
      refine ⟨_, .placeBet b.gameId b.payout hstake, ?_⟩
      refine hearns.play hs hp.userId_eq hp.stake_pos (hp.payout_nonneg hsolvent) ?_
      rw [hp.status_eq]
      split <;> simp
  | openedMines h =>
    obtain hpass | ⟨gameId, stake, minBet, maxBet, hstake, hstep⟩ := hearns.opened h hstaked
    · exact ⟨_, .pass _, hpass⟩
    · exact ⟨_, .startMines gameId hstake, hstep⟩
  | openedTowers h =>
    obtain hpass | ⟨gameId, stake, minBet, maxBet, hstake, hstep⟩ := hearns.opened h hstaked
    · exact ⟨_, .pass _, hpass⟩
    · exact ⟨_, .startTowers gameId hstake, hstep⟩
  | shownMines htile h =>
    obtain hpass | ⟨payout, hstep⟩ := hearns.turned hbooks hsolvent h MinesMove.seat MinesMove.ends
    · exact ⟨_, .pass _, hpass⟩
    · exact ⟨_, .revealMines payout, hstep⟩
  | cashedOutMines h =>
    obtain hpass | ⟨payout, hstep⟩ := hearns.turned hbooks hsolvent h MinesMove.seat MinesMove.ends
    · exact ⟨_, .pass _, hpass⟩
    · exact ⟨_, .cashOutMines payout, hstep⟩
  | shownTowers htile h =>
    obtain hpass | ⟨payout, hstep⟩ := hearns.turned hbooks hsolvent h TowersMove.seat TowersMove.ends
    · exact ⟨_, .pass _, hpass⟩
    · exact ⟨_, .revealTowers payout, hstep⟩
  | cashedOutTowers h =>
    obtain hpass | ⟨payout, hstep⟩ := hearns.turned hbooks hsolvent h TowersMove.seat TowersMove.ends
    · exact ⟨_, .pass _, hpass⟩
    · exact ⟨_, .cashOutTowers payout, hstep⟩

end Acts

/-! ## Deposits -/

theorem acts_credit {holder : Id → Id} (now : Time) (depositId : Id) (extraMetadata : Metadata → Metadata)
    (hsolvent : Solvent db) (hheld : Held holder db) :
    ∃ a, Call.Does holder (.credit now depositId extraMetadata) a ∧
      Step db.house a ((creditDeposit now depositId extraMetadata).run exec db).2.house := by
  have hend := ends_creditDeposit now depositId extraMetadata db
  unfold Prog.Ends at hend
  generalize (creditDeposit now depositId extraMetadata).run exec db = ended at hend
  have hrounds : ended.2.bets = db.bets → ended.2.house.rounds = db.house.rounds :=
    fun h => rounds_congr fun b => by rw [h]
  obtain ⟨hbets, ⟨-, hbalance⟩ | ⟨-, -, r, hr, rfl, htype, hbalance⟩⟩ := hend
  · refine ⟨_, .pass _, trivial, house_ext ?_ (hrounds hbets)⟩
    exact hbalance.trans (add_zero _).symm
  · refine ⟨_, .deposit r.amount, hsolvent.deposits r hr htype, house_ext ?_ (hrounds hbets)⟩
    rw [hheld r hr]
    exact hbalance

/-! ## Calls in turn -/

theorem solvent_run (D : Digest) (i : Call) (h : Solvent db) : Solvent ((i.prog D).run exec db).2 := by
  obtain ⟨v, _, hv, hinv⟩ := (solvent_prog D i ⟨db, []⟩).run (fun _ _ _ => trivial) h
  rw [← hv]
  exact hinv

/-- **A call that runs alone is one act of the house.** -/
theorem acts_prog {holder : Id → Id} (D : Digest) (i : Call) (hbooks : Balanced db) (hsolvent : Solvent db)
    (hheld : Held holder db) (hc : (i.prog D).Completes exec db) :
    ∃ a, i.Does holder a ∧ Step db.house a ((i.prog D).run exec db).2.house := by
  cases i with
  | play fresh request =>
    have hrun : ((Call.play fresh request).prog D).run exec db = _ :=
      Prog.run_map Answer.play (Smink.serve D fresh request) db
    rw [hrun]
    exact acts_serve D fresh request hbooks hsolvent (completes_of_map hc)
  | credit now depositId extraMetadata =>
    have hrun : ((Call.credit now depositId extraMetadata).prog D).run exec db = _ :=
      Prog.run_map Answer.credit (creditDeposit now depositId extraMetadata) db
    rw [hrun]
    exact acts_credit now depositId extraMetadata hsolvent hheld

theorem house_of_sameRows (h : SameRows db t) : db.house = t.house := by
  refine house_ext ?_ (rounds_congr fun b => h.bets.mem_iff.symm)
  funext userId
  show db.balance userId = t.balance userId
  rw [balance_eq_total, balance_eq_total]
  exact total_of_perm _ h.wallets.symm

/-- **The play service is a house.** From a database without bets, in every interleaving in which the calls of each
player take turns and no statement fails, with no call in flight: the calls have done an act of the house each, in the
order in which they started, and the database is the house after these acts. So the balances are what the acts were
worth, and each bet has been begun by one act and paid out by one, unless it is open. -/
theorem casino_refined (D : Digest) (holder : Id → Id) (db : Db) (hzero : ZeroCounters db) (hsolvent : Solvent db)
    (hheld : Held holder db) (moves : List (Move Call Fault)) (c : Pool Call Stmt.Resp Fault Answer Db)
    (hc : (Pool.init db).replay exec (Call.prog D) moves = some c)
    (hapart : AllStartApart (Call.Lawful holder) (Call.Apart holder) exec (Call.prog D) (Pool.init db) moves)
    (hok : ∀ m ∈ moves, m.ok = true) (hidle : c.Idle) :
    ∃ acts, List.Forall₂ (Call.Does holder) (c.threads.map Prod.fst) acts ∧
      Trace Step db.house acts c.store.house ∧ c.store.balance = db.balance + (acts.map Act.worth).sum ∧
        ∀ b ∈ c.store.bets.rows, acts.countP (Act.begins b.reference) = 1 ∧
          acts.countP (Act.pays b.reference) = if b.status = .open then 0 else 1 := by
  have hseated : BetsSeated db := by
    intro b hb
    rw [hzero.bets] at hb
    cases hb
  have hstep : ∀ i s, (services D holder).lawful i → (services D holder).inv s → Sound s ∧ Solvent s →
      (i.prog D).Completes exec s → (Sound ((i.prog D).run exec s).2 ∧ Solvent ((i.prog D).run exec s).2) ∧
        ∃ a, i.Does holder a ∧ Step s.house a ((i.prog D).run exec s).2.house :=
    fun i s _ hinv hs hcomplete => ⟨⟨hs.1.prog D i hcomplete, solvent_run D i hs.2⟩,
      acts_prog D i hs.1.books hs.2 hinv.2 hcomplete⟩
  obtain ⟨acts, hdoes, htrace⟩ := idle_simulated (P := services D holder) (J := fun db => Sound db ∧ Solvent db)
    (fun s t hsame => house_of_sameRows (LooksSame.sameRows hsame)) hstep ⟨hseated, hheld⟩
    ⟨Sound.of_none hzero, hsolvent⟩ hc hapart hok hidle
  refine ⟨acts, hdoes, htrace, balance_trace htrace, fun b hb => ?_⟩
  have hbefore : db.house.rounds b.reference = none := rounds_eq_none.2 fun a ha => by
    rw [hzero.bets] at ha
    cases ha
  have hafter := rounds_of_mem hb
  have hbegun := begun_once htrace b.reference
  have hpaid := paid_once htrace b.reference
  simp only [Begun, Over, hbefore, hafter] at hbegun hpaid
  refine ⟨by simpa using hbegun.symm, ?_⟩
  rw [Option.any_none, Bool.toNat_false, zero_add] at hpaid
  rw [← hpaid]
  by_cases hopen : b.status = .open <;> simp [Bet.round, hopen]

theorem casino_refined_overlappingReveals : ∃ c : Pool Call Stmt.Resp Fault Answer Db,
    (Pool.init twoPlayers).replay exec (Call.prog zeroDigest) overlappingReveals = some c ∧
      c.store.balance "u1" = 9500 ∧ c.store.balance "u2" = 9300 ∧
        ∃ acts, List.Forall₂ (Call.Does holderOfReveals) (c.threads.map Prod.fst) acts ∧
          Trace Step twoPlayers.house acts c.store.house ∧
          c.store.balance = twoPlayers.balance + (acts.map Act.worth).sum ∧
            ∀ b ∈ c.store.bets.rows, acts.countP (Act.begins b.reference) = 1 ∧
              acts.countP (Act.pays b.reference) = if b.status = .open then 0 else 1 := by
  have hrun : ((Pool.init twoPlayers).replay exec (Call.prog zeroDigest) overlappingReveals).any
      (fun c => decide (c.Idle ∧ c.store.balance "u1" = 9500 ∧ c.store.balance "u2" = 9300)) = true := by
    decide +kernel
  obtain ⟨c, hc, hreached⟩ := (Option.any_eq_true _ _).1 hrun
  obtain ⟨hidle, hfirst, hsecond⟩ := of_decide_eq_true hreached
  have hzero : ZeroCounters twoPlayers :=
    { bets := rfl
      wallets := by decide
      sessions := by decide }
  have hsolvent : Solvent twoPlayers :=
    { wallets := by decide
      games := (tableDb_solvent .mines).games
      caps := fun row hrow => by cases hrow
      rounds := fun bet hbet => by cases hbet
      deposits := fun t ht => by cases ht }
  have hok : ∀ m ∈ overlappingReveals, m.ok = true := by decide
  exact ⟨c, hc, hfirst, hsecond, casino_refined zeroDigest holderOfReveals twoPlayers hzero hsolvent (by decide +kernel)
    overlappingReveals c hc (by decide +kernel) hok hidle⟩

end Smink
