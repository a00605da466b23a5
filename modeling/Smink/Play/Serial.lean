import Smink.Play.Separate
import Smink.Store.Serial

/-!
# Requests of different players are serializable

Play requests and credited deposits, interleaved statement by statement. Calls of one user take turns, and calls that
overlap draw different ids; the calls of different users overlap as they like, and statements may fail. Then every
answer, and every row in the end, is as if the calls had run one after another in the order in which they started
(`players_serializable`). A ledger row is the user's that `holder` gives for its id.
-/

namespace Smink

open Store

/-! ## The calls and their rows -/

/-- The claims of a call that may take any unique value. -/
def Claims.all : Claims := ⟨fun _ => True, fun _ => True, fun _ => True, fun _ => True⟩

/-- The databases look alike to every user, whatever the user may take. -/
def LooksSame (db t : Db) : Prop := ∀ userId, AlikeTo userId .all db t

/-- The ledger rows are their holders'. -/
def Held (holder : Id → Id) (db : Db) : Prop := ∀ r ∈ db.sminkTransactions.rows, holder r.id = r.userId

instance (holder : Id → Id) (db : Db) : Decidable (Held holder db) :=
  inferInstanceAs (Decidable (∀ r ∈ db.sminkTransactions.rows, holder r.id = r.userId))

/-- The user whose rows the call is about. -/
def Call.owner (holder : Id → Id) : Call → Id
  | .play _ request => request.userId
  | .credit _ depositId _ => holder depositId

/-- The ids that a request draws for its ledger rows are the user's. -/
def Call.Lawful (holder : Id → Id) : Call → Prop
  | .play fresh request => ∀ id ∈ fresh.transactionIds, holder id = request.userId
  | .credit _ _ _ => True

instance (holder : Id → Id) : DecidablePred (Call.Lawful holder)
  | .play fresh request => inferInstanceAs (Decidable (∀ id ∈ fresh.transactionIds, holder id = request.userId))
  | .credit _ _ _ => .isTrue trivial

instance (fresh fresh' : Fresh) : Decidable (fresh.Apart fresh') :=
  decidable_of_iff (fresh.sessionId ≠ fresh'.sessionId ∧ fresh.betId ≠ fresh'.betId ∧ fresh.betHex ≠ fresh'.betHex ∧
      (∀ id ∈ fresh.transactionIds, id ∉ fresh'.transactionIds) ∧ fresh.stakeHex ≠ fresh'.stakeHex ∧
        fresh.payoutHex ≠ fresh'.payoutHex)
    ⟨fun ⟨h₁, h₂, h₃, h₄, h₅, h₆⟩ => ⟨h₁, h₂, h₃, fun id hid => h₄ id hid, h₅, h₆⟩,
      fun h => ⟨h.1, h.2, h.3, fun _ hid hid' => h.4 hid hid', h.5, h.6⟩⟩

/-- Requests that overlap draw different ids. -/
def Call.DrawsApart : Call → Call → Prop
  | .play fresh _, .play fresh' _ => fresh.Apart fresh'
  | _, _ => True

instance : DecidableRel Call.DrawsApart
  | .play fresh _, .play fresh' _ => inferInstanceAs (Decidable (fresh.Apart fresh'))
  | .play _ _, .credit _ _ _ => .isTrue trivial
  | .credit _ _ _, .play _ _ => .isTrue trivial
  | .credit _ _ _, .credit _ _ _ => .isTrue trivial

/-- The calls may overlap. -/
def Call.Apart (holder : Id → Id) (i j : Call) : Prop := i.owner holder ≠ j.owner holder ∧ i.DrawsApart j

instance (holder : Id → Id) : DecidableRel (Call.Apart holder) :=
  fun i j => inferInstanceAs (Decidable (i.owner holder ≠ j.owner holder ∧ i.DrawsApart j))

/-- The unique values that a call takes. -/
def Call.claims (holder : Id → Id) : Call → Claims
  | .play fresh request => fresh.claims request.userId
  | .credit _ depositId _ =>
    ⟨fun _ => False, fun k => k = ("user_id", holder depositId), fun _ => False, fun _ => False⟩

section Calls

variable {holder : Id → Id} {i j : Call} {db t : Db} {userId : Id} {claims : Claims}

theorem Call.Apart.symm (h : i.Apart holder j) : j.Apart holder i := by
  refine ⟨h.1.symm, ?_⟩
  cases i with
  | play fresh request =>
    cases j with
    | play fresh' request' => exact Fresh.Apart.symm h.2
    | credit now id extra => trivial
  | credit now id extra => cases j <;> trivial

/-- Calls that may overlap claim different values. -/
theorem Call.Apart.claims_disjoint (h : i.Apart holder j) : (i.claims holder).Disjoint (j.claims holder) := by
  obtain ⟨hne, hdraws⟩ := h
  have wallets : ∀ {u w : Id} (k : String × String), u ≠ w → k = ("user_id", w) → ¬ k = ("user_id", u) := by
    rintro u w _ huw rfl hk
    exact huw (Prod.mk.inj hk).2.symm
  cases i with
  | play fresh request =>
    cases j with
    | play fresh' request' => exact Fresh.Apart.disjoint hdraws hne
    | credit now id extra =>
      exact ⟨fun _ h => h.elim, fun k hk => wallets k hne hk, fun _ h => h.elim, fun _ h => h.elim⟩
  | credit now id extra =>
    cases j with
    | play fresh' request' => exact ⟨fun _ _ h => h, fun k hk => wallets k hne hk, fun _ _ h => h, fun _ _ h => h⟩
    | credit now' id' extra' => exact ⟨fun _ _ h => h, fun k hk => wallets k hne hk, fun _ _ h => h, fun _ _ h => h⟩

/-! ## Crediting keeps to the holder's rows -/

/-- A `WHERE` on the id of a ledger row. -/
theorem Held.picks (h : Held holder db) {id : Id} {p : SminkTransaction → Bool} (hp : ∀ r, p r = true → r.id = id) :
    db.sminkTransactions.Picks (holder id) p := by
  intro r hr hpr
  rw [← hp r hpr]
  exact (h r hr).symm

theorem Held.update (h : Held holder db) (p : SminkTransaction → Bool) (set : TransactionSet) :
    Held holder { db with sminkTransactions := db.sminkTransactions.update p set } := by
  intro r hr
  obtain ⟨a, ha, rfl⟩ := Table.mem_update.1 hr
  unfold Table.updateRow
  split
  · exact h a ha
  · exact h a ha

/-- A statement of a lawful call keeps the ledger rows with their holders. -/
theorem Held.exec {q : Stmt} {r : q.Resp} (hl : i.Lawful holder) (h : Held holder db)
    (hin : InsideOf (i.owner holder) (i.claims holder) q db) (hq : exec q db = .ok (r, t)) : Held holder t := by
  cases q with
  | updateTransaction p set =>
    cases hq
    exact h.update p set
  | insertTransactions rs =>
    obtain ⟨v, hv, he⟩ := orThrow_ok hq
    cases he
    intro a ha
    rw [Table.rows_insertAll hv] at ha
    rcases List.mem_append.1 ha with ha | ha
    · exact h a ha
    · obtain ⟨huser, hkeys⟩ := hin a ha
      cases i with
      | credit now id extra => exact (hkeys ("id", a.id) (by simp [Keyed.keys])).elim
      | play fresh request =>
        obtain ⟨id, hid, heq⟩ | ⟨ref, -, heq⟩ := hkeys ("id", a.id) (by simp [Keyed.keys])
        · rw [(Prod.mk.inj heq).2, huser]
          exact hl id hid
        · exact absurd (Prod.mk.inj heq).1 (by decide)
  | insertWallet id =>
    obtain ⟨u, -, he⟩ | ⟨-, he⟩ := exec_insertWallet id db
    · rw [he] at hq
      cases hq
      exact h
    · rw [he] at hq
      cases hq
      exact h
  | insertSession a =>
    obtain ⟨v, -, he⟩ := orThrow_ok hq
    cases he
    exact h
  | insertBet b =>
    obtain ⟨v, -, he⟩ := orThrow_ok hq
    cases he
    exact h
  | _ =>
    cases hq
    exact h

theorem within_creditDeposit (h : Held holder db) (now : Time) (depositId : Id) (extraMetadata : Metadata → Metadata) :
    (playRegion (holder depositId) ((Call.credit now depositId extraMetadata).claims holder)).Within
      (creditDeposit now depositId extraMetadata) db := by
  have pinned : ∀ {p : SminkTransaction → Bool}, (∀ r, p r = true → r.id = depositId) →
      db.sminkTransactions.Picks (holder depositId) p := fun hp => h.picks hp
  unfold creditDeposit
  rw [ask_bind]
  refine ⟨pinned fun r hr => ?_, fun found t ht => ?_⟩
  · simp only [Bool.and_eq_true, beq_iff_eq] at hr
    exact hr.1.1
  cases ht
  dsimp only
  split
  · rename_i current _
    rw [ask_bind]
    refine ⟨pinned fun r hr => ?_, fun claimedRows t ht => ?_⟩
    · simp only [Bool.and_eq_true, beq_iff_eq] at hr
      exact hr.1
    cases ht
    dsimp only
    split
    · rename_i claimed hclaimed
      -- the claimed row is the holder's
      have huser : claimed.userId = holder depositId := by
        rw [Table.updated_eq_map] at hclaimed
        obtain ⟨r, hr, rfl⟩ := List.mem_map.1 (List.mem_of_mem_head? hclaimed)
        obtain ⟨hmem, hp⟩ := Table.mem_select.1 hr
        simp only [Bool.and_eq_true, beq_iff_eq] at hp
        rw [← hp.1]
        exact (h r hmem).symm
      rw [huser]
      have hcredit : (playRegion (holder depositId) ((Call.credit now depositId extraMetadata).claims holder)).Within
          (creditWallet (holder depositId) claimed.amount) { db with
            sminkTransactions := db.sminkTransactions.update (fun t => t.id == depositId && creditable t.status)
              (claimSet now (extraMetadata current.metadata)) } :=
        ⟨⟨rfl, rfl⟩, fun _ _ _ => ⟨picks_wallet, fun _ _ _ => trivial⟩⟩
      refine Region.within_bind hcredit fun wallet u hu => ?_
      have hheld := hcredit.keeps (J := Held holder) (fun q _ _ _ hold hin hq =>
        hold.exec (i := .credit now depositId extraMetadata) trivial hin hq) (h.update _ _)
      rw [hu] at hheld
      cases wallet with
      | none => exact ⟨hheld.picks fun r hr => beq_iff_eq.1 hr, fun _ _ _ => trivial⟩
      | some wallet => exact ⟨hheld.picks fun r hr => beq_iff_eq.1 hr, fun _ _ _ => trivial⟩
    · trivial
  · trivial

theorem within_prog (hseated : BetsSeated db) (hheld : Held holder db) (D : Digest) (i : Call) :
    (playRegion (i.owner holder) (i.claims holder)).Within (i.prog D) db := by
  cases i with
  | play fresh request => exact Region.within_bind (within_serve hseated D fresh request) fun _ _ _ => trivial
  | credit now id extra => exact Region.within_bind (within_creditDeposit hheld now id extra) fun _ _ _ => trivial

/-! ## Databases that look the same -/

theorem AlikeTo.symm (h : AlikeTo userId claims db t) : AlikeTo userId claims t db :=
  ⟨h.users.symm, h.games.symm, h.excluded.symm, h.sessions.symm, h.wallets.symm, h.transactions.symm, h.bets.symm,
    h.controls.symm⟩

theorem AlikeTo.trans {u : Db} (h : AlikeTo userId claims db t) (h' : AlikeTo userId claims t u) :
    AlikeTo userId claims db u :=
  ⟨h'.users.trans h.users, h'.games.trans h.games, h'.excluded.trans h.excluded, h.sessions.trans h'.sessions,
    h.wallets.trans h'.wallets, h.transactions.trans h'.transactions, h.bets.trans h'.bets,
    h.controls.trans h'.controls⟩

theorem LooksSame.alikeTo (h : LooksSame db t) : AlikeTo userId claims db t :=
  have hall := h userId
  { hall with
    sessions := hall.sessions.mono fun _ _ => trivial
    wallets := hall.wallets.mono fun _ _ => trivial
    transactions := hall.transactions.mono fun _ _ => trivial
    bets := hall.bets.mono fun _ _ => trivial }

/-- A statement finds rows of the same user on both. -/
theorem LooksSame.inside {q : Stmt} (h : LooksSame db t) (hq : InsideOf userId claims q db) :
    InsideOf userId claims q t := by
  cases q with
  | selectSession p | selectSessionGame p | updateSession p set =>
    exact Table.Picks.of_owned hq fun w => (h w).sessions.owned_eq
  | selectWallet p | updateWallet p set => exact Table.Picks.of_owned hq fun w => (h w).wallets.owned_eq
  | selectTransaction p | selectTransactionUser p | updateTransaction p set =>
    exact Table.Picks.of_owned hq fun w => (h w).transactions.owned_eq
  | selectBet p | updateBet p set => exact Table.Picks.of_owned hq fun w => (h w).bets.owned_eq
  | selectControl p | updateControl p set => exact Table.Picks.of_owned hq fun w => (h w).controls.owned_eq
  | selectGame p | selectExcluded p => trivial
  | insertSession r | insertWallet r | insertTransactions r | insertBet r => exact hq

/-- One user has gone on from both. -/
theorem LooksSame.after {a b : Db} (h : LooksSame db t) (ha : TouchedBy userId claims db a)
    (hb : TouchedBy userId claims t b) (hlike : AlikeTo userId claims a b) : LooksSame a b := fun w =>
  { users := hlike.users
    games := hlike.games
    excluded := hlike.excluded
    sessions := Table.Alike.after (fun x => (h x).sessions) ha.sessions hb.sessions hlike.sessions w
    wallets := Table.Alike.after (fun x => (h x).wallets) ha.wallets hb.wallets hlike.wallets w
    transactions := Table.Alike.after (fun x => (h x).transactions) ha.transactions hb.transactions hlike.transactions w
    bets := Table.Alike.after (fun x => (h x).bets) ha.bets hb.bets hlike.bets w
    controls := Table.Alike.after (fun x => (h x).controls) ha.controls hb.controls hlike.controls w }

theorem looksSame_of_turns {u w : Id} {claims claims' : Claims} {a b ab ba : Db} (hne : u ≠ w)
    (ha : TouchedBy u claims db a) (hab : TouchedBy w claims' a ab) (hb : TouchedBy w claims' db b)
    (hba : TouchedBy u claims b ba) (hu : AlikeTo u claims a ba) (hw : AlikeTo w claims' b ab) : LooksSame ab ba :=
  fun x =>
  { users := by rw [hu.users, hab.users]
    games := by rw [hu.games, hab.games]
    excluded := by rw [hu.excluded, hab.excluded]
    sessions := .of_turns hne ha.sessions hab.sessions hb.sessions hba.sessions hu.sessions hw.sessions x
    wallets := .of_turns hne ha.wallets hab.wallets hb.wallets hba.wallets hu.wallets hw.wallets x
    transactions := .of_turns hne ha.transactions hab.transactions hb.transactions hba.transactions hu.transactions
      hw.transactions x
    bets := .of_turns hne ha.bets hab.bets hb.bets hba.bets hu.bets hw.bets x
    controls := .of_turns hne ha.controls hab.controls hb.controls hba.controls hu.controls hw.controls x }

theorem LooksSame.sameRows (h : LooksSame db t) : SameRows db t where
  users := (h "").users
  games := (h "").games
  excluded := (h "").excluded
  sessions := Table.perm_of_owned fun u => (h u).sessions.owned_eq
  wallets := Table.perm_of_owned fun u => (h u).wallets.owned_eq
  transactions := Table.perm_of_owned fun u => (h u).transactions.owned_eq
  bets := Table.perm_of_owned fun u => (h u).bets.owned_eq
  controls := Table.perm_of_owned fun u => (h u).controls.owned_eq

theorem LooksSame.rowsUntouched (h : LooksSame db t) (userId : Id) : RowsUntouched userId db t :=
  ⟨(h userId).sessions.owned_eq, (h userId).wallets.owned_eq, (h userId).transactions.owned_eq,
    (h userId).bets.owned_eq, (h userId).controls.owned_eq⟩

/-! ## The calls of the services are parties -/

theorem seated_upTo (h : BetsSeated db) (D : Digest) (i : Call) (fault : Option Fault) (n : ℕ) :
    BetsSeated (((i.prog D).upTo fault n).run exec db).2 := by
  have hsafe := (seats_prog D i ⟨db, []⟩).upTo fault n
  obtain ⟨v, _, hv, hinv⟩ := hsafe.run (fun _ _ _ => trivial) h
  rw [← hv]
  exact hinv

/-- The calls, each with the rows of its owner and the unique values that it draws. -/
def services (D : Digest) (holder : Id → Id) : Parties exec (Call.prog D) where
  region i := playRegion (i.owner holder) (i.claims holder)
  same := LooksSame
  inv db := BetsSeated db ∧ Held holder db
  lawful := Call.Lawful holder
  apart := Call.Apart holder
  same_refl db _ := .refl db
  same_symm h userId := (h userId).symm
  same_trans h h' userId := (h userId).trans (h' userId)
  alike h := h.alikeTo
  inside h := h.inside
  same_after h := h.after
  apart_symm h := h.symm
  out_of_sight h htouch := htouch.alikeTo h.1.symm h.claims_disjoint
  same_of_turns h := looksSame_of_turns h.1
  within _ h := within_prog h.1 h.2 D _
  inv_upTo hl h fault n := ⟨seated_upTo h.1 D _ fault n,
    ((within_prog h.1 h.2 D _).upTo fault n).keeps (fun _ _ _ _ hheld hin hq => hheld.exec hl hin hq) h.2⟩

end Calls

/-- **Calls of different users are serializable.** Calls of one user take turns, and calls that overlap draw different
ids. Once no call is in flight, each has answered as if the calls had run one after another, in the order in which they
started; each user's rows are the same too, in the same order. A call fails in the serial order if and only if it has
failed in the interleaving, after as many statements. -/
theorem players_serializable (D : Digest) (holder : Id → Id) (db : Db) (hseated : BetsSeated db)
    (hheld : Held holder db) (moves : List (Move Call Fault)) (c : Pool Call Stmt.Resp Fault Answer Db)
    (hc : (Pool.init db).replay exec (Call.prog D) moves = some c)
    (hapart : AllStartApart (Call.Lawful holder) (Call.Apart holder) exec (Call.prog D) (Pool.init db) moves)
    (hidle : c.Idle) :
    (turnsOf moves).map Turn.call = c.threads.map Prod.fst ∧
      (∀ k turn n e, (turnsOf moves)[k]? = some turn →
        (turn.failure = some (n, e) ↔ Move.fail k e ∈ moves ∧ moves.countP (Move.isStmt k) = n)) ∧
        ∃ answers t, runTurns exec (Call.prog D) (turnsOf moves) db = some (answers, t) ∧
          answers.map some = c.threads.map (fun a => a.2.result) ∧ SameRows c.store t ∧
            ∀ userId, RowsUntouched userId c.store t := by
  obtain ⟨hcalls, answers, t, hrun, hanswers, hsame⟩ :=
    turns_of_idle (P := services D holder) ⟨hseated, hheld⟩ hc hapart hidle
  have hfailure : ∀ k turn n e, (turnsOf moves)[k]? = some turn →
      (turn.failure = some (n, e) ↔ Move.fail k e ∈ moves ∧ moves.countP (Move.isStmt k) = n) :=
    fun k turn n e hk => turnsOf_failure hc hk
  exact ⟨hcalls, hfailure, answers, t, hrun, hanswers, LooksSame.sameRows hsame, LooksSame.rowsUntouched hsame⟩

/-- The ledger rows of the two players. -/
def holderOfTwo (id : Id) : Id := if id ∈ (freshAt 2).transactionIds then "u2" else "u1"

/-- Two players open a round each, statement by statement in turn. -/
def overlappingStarts : List (Move Call Fault) :=
  .start (.play (freshAt 1) (.startMines "u1" "s1" (some 5) (some 3))) :: .stmt 0 ::
    .start (.play (freshAt 2) (.startMines "u2" "s2" (some 7) (some 4))) ::
      (List.replicate 8 [.stmt 1, .stmt 0]).flatten ++ [.stmt 1]

/-- They do; the last statement of the second call fails. -/
def interruptedStarts : List (Move Call Fault) := overlappingStarts.dropLast ++ [.fail 1 .threw]

theorem players_serializable_interruptedStarts : ∃ c : Pool Call Stmt.Resp Fault Answer Db,
    (Pool.init twoPlayers).replay exec (Call.prog zeroDigest) interruptedStarts = some c ∧
      c.store.bets.rows.map Bet.reference = ["MIN-1", "MIN-2"] ∧
        (turnsOf interruptedStarts).map Turn.failure = [none, some (8, .threw)] ∧
          (∀ k turn n e, (turnsOf interruptedStarts)[k]? = some turn → (turn.failure = some (n, e) ↔
            Move.fail k e ∈ interruptedStarts ∧ interruptedStarts.countP (Move.isStmt k) = n)) ∧
            ∃ answers t, runTurns exec (Call.prog zeroDigest) (turnsOf interruptedStarts) twoPlayers =
              some (answers, t) ∧ answers.map some = c.threads.map (fun a => a.2.result) ∧ SameRows c.store t := by
  have hrun : ((Pool.init twoPlayers).replay exec (Call.prog zeroDigest) interruptedStarts).any
      (fun c => decide (c.Idle ∧ c.store.bets.rows.map Bet.reference = ["MIN-1", "MIN-2"])) = true := by
    decide +kernel
  obtain ⟨c, hc, hreached⟩ := (Option.any_eq_true _ _).1 hrun
  obtain ⟨hidle, hbets⟩ := of_decide_eq_true hreached
  have hseated : BetsSeated twoPlayers := fun b hb => by cases hb
  obtain ⟨-, hfailure, answers, t, hturns, hanswers, hsame, -⟩ := players_serializable zeroDigest holderOfTwo
    twoPlayers hseated (by decide +kernel) interruptedStarts c hc (by decide +kernel) hidle
  exact ⟨c, hc, hbets, by decide, hfailure, answers, t, hturns, hanswers, hsame⟩

end Smink
