import Smink.Play.Grid

/-!
# The count of a session

`bumpSession` adds one to `betCount` each time it runs: for an instant bet, for a round that is opened, and again when
that round is cashed out. What a session counts is therefore its bets and, once more, those that are cashed out
(`counts_twice`), and `betCount` is the number of bets until a request cashes a round out (`bet_count_iff`).
-/

namespace Smink

open Store

variable {db t : Db} {D : Digest} {fresh : Fresh} {userId sessionId : Id} {α β : Type}

/-! ## Counted and to be counted -/

/-- What a session contributes to the count of `sessionId`. -/
def sessionCount (sessionId : Id) (s : GameSession) : ℤ := if s.id = sessionId then s.betCount else 0

/-- How often a bet has been counted in `sessionId`. -/
def timesCounted (sessionId : Id) (b : Bet) : ℤ :=
  if b.sessionId = some sessionId then if b.status = .cashedOut then 2 else 1 else 0

/-- What a session counts, less how often its bets have been counted. -/
def Db.excess (db : Db) (sessionId : Id) : ℤ :=
  db.gameSessions.total (sessionCount sessionId) - db.bets.total (timesCounted sessionId)

theorem excess_of_eq (hs : t.gameSessions = db.gameSessions) (hb : t.bets = db.bets) : t.excess = db.excess := by
  funext id
  unfold Db.excess
  rw [hs, hb]

theorem excess_bump (hs : HasSession db sessionId) (staked won : Money) :
    Db.excess { db with
      gameSessions := db.gameSessions.update (fun s => s.id == sessionId)
        { betCount := 1, totalStaked := staked, totalWon := won } } = db.excess + Pi.single sessionId 1 := by
  obtain ⟨s, hs, hid⟩ := hs
  funext id
  unfold Db.excess
  rw [Table.total_update_one _ (select_session hs hid), Pi.add_apply, Pi.single_apply]
  unfold sessionCount
  simp only [Settable.apply, hid, eq_comm (a := id)]
  split <;> ring

theorem excess_insertBet {b : Bet} {bets : Table Bet} (hins : db.bets.insert b = some bets)
    (hses : b.sessionId = some sessionId) (hst : b.status ≠ .cashedOut) :
    Db.excess { db with bets } = db.excess - Pi.single sessionId 1 := by
  funext id
  unfold Db.excess
  rw [Table.total_insert _ hins, Pi.sub_apply, Pi.single_apply]
  simp only [timesCounted, hses, hst, Option.some.injEq, eq_comm (a := id), if_false]
  split <;> ring

theorem excess_setBet {bet : Bet} (hb : bet ∈ db.bets.rows) (set : BetSet) :
    (db.setBet bet set).excess =
      db.excess - fun id => timesCounted id (Settable.apply set bet) - timesCounted id bet := by
  funext id
  unfold Db.excess Db.setBet
  rw [Table.total_update_one _ (select_bet hb), Pi.sub_apply]
  ring

/-- A bet that is not cashed out before or after is counted as often. -/
theorem excess_setBet_same {bet : Bet} (hb : bet ∈ db.bets.rows) (hopen : bet.status = .open) {set : BetSet}
    (hset : set.status ≠ some .cashedOut) : (db.setBet bet set).excess = db.excess := by
  have hst : (Settable.apply set bet : Bet).status ≠ .cashedOut := by
    intro hst
    cases hs : set.status with
    | none => simp [Settable.apply, hs, hopen] at hst
    | some status => exact hset (by simpa [Settable.apply, hs] using hst)
  rw [excess_setBet hb, sub_eq_self]
  funext id
  have hses : (Settable.apply set bet : Bet).sessionId = bet.sessionId := rfl
  unfold timesCounted
  rw [if_neg hst, hopen, hses]
  simp

theorem excess_cashOut {bet : Bet} (hb : bet ∈ db.bets.rows) (hopen : bet.status = .open)
    (hses : bet.sessionId = some sessionId) (now : Time) (payout : Money) :
    (db.setBet bet (cashedOutSet now payout)).excess = db.excess - Pi.single sessionId 1 := by
  rw [excess_setBet hb]
  congr 1
  funext id
  simp only [timesCounted, Settable.apply, cashedOutSet, hopen, hses, Option.getD_some, Option.some.injEq,
    Pi.single_apply, eq_comm (a := id)]
  split <;> simp

/-! ## The statements of a call -/

/-- The statement writes neither bets nor sessions. -/
def Stmt.sparesCounts : Stmt → Bool
  | .insertBet _ | .updateBet _ _ | .insertSession _ | .updateSession _ _ => false
  | _ => true

theorem exec_sparesCounts {q : Stmt} (hq : q.sparesCounts = true) {r : q.Resp} (h : exec q db = .ok (r, t)) :
    t.gameSessions = db.gameSessions ∧ t.bets = db.bets := by
  cases q with
  | insertWallet userId =>
    have hframe := exec_insertWallet_frame h
    rw [hframe]
    exact ⟨rfl, rfl⟩
  | insertTransactions rs => obtain ⟨u, -, he⟩ := orThrow_ok h; cases he; exact ⟨rfl, rfl⟩
  | insertSession s => cases hq
  | updateSession p set => cases hq
  | insertBet b => cases hq
  | updateBet p set => cases hq
  | _ => cases h; exact ⟨rfl, rfl⟩

theorem ends_sparesCounts {p : Sql α} (hp : Reads Stmt.sparesCounts p) (db : Db) :
    Prog.Ends exec p db fun _ t => t.gameSessions = db.gameSessions ∧ t.bets = db.bets := by
  refine hp.ends_keeps (J := fun t : Db => t.gameSessions = db.gameSessions ∧ t.bets = db.bets)
    (fun q hq u r v hu hr => ?_) ⟨rfl, rfl⟩
  obtain ⟨hs, hb⟩ := exec_sparesCounts hq hr
  exact ⟨hs.trans hu.1, hb.trans hu.2⟩

/-- The call leaves no session with another excess, unless a statement of it throws. -/
def KeepsCount (p : Sql α) (db : Db) : Prop := Prog.Post exec p db fun _ t => t.excess = db.excess

theorem keepsCount_spares {p : Sql α} (hp : Reads Stmt.sparesCounts p) : KeepsCount p db :=
  Prog.post_of_ends ((ends_sparesCounts hp db).mono fun _ _ ht => excess_of_eq ht.1 ht.2)

/-- A part that writes neither bets nor sessions, and the rest. -/
theorem keepsCount_bind {p : Sql α} {f : α → Sql β} (hp : Reads Stmt.sparesCounts p)
    (hf : ∀ a t, p.run exec db = (.ok a, t) → t.gameSessions = db.gameSessions → t.bets = db.bets →
      KeepsCount (f a) t) : KeepsCount (p >>= f) db := by
  have hends : Prog.Ends exec p db fun r t =>
      p.run exec db = (r, t) ∧ t.gameSessions = db.gameSessions ∧ t.bets = db.bets :=
    ⟨rfl, ends_sparesCounts hp db⟩
  refine Prog.post_bind ((Prog.post_of_ends hends).mono fun r t ht => ?_)
  obtain ⟨hrun, hs, hb⟩ := ht
  have he := excess_of_eq hs hb
  cases r with
  | ok a => exact Prog.Post.mono (hf a t hrun hs hb) fun _ _ hu => hu.trans he
  | error e => exact he

theorem sparesCounts_of_onWallets (q : Stmt) (hq : q.onWallets = true) : q.sparesCounts = true := by
  cases q <;> first | rfl | cases hq

theorem sparesCounts_of_onControls (q : Stmt) (hq : q.onControls = true) : q.sparesCounts = true := by
  cases q <;> first | rfl | cases hq

theorem keepsCount_read {p : Sql α} {f : α → Sql β} (hp : Reads Stmt.isRead p)
    (hf : ∀ a, p.run exec db = (.ok a, db) → KeepsCount (f a) db) : KeepsCount (p >>= f) db :=
  hp.post_bind readOnly hf fun _ _ => rfl

/-- A check without a statement. -/
theorem keepsCount_done {p : Sql α} {f : α → Sql β} (hp : p.done = true) (hf : ∀ a, KeepsCount (f a) db) :
    KeepsCount (p >>= f) db :=
  keepsCount_read (reads_of_done hp) fun a _ => hf a

theorem keepsCount_answer {p : Sql α} {f : α → β} (h : KeepsCount p db) : KeepsCount (p >>= fun a => pure (f a)) db :=
  Prog.post_bind_inv h fun _ _ ht => ht

/-! ## Settling a round -/

section Settle

variable {betReference : String} {bet : Bet}

theorem keepsCount_settleLost (hb : OpenRound db userId sessionId betReference bet) (now : Time) (outcome : GameOutcome)
    {f : Unit → Sql α} (hf : (f ()).done = true) : KeepsCount (settleLost now userId bet outcome >>= f) db := by
  refine Prog.post_of_ends ((ends_settleLost now outcome f hf).mono fun _ t ht => ?_)
  rw [ht]
  exact excess_setBet_same hb.mem hb.status (by simp [lostSet])

/-- The bet is counted once more, and so is its session. -/
theorem keepsCount_payOut (hb : OpenRound db userId sessionId betReference bet) (hs : HasSession db sessionId)
    (slug : GameSlug) {f : Option Money → Sql α} (hf : ∀ a, (f a).done = true) :
    KeepsCount (payOut fresh slug userId sessionId betReference bet >>= f) db := by
  intro wallets t ht
  cases ht
  intro _ t ht
  cases ht
  intro _ t ht
  obtain ⟨ledger, -, he⟩ := orThrow_ok ht
  cases he
  intro _ t ht
  cases ht
  refine Prog.post_of_done (hf _) fun _ => ?_
  have hseat : HasSession (db.setBet bet (cashedOutSet fresh.now (cashOutPayout bet))) sessionId := hs
  have hbump := excess_bump hseat 0 (cashOutPayout bet)
  rw [excess_cashOut hb.mem hb.status hb.session, sub_add_cancel] at hbump
  exact hbump

theorem keepsCount_cashOutMines (betReference : String) :
    KeepsCount (cashOutMines fresh userId sessionId betReference) db := by
  unfold cashOutMines
  refine keepsCount_read (oneRead_requireOpenSession ..).reads fun ⟨session, game⟩ hrun => ?_
  have hs := run_requireOpenSession hrun
  refine keepsCount_read (oneRead_findRound ..).reads fun bet hbet => ?_
  split
  · exact rfl
  · exact keepsCount_payOut (run_findRound hbet) ⟨session, hs.session_mem, hs.session_id⟩ _ fun _ => rfl

theorem keepsCount_cashOutTowers (betReference : String) :
    KeepsCount (cashOutTowers fresh userId sessionId betReference) db := by
  unfold cashOutTowers
  refine keepsCount_read (oneRead_requireOpenSession ..).reads fun ⟨session, game⟩ hrun => ?_
  have hs := run_requireOpenSession hrun
  refine keepsCount_read (oneRead_findRound ..).reads fun bet hbet => ?_
  split
  · exact rfl
  · refine keepsCount_payOut (run_findRound hbet) ⟨session, hs.session_mem, hs.session_id⟩ _ fun _ => ?_
    cases bet.difficulty <;> rfl

/-- A safe reveal leaves the bet open. -/
theorem keepsCount_recordReveal (hb : OpenRound db userId sessionId betReference bet) (multiplier : ℚ)
    (outcome : GameOutcome) {f : Unit → Sql α} (hf : ∀ t, KeepsCount (f ()) t) :
    KeepsCount (recordReveal bet multiplier outcome >>= f) db := by
  intro _ t ht
  cases ht
  refine Prog.Post.mono (hf _) fun _ _ hu => hu.trans ?_
  exact excess_setBet_same hb.mem hb.status (by simp [revealSet])

theorem keepsCount_revealMines (betReference : String) (tile : Num) :
    KeepsCount (revealMines fresh userId sessionId betReference tile) db := by
  unfold revealMines
  split
  · split
    · exact rfl
    refine keepsCount_read (oneRead_requireOpenSession ..).reads fun ⟨session, game⟩ _ => ?_
    refine keepsCount_read (oneRead_findRound ..).reads fun bet hbet => ?_
    have hb := run_findRound hbet
    dsimp only
    split
    · exact rfl
    split
    · exact keepsCount_settleLost hb _ _ rfl
    · refine keepsCount_recordReveal hb _ _ fun t => ?_
      split
      · exact keepsCount_cashOutMines betReference
      · exact rfl
  · exact rfl

theorem keepsCount_revealTowers (betReference : String) (tile : Num) :
    KeepsCount (revealTowers fresh userId sessionId betReference tile) db := by
  unfold revealTowers
  refine keepsCount_read (oneRead_requireOpenSession ..).reads fun ⟨session, game⟩ _ => ?_
  refine keepsCount_read (oneRead_findRound ..).reads fun bet hbet => ?_
  have hb := run_findRound hbet
  split
  · refine keepsCount_done (done_orThrew _) fun difficulty => ?_
    dsimp only
    split
    · exact rfl
    split
    · exact rfl
    split
    · exact keepsCount_settleLost hb _ _ rfl
    · refine keepsCount_recordReveal hb _ _ fun t => ?_
      split
      · exact keepsCount_cashOutTowers betReference
      · exact rfl
  · exact rfl

end Settle

/-! ## Placing a bet -/

/-- The statements after the debit: the bet is new, and its session counts it. -/
theorem keepsCount_record {b : Bet} {rs : List SminkTransaction} {staked won : Money} {f : Unit → Sql α}
    (hs : HasSession db sessionId) (hses : b.sessionId = some sessionId) (hst : b.status ≠ .cashedOut)
    (hf : Reads Stmt.sparesCounts (f ())) :
    KeepsCount (perform (.insertBet b) >>= fun _ => perform (.insertTransactions rs) >>= fun _ =>
      bumpSession sessionId staked won >>= f) db := by
  intro _ t ht
  obtain ⟨bets, hins, he⟩ := orThrow_ok ht
  cases he
  intro _ t ht
  obtain ⟨ledger, -, he⟩ := orThrow_ok ht
  cases he
  intro _ t ht
  cases ht
  refine Prog.Post.mono (keepsCount_spares hf) fun _ u hu => hu.trans ?_
  have hseat : HasSession { db with bets } sessionId := hs
  have hbump := excess_bump hseat staked won
  rw [excess_insertBet hins hses hst, sub_add_cancel] at hbump
  exact hbump

theorem keepsCount_openRound {Sel : Type} (G : GridGame Sel) (stakeInput : Num) (selectionInput : RawSelection) :
    KeepsCount (openRound G D fresh userId sessionId stakeInput selectionInput) db := by
  unfold openRound
  refine keepsCount_read (oneRead_requireOpenSession ..).reads fun ⟨session, game⟩ hrun => ?_
  have hs := run_requireOpenSession hrun
  refine keepsCount_done (done_orInvalid _) fun validated => ?_
  refine keepsCount_done (done_orFail _) fun stake => ?_
  refine keepsCount_read (reads_ask (f := .ret) rfl fun _ => trivial) fun opened _ => ?_
  split
  · exact rfl
  refine keepsCount_bind ((onWallets_requireWallet userId).mono sparesCounts_of_onWallets) fun wallet t _ hts _ => ?_
  refine keepsCount_read (oneRead_nextNonce _).reads fun nonce _ => ?_
  refine keepsCount_read (oneRead_getControlRule ..).reads fun row _ => ?_
  refine keepsCount_done (done_orThrew _) fun selection => ?_
  refine keepsCount_bind ?_ fun _ u _ hus _ => ?_
  · refine reads_bind (p := ask _) ⟨rfl, fun _ => trivial⟩ fun debited => ?_
    split <;> trivial
  · refine keepsCount_record ⟨session, ?_, hs.session_id⟩ rfl (by simp) trivial
    rw [hus, hts]
    exact hs.session_mem

theorem keepsCount_placeBet (slug : GameSlug) (stakeInput : Num) (selectionInput : RawSelection) :
    KeepsCount (placeBet D fresh userId sessionId slug stakeInput selectionInput) db := by
  unfold placeBet
  split
  · exact rfl
  refine keepsCount_read (oneRead_requireOpenSession ..).reads fun ⟨session, game⟩ hrun => ?_
  have hs := run_requireOpenSession hrun
  refine keepsCount_done (done_orInvalid _) fun validated => ?_
  refine keepsCount_done (done_orFail _) fun stake => ?_
  refine keepsCount_bind ((onWallets_requireWallet userId).mono sparesCounts_of_onWallets) fun wallet t _ hts _ => ?_
  refine keepsCount_read (oneRead_nextNonce _).reads fun nonce _ => ?_
  refine keepsCount_read (oneRead_getControlRule ..).reads fun row _ => ?_
  refine keepsCount_done (done_orThrew _) fun raw => ?_
  refine keepsCount_bind (p := ask _) ⟨rfl, fun _ => trivial⟩ fun debited u _ hus _ => ?_
  split
  · refine keepsCount_record ⟨session, ?_, hs.session_id⟩ rfl ?_ ?_
    · rw [hus, hts]
      exact hs.session_mem
    · dsimp only
      split <;> simp
    · exact reads_bind ((onControls_consumeForcedRound row).mono sparesCounts_of_onControls) fun _ => trivial
  · exact rfl

/-! ## Sessions -/

theorem excess_endSessions (p : GameSession → Bool) (now : Time) :
    Db.excess { db with gameSessions := db.gameSessions.update p { endedAt := some now } } = db.excess := by
  funext id
  unfold Db.excess
  rw [Table.total_update_of_eq]
  intro s _ _
  simp [sessionCount, Settable.apply]

theorem keepsCount_startSession (gameSlug : GameSlug) : KeepsCount (startSession fresh userId gameSlug) db := by
  unfold startSession
  refine keepsCount_read (reads_getPlayableGame ..) fun game _ => ?_
  intro _ t ht
  cases ht
  intro _ t ht
  obtain ⟨sessions, hins, he⟩ := orThrow_ok ht
  cases he
  refine (reads_toSessionDto ..).post readOnly fun _ => ?_
  refine Eq.trans ?_ (excess_endSessions (fun s => s.userId == userId && s.gameId == game.id && s.endedAt.isNone)
    fresh.now)
  -- a new session counts nothing
  funext id
  unfold Db.excess
  rw [Table.total_insert _ hins]
  simp [sessionCount]

theorem keepsCount_endSession : KeepsCount (endSession fresh userId sessionId) db := by
  unfold endSession
  rw [ask_bind]
  refine Prog.post_stmt rfl ?_
  split
  · split
    · exact rfl
    · exact Prog.post_stmt rfl (excess_endSessions _ _)
  · exact rfl

/-- **A request that no statement of throws leaves every session with its excess.** -/
theorem keepsCount_serve (D : Digest) (fresh : Fresh) (request : Request) (db : Db) :
    KeepsCount (serve D fresh request) db := by
  have reads : ∀ {γ : Type} {p : Sql γ}, Reads Stmt.isRead p → KeepsCount p db :=
    fun hp => hp.post readOnly fun _ => rfl
  cases request with
  | startSession userId gameSlug => exact keepsCount_answer (keepsCount_startSession gameSlug)
  | endSession userId sessionId => exact keepsCount_answer keepsCount_endSession
  | getSession userId sessionId => exact keepsCount_answer (reads (reads_getSession ..))
  | placeBet userId sessionId slug stakeInput selectionInput =>
    exact keepsCount_answer (keepsCount_placeBet slug stakeInput selectionInput)
  | startMines userId sessionId stakeInput mineCountInput =>
    exact keepsCount_answer (keepsCount_answer (keepsCount_openRound minesGame stakeInput _))
  | revealMines userId sessionId betReference tile =>
    exact keepsCount_answer (keepsCount_revealMines betReference tile)
  | cashOutMines userId sessionId betReference => exact keepsCount_answer (keepsCount_cashOutMines betReference)
  | getOpenMines userId sessionId => exact keepsCount_answer (reads (reads_getOpenMines ..))
  | startTowers userId sessionId stakeInput difficultyInput =>
    exact keepsCount_answer (keepsCount_answer (keepsCount_openRound towersGame stakeInput _))
  | revealTowers userId sessionId betReference tile =>
    exact keepsCount_answer (keepsCount_revealTowers betReference tile)
  | cashOutTowers userId sessionId betReference => exact keepsCount_answer (keepsCount_cashOutTowers betReference)
  | getOpenTowers userId sessionId => exact keepsCount_answer (reads (reads_getOpenTowers ..))

/-! ## What a session counts -/

/-- `betCount` is the number of bets of the session. -/
def CountsBets (db : Db) : Prop :=
  ∀ s ∈ db.gameSessions.rows, s.betCount = (db.bets.select fun b => b.sessionId == some s.id).length

def NoneCashedOut (db : Db) : Prop := ∀ b ∈ db.bets.rows, b.status ≠ .cashedOut

theorem NoneCashedOut.select_eq_nil (h : NoneCashedOut db) (id : Id) :
    (db.bets.select fun b => b.sessionId == some id && b.status == .cashedOut) = [] :=
  List.filter_eq_nil_iff.2 fun b hb => by simp [h b hb]

theorem sum_timesCounted (id : Id) : ∀ l : List Bet, (l.map (timesCounted id)).sum =
    (l.filter fun b => b.sessionId == some id).length +
      (l.filter fun b => b.sessionId == some id && b.status == .cashedOut).length
  | [] => rfl
  | b :: l => by
    rw [List.map_cons, List.sum_cons, sum_timesCounted id l]
    unfold timesCounted
    by_cases hses : b.sessionId = some id
    · by_cases hst : b.status = .cashedOut
      · simp only [hses, hst, if_true, List.filter_cons, beq_self_eq_true, Bool.and_self, List.length_cons]
        push_cast
        ring
      · simp only [hses, hst, if_true, if_false, List.filter_cons, beq_self_eq_true, Bool.true_and, beq_iff_eq,
          List.length_cons]
        push_cast
        ring
    · simp [hses]

/-- A session's excess: what it counts, less its bets, less those of them that are cashed out. -/
theorem excess_session {s : GameSession} (hs : s ∈ db.gameSessions.rows) : db.excess s.id =
    s.betCount - ((db.bets.select fun b => b.sessionId == some s.id).length +
      (db.bets.select fun b => b.sessionId == some s.id && b.status == .cashedOut).length) := by
  have hsessions : db.gameSessions.total (sessionCount s.id) = s.betCount :=
    (Table.total_eq_of_key (k := ("id", s.id)) (fun a ha => if_neg fun he => ha (by simp [Keyed.keys, he])) hs
      (by simp [Keyed.keys])).trans (if_pos rfl)
  have hbets : db.bets.total (timesCounted s.id) = _ := sum_timesCounted s.id db.bets.rows
  unfold Db.excess
  rw [hsessions, hbets]
  rfl

/-- With nothing in excess, a session counts its bets, and once more those that are cashed out. -/
theorem betCount_eq (hzero : db.excess = 0) {s : GameSession} (hs : s ∈ db.gameSessions.rows) : s.betCount =
    (db.bets.select fun b => b.sessionId == some s.id).length +
      (db.bets.select fun b => b.sessionId == some s.id && b.status == .cashedOut).length := by
  have hexcess := excess_session hs
  rw [hzero, Pi.zero_apply] at hexcess
  linarith

/-- With nothing in excess, the sessions count their bets exactly when none is cashed out. -/
theorem countsBets_iff (hseated : ∀ b ∈ db.bets.rows, AtSeat db b) (hzero : db.excess = 0) :
    CountsBets db ↔ NoneCashedOut db := by
  constructor
  · intro hcounts b hb hst
    obtain ⟨s, hs, hses, -, -⟩ := hseated b hb
    have hnone : (db.bets.select fun b => b.sessionId == some s.id && b.status == .cashedOut).length = 0 := by
      have hcount := betCount_eq hzero hs
      rw [hcounts s hs] at hcount
      omega
    have hmem : b ∈ db.bets.select fun b => b.sessionId == some s.id && b.status == .cashedOut :=
      Table.mem_select.2 ⟨hb, by simp [hses, hst]⟩
    rw [List.length_eq_zero_iff.1 hnone] at hmem
    cases hmem
  · intro hnone s hs
    rw [betCount_eq hzero hs, hnone.select_eq_nil]
    simp

/-! ## Cash-outs -/

/-- The request cashes a round out: a cash-out that its checks let through, or the safe reveal that leaves nothing to
reveal. -/
inductive CashesOut (db : Db) : Request → Prop
  | mines {userId sessionId : Id} {betReference : String} {session : GameSession} {game : Game} {bet : Bet}
    (hat : AtTable db userId sessionId .mines session game) (hb : OpenRound db userId sessionId betReference bet)
    (hsome : bet.revealed ≠ []) : CashesOut db (.cashOutMines userId sessionId betReference)
  | clearMines {userId sessionId : Id} {betReference : String} {session : GameSession} {game : Game} {bet : Bet}
    (hat : AtTable db userId sessionId .mines session game) (hb : OpenRound db userId sessionId betReference bet)
    {value : Num} {tile : Nat} (htile : naturalNumber value = some tile) (hlt : tile < MINES_TILE_COUNT)
    (hnew : tile ∉ bet.revealed) (hsafe : tile ∉ bet.minePositions.getD [])
    (hfull : MINES_TILE_COUNT ≤ bet.revealed.length + 1 + bet.mineCount) :
    CashesOut db (.revealMines userId sessionId betReference value)
  | towers {userId sessionId : Id} {betReference : String} {session : GameSession} {game : Game} {bet : Bet}
    (hat : AtTable db userId sessionId .towers session game) (hb : OpenRound db userId sessionId betReference bet)
    (hsome : bet.picks ≠ []) : CashesOut db (.cashOutTowers userId sessionId betReference)
  | clearTowers {userId sessionId : Id} {betReference : String} {session : GameSession} {game : Game} {bet : Bet}
    (hat : AtTable db userId sessionId .towers session game) (hb : OpenRound db userId sessionId betReference bet)
    {value : Num} {tile : Nat} (htile : naturalNumber value = some tile) {difficulty : TowersDifficulty}
    (hd : bet.difficulty = some difficulty) (hlt : tile < (towersConfig difficulty).tiles)
    (hsafe : tile ∉ (bet.traps.getD []).getD bet.picks.length [])
    (hrow : bet.picks.length + 1 = (towersConfig difficulty).rows) :
    CashesOut db (.revealTowers userId sessionId betReference value)

/-- No request of the run cashes a round out. -/
def NeverCashesOut (D : Digest) : List (Fresh × Request) → Db → Prop
  | [], _ => True
  | (fresh, request) :: rest, db =>
    ¬ CashesOut db request ∧ NeverCashesOut D rest ((serve D fresh request).run exec db).2

/-- An inserted bet is not cashed out. -/
theorem NoneCashedOut.insert (h : NoneCashedOut db) {b : Bet} (hins : db.bets.insert b = some t.bets)
    (hst : b.status ≠ .cashedOut) : NoneCashedOut t := by
  intro a ha
  rw [Table.rows_insert hins, List.mem_append, List.mem_singleton] at ha
  rcases ha with ha | rfl
  · exact h a ha
  · exact hst

theorem NoneCashedOut.turn (h : NoneCashedOut db) {bet bet' : Bet} (hturned : Turned db t bet bet')
    (hst : bet'.status ≠ .cashedOut) : NoneCashedOut t := by
  intro a ha
  rcases hturned.mem_iff.1 ha with rfl | ⟨ha, -⟩
  · exact hst
  · exact h a ha

/-- Without a cash-out no bet becomes cashed out. -/
theorem NoneCashedOut.effect (h : NoneCashedOut db) {request : Request} (he : BetEffect D db t request)
    (hnot : ¬ CashesOut db request) : NoneCashedOut t := by
  cases he with
  | same _ hb => unfold NoneCashedOut; rw [hb]; exact h
  | placed hp =>
    obtain ⟨game, forced, selection, raw, b, hplaced, hins⟩ := hp
    refine h.insert hins ?_
    rw [hplaced.status_eq]
    split <;> simp
  | openedMines ho =>
    obtain ⟨game, forced, selection, b, hopened, hins⟩ := ho
    exact h.insert hins (by simp [hopened.status_eq])
  | openedTowers ho =>
    obtain ⟨game, forced, selection, b, hopened, hins⟩ := ho
    exact h.insert hins (by simp [hopened.status_eq])
  | shownMines htile hm =>
    obtain ⟨session, game, bet, bet', hat, hb, hturned, hmove⟩ := hm
    refine h.turn hturned ?_
    cases hmove with
    | hit => simp [Settable.apply, lostSet]
    | safe => simp [Settable.apply, revealSet, hb.status]
    | clear now tile hlt hnew hsafe hfull => exact absurd (.clearMines hat hb htile hlt hnew hsafe hfull) hnot
  | cashedOutMines hm =>
    obtain ⟨session, game, bet, bet', hat, hb, hturned, hmove⟩ := hm
    cases hmove with
    | cashOut now hsome => exact absurd (.mines hat hb hsome) hnot
  | shownTowers htile ht =>
    obtain ⟨session, game, bet, bet', hat, hb, hturned, hmove⟩ := ht
    refine h.turn hturned ?_
    cases hmove with
    | hit => simp [Settable.apply, lostSet]
    | safe => simp [Settable.apply, revealSet, hb.status]
    | clear now difficulty hd tile hlt hsafe hrow => exact absurd (.clearTowers hat hb htile hd hlt hsafe hrow) hnot
  | cashedOutTowers ht =>
    obtain ⟨session, game, bet, bet', hat, hb, hturned, hmove⟩ := ht
    cases hmove with
    | cashOut now hsome => exact absurd (.towers hat hb hsome) hnot

/-- A bet that a cash-out writes is cashed out. -/
theorem exists_cashedOut {bet : Bet} (hb : bet ∈ db.bets.rows) (now : Time)
    (ht : t.bets = (db.setBet bet (cashedOutSet now (cashOutPayout bet))).bets) : ¬ NoneCashedOut t := by
  intro hnone
  refine hnone (Settable.apply (cashedOutSet now (cashOutPayout bet)) bet) ?_ rfl
  exact ((turned_setBet hb _).of_eq ht).mem_iff.2 (.inl rfl)

/-- A cash-out leaves a bet that is cashed out. -/
theorem CashesOut.ends {request : Request} (h : CashesOut db request) (D : Digest) (fresh : Fresh) :
    Prog.Ends exec (serve D fresh request) db fun _ t => ¬ NoneCashedOut t := by
  cases h with
  | mines hat hb hsome =>
    exact ends_answer ((ends_cashOutMines_of hat hb hsome).mono fun _ _ ht => exists_cashedOut hb.mem _ ht)
  | clearMines hat hb htile hlt hnew hsafe hfull =>
    refine ends_answer ((ends_revealMines_of hat hb htile hlt hnew).mono fun _ t ht hnone => ?_)
    obtain ⟨bet', hturned, -, -, hclear⟩ := ht
    exact hnone bet' (hturned.mem_iff.2 (.inl rfl)) (hclear hsafe hfull).1
  | towers hat hb hsome =>
    exact ends_answer ((ends_cashOutTowers_of hat hb hsome).mono fun _ _ ht => exists_cashedOut hb.mem _ ht)
  | clearTowers hat hb htile hd hlt hsafe hrow =>
    refine ends_answer ((ends_revealTowers_of hat hb htile hd hlt (by omega)).mono fun _ t ht hnone => ?_)
    obtain ⟨bet', hturned, -, -, hclear⟩ := ht
    exact hnone bet' (hturned.mem_iff.2 (.inl rfl)) (hclear hsafe hrow).1

/-- No bet is cashed out by a request exactly when the request is no cash-out. -/
theorem noneCashedOut_serve (h : NoneCashedOut db) (D : Digest) (fresh : Fresh) (request : Request) :
    NoneCashedOut ((serve D fresh request).run exec db).2 ↔ ¬ CashesOut db request :=
  ⟨fun hnone hcash => hcash.ends D fresh hnone, h.effect (ends_serve D fresh request db)⟩

/-! ## Runs -/

/-- **From counts that are right, a run keeps them right exactly when no request of it cashes a round out.** -/
theorem countsBets_run (D : Digest) : ∀ {requests : List (Fresh × Request)} {db : Db},
    (∀ b ∈ db.bets.rows, AtSeat db b) → db.excess = 0 → NoneCashedOut db → CompletesAll D requests db →
      ((∀ t ∈ runRequests D requests db, CountsBets t) ↔ NeverCashesOut D requests db)
  | [], _, _, _, _, _ => ⟨fun _ => trivial, fun _ _ ht => nomatch ht⟩
  | (fresh, request) :: rest, db, hseated, hzero, hnone, hc => by
    have hafter := atSeat_effect hseated (ends_serve D fresh request db) (run_sessions rfl)
    have hexcess := ((keepsCount_serve D fresh request db).run hc.1).trans hzero
    have hstep := (countsBets_iff hafter hexcess).trans (noneCashedOut_serve hnone D fresh request)
    unfold runRequests NeverCashesOut
    rw [List.forall_mem_cons, hstep]
    refine and_congr_right fun hnot => ?_
    exact countsBets_run D hafter hexcess ((noneCashedOut_serve hnone D fresh request).2 hnot) hc.2

theorem excess_of_none (hnone : db.bets.rows = []) (hzero : ∀ s ∈ db.gameSessions.rows, s.betCount = 0) :
    db.excess = 0 := by
  funext id
  unfold Db.excess Table.total
  have hs : ∀ s ∈ db.gameSessions.rows, sessionCount id s = 0 := fun s hs => by simp [sessionCount, hzero s hs]
  rw [List.map_congr_left hs, hnone]
  simp

theorem noneCashedOut_of_none (hnone : db.bets.rows = []) : NoneCashedOut db := by
  unfold NoneCashedOut
  rw [hnone]
  exact fun b hb => nomatch hb

/-- A round that is cashed out has been opened before. -/
theorem not_cashesOut_of_none (hnone : db.bets.rows = []) (request : Request) : ¬ CashesOut db request := by
  have hno : ∀ {userId sessionId : Id} {betReference : String} {bet : Bet},
      ¬ OpenRound db userId sessionId betReference bet := fun hb => by
    have hmem := hb.mem
    rw [hnone] at hmem
    cases hmem
  intro h
  cases h with
  | mines _ hb => exact hno hb
  | clearMines _ hb => exact hno hb
  | towers _ hb => exact hno hb
  | clearTowers _ hb => exact hno hb

/-- A count that is right after the first request of all has begun at zero. -/
theorem zero_of_countsBets (hnone : db.bets.rows = []) (D : Digest) (fresh : Fresh) (request : Request)
    (hc : (serve D fresh request).Completes exec db)
    (h : CountsBets ((serve D fresh request).run exec db).2) : ∀ s ∈ db.gameSessions.rows, s.betCount = 0 := by
  have hexcess := (keepsCount_serve D fresh request db).run hc
  have hclear := noneCashedOut_of_none hnone
  have hclear' := (noneCashedOut_serve hclear D fresh request).2 (not_cashesOut_of_none hnone _)
  intro s hs
  obtain ⟨s', hs', hid, -⟩ := run_sessions (p := serve D fresh request) rfl s hs
  have hbefore := excess_session hs
  have hafter := excess_session hs'
  rw [hexcess, hid, hbefore, ← hid, h s' hs', hclear'.select_eq_nil, hclear.select_eq_nil] at hafter
  have hbets : (db.bets.select fun b => b.sessionId == some s'.id) = [] := by
    unfold Table.select
    rw [hnone]
    rfl
  rw [hbets] at hafter
  simpa using hafter

/-- **Every session of a run counts its bets, and once more those that are cashed out.** -/
theorem counts_twice (D : Digest) : ∀ {requests : List (Fresh × Request)} {db : Db}, db.excess = 0 →
    CompletesAll D requests db → ∀ t ∈ runRequests D requests db, ∀ s ∈ t.gameSessions.rows, s.betCount =
      (t.bets.select fun b => b.sessionId == some s.id).length +
        (t.bets.select fun b => b.sessionId == some s.id && b.status == .cashedOut).length
  | [], _, _, _, _, ht => nomatch ht
  | (fresh, request) :: rest, db, hzero, hc, t, ht => by
    have hexcess := ((keepsCount_serve D fresh request db).run hc.1).trans hzero
    rcases List.mem_cons.1 ht with rfl | ht
    · exact fun s hs => betCount_eq hexcess hs
    · exact counts_twice D hexcess hc.2 t ht

/-- **In a run from a database without bets, `betCount` is the number of bets after every request exactly when the
sessions there begin at zero and no request cashes a round out.** -/
theorem bet_count_iff (D : Digest) (requests : List (Fresh × Request)) (db : Db) (hnone : db.bets.rows = [])
    (hc : CompletesAll D requests db) : (∀ t ∈ runRequests D requests db, CountsBets t) ↔
      requests = [] ∨ (∀ s ∈ db.gameSessions.rows, s.betCount = 0) ∧ NeverCashesOut D requests db := by
  have hseated : ∀ b ∈ db.bets.rows, AtSeat db b := by
    rw [hnone]
    exact fun b hb => nomatch hb
  have hrun := fun hzero => countsBets_run D hseated (excess_of_none hnone hzero) (noneCashedOut_of_none hnone) hc
  constructor
  · intro hall
    cases requests with
    | nil => exact .inl rfl
    | cons first rest =>
      obtain ⟨fresh, request⟩ := first
      have hzero := zero_of_countsBets hnone D fresh request hc.1 (hall _ (List.mem_cons_self ..))
      exact .inr ⟨hzero, (hrun hzero).1 hall⟩
  · rintro (rfl | ⟨hzero, hnever⟩)
    · exact fun t ht => nomatch ht
    · exact (hrun hzero).2 hnever

/-- A round that is opened and has one tile revealed. -/
theorem bet_count_iff_opened :
    (∃ t ∈ runRequests zeroDigest (minesRound.take 2) (tableDb .mines),
      t.bets.rows.map (fun b => (b.status, b.revealed)) = [(.open, [20])]) ∧
    ((∀ t ∈ runRequests zeroDigest (minesRound.take 2) (tableDb .mines), CountsBets t) ↔
      minesRound.take 2 = [] ∨ (∀ s ∈ (tableDb .mines).gameSessions.rows, s.betCount = 0) ∧
        NeverCashesOut zeroDigest (minesRound.take 2) (tableDb .mines)) :=
  ⟨by decide +kernel, bet_count_iff zeroDigest (minesRound.take 2) (tableDb .mines) rfl (by decide +kernel)⟩

/-- One round, opened and cashed out: its session counts two bets. -/
theorem bet_counted_twice :
    (tableDb .mines).bets.rows = [] ∧ (∀ s ∈ (tableDb .mines).gameSessions.rows, s.betCount = 0) ∧
      CompletesAll zeroDigest minesRound (tableDb .mines) ∧
      ∃ t ∈ runRequests zeroDigest minesRound (tableDb .mines), ∃ s ∈ t.gameSessions.rows,
        s.betCount = 2 ∧ (t.bets.select fun b => b.sessionId == some s.id).length = 1 :=
  ⟨rfl, by decide +kernel, by decide +kernel, by decide +kernel⟩

end Smink
