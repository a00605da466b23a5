import Smink.Play.Explained
import Smink.Play.Footprint
import Mathlib.Algebra.Order.PUnit

/-!
# Bets and the sessions they are in

A bet is inserted with the id of a session that a check before has found to be its player's. Other calls run in between,
but none takes a session away or gives it to somebody else (`SessionsPersist`). So in every state of every interleaving,
also where statements fail, each bet is in a session of its player (`betsSeated_replay`).
-/

namespace Smink

open Store

/-- The user has the session. -/
def OwnsSession (db : Db) (userId sessionId : Id) : Prop :=
  ∃ s ∈ db.gameSessions.rows, s.id = sessionId ∧ s.userId = userId

/-- The bet is in a session of its player. -/
def InSession (db : Db) (b : Bet) : Prop := ∃ sessionId ∈ b.sessionId, OwnsSession db b.userId sessionId

def BetsSeated (db : Db) : Prop := ∀ b ∈ db.bets.rows, InSession db b

theorem OwnsSession.persist {db t : Db} {userId sessionId : Id} (h : OwnsSession db userId sessionId)
    (ht : SessionsPersist db t) : OwnsSession t userId sessionId := by
  obtain ⟨s, hs, hid, huser⟩ := h
  obtain ⟨s', hs', hid', huser', -⟩ := ht s hs
  exact ⟨s', hs', hid'.trans hid, huser'.trans huser⟩

theorem InSession.persist {db t : Db} {b : Bet} (h : InSession db b) (ht : SessionsPersist db t) : InSession t b := by
  obtain ⟨sessionId, hses, hhas⟩ := h
  exact ⟨sessionId, hses, hhas.persist ht⟩

/-! ## One statement -/

/-- The statement inserts no bet. -/
def Stmt.addsNoBet : Stmt → Bool
  | .insertBet _ => false
  | _ => true

/-- A statement keeps the bets seated, if the bet that it inserts is. -/
theorem BetsSeated.exec {q : Stmt} {r : q.Resp} {db t : Db} (h : BetsSeated db) (hq : exec q db = .ok (r, t))
    (hins : ∀ b, q = .insertBet b → InSession db b) : BetsSeated t := by
  suffices hold : ∀ b ∈ t.bets.rows, InSession db b from fun b hb => (hold b hb).persist (exec_sessions hq)
  cases q with
  | insertBet a =>
    obtain ⟨bets, hbets, he⟩ := orThrow_ok hq
    cases he
    intro b hb
    rw [Table.rows_insert hbets] at hb
    rcases List.mem_append.1 hb with hb | hb
    · exact h b hb
    · rw [List.mem_singleton.1 hb]
      exact hins a rfl
  | updateBet p set =>
    cases hq
    intro b hb
    obtain ⟨a, ha, rfl⟩ := Table.mem_update.1 hb
    unfold Table.updateRow
    split
    · exact h a ha
    · exact h a ha
  | _ =>
    intro b hb
    rw [exec_sparesBets rfl hq] at hb
    exact h b hb

/-- Nothing is held; that the bets are seated is the invariant. -/
def seatDiscipline : Discipline Call Stmt Db Unit where
  inv w _ := BetsSeated w.store
  rely w v := SessionsPersist w.store v.store
  rely_refl _ := .of_eq rfl
  rely_trans := .trans
  ok _ _ _ := True

variable {D : Digest} {i : Call} {w : World Call Stmt Db} {fresh : Fresh} {userId sessionId : Id} {α β : Type}

/-- Every statement that the program can execute keeps the bets seated. -/
def KeepsSeats (i : Call) (p : Sql α) (w : World Call Stmt Db) : Prop := Safe seatDiscipline exec i p w 0 Released

theorem seats_respects : Respects seatDiscipline exec Stmt.addsNoBet := by
  intro v i q g r s hq h _ hr
  refine ⟨exec_sessions hr, h.exec hr fun b hb => ?_⟩
  rw [hb] at hq
  cases hq

/-- A program that inserts no bet. -/
theorem seats_quiet {p : Sql α} (hp : Reads Stmt.addsNoBet p) : KeepsSeats i p w :=
  (safe_of_respects seats_respects hp).mono fun _ _ _ h => h.2

theorem seats_bind {p : Sql α} {f : α → Sql β} (hp : KeepsSeats i p w) (hf : ∀ a v, KeepsSeats i (f a) v) :
    KeepsSeats i (p >>= f) w :=
  safe_bind_released hp hf

/-- A part of a call between the check of its session and the insert of its bet. -/
theorem seats_between {p : Sql α} {f : α → Sql β} (hses : OwnsSession w.store userId sessionId)
    (hp : Reads Stmt.addsNoBet p) (hf : ∀ a v, OwnsSession v.store userId sessionId → KeepsSeats i (f a) v) :
    KeepsSeats i (p >>= f) w := by
  refine safe_bind ((safe_of_respects seats_respects hp).mono fun a v g h => ?_)
  obtain ⟨hv, rfl⟩ := h
  exact hf a v (hses.persist hv)

theorem seats_done {p : Sql α} {f : α → Sql β} (hses : OwnsSession w.store userId sessionId) (hp : p.done = true)
    (hf : ∀ a v, OwnsSession v.store userId sessionId → KeepsSeats i (f a) v) : KeepsSeats i (p >>= f) w :=
  seats_between hses (reads_of_done hp) hf

/-- The check that finds the session. -/
theorem seats_requireOpenSession {slug : GameSlug} {f : GameSession × Game → Sql β}
    (hf : ∀ a v, OwnsSession v.store userId sessionId → KeepsSeats i (f a) v) :
    KeepsSeats i (requireOpenSession userId sessionId slug >>= f) w := by
  have hfree : ReadFree seatDiscipline Stmt.isRead := fun _ _ _ _ _ h => ⟨.of_eq rfl, h⟩
  refine safe_bind (safe_oneRead readOnly hfree (oneRead_requireOpenSession ..) fun v ⟨session, game⟩ _ _ _ hr => ?_)
  have hopen := run_requireOpenSession hr
  exact hf _ v ⟨session, hopen.session_mem, hopen.session_id, hopen.session_user⟩

/-- The bet is in the session that was found, and no other is inserted after it. -/
theorem seats_insertBet {b : Bet} {f : Unit → Sql α} (hses : OwnsSession w.store b.userId sessionId)
    (hb : b.sessionId = some sessionId) (hf : Reads Stmt.addsNoBet (f ())) :
    KeepsSeats i (perform (.insertBet b) >>= f) w := by
  intro v hv frame h _ r s hr
  refine ⟨exec_sessions hr, 0, h.exec hr fun a ha => ?_, seats_quiet hf⟩
  cases ha
  exact ⟨sessionId, hb, hses.persist hv⟩

/-! ## Calls -/

/-- A program of statements of another kind. -/
theorem addsNoBet_of {P : Stmt → Bool} (hP : ∀ b, P (.insertBet b) = false) {p : Sql α} (hp : Reads P p) :
    Reads Stmt.addsNoBet p := by
  refine hp.mono fun q hq => ?_
  cases q with
  | insertBet b =>
    rw [hP] at hq
    cases hq
  | _ => rfl

theorem seats_openRound {Sel : Type} (G : GridGame Sel) (stakeInput : Num) (selectionInput : RawSelection) :
    KeepsSeats i (openRound G D fresh userId sessionId stakeInput selectionInput) w := by
  refine seats_requireOpenSession fun ⟨_, game⟩ v hv => ?_
  refine seats_done hv (done_orInvalid _) fun validated v hv => ?_
  refine seats_done hv (done_orFail _) fun stake v hv => ?_
  refine seats_between hv (p := ask _) ⟨rfl, fun _ => trivial⟩ fun opened v hv => ?_
  split
  · exact rfl
  refine seats_between hv (addsNoBet_of (fun _ => rfl) (onWallets_requireWallet userId)) fun wallet v hv => ?_
  refine seats_between hv (addsNoBet_of (fun _ => rfl) (oneRead_nextNonce _).reads) fun nonce v hv => ?_
  refine seats_between hv (addsNoBet_of (fun _ => rfl) (oneRead_getControlRule ..).reads) fun row v hv => ?_
  refine seats_done hv (done_orThrew _) fun selection v hv => ?_
  unfold debitStake
  rw [Prog.bind_assoc]
  refine seats_between hv (p := ask _) ⟨rfl, fun _ => trivial⟩ fun debited v hv => ?_
  split
  · refine seats_insertBet hv rfl ?_
    exact ⟨rfl, fun _ => ⟨rfl, fun _ => trivial⟩⟩
  · exact rfl

theorem seats_placeBet (slug : GameSlug) (stakeInput : Num) (selectionInput : RawSelection) :
    KeepsSeats i (placeBet D fresh userId sessionId slug stakeInput selectionInput) w := by
  unfold placeBet
  split
  · exact rfl
  refine seats_requireOpenSession fun ⟨_, game⟩ v hv => ?_
  refine seats_done hv (done_orInvalid _) fun validated v hv => ?_
  refine seats_done hv (done_orFail _) fun stake v hv => ?_
  refine seats_between hv (addsNoBet_of (fun _ => rfl) (onWallets_requireWallet userId)) fun wallet v hv => ?_
  refine seats_between hv (addsNoBet_of (fun _ => rfl) (oneRead_nextNonce _).reads) fun nonce v hv => ?_
  refine seats_between hv (addsNoBet_of (fun _ => rfl) (oneRead_getControlRule ..).reads) fun row v hv => ?_
  refine seats_done hv (done_orThrew _) fun raw v hv => ?_
  refine seats_between hv (p := ask _) ⟨rfl, fun _ => trivial⟩ fun debited v hv => ?_
  split
  · refine seats_insertBet hv rfl ?_
    refine reads_bind (p := perform (.insertTransactions _)) ⟨rfl, fun _ => trivial⟩ fun _ => ?_
    refine reads_bind (p := bumpSession _ _ _) ⟨rfl, fun _ => trivial⟩ fun _ => ?_
    exact reads_bind (addsNoBet_of (fun _ => rfl) (onControls_consumeForcedRound row)) fun _ => trivial
  · exact rfl

theorem seats_serve (D : Digest) (fresh : Fresh) (request : Request) : KeepsSeats i (serve D fresh request) w := by
  have answer : ∀ {γ δ : Type} {p : Sql γ} {f : γ → δ}, KeepsSeats i p w →
      KeepsSeats i (p >>= fun a => Prog.ret (f a)) w :=
    fun hp => seats_bind hp fun _ _ => rfl
  cases request with
  | startSession => exact answer (seats_quiet (addsNoBet_of (fun _ => rfl) (onSessions_startSession _)))
  | endSession => exact seats_bind (seats_quiet (addsNoBet_of (fun _ => rfl) onSessions_endSession)) fun _ _ => rfl
  | getSession => exact answer (seats_quiet (addsNoBet_of (fun _ => rfl) (reads_getSession ..)))
  | placeBet => exact answer (seats_placeBet ..)
  | startMines => exact answer (answer (seats_openRound minesGame _ _))
  | revealMines => exact answer (seats_quiet (addsNoBet_of (fun _ => rfl) (onRound_revealMines ..)))
  | cashOutMines => exact answer (seats_quiet (addsNoBet_of (fun _ => rfl) (onRound_cashOutMines _)))
  | getOpenMines => exact answer (seats_quiet (addsNoBet_of (fun _ => rfl) (reads_getOpenMines ..)))
  | startTowers => exact answer (answer (seats_openRound towersGame _ _))
  | revealTowers => exact answer (seats_quiet (addsNoBet_of (fun _ => rfl) (onRound_revealTowers ..)))
  | cashOutTowers => exact answer (seats_quiet (addsNoBet_of (fun _ => rfl) (onRound_cashOutTowers _)))
  | getOpenTowers => exact answer (seats_quiet (addsNoBet_of (fun _ => rfl) (reads_getOpenTowers ..)))

/-- A request that nothing comes between. -/
theorem betsSeated_serve {db : Db} (h : BetsSeated db) (D : Digest) (fresh : Fresh) (request : Request) :
    BetsSeated ((serve D fresh request).run exec db).2 := by
  have hsafe : KeepsSeats (.play fresh request) (serve D fresh request) ⟨db, []⟩ := seats_serve D fresh request
  obtain ⟨v, _, hv, hinv⟩ := hsafe.run (fun _ _ _ => trivial) h
  rw [← hv]
  exact hinv

/-- The crediting of a deposit has nothing to do with bets. -/
theorem addsNoBet_creditDeposit (now : Time) (depositId : Id) (extraMetadata : Metadata → Metadata) :
    Reads Stmt.addsNoBet (creditDeposit now depositId extraMetadata) := by
  unfold creditDeposit
  refine reads_bind (p := ask _) ⟨rfl, fun _ => trivial⟩ fun found => ?_
  split
  · refine reads_bind (p := ask _) ⟨rfl, fun _ => trivial⟩ fun claimedRows => ?_
    split
    · refine reads_bind ⟨rfl, fun _ => ⟨rfl, fun _ => trivial⟩⟩ fun wallet => ?_
      split
      · exact ⟨rfl, fun _ => trivial⟩
      · exact ⟨rfl, fun _ => trivial⟩
    · trivial
  · trivial

/-- The statement leaves sessions, bets, games and the counters of the wallets alone. -/
def Stmt.onDeposit : Stmt → Bool
  | .updateTransaction _ _ | .insertWallet _ => true
  | .updateWallet _ set =>
    decide (set.lock = 0 ∧ set.release = none ∧ set.totalWagered = 0 ∧ set.totalWon = 0)
  | q => q.isRead

theorem onDeposit_creditDeposit (now : Time) (depositId : Id) (extraMetadata : Metadata → Metadata) :
    Reads Stmt.onDeposit (creditDeposit now depositId extraMetadata) := by
  unfold creditDeposit
  refine reads_bind (p := ask _) ⟨rfl, fun _ => trivial⟩ fun found => ?_
  split
  · refine reads_bind (p := ask _) ⟨rfl, fun _ => trivial⟩ fun claimedRows => ?_
    split
    · refine reads_bind ⟨rfl, fun _ => ⟨rfl, fun _ => trivial⟩⟩ fun wallet => ?_
      split
      · exact ⟨rfl, fun _ => trivial⟩
      · exact ⟨rfl, fun _ => trivial⟩
    · trivial
  · trivial

theorem seats_prog (D : Digest) (i : Call) (w : World Call Stmt Db) : KeepsSeats i (i.prog D) w := by
  cases i with
  | play fresh request => exact seats_bind (seats_serve D fresh request) fun _ _ => rfl
  | credit now depositId extraMetadata =>
    exact seats_bind (seats_quiet (addsNoBet_creditDeposit now depositId extraMetadata)) fun _ _ => rfl

/-- **In every state of every interleaving, each bet is in a session of its player.** -/
theorem betsSeated_replay {db : Db} (h : BetsSeated db) {moves : List (Move Call Fault)}
    {c : Pool Call Stmt.Resp Fault Answer Db} (hc : (Pool.init db).replay exec (Call.prog D) moves = some c) :
    BetsSeated c.store := by
  have hinv : PoolInv seatDiscipline exec (Pool.init db : Pool Call Stmt.Resp Fault Answer Db) := poolInv_init h
  have hmay : MayMoves seatDiscipline exec (Call.prog D) (Pool.init db) moves :=
    mayMoves_of_ok (fun _ _ _ => trivial) moves _
  exact (replay_safe_fail (seats_prog D) hc hmay hinv).2.inv

end Smink
