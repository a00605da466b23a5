import Smink.Play.Hidden
import Smink.Db.Seed

/-!
# What the answers tell about a hidden layout

Two databases that differ in the layout of one bet, and one sequence of requests on each, as long as the bet stays open
and the two layouts agree on the tiles that are asked (`WhileOpen`). Every request but one answers the same (`Told`):
only `getSession` copies the outcomes of a session's newest 50 bets, open or not, into its answer.

* `serve_answered`: one request answers the same on both databases iff it does not show the bet (`Shows`).
* `layout_secret_iff`: so does every sequence of requests.
* `session_shows_layout`: a player who asks for the session after opening a round is told where the mines are.
-/

namespace Smink

open Store

variable {betId : Id} {L : Layout}

def IsOpen (betId : Id) (db : Db) : Prop := ∃ bet ∈ db.bets.rows, bet.id = betId ∧ bet.status = .open

/-- The next tile, if it is this one, ends the round. -/
def GameOutcome.Hits (tile : Nat) : GameOutcome → Prop
  | .mines minePositions _ => tile ∈ minePositions
  | .towers traps picks => tile ∈ traps.getD picks.length []
  | _ => False

instance (tile : Nat) (outcome : GameOutcome) : Decidable (outcome.Hits tile) :=
  match outcome with
  | .mines minePositions _ => inferInstanceAs (Decidable (tile ∈ minePositions))
  | .towers traps picks => inferInstanceAs (Decidable (tile ∈ traps.getD picks.length []))
  | .dice .. | .coinFlip .. | .limbo .. | .wheel .. | .plinko .. | .keno .. => .isFalse id

/-- The round and the tile that a request asks about. -/
def Request.asks : Request → Option (String × Num)
  | .revealMines _ _ betReference tile => some (betReference, tile)
  | .revealTowers _ _ betReference tile => some (betReference, tile)
  | _ => none

/-- The two layouts agree on the tile that the request asks about. -/
def AgreesOn (betId : Id) (L : Layout) (db : Db) (request : Request) : Prop :=
  ∀ bet ∈ db.bets.rows, bet.id = betId → ∀ outcome ∈ bet.outcome, ∀ question ∈ request.asks,
    question.1 = bet.reference → ∀ tile ∈ naturalNumber question.2, outcome.Hits tile ↔ (L.into outcome).Hits tile

/-- The bet is among the newest 50 of the session. -/
def InHistory (betId : Id) (db : Db) (sessionId : Id) : Prop :=
  ∃ row ∈ (newestFirst (db.bets.select fun b => b.sessionId == some sessionId)).take 50, row.id = betId

/-- The request asks for a session of the user, and the bet is in its history. -/
def Shows (betId : Id) (db : Db) : Request → Prop
  | .getSession userId sessionId =>
    (∃ session ∈ db.gameSessions.rows, session.id = sessionId ∧ session.userId = userId) ∧ InHistory betId db sessionId
  | _ => False

instance (betId : Id) (L : Layout) (db : Db) (request : Request) : Decidable (AgreesOn betId L db request) := by
  unfold AgreesOn
  infer_instance

instance (betId : Id) (db : Db) : Decidable (IsOpen betId db) := by
  unfold IsOpen
  infer_instance

instance (betId : Id) (db : Db) (request : Request) : Decidable (Shows betId db request) := by
  unfold Shows InHistory
  split <;> infer_instance

/-! ## Answers that tell nothing -/

/-- As long as the bet is open, the two answers are the same. -/
def Told (betId : Id) (L : Layout) {α : Type} (r r' : Except Fault α) (t : Db) : Prop :=
  Secret betId L t ∧ (IsOpen betId t → r' = r)

/-- A request that tells nothing about the layout. -/
abbrev Tells (betId : Id) (L : Layout) {α : Type} (p p' : Sql α) (db : Db) : Prop :=
  Mirror (Db.relay betId L) exec p p' db (Told betId L)

theorem tells_unaware {α : Type} {p : Sql α} {db : Db} (hp : Unaware betId L p) (hs : Secret betId L db) :
    Tells betId L p p db :=
  (hp db hs).mono fun _ _ _ h => ⟨h.2, fun _ => h.1⟩

theorem tells_bind {α β : Type} {p : Sql α} {k k' : α → Sql β} {db : Db} (hp : Unaware betId L p)
    (hs : Secret betId L db)
    (hk : ∀ a t, p.run exec db = (.ok a, t) → Secret betId L t → Tells betId L (k a) (k' a) t) :
    Tells betId L (p >>= k) (p >>= k') db :=
  hp.mirror_bind hs hk fun _ _ ht => ⟨ht, fun _ => rfl⟩

theorem tells_ite {α : Type} {c : Prop} [Decidable c] {p p' q q' : Sql α} {db : Db} (hp : c → Tells betId L p p' db)
    (hq : ¬ c → Tells betId L q q' db) : Tells betId L (if c then p else q) (if c then p' else q') db := by
  split
  · exact hp ‹_›
  · exact hq ‹_›

theorem tells_map {α β : Type} {p p' : Sql α} {db : Db} (g : α → β) (h : Tells betId L p p' db) :
    Tells betId L (p >>= fun a => .ret (g a)) (p' >>= fun a => .ret (g a)) db :=
  h.map g fun _ _ _ hq => ⟨hq.1, fun ho => congrArg _ (hq.2 ho)⟩

theorem tells_fail {α : Type} {db : Db} (hs : Secret betId L db) (error : String) (code : ErrorCode) :
    Tells betId L (fail error code : Sql α) (fail error code) db :=
  tells_unaware (unaware_done rfl) hs

/-- The session of a request is open: the check has changed nothing. -/
theorem tells_requireOpenSession {α : Type} {userId sessionId : Id} {slug : GameSlug}
    {k k' : GameSession × Game → Sql α} {db : Db} (hs : Secret betId L db)
    (hk : ∀ session game, OpenSession db userId sessionId slug session game →
      Tells betId L (k (session, game)) (k' (session, game)) db) :
    Tells betId L (requireOpenSession userId sessionId slug >>= k)
      (requireOpenSession userId sessionId slug >>= k') db := by
  refine tells_bind (unaware_requireOpenSession _ _ _) hs fun ⟨session, game⟩ t hrun _ => ?_
  obtain rfl := (oneRead_requireOpenSession ..).reads.run_store readOnly hrun
  exact hk session game (run_requireOpenSession hrun)

/-- The open bet that a reference finds. -/
theorem tells_findRound {α : Type} {userId sessionId : Id} {betReference : String} {k k' : Bet → Sql α} {db : Db}
    (hs : Secret betId L db)
    (hk : ∀ bet, OpenRound db userId sessionId betReference bet → Tells betId L (k bet) (k' (bet.relay betId L)) db) :
    Tells betId L (findRound userId sessionId betReference >>= k)
      (findRound userId sessionId betReference >>= k') db := by
  unfold findRound
  rw [Prog.bind_assoc, Prog.bind_assoc]
  refine mirror_selectBet (fun bet => by rw [relay_reference, relay_userId, relay_sessionId]) ?_
  rw [List.head?_map]
  cases hhead : (db.bets.select fun b =>
      b.reference == betReference && b.userId == userId && b.sessionId == some sessionId).head? with
  | none => exact tells_fail hs _ _
  | some bet =>
    simp only [Option.map_some, relay_status]
    obtain ⟨hm, hp⟩ := Table.mem_of_select_head hhead
    simp only [Bool.and_eq_true, beq_iff_eq] at hp
    split_ifs with hstatus
    · exact tells_fail hs _ _
    · exact hk bet ⟨hm, hp.1.1, hp.1.2, hp.2, by simpa using hstatus⟩

/-! ## What the rows show of a bet -/

@[simp] theorem relay_revealed (bet : Bet) : (bet.relay betId L).revealed = bet.revealed := by
  by_cases hid : bet.id = betId
  · rw [relay_of_eq hid]
    unfold Bet.revealed
    cases bet.outcome with
    | none => rfl
    | some outcome => cases L <;> cases outcome <;> rfl
  · rw [relay_of_ne hid]

@[simp] theorem relay_picks (bet : Bet) : (bet.relay betId L).picks = bet.picks := by
  by_cases hid : bet.id = betId
  · rw [relay_of_eq hid]
    unfold Bet.picks
    cases bet.outcome with
    | none => rfl
    | some outcome => cases L <;> cases outcome <;> rfl
  · rw [relay_of_ne hid]

@[simp] theorem relay_difficulty (bet : Bet) : (bet.relay betId L).difficulty = bet.difficulty := by
  unfold Bet.relay
  split <;> rfl

theorem relay_mineCount {db : Db} (hs : Secret betId L db) {bet : Bet} (hb : bet ∈ db.bets.rows) :
    (bet.relay betId L).mineCount = bet.mineCount := by
  by_cases hid : bet.id = betId
  · obtain ⟨⟨outcome, hout, hides⟩, -⟩ := hs.hiddenIn hb hid
    rw [Option.mem_def] at hout
    rw [relay_of_eq hid]
    unfold Bet.mineCount Bet.minePositions
    cases L <;> cases outcome <;> simp_all [Layout.Hides, Layout.into]
  · rw [relay_of_ne hid]

theorem payOut_relay (fresh : Fresh) (slug : GameSlug) (userId sessionId : Id) (betReference : String) (bet : Bet) :
    payOut fresh slug userId sessionId betReference (bet.relay betId L) =
      payOut fresh slug userId sessionId betReference bet := by
  unfold Bet.relay
  split <;> rfl

/-! ## Reveals and cash-outs -/

theorem not_isOpen_update {db : Db} {set : BetSet} {st : BetStatus} (hset : set.status = some st) (hst : st ≠ .open) :
    ¬ IsOpen betId { db with bets := db.bets.update (fun b => b.id == betId) set } := by
  rintro ⟨bet, hb, hid, hopen⟩
  obtain ⟨row, -, rfl⟩ := Table.mem_update.1 hb
  have hrow : row.id = betId := by
    unfold Table.updateRow at hid
    split at hid <;> exact hid
  rw [Table.updateRow_pos (by rw [hrow]; exact beq_self_eq_true _)] at hopen
  exact hst (by simpa [Settable.apply, hset] using hopen)

/-- A bet that is paid out is closed. -/
theorem payOut_closes {fresh : Fresh} {slug : GameSlug} {userId sessionId : Id} {betReference : String} {bet : Bet}
    {db t : Db} {balance : Option Money}
    (h : (payOut fresh slug userId sessionId betReference bet).run exec db = (.ok balance, t)) : ¬ IsOpen bet.id t := by
  have hclosed : ¬ IsOpen bet.id { db with
      bets := db.bets.update (fun b => b.id == bet.id) (cashedOutSet fresh.now (cashOutPayout bet)) } :=
    not_isOpen_update rfl (by decide)
  unfold payOut at h
  rw [ask_bind, Prog.run_stmt rfl, perform_bind, Prog.run_stmt rfl] at h
  obtain ⟨_, u, hq, hk⟩ := Prog.run_bind_inv h
  cases hk
  obtain ⟨_, hins⟩ := run_perform hq
  obtain ⟨_, -, heq⟩ := orThrow_ok hins
  cases heq
  exact hclosed

/-- The bet is lost: the outcome is written with the layout that the database has. -/
theorem tells_settleLost {α : Type} {now : Time} {userId : Id} {bet : Bet} {outcome : GameOutcome}
    {k k' : Unit → Sql α} {db : Db} {Q : Except Fault α → Except Fault α → Db → Prop} (hs : Secret betId L db)
    (hid : bet.id = betId) (hides : L.Hides outcome)
    (hk : ∀ t, Secret betId L t → ¬ IsOpen betId t → Mirror (Db.relay betId L) exec (k ()) (k' ()) t Q) :
    Mirror (Db.relay betId L) exec (settleLost now userId bet outcome >>= k)
      (settleLost now userId (bet.relay betId L) (L.into outcome) >>= k') db Q := by
  obtain rfl := hid
  have himage : settleLost now userId (bet.relay bet.id L) (L.into outcome) =
      perform (.updateWallet (fun w => w.userId == userId) (releaseSet bet.stake 0)) >>= fun _ =>
        perform (.updateBet (fun b => b.id == bet.id) ((lostSet now outcome).relay L)) := by
    unfold settleLost
    rw [relay_id, relay_stake]
    rfl
  rw [himage]
  refine mirror_stmt (q := Stmt.updateWallet _ _) rfl (exec_relay rfl db) ?_
  have hs' := secret_exec (q := .updateWallet (fun w => w.userId == userId) (releaseSet bet.stake 0)) rfl hs rfl
  refine mirror_updateBet (hk _ (hs'.updateBet fun _ _ _ o ho => ?_) (not_isOpen_update rfl (by decide)))
  rwa [← Option.some.inj ho]

theorem tells_recordReveal {α : Type} {bet : Bet} {multiplier : ℚ} {outcome : GameOutcome}
    {k k' : Unit → Sql α} {db : Db} {Q : Except Fault α → Except Fault α → Db → Prop} (hs : Secret betId L db)
    (hid : bet.id = betId) (hides : L.Hides outcome)
    (hk : ∀ t, Secret betId L t → Mirror (Db.relay betId L) exec (k ()) (k' ()) t Q) :
    Mirror (Db.relay betId L) exec (recordReveal bet multiplier outcome >>= k)
      (recordReveal (bet.relay betId L) multiplier (L.into outcome) >>= k') db Q := by
  obtain rfl := hid
  have himage : recordReveal (bet.relay bet.id L) multiplier (L.into outcome) =
      perform (.updateBet (fun b => b.id == bet.id) ((revealSet multiplier outcome).relay L)) := by
    unfold recordReveal
    rw [relay_id]
    rfl
  rw [himage]
  refine mirror_updateBet (hk _ (hs.updateBet fun _ _ _ o ho => ?_))
  rwa [← Option.some.inj ho]

theorem unaware_settleLost {now : Time} {userId : Id} {bet : Bet} {outcome : GameOutcome} (hid : bet.id ≠ betId) :
    Unaware betId L (settleLost now userId bet outcome) :=
  unaware_perform rfl (unaware_updateBet (k := fun _ => .ret ()) (.inr hid) (unaware_done rfl))

theorem unaware_recordReveal {bet : Bet} {multiplier : ℚ} {outcome : GameOutcome} (hid : bet.id ≠ betId) :
    Unaware betId L (recordReveal bet multiplier outcome) :=
  unaware_updateBet (k := fun _ => .ret ()) (.inr hid) (unaware_done rfl)

variable {fresh : Fresh} {userId sessionId : Id} {betReference : String} {db : Db}

theorem tells_cashOutMines (hs : Secret betId L db) :
    Tells betId L (cashOutMines fresh userId sessionId betReference) (cashOutMines fresh userId sessionId betReference)
      db := by
  refine tells_requireOpenSession hs fun _ _ _ => tells_findRound hs fun bet _ => ?_
  rw [relay_revealed]
  split_ifs
  · exact tells_fail hs _ _
  rw [payOut_relay]
  refine tells_bind (unaware_payOut _ _ _ _ _ _) hs fun balance t hrun ht => mirror_ret ⟨ht, fun hopen => ?_⟩
  by_cases hid : bet.id = betId
  · exact absurd (hid ▸ hopen) (payOut_closes hrun)
  · rw [relay_of_ne hid]

theorem tells_cashOutTowers (hs : Secret betId L db) :
    Tells betId L (cashOutTowers fresh userId sessionId betReference)
      (cashOutTowers fresh userId sessionId betReference) db := by
  refine tells_requireOpenSession hs fun _ _ _ => tells_findRound hs fun bet _ => ?_
  rw [relay_picks]
  split_ifs
  · exact tells_fail hs _ _
  rw [payOut_relay]
  refine tells_bind (unaware_payOut _ _ _ _ _ _) hs fun balance t hrun ht => ?_
  rw [relay_difficulty]
  cases bet.difficulty with
  | none => exact mirror_throw ⟨ht, fun _ => rfl⟩
  | some difficulty =>
    refine mirror_ret ⟨ht, fun hopen => ?_⟩
    by_cases hid : bet.id = betId
    · exact absurd (hid ▸ hopen) (payOut_closes hrun)
    · rw [relay_of_ne hid]

/-- The bet of a Mines round, and the tile it is asked about. -/
theorem mines_round (hs : Secret betId L db) {session : GameSession} {game : Game} {bet : Bet}
    (ho : OpenSession db userId sessionId .mines session game) (hb : OpenRound db userId sessionId betReference bet)
    (hid : bet.id = betId) : ∃ hidden minePositions revealed, L = .mines hidden ∧
      bet.outcome = some (.mines minePositions revealed) ∧ hidden.length = minePositions.length ∧
      hidden ≠ minePositions := by
  have hslug := hs.slug_eq ho hb.mem hid hb.session
  obtain ⟨⟨outcome, hout, hides⟩, -⟩ := hs.hiddenIn hb.mem hid
  cases L with
  | towers traps => cases hslug
  | mines hidden =>
    cases outcome with
    | mines minePositions revealed => exact ⟨hidden, minePositions, revealed, rfl, hout, hides⟩
    | _ => exact absurd hides id

theorem towers_round (hs : Secret betId L db) {session : GameSession} {game : Game} {bet : Bet}
    (ho : OpenSession db userId sessionId .towers session game) (hb : OpenRound db userId sessionId betReference bet)
    (hid : bet.id = betId) : ∃ hidden traps picks, L = .towers hidden ∧
      bet.outcome = some (.towers traps picks) ∧ hidden ≠ traps := by
  have hslug := hs.slug_eq ho hb.mem hid hb.session
  obtain ⟨⟨outcome, hout, hides⟩, -⟩ := hs.hiddenIn hb.mem hid
  cases L with
  | mines minePositions => cases hslug
  | towers hidden =>
    cases outcome with
    | towers traps picks => exact ⟨hidden, traps, picks, rfl, hout, hides⟩
    | _ => exact absurd hides id

theorem tells_revealMines {tile : Num} (hs : Secret betId L db)
    (ha : AgreesOn betId L db (.revealMines userId sessionId betReference tile)) :
    Tells betId L (revealMines fresh userId sessionId betReference tile)
      (revealMines fresh userId sessionId betReference tile) db := by
  unfold revealMines
  cases htile : naturalNumber tile with
  | none => exact tells_fail hs _ _
  | some n =>
    refine tells_ite (fun _ => tells_fail hs _ _) fun _ => ?_
    refine tells_requireOpenSession hs fun session game ho => tells_findRound hs fun bet hb => ?_
    rw [relay_revealed, relay_mineCount hs hb.mem]
    refine tells_ite (fun _ => tells_fail hs _ _) fun _ => ?_
    by_cases hid : bet.id = betId
    · obtain ⟨hidden, minePositions, revealed, rfl, hout, hides⟩ := mines_round hs ho hb hid
      have hmines : bet.minePositions = some minePositions := by rw [Bet.minePositions, hout]
      have hmines' : (bet.relay betId (.mines hidden)).minePositions = some hidden := by
        rw [relay_of_eq hid, Bet.minePositions, hout]
        rfl
      have hagree : n ∈ minePositions ↔ n ∈ hidden :=
        ha bet hb.mem hid _ hout _ rfl hb.reference.symm n htile
      simp only [hmines, hmines', Option.getD_some, ← hagree]
      refine tells_ite (fun _ => ?_) fun _ => ?_
      · exact tells_settleLost hs hid hides fun t ht hclosed => mirror_ret ⟨ht, fun hopen => absurd hopen hclosed⟩
      · refine tells_recordReveal hs hid hides fun t ht => tells_ite (fun _ => ?_) fun _ => ?_
        · exact tells_cashOutMines ht
        · exact tells_unaware (unaware_done rfl) ht
    · rw [relay_of_ne hid]
      refine tells_ite (fun _ => ?_) fun _ => ?_
      · exact tells_unaware (blind_bind (unaware_settleLost hid) fun _ => unaware_done rfl) hs
      · refine tells_bind (unaware_recordReveal hid) hs fun _ t _ ht => tells_ite (fun _ => ?_) fun _ => ?_
        · exact tells_cashOutMines ht
        · exact tells_unaware (unaware_done rfl) ht

theorem tells_revealTowers {tile : Num} (hs : Secret betId L db)
    (ha : AgreesOn betId L db (.revealTowers userId sessionId betReference tile)) :
    Tells betId L (revealTowers fresh userId sessionId betReference tile)
      (revealTowers fresh userId sessionId betReference tile) db := by
  refine tells_requireOpenSession hs fun session game ho => tells_findRound hs fun bet hb => ?_
  cases htile : naturalNumber tile with
  | none => exact tells_fail hs _ _
  | some n =>
    rw [relay_difficulty]
    cases bet.difficulty with
    | none => exact mirror_throw ⟨hs, fun _ => rfl⟩
    | some difficulty =>
      refine tells_ite (fun _ => tells_fail hs _ _) fun _ => ?_
      rw [relay_picks]
      refine tells_ite (fun _ => tells_fail hs _ _) fun _ => ?_
      by_cases hid : bet.id = betId
      · obtain ⟨hidden, traps, picks, rfl, hout, hides⟩ := towers_round hs ho hb hid
        have htraps : bet.traps = some traps := by rw [Bet.traps, hout]
        have hpicks : bet.picks = picks := by rw [Bet.picks, hout]
        have htraps' : (bet.relay betId (.towers hidden)).traps = some hidden := by
          rw [relay_of_eq hid, Bet.traps, hout]
          rfl
        have hagree : n ∈ traps.getD picks.length [] ↔ n ∈ hidden.getD picks.length [] :=
          ha bet hb.mem hid _ hout _ rfl hb.reference.symm n htile
        simp only [htraps, htraps', hpicks, Option.getD_some, ← hagree]
        refine tells_ite (fun _ => ?_) fun _ => ?_
        · exact tells_settleLost hs hid hides fun t ht hclosed => mirror_ret ⟨ht, fun hopen => absurd hopen hclosed⟩
        · refine tells_recordReveal hs hid hides fun t ht => tells_ite (fun _ => ?_) fun _ => ?_
          · exact tells_cashOutTowers ht
          · exact tells_unaware (unaware_done rfl) ht
      · rw [relay_of_ne hid]
        refine tells_ite (fun _ => ?_) fun _ => ?_
        · exact tells_unaware (blind_bind (unaware_settleLost hid) fun _ => unaware_done rfl) hs
        · refine tells_bind (unaware_recordReveal hid) hs fun _ t _ ht => tells_ite (fun _ => ?_) fun _ => ?_
          · exact tells_cashOutTowers ht
          · exact tells_unaware (unaware_done rfl) ht

/-! ## The other requests -/

theorem newestFirst_relay (rows : List Bet) :
    newestFirst (rows.map (Bet.relay betId L)) = (newestFirst rows).map (Bet.relay betId L) := by
  refine (List.map_insertionSort _ _ _ rows fun a _ b _ => ?_).symm
  rw [relay_createdAt, relay_createdAt]

/-- The newest open bet of the session, on both databases. -/
theorem tells_findOpen {α : Type} {gameId : Id} {k k' : Option Bet → Sql α}
    (hnone : Tells betId L (k none) (k' none) db)
    (hsome : ∀ bet ∈ db.bets.rows, Tells betId L (k (some bet)) (k' (some (bet.relay betId L))) db) :
    Tells betId L (findOpen userId gameId sessionId >>= k) (findOpen userId gameId sessionId >>= k') db := by
  unfold findOpen
  rw [Prog.bind_assoc, Prog.bind_assoc]
  refine mirror_selectBet (fun bet => by rw [relay_userId, relay_gameId, relay_sessionId, relay_status]) ?_
  rw [Prog.pure_eq, Prog.pure_eq, Prog.ret_bind, Prog.ret_bind, newestFirst_relay, List.head?_map]
  cases hhead : (newestFirst (db.bets.select fun b =>
      b.userId == userId && b.gameId == gameId && b.sessionId == some sessionId && b.status == .open)).head? with
  | none => exact hnone
  | some bet =>
    exact hsome bet (Table.mem_select.1 ((List.mem_insertionSort _).1 (List.mem_of_head? hhead))).1

theorem tells_getOpenMines (hs : Secret betId L db) :
    Tells betId L (getOpenMines userId sessionId) (getOpenMines userId sessionId) db := by
  refine tells_requireOpenSession hs fun _ _ _ => tells_findOpen (mirror_ret ⟨hs, fun _ => rfl⟩) fun bet hb => ?_
  refine mirror_ret ⟨hs, fun _ => ?_⟩
  rw [relay_revealed, relay_mineCount hs hb, relay_reference]

theorem tells_getOpenTowers (hs : Secret betId L db) :
    Tells betId L (getOpenTowers userId sessionId) (getOpenTowers userId sessionId) db := by
  refine tells_requireOpenSession hs fun _ _ _ => tells_findOpen (mirror_ret ⟨hs, fun _ => rfl⟩) fun bet hb => ?_
  simp only [relay_difficulty, relay_picks, relay_reference]
  exact tells_unaware (blind_bind (unaware_done (done_orThrew _)) fun _ => unaware_done rfl) hs

theorem unaware_placeBet (D : Digest) (slug : GameSlug) (stakeInput : Num) (selectionInput : RawSelection) :
    Unaware betId L (placeBet D fresh userId sessionId slug stakeInput selectionInput) := by
  unfold placeBet
  split_ifs
  · exact unaware_done rfl
  · exact unaware_done rfl
  refine blind_bind (unaware_requireOpenSession _ _ _) fun ⟨_, game⟩ => ?_
  refine blind_bind (unaware_done (done_orInvalid _)) fun validated => ?_
  refine blind_bind (unaware_done (done_orFail _)) fun stake => ?_
  refine blind_bind (unaware_requireWallet _) fun wallet => ?_
  refine blind_bind (unaware_nextNonce _) fun nonce => ?_
  refine blind_bind (unaware_getControlRule _ _) fun row => ?_
  refine blind_bind (unaware_done (done_orThrew _)) fun raw => ?_
  refine unaware_ask rfl fun debited => ?_
  split
  · refine unaware_insertBet (unaware_perform rfl ?_)
    refine blind_bind (unaware_bumpSession _ _ _) fun _ => ?_
    exact blind_bind (unaware_consumeForcedRound _) fun _ => unaware_done rfl
  · exact unaware_done rfl

theorem unaware_endSession : Unaware betId L (endSession fresh userId sessionId) := by
  refine unaware_ask rfl fun r => ?_
  split
  · split_ifs
    · exact unaware_done rfl
    · exact unaware_perform (k := fun _ => .ret ()) rfl (unaware_done rfl)
  · exact unaware_done rfl

/-! ## The history of a session -/

/-- The history differs exactly where it lists the bet. -/
theorem history_relay (hs : Secret betId L db) (rows : List Bet) (hrows : ∀ row ∈ rows, row ∈ db.bets.rows) :
    rows.map (historyItem ∘ Bet.relay betId L) = rows.map historyItem ↔ ¬ ∃ row ∈ rows, row.id = betId := by
  rw [List.map_inj_left, not_exists]
  refine forall_congr' fun row => ?_
  rw [not_and]
  refine imp_congr_right fun hrow => ?_
  constructor
  · intro heq hid
    obtain ⟨⟨outcome, hout, hides⟩, -⟩ := hs.hiddenIn (hrows row hrow) hid
    rw [Option.mem_def] at hout
    have hsame := congrArg SessionHistoryItem.outcome heq
    rw [Function.comp_apply, relay_of_eq hid] at hsame
    simp only [historyItem, hout, Option.map_some, Option.some.injEq] at hsame
    exact hides.into_ne hsame
  · intro hid
    rw [Function.comp_apply, relay_of_ne hid]

theorem mirror_toSessionDto (now : Time) (slug : GameSlug) (hs : Secret betId L db) :
    Mirror (Db.relay betId L) exec (toSessionDto now sessionId slug) (toSessionDto now sessionId slug) db
      fun r r' t => Secret betId L t ∧ (r' = r ↔ ¬ InHistory betId db sessionId) := by
  refine mirror_ask rfl rfl ?_
  refine mirror_selectBet (fun bet => by rw [relay_sessionId]) (mirror_ret ⟨hs, ?_⟩)
  rw [newestFirst_relay, ← List.map_take, List.map_map, List.length_map, List.length_map]
  refine Iff.trans ?_ (history_relay hs _ fun row hrow => ?_)
  · constructor
    · intro h
      injection h with h
      injection h
    · intro h
      rw [h]
  · exact (Table.mem_select.1 ((List.mem_insertionSort _).1 (List.mem_of_mem_take hrow))).1

/-- A new session has no bets yet. -/
theorem tells_startSession (slug : GameSlug) (hs : Secret betId L db) :
    Tells betId L (startSession fresh userId slug) (startSession fresh userId slug) db := by
  refine tells_bind (unaware_getPlayableGame _ _) hs fun game t _ ht => ?_
  refine tells_bind (unaware_perform (k := fun _ => .ret ()) rfl (unaware_done rfl)) ht fun _ u _ hu => ?_
  refine tells_bind (unaware_perform (k := fun _ => .ret ()) rfl (unaware_done rfl)) hu fun _ v hrun hv => ?_
  refine (mirror_toSessionDto _ _ hv).mono fun _ _ _ h => ⟨h.1, fun _ => h.2.2 ?_⟩
  obtain ⟨_, hins⟩ := run_perform hrun
  obtain ⟨w, hw, heq⟩ := orThrow_ok hins
  cases heq
  rintro ⟨row, hrow, hid⟩
  obtain ⟨hmem, hsession⟩ := Table.mem_select.1 ((List.mem_insertionSort _).1 (List.mem_of_mem_take hrow))
  obtain ⟨-, _, hsid, s, hsm, hsid', -⟩ := hu.hiddenIn hmem hid
  rw [beq_iff_eq.1 hsession] at hsid
  cases hsid
  exact Table.apart_of_insert hw s hsm ("id", s.id) (by simp [Keyed.keys]) (by simp [Keyed.keys, hsid'])

theorem mirror_getSession (hs : Secret betId L db) :
    Mirror (Db.relay betId L) exec (getSession fresh userId sessionId) (getSession fresh userId sessionId) db
      fun r r' t => Secret betId L t ∧ (r' = r ↔ ¬ Shows betId db (.getSession userId sessionId)) := by
  refine mirror_ask rfl rfl ?_
  cases hhead : ((db.gameSessions.select fun s => s.id == sessionId && s.userId == userId).flatMap fun s =>
      (db.gamesOf s).map fun g => (s, g)).head? with
  | none =>
    refine mirror_throw ⟨hs, iff_of_true rfl ?_⟩
    rintro ⟨⟨session, hmem, hsid, huser⟩, row, hrow, hid⟩
    obtain ⟨hrm, hrs⟩ := Table.mem_select.1 ((List.mem_insertionSort _).1 (List.mem_of_mem_take hrow))
    obtain ⟨-, _, hrow', s, hsm, hsid', g, hg, hgid, -⟩ := hs.hiddenIn hrm hid
    rw [beq_iff_eq.1 hrs] at hrow'
    cases hrow'
    obtain rfl : s = session := session_eq_of_id hsm hmem (hsid'.trans hsid.symm)
    rw [List.head?_eq_none_iff] at hhead
    refine List.not_mem_nil (a := (s, g)) (hhead ▸ List.mem_flatMap.2 ⟨s, Table.mem_select.2 ⟨hsm, ?_⟩, ?_⟩)
    · simp [hsid, huser]
    · exact List.mem_map.2 ⟨g, Table.mem_select.2 ⟨hg, by simp [hgid]⟩, rfl⟩
  | some x =>
    obtain ⟨session, game⟩ := x
    obtain ⟨⟨hsm, hsp⟩, -, -⟩ := sessionGame_of_head hhead
    rw [Bool.and_eq_true, beq_iff_eq, beq_iff_eq] at hsp
    obtain rfl := hsp.1
    refine (mirror_toSessionDto _ _ hs).mono fun r r' t h => ⟨h.1, h.2.trans (not_congr ?_)⟩
    exact ⟨fun hin => ⟨⟨session, hsm, rfl, hsp.2⟩, hin⟩, And.right⟩

/-! ## Requests -/

/-- One request: while the bet stays open, the answers differ exactly where the request shows the bet. -/
def Answered (betId : Id) (L : Layout) (db : Db) (request : Request) (p : Sql Response) : Prop :=
  Mirror (Db.relay betId L) exec p p db fun r r' t =>
    Secret betId L t ∧ (IsOpen betId t → (r' = r ↔ ¬ Shows betId db request))

theorem answered_of_tells {α : Type} {request : Request} {p : Sql α} (g : α → Response) (h : Tells betId L p p db)
    (hshow : ¬ Shows betId db request) : Answered betId L db request (p >>= fun a => .ret (g a)) :=
  (tells_map g h).mono fun _ _ _ hq => ⟨hq.1, fun hopen => iff_of_true (hq.2 hopen) hshow⟩

theorem map_session_inj {r r' : Except Fault GameSessionDto} :
    r'.map Response.session = r.map Response.session ↔ r' = r := by
  cases r <;> cases r' <;> simp [Except.map]

theorem serve_answered (D : Digest) (fresh : Fresh) (request : Request) (hs : Secret betId L db)
    (ha : AgreesOn betId L db request) : Answered betId L db request (serve D fresh request) := by
  cases request with
  | startSession userId slug => exact answered_of_tells _ (tells_startSession slug hs) id
  | endSession userId sessionId => exact answered_of_tells _ (tells_unaware unaware_endSession hs) id
  | getSession userId sessionId =>
    exact (mirror_getSession hs).map _ fun _ _ _ hq => ⟨hq.1, fun _ => map_session_inj.trans hq.2⟩
  | placeBet userId sessionId slug stakeInput selectionInput =>
    exact answered_of_tells _ (tells_unaware (unaware_placeBet _ _ _ _) hs) id
  | startMines userId sessionId stakeInput mineCountInput =>
    exact answered_of_tells _ (tells_unaware (blind_bind (unaware_openRound _ _ _ _ _ _ _) fun _ =>
      unaware_done rfl) hs) id
  | revealMines userId sessionId betReference tile => exact answered_of_tells _ (tells_revealMines hs ha) id
  | cashOutMines userId sessionId betReference => exact answered_of_tells _ (tells_cashOutMines hs) id
  | getOpenMines userId sessionId => exact answered_of_tells _ (tells_getOpenMines hs) id
  | startTowers userId sessionId stakeInput difficultyInput =>
    exact answered_of_tells _ (tells_unaware (blind_bind (unaware_openRound _ _ _ _ _ _ _) fun _ =>
      unaware_done rfl) hs) id
  | revealTowers userId sessionId betReference tile => exact answered_of_tells _ (tells_revealTowers hs ha) id
  | cashOutTowers userId sessionId betReference => exact answered_of_tells _ (tells_cashOutTowers hs) id
  | getOpenTowers userId sessionId => exact answered_of_tells _ (tells_getOpenTowers hs) id

/-! ## Where secrets come from -/

/-- A round that has been opened keeps every layout secret that its own can be taken for. -/
theorem openRound_secret {Sel : Type} {G : GridGame Sel} {D : Digest} {stakeInput : Num} {selectionInput : RawSelection}
    {opened : OpenedRound Sel} {t : Db}
    (h : (openRound G D fresh userId sessionId stakeInput selectionInput).run exec db = (.ok opened, t)) :
    ∃ s u forced, IsOpen fresh.betId t ∧
      ∀ L : Layout, L.slug = G.slug → L.Hides (G.layout s u forced) → Secret fresh.betId L t := by
  obtain ⟨⟨session, game⟩, d, hsession, hrest⟩ := Prog.run_bind_inv h
  have ho := run_requireOpenSession hsession
  obtain rfl := (oneRead_requireOpenSession ..).reads.run_store readOnly hsession
  have hseated : Seated sessionId G.slug t :=
    Prog.run_keeps hrest (fun _ _ _ _ => seated_exec)
      ⟨session, ho.session_mem, ho.session_id, game, ho.game_mem, ho.game_id, ho.game_slug⟩
  obtain ⟨validated, _, -, hrest⟩ := Prog.run_bind_inv hrest
  obtain ⟨stake, _, -, hrest⟩ := Prog.run_bind_inv hrest
  obtain ⟨rows, _, -, hrest⟩ := Prog.run_bind_inv hrest
  split_ifs at hrest
  · cases hrest
  obtain ⟨wallet, _, -, hrest⟩ := Prog.run_bind_inv hrest
  obtain ⟨nonce, _, -, hrest⟩ := Prog.run_bind_inv hrest
  obtain ⟨row, _, -, hrest⟩ := Prog.run_bind_inv hrest
  obtain ⟨selection, _, -, hrest⟩ := Prog.run_bind_inv hrest
  obtain ⟨_, _, -, hrest⟩ := Prog.run_bind_inv hrest
  obtain ⟨_, d₁, hbet, hrest⟩ := Prog.run_bind_inv hrest
  obtain ⟨_, d₂, hledger, hrest⟩ := Prog.run_bind_inv hrest
  cases hrest
  obtain ⟨_, hbet⟩ := run_perform hbet
  obtain ⟨u, hins, heq⟩ := orThrow_ok hbet
  cases heq
  obtain ⟨_, hledger⟩ := run_perform hledger
  obtain ⟨_, -, heq⟩ := orThrow_ok hledger
  cases heq
  have hmem := Table.rows_insert hins ▸ List.mem_append_right _ (List.mem_singleton_self _)
  exact ⟨selection, _, _, ⟨_, hmem, rfl, rfl⟩, fun L hL hides =>
    ⟨_, hmem, rfl, ⟨_, rfl, hides⟩, sessionId, rfl, hL ▸ hseated⟩⟩

/-! ## Sequences of requests -/

def answer (D : Digest) (call : Fresh × Request) (db : Db) : Except Fault Response × Db :=
  (serve D call.1 call.2).run exec db

/-- The answers to requests made one after the other. -/
def answers (D : Digest) : List (Fresh × Request) → Db → List (Except Fault Response)
  | [], _ => []
  | call :: calls, db => (answer D call db).1 :: answers D calls (answer D call db).2

/-- The bet stays open all along, and the other layout agrees with its own on every tile that is asked. -/
def WhileOpen (D : Digest) (betId : Id) (L : Layout) : List (Fresh × Request) → Db → Prop
  | [], _ => True
  | call :: calls, db =>
    AgreesOn betId L db call.2 ∧ IsOpen betId (answer D call db).2 ∧ WhileOpen D betId L calls (answer D call db).2

/-- Some request of the sequence shows the bet. -/
def EverShows (D : Digest) (betId : Id) : List (Fresh × Request) → Db → Prop
  | [], _ => False
  | call :: calls, db => Shows betId db call.2 ∨ EverShows D betId calls (answer D call db).2

instance decidableWhileOpen (D : Digest) (betId : Id) (L : Layout) :
    ∀ (calls : List (Fresh × Request)) (db : Db), Decidable (WhileOpen D betId L calls db)
  | [], _ => .isTrue trivial
  | _ :: calls, _ => @instDecidableAnd _ _ _ (@instDecidableAnd _ _ _ (decidableWhileOpen D betId L calls _))

/-- The answers to a sequence of requests do not depend on the layout iff none of the requests shows the bet. -/
theorem layout_secret_iff (D : Digest) (calls : List (Fresh × Request)) {db : Db} (hs : Secret betId L db)
    (hw : WhileOpen D betId L calls db) :
    answers D calls (db.relay betId L) = answers D calls db ↔ ¬ EverShows D betId calls db := by
  induction calls generalizing db with
  | nil => exact iff_of_true rfl id
  | cons call calls ih =>
    obtain ⟨hagree, hopen, hrest⟩ := hw
    obtain ⟨hstore, hs', hiff⟩ := serve_answered D call.1 call.2 hs hagree
    have hnext : (answer D call (db.relay betId L)).2 = (answer D call db).2.relay betId L := hstore
    have hkeep : Secret betId L (answer D call db).2 := hs'
    rw [answers, answers, List.cons.injEq, hnext, ih hkeep hrest, EverShows, not_or]
    exact and_congr_left fun _ => hiff hopen

/-- A player at the Mines table opens a $5 round with three mines. -/
def minesOpened : Db := (answer zeroDigest (freshAt 0, .startMines "u1" "s1" (some 5) (some 3)) (tableDb .mines)).2

/-- Two safe tiles, the state of the round, and a new session. -/
def minesCalls : List (Fresh × Request) := [
  (freshAt 1, .revealMines "u1" "s1" "MIN-0" (some 20)),
  (freshAt 2, .revealMines "u1" "s1" "MIN-0" (some 21)),
  (freshAt 3, .getOpenMines "u1" "s1"),
  (freshAt 4, .startSession "u1" .mines)]

theorem layout_secret_iff_minesCalls :
    answers zeroDigest minesCalls (minesOpened.relay "0b" (.mines [5, 6, 7])) =
      answers zeroDigest minesCalls minesOpened ↔ ¬ EverShows zeroDigest "0b" minesCalls minesOpened :=
  layout_secret_iff zeroDigest minesCalls (by decide +kernel) (by decide +kernel)

/-- The session a player reads while the round is open lists the mines. -/
theorem session_shows_layout :
    Secret "0b" (.mines [5, 6, 7]) minesOpened ∧
    WhileOpen zeroDigest "0b" (.mines [5, 6, 7]) [(freshAt 1, .getSession "u1" "s1")] minesOpened ∧
    answers zeroDigest [(freshAt 1, .getSession "u1" "s1")] (minesOpened.relay "0b" (.mines [5, 6, 7])) ≠
      answers zeroDigest [(freshAt 1, .getSession "u1" "s1")] minesOpened := by
  decide +kernel

end Smink
