import Smink.Play.Service

/-!
# What the checks of a call establish

The checks that come before a call's first write each run one `SELECT` and decide from its answer (`OneRead`). What a
check that passed has found is a fact about the store it read, whatever logic the call around it is verified in:
`run_requireOpenSession`, `run_findRound` and `run_getControlRule` state these facts about its run.
-/

namespace Smink

open Store

/-! ## Statements that only read -/

/-- The statement answers and changes nothing. -/
def Stmt.isRead : Stmt → Bool
  | .selectGame _ | .selectExcluded _ | .selectSession _ | .selectSessionGame _ | .selectWallet _
  | .selectTransaction _ | .selectTransactionUser _ | .selectBet _ | .selectControl _ => true
  | _ => false

theorem readOnly : ReadOnly Stmt.isRead exec := by
  intro q h db
  cases q <;> first | exact ⟨_, rfl⟩ | cases h

/-- The statement reads bets. -/
def Stmt.selectsBet : Stmt → Bool
  | .selectBet _ => true
  | _ => false

theorem isRead_of_selectsBet (q : Stmt) (hq : q.selectsBet = true) : q.isRead = true := by
  cases q <;> first | rfl | cases hq

/-- One `SELECT` and a decision. -/
theorem oneRead_ask {α : Type} {P : Stmt → Bool} {q : Stmt} {f : q.Resp → Sql α} (hq : P q = true)
    (hf : ∀ r, (f r).done = true) : OneRead P (ask q >>= f) :=
  ⟨q, f, rfl, hq, hf⟩

theorem reads_ask {α : Type} {q : Stmt} {f : q.Resp → Sql α} (hq : q.isRead = true)
    (hf : ∀ r, Reads Stmt.isRead (f r)) : Reads Stmt.isRead (ask q >>= f) :=
  ⟨hq, hf⟩

/-! ## The checks -/

theorem oneRead_requireOpenSession (userId sessionId : Id) (slug : GameSlug) :
    OneRead Stmt.isRead (requireOpenSession userId sessionId slug) := by
  refine oneRead_ask rfl fun r => ?_
  split
  · split_ifs <;> rfl
  · rfl

/-- The session that a check found open, with its game. -/
structure OpenSession (db : Db) (userId sessionId : Id) (slug : GameSlug) (session : GameSession) (game : Game) :
    Prop where
  session_mem : session ∈ db.gameSessions.rows
  session_id : session.id = sessionId
  session_user : session.userId = userId
  game_mem : game ∈ db.games.rows
  game_id : game.id = session.gameId
  game_slug : game.slug = slug

/-- A row of the join is a session that was looked for, with the game that it is at. -/
theorem sessionGame_of_head {db : Db} {p : GameSession → Bool} {session : GameSession} {game : Game}
    (h : ((db.gameSessions.select p).flatMap fun s => (db.gamesOf s).map fun g => (s, g)).head? =
      some (session, game)) :
    (session ∈ db.gameSessions.rows ∧ p session = true) ∧ game ∈ db.games.rows ∧ game.id = session.gameId := by
  obtain ⟨s, hs, hg⟩ := List.mem_flatMap.1 (List.mem_of_head? h)
  obtain ⟨g, hg, he⟩ := List.mem_map.1 hg
  cases he
  obtain ⟨hgm, hgp⟩ := Table.mem_select.1 hg
  exact ⟨Table.mem_select.1 hs, hgm, beq_iff_eq.1 hgp⟩

theorem run_requireOpenSession {userId sessionId : Id} {slug : GameSlug} {db t : Db} {session : GameSession}
    {game : Game} (h : (requireOpenSession userId sessionId slug).run exec db = (.ok (session, game), t)) :
    OpenSession db userId sessionId slug session game := by
  unfold requireOpenSession at h
  rw [ask_bind, Prog.run_stmt rfl] at h
  split at h
  · rename_i s g hhead
    split_ifs at h <;> cases h
    rename_i hslug _ _
    obtain ⟨⟨hsm, hsp⟩, hgm, hgid⟩ := sessionGame_of_head hhead
    rw [Bool.and_eq_true, beq_iff_eq, beq_iff_eq] at hsp
    exact ⟨hsm, hsp.1, hsp.2, hgm, hgid, by simpa using hslug⟩
  · cases h

/-- The check passes: the session is live, and its game can be played. -/
structure AtTable (db : Db) (userId sessionId : Id) (slug : GameSlug) (session : GameSession) (game : Game) : Prop
    extends OpenSession db userId sessionId slug session game where
  live : session.endedAt = none
  active : game.isActive = true
  serviced : game.underMaintenance = false

theorem AtTable.of_run {userId sessionId : Id} {slug : GameSlug} {db t : Db} {session : GameSession} {game : Game}
    (h : (requireOpenSession userId sessionId slug).run exec db = (.ok (session, game), t)) :
    AtTable db userId sessionId slug session game := by
  suffices hlive : session.endedAt = none ∧ game.isActive = true ∧ game.underMaintenance = false from
    ⟨run_requireOpenSession h, hlive.1, hlive.2.1, hlive.2.2⟩
  unfold requireOpenSession at h
  rw [ask_bind, Prog.run_stmt rfl] at h
  split at h
  · split_ifs at h <;> cases h
    rename_i hend _ hactive hmaint _
    exact ⟨by simpa using hend, by simpa using hactive, by simpa using hmaint⟩
  · cases h

/-- The check looks at sessions and games only. -/
theorem AtTable.of_eq {userId sessionId : Id} {slug : GameSlug} {db t : Db} {session : GameSession} {game : Game}
    (h : AtTable db userId sessionId slug session game) (hs : t.gameSessions = db.gameSessions)
    (hg : t.games = db.games) : AtTable t userId sessionId slug session game :=
  ⟨⟨by rw [hs]; exact h.session_mem, h.session_id, h.session_user, by rw [hg]; exact h.game_mem, h.game_id,
    h.game_slug⟩,
    h.live, h.active, h.serviced⟩

/-- Where the check can pass, it does. -/
theorem AtTable.run {userId sessionId : Id} {slug : GameSlug} {db : Db} {session : GameSession} {game : Game}
    (h : AtTable db userId sessionId slug session game) :
    (requireOpenSession userId sessionId slug).run exec db = (.ok (session, game), db) := by
  have hs : (db.gameSessions.select fun s => s.id == sessionId && s.userId == userId) = [session] :=
    db.gameSessions.select_eq_of_key (k := ("id", sessionId)) h.session_mem (by simp [h.session_id, h.session_user])
      fun a _ ha => by
        rw [Bool.and_eq_true, beq_iff_eq] at ha
        simp [Keyed.keys, ha.1]
  have hg : db.gamesOf session = [game] :=
    db.games.select_eq_of_key (k := ("id", session.gameId)) h.game_mem (by simp [h.game_id]) fun a _ ha => by
      simp [Keyed.keys, beq_iff_eq.1 ha]
  have hq : exec (.selectSessionGame fun s => s.id == sessionId && s.userId == userId) db =
      .ok ([(session, game)], db) := by
    simp only [exec, hs, List.flatMap_cons, List.flatMap_nil, hg, List.map_cons, List.map_nil, List.append_nil]
  unfold requireOpenSession
  rw [ask_bind, Prog.run_stmt hq]
  simp [h.live, h.active, h.serviced, h.game_slug]

theorem selectsBet_findRound (userId sessionId : Id) (betReference : String) :
    OneRead Stmt.selectsBet (findRound userId sessionId betReference) := by
  refine oneRead_ask rfl fun r => ?_
  split
  · split_ifs <;> rfl
  · rfl

theorem oneRead_findRound (userId sessionId : Id) (betReference : String) :
    OneRead Stmt.isRead (findRound userId sessionId betReference) := by
  obtain ⟨q, k, hp, hq, hk⟩ := selectsBet_findRound userId sessionId betReference
  exact ⟨q, k, hp, isRead_of_selectsBet q hq, hk⟩

/-- The bet that a reveal or a cash-out found open. -/
structure OpenRound (db : Db) (userId sessionId : Id) (betReference : String) (bet : Bet) : Prop where
  mem : bet ∈ db.bets.rows
  reference : bet.reference = betReference
  user : bet.userId = userId
  session : bet.sessionId = some sessionId
  status : bet.status = .open

theorem run_findRound {userId sessionId : Id} {betReference : String} {db t : Db} {bet : Bet}
    (h : (findRound userId sessionId betReference).run exec db = (.ok bet, t)) :
    OpenRound db userId sessionId betReference bet := by
  unfold findRound at h
  rw [ask_bind, Prog.run_stmt rfl] at h
  split at h
  · rename_i b hhead
    split_ifs at h with hs <;> cases h
    obtain ⟨hm, hp⟩ := Table.mem_of_select_head hhead
    simp only [Bool.and_eq_true, beq_iff_eq] at hp
    exact ⟨hm, hp.1.1, hp.1.2, hp.2, by simpa using hs⟩
  · cases h

/-- The store after an update of the bet. -/
def Db.setBet (db : Db) (bet : Bet) (set : BetSet) : Db :=
  { db with bets := db.bets.update (fun b => b.id == bet.id) set }

/-- The check finds every open bet. -/
theorem findRound_of {userId sessionId : Id} {betReference : String} {db : Db} {bet : Bet}
    (hb : OpenRound db userId sessionId betReference bet) :
    (findRound userId sessionId betReference).run exec db = (.ok bet, db) := by
  have hsel : (db.bets.select fun b =>
      b.reference == betReference && b.userId == userId && b.sessionId == some sessionId) = [bet] := by
    refine db.bets.select_eq_of_key (k := ("reference", betReference)) hb.mem ?_ fun a _ ha => ?_
    · simp [hb.reference, hb.user, hb.session]
    · simp only [Bool.and_eq_true, beq_iff_eq] at ha
      simp [Keyed.keys, ha.1.1]
  unfold findRound
  rw [ask_bind, Prog.run_stmt (show exec (.selectBet _) db = .ok ([bet], db) by rw [← hsel]; rfl)]
  simp [hb.status]

theorem openRound_setBet {userId sessionId : Id} {betReference : String} {db : Db} {bet : Bet}
    (hb : OpenRound db userId sessionId betReference bet) {set : BetSet} (hset : set.status = none) :
    OpenRound (db.setBet bet set) userId sessionId betReference (Settable.apply set bet) where
  mem := Table.mem_update.2 ⟨bet, hb.mem, Table.updateRow_pos (by simp)⟩
  reference := hb.reference
  user := hb.user
  session := hb.session
  status := by
    simp only [Settable.apply, hset, Option.getD_none]
    exact hb.status

theorem oneRead_nextNonce (userId : Id) : OneRead Stmt.isRead (nextNonce userId) := oneRead_ask rfl fun _ => rfl

theorem oneRead_getControlRule (userId gameId : Id) : OneRead Stmt.isRead (getControlRule userId gameId) :=
  oneRead_ask rfl fun _ => rfl

/-- The row that is preferred is one of the rows. -/
theorem mem_of_preferred {α : Type} {rows : List α} {p : α → Bool} {row : α}
    (h : (rows.find? p).or rows.head? = some row) : row ∈ rows := by
  rcases Option.or_eq_some_iff.1 h with hfind | ⟨-, hhead⟩
  · exact List.mem_of_find?_eq_some hfind
  · exact List.mem_of_head? hhead

theorem run_getControlRule {userId gameId : Id} {db t : Db} {row : UserGameControl}
    (h : (getControlRule userId gameId).run exec db = (.ok (some row), t)) : row ∈ db.userGameControl.rows := by
  have hrow := Except.ok.inj (Prod.mk.inj h).1
  exact (Table.mem_select.1 (mem_of_preferred hrow)).1

theorem oneRead_findOpen (userId gameId sessionId : Id) : OneRead Stmt.isRead (findOpen userId gameId sessionId) :=
  oneRead_ask rfl fun _ => rfl

/-- The checks that decide without a statement. -/
theorem done_orFail {α : Type} (a : Except RpcError α) : (orFail a).done = true := by cases a <;> rfl

theorem done_orInvalid {α : Type} (a : Except String α) : (orInvalid a).done = true := by cases a <;> rfl

theorem done_orThrew {α : Type} (a : Option α) : (orThrew a).done = true := by cases a <;> rfl

/-- A check without a statement returns what it is. -/
theorem run_done {α : Type} {p : Sql α} (hp : p.done = true) {db t : Db} {x : α} (h : p.run exec db = (.ok x, t)) :
    p = .ret x := by
  obtain ⟨a, rfl⟩ | ⟨e, rfl⟩ := Prog.done_cases hp
  · cases h
    rfl
  · cases h

theorem orInvalid_ok {α : Type} {a : Except String α} {x : α} (h : orInvalid a = .ret x) : a = .ok x := by
  cases a <;> cases h
  rfl

theorem orFail_ok {α : Type} {a : Except RpcError α} {x : α} (h : orFail a = .ret x) : a = .ok x := by
  cases a <;> cases h
  rfl

theorem orThrew_ok {α : Type} {a : Option α} {x : α} (h : orThrew a = .ret x) : a = some x := by
  cases a <;> cases h
  rfl

theorem parseStake_pos {stakeInput : Num} {minBet maxBet stake : Money}
    (h : parseStake stakeInput minBet maxBet = .ok stake) : 0 < stake := by
  unfold parseStake at h
  split at h
  · cases h
  · split_ifs at h with hpos
    cases h
    exact not_le.1 hpos

theorem canPay_user {userId : Id} {stake : Money} {w : SminkWallet} (h : canPay userId stake w = true) :
    w.userId = userId := by
  simp only [canPay, Bool.and_eq_true, beq_iff_eq] at h
  exact h.1

/-! ## The requests that only read -/

theorem reads_getPlayableGame (userId : Id) (slug : GameSlug) : Reads Stmt.isRead (getPlayableGame userId slug) := by
  refine reads_ask rfl fun r => ?_
  split
  · split_ifs
    · trivial
    · trivial
    · refine reads_ask rfl fun r' => ?_
      split_ifs <;> trivial
  · trivial

theorem reads_toSessionDto (now : Time) (sessionId : Id) (gameSlug : GameSlug) :
    Reads Stmt.isRead (toSessionDto now sessionId gameSlug) :=
  ⟨rfl, fun _ => ⟨rfl, fun _ => trivial⟩⟩

theorem reads_getSession (fresh : Fresh) (userId sessionId : Id) :
    Reads Stmt.isRead (getSession fresh userId sessionId) := by
  refine reads_ask rfl fun r => ?_
  split
  · exact reads_toSessionDto ..
  · trivial

theorem reads_getOpenMines (userId sessionId : Id) : Reads Stmt.isRead (getOpenMines userId sessionId) := by
  refine reads_bind (oneRead_requireOpenSession ..).reads fun ⟨session, game⟩ => ?_
  refine reads_bind (oneRead_findOpen ..).reads fun bet => ?_
  split <;> trivial

theorem reads_getOpenTowers (userId sessionId : Id) : Reads Stmt.isRead (getOpenTowers userId sessionId) := by
  refine reads_bind (oneRead_requireOpenSession ..).reads fun ⟨session, game⟩ => ?_
  refine reads_bind (oneRead_findOpen ..).reads fun bet => ?_
  split
  · exact reads_bind (reads_of_done (done_orThrew _)) fun _ => trivial
  · trivial

end Smink
