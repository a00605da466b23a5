import Smink.Play.Reads
import Smink.Store.Mirror

/-!
# Two databases that differ in a hidden layout

A `Layout` says where the mines or the traps of a round are. `Db.relay betId L db` is `db` with the layout of one bet
replaced by `L`, and `Secret betId L db` says that `L` could be the layout for all the player knows: the bet is of the
same kind and has as many mines, and belongs to a session of its game.

A statement runs alike on the two databases, up to the layout in the rows of `bets` that it answers with. So every part
of a request that looks at no outcome is `Unaware` of the layout.
-/

namespace Smink

open Store

inductive Layout
  | mines (minePositions : List Nat)
  | towers (traps : List (List Nat))
  deriving DecidableEq

/-- The game whose rounds have layouts of the kind. -/
def Layout.slug : Layout → GameSlug
  | .mines _ => .mines
  | .towers _ => .towers

/-- An outcome with its layout replaced. -/
def Layout.into : Layout → GameOutcome → GameOutcome
  | .mines minePositions, .mines _ revealed => .mines minePositions revealed
  | .towers traps, .towers _ picks => .towers traps picks
  | _, outcome => outcome

/-- Another layout of the same kind; the number of mines is the player's own choice. -/
def Layout.Hides : Layout → GameOutcome → Prop
  | .mines hidden, .mines minePositions _ => hidden.length = minePositions.length ∧ hidden ≠ minePositions
  | .towers hidden, .towers traps _ => hidden ≠ traps
  | _, _ => False

instance (L : Layout) (outcome : GameOutcome) : Decidable (L.Hides outcome) := by
  unfold Layout.Hides
  split <;> infer_instance

theorem Layout.Hides.into_ne {L : Layout} {outcome : GameOutcome} (h : L.Hides outcome) : L.into outcome ≠ outcome := by
  cases L <;> cases outcome <;> simp_all [Layout.Hides, Layout.into]

variable {betId : Id} {L : Layout}

/-! ## The two databases -/

def Bet.relay (betId : Id) (L : Layout) (bet : Bet) : Bet :=
  if bet.id = betId then { bet with outcome := bet.outcome.map L.into } else bet

theorem relay_of_ne {bet : Bet} (h : bet.id ≠ betId) : bet.relay betId L = bet := if_neg h

theorem relay_of_eq {bet : Bet} (h : bet.id = betId) :
    bet.relay betId L = { bet with outcome := bet.outcome.map L.into } := if_pos h

theorem keys_relay (bet : Bet) : Keyed.keys (bet.relay betId L) = Keyed.keys bet := by
  unfold Bet.relay
  split <;> rfl

/-- The columns other than the outcome are kept. -/
@[simp] theorem relay_id (bet : Bet) : (bet.relay betId L).id = bet.id := by unfold Bet.relay; split <;> rfl

@[simp] theorem relay_userId (bet : Bet) : (bet.relay betId L).userId = bet.userId := by
  unfold Bet.relay; split <;> rfl

@[simp] theorem relay_gameId (bet : Bet) : (bet.relay betId L).gameId = bet.gameId := by
  unfold Bet.relay; split <;> rfl

@[simp] theorem relay_sessionId (bet : Bet) : (bet.relay betId L).sessionId = bet.sessionId := by
  unfold Bet.relay; split <;> rfl

@[simp] theorem relay_reference (bet : Bet) : (bet.relay betId L).reference = bet.reference := by
  unfold Bet.relay; split <;> rfl

@[simp] theorem relay_status (bet : Bet) : (bet.relay betId L).status = bet.status := by
  unfold Bet.relay; split <;> rfl

@[simp] theorem relay_stake (bet : Bet) : (bet.relay betId L).stake = bet.stake := by
  unfold Bet.relay; split <;> rfl

@[simp] theorem relay_createdAt (bet : Bet) : (bet.relay betId L).createdAt = bet.createdAt := by
  unfold Bet.relay; split <;> rfl

def Db.relay (betId : Id) (L : Layout) (db : Db) : Db :=
  { db with bets := db.bets.relabel (Bet.relay betId L) keys_relay }

/-- The session is one of the game. -/
def Seated (sessionId : Id) (slug : GameSlug) (db : Db) : Prop :=
  ∃ session ∈ db.gameSessions.rows, session.id = sessionId ∧
    ∃ game ∈ db.games.rows, game.id = session.gameId ∧ game.slug = slug

/-- The row of the bet hides its layout, and its session is one of its game. -/
def HiddenIn (L : Layout) (db : Db) (bet : Bet) : Prop :=
  (∃ outcome ∈ bet.outcome, L.Hides outcome) ∧ ∃ sessionId ∈ bet.sessionId, Seated sessionId L.slug db

def Secret (betId : Id) (L : Layout) (db : Db) : Prop :=
  ∃ bet ∈ db.bets.rows, bet.id = betId ∧ HiddenIn L db bet

instance (betId : Id) (L : Layout) (db : Db) : Decidable (Secret betId L db) := by
  unfold Secret HiddenIn Seated
  infer_instance

theorem Secret.hiddenIn {db : Db} (h : Secret betId L db) {bet : Bet} (hb : bet ∈ db.bets.rows) (hid : bet.id = betId) :
    HiddenIn L db bet := by
  obtain ⟨row, hrow, hrid, hidden⟩ := h
  obtain rfl := bet_eq_of_id hb hrow (hid.trans hrid.symm)
  exact hidden

/-- The checks of another game's requests do not let the bet through. -/
theorem Secret.slug_eq {db : Db} (h : Secret betId L db) {userId sessionId : Id} {slug : GameSlug}
    {session : GameSession} {game : Game} (ho : OpenSession db userId sessionId slug session game) {bet : Bet}
    (hb : bet ∈ db.bets.rows) (hid : bet.id = betId) (hsession : bet.sessionId = some sessionId) : L.slug = slug := by
  obtain ⟨-, _, hsid, s, hs, hsid', g, hg, hgid, hslug⟩ := h.hiddenIn hb hid
  rw [hsession] at hsid
  cases hsid
  obtain rfl : s = session := session_eq_of_id hs ho.session_mem (hsid'.trans ho.session_id.symm)
  obtain rfl : g = game := game_eq_of_id hg ho.game_mem (hgid.trans ho.game_id.symm)
  exact hslug.symm.trans ho.game_slug

theorem Secret.insertBet {db : Db} (h : Secret betId L db) {r : Bet} {t : Table Bet}
    (ht : db.bets.insert r = some t) : Secret betId L { db with bets := t } := by
  obtain ⟨bet, hb, hid, hidden⟩ := h
  exact ⟨bet, by rw [Table.rows_insert ht]; exact List.mem_append_left _ hb, hid, hidden⟩

/-- An update that writes an outcome to the bet writes one that hides the layout. -/
theorem Secret.updateBet {db : Db} (h : Secret betId L db) {p : Bet → Bool} {set : BetSet}
    (hset : ∀ bet, p bet = true → bet.id = betId → ∀ outcome ∈ set.outcome, L.Hides outcome) :
    Secret betId L { db with bets := db.bets.update p set } := by
  obtain ⟨bet, hb, hid, ⟨outcome, hout, hides⟩, hsession⟩ := h
  refine ⟨_, Table.mem_update.2 ⟨bet, hb, rfl⟩, ?_⟩
  cases hp : p bet with
  | false =>
    rw [Table.updateRow_neg hp]
    exact ⟨hid, ⟨outcome, hout, hides⟩, hsession⟩
  | true =>
    rw [Table.updateRow_pos hp]
    refine ⟨hid, ?_, hsession⟩
    cases hnew : set.outcome with
    | none => exact ⟨outcome, by simpa [Settable.apply, hnew] using hout, hides⟩
    | some new => exact ⟨new, by simp [Settable.apply, hnew], hset bet hp hid new hnew⟩

/-! ## Statements -/

/-- The statement does not touch `bets`. -/
def Stmt.offBets : Stmt → Bool
  | .selectBet _ | .insertBet _ | .updateBet _ _ => false
  | _ => true

theorem exec_relay {q : Stmt} (h : q.offBets = true) (db : Db) :
    exec q (db.relay betId L) = (exec q db).map fun x => (x.1, x.2.relay betId L) := by
  cases q with
  | selectBet p => cases h
  | insertBet r => cases h
  | updateBet p set => cases h
  | insertSession r =>
    simp only [exec, Db.relay]
    cases db.gameSessions.insert r <;> rfl
  | insertTransactions rs =>
    simp only [exec, Db.relay]
    cases db.sminkTransactions.insertAll rs <;> rfl
  | insertWallet userId =>
    simp only [exec, Db.relay]
    split <;> rfl
  | _ => rfl

/-- No statement removes a session or a game, or moves a session to another game. -/
theorem seated_exec {sessionId : Id} {slug : GameSlug} {q : Stmt} {db t : Db} {r : q.Resp}
    (hs : Seated sessionId slug db) (hq : exec q db = .ok (r, t)) : Seated sessionId slug t := by
  obtain ⟨session, hmem, hid, hgame⟩ := hs
  cases q with
  | insertSession row =>
    obtain ⟨u, hu, heq⟩ := orThrow_ok hq
    cases heq
    exact ⟨session, by rw [Table.rows_insert hu]; exact List.mem_append_left _ hmem, hid, hgame⟩
  | updateSession p set =>
    cases hq
    refine ⟨_, Table.mem_update.2 ⟨session, hmem, rfl⟩, ?_⟩
    unfold Table.updateRow
    split <;> exact ⟨hid, hgame⟩
  | insertBet row =>
    obtain ⟨u, -, heq⟩ := orThrow_ok hq
    cases heq
    exact ⟨session, hmem, hid, hgame⟩
  | insertTransactions rs =>
    obtain ⟨u, -, heq⟩ := orThrow_ok hq
    cases heq
    exact ⟨session, hmem, hid, hgame⟩
  | insertWallet userId =>
    simp only [exec] at hq
    split at hq <;> cases hq <;> exact ⟨session, hmem, hid, hgame⟩
  | _ => cases hq; exact ⟨session, hmem, hid, hgame⟩

theorem bets_exec {q : Stmt} (h : q.offBets = true) {db t : Db} {r : q.Resp} (hq : exec q db = .ok (r, t)) :
    t.bets = db.bets := by
  cases q with
  | selectBet p => cases h
  | insertBet r => cases h
  | updateBet p set => cases h
  | insertSession row =>
    obtain ⟨u, -, heq⟩ := orThrow_ok hq
    cases heq
    rfl
  | insertTransactions rs =>
    obtain ⟨u, -, heq⟩ := orThrow_ok hq
    cases heq
    rfl
  | insertWallet userId =>
    simp only [exec] at hq
    split at hq <;> cases hq <;> rfl
  | _ => cases hq; rfl

theorem secret_exec {q : Stmt} (h : q.offBets = true) {db t : Db} {r : q.Resp} (hs : Secret betId L db)
    (hq : exec q db = .ok (r, t)) : Secret betId L t := by
  obtain ⟨bet, hb, hid, hout, sessionId, hsession, hseated⟩ := hs
  exact ⟨bet, by rw [bets_exec h hq]; exact hb, hid, hout, sessionId, hsession, seated_exec hseated hq⟩

/-! ## Programs that look at no outcome -/

/-- The program runs alike on both databases. -/
abbrev Unaware (betId : Id) (L : Layout) {α : Type} (p : Sql α) : Prop :=
  Blind (Db.relay betId L) exec (Secret betId L) p

theorem unaware_ask {α : Type} {q : Stmt} {k : q.Resp → Sql α} (hq : q.offBets = true)
    (hk : ∀ r, Unaware betId L (k r)) : Unaware betId L (ask q >>= k) :=
  blind_bind (blind_query (fun db _ => exec_relay hq db) fun _ _ _ hs h => secret_exec hq hs h) hk

theorem unaware_perform {α : Type} {q : Stmt} {k : Unit → Sql α} (hq : q.offBets = true)
    (hk : Unaware betId L (k ())) : Unaware betId L (perform q >>= k) :=
  unaware_ask (k := fun _ => k ()) hq fun _ => hk

theorem unaware_insertBet {α : Type} {r : Bet} {k : Unit → Sql α} (hk : Unaware betId L (k ())) :
    Unaware betId L (perform (.insertBet r) >>= k) := by
  refine blind_bind (p := Prog.query (.insertBet r)) (k := fun _ => k ()) (blind_query ?_ ?_) fun _ => hk
  · intro db hs
    simp only [exec, Db.relay]
    cases hins : db.bets.insert r with
    | none => rw [Table.insert_relabel_none hins]; rfl
    | some t =>
      -- the id of the new row is not that of a row that is there
      have hne : r.id ≠ betId := by
        rintro rfl
        obtain ⟨bet, hb, hid, -⟩ := hs
        exact Table.apart_of_insert hins bet hb ("id", bet.id) (by simp [Keyed.keys]) (by simp [Keyed.keys, hid])
      rw [Table.insert_relabel hins (relay_of_ne hne)]
      rfl
  · intro db _ t hs hq
    obtain ⟨u, hu, heq⟩ := orThrow_ok hq
    cases heq
    exact hs.insertBet hu

/-- A statement that does not touch `bets`, with its answer. -/
theorem mirror_ask {α : Type} {q : Stmt} {k k' : q.Resp → Sql α} {db t : Db} {r : q.Resp}
    {Q : Except Fault α → Except Fault α → Db → Prop} (hq : q.offBets = true) (he : exec q db = .ok (r, t))
    (hk : Mirror (Db.relay betId L) exec (k r) (k' r) t Q) :
    Mirror (Db.relay betId L) exec (ask q >>= k) (ask q >>= k') db Q :=
  mirror_stmt he (by rw [exec_relay hq, he]; rfl) hk

/-- A `SELECT` that looks at no outcome finds the same bets. -/
theorem mirror_selectBet {α : Type} {p : Bet → Bool} {k k' : List Bet → Sql α} {db : Db}
    {Q : Except Fault α → Except Fault α → Db → Prop} (hp : ∀ bet, p (bet.relay betId L) = p bet)
    (hk : Mirror (Db.relay betId L) exec (k (db.bets.select p))
      (k' ((db.bets.select p).map (Bet.relay betId L))) db Q) :
    Mirror (Db.relay betId L) exec (ask (.selectBet p) >>= k) (ask (.selectBet p) >>= k') db Q := by
  have hsel : (db.bets.relabel (Bet.relay betId L) keys_relay).select p = (db.bets.select p).map (Bet.relay betId L) :=
    Table.select_relabel hp
  have himage : exec (.selectBet p) (db.relay betId L) =
      .ok ((db.bets.select p).map (Bet.relay betId L), db.relay betId L) := by
    rw [← hsel]
    rfl
  exact mirror_stmt (q := Stmt.selectBet p) rfl himage hk

theorem unaware_selectBet {α : Type} {p : Bet → Bool} {k : List Bet → Sql α}
    (hp : ∀ bet, p (bet.relay betId L) = p bet) (hrows : ∀ rows, k (rows.map (Bet.relay betId L)) = k rows)
    (hk : ∀ rows, Unaware betId L (k rows)) : Unaware betId L (ask (.selectBet p) >>= k) := by
  intro db hs
  refine mirror_selectBet hp ?_
  rw [hrows]
  exact hk _ db hs

/-- What an update of the bet writes on the other database. -/
def BetSet.relay (L : Layout) (set : BetSet) : BetSet := { set with outcome := set.outcome.map L.into }

theorem apply_relay (set : BetSet) {bet : Bet} (h : bet.id = betId) :
    Settable.apply (set.relay L) (bet.relay betId L) = (Settable.apply set bet).relay betId L := by
  rw [relay_of_eq h, relay_of_eq (by exact h)]
  cases ho : set.outcome <;> simp [Settable.apply, BetSet.relay, ho]

theorem apply_relay_of_ne (set : BetSet) {bet : Bet} (h : bet.id ≠ betId) :
    Settable.apply set (bet.relay betId L) = (Settable.apply set bet).relay betId L := by
  rw [relay_of_ne h, relay_of_ne (by exact h)]

/-- An update of the bet: its outcome is written with the other layout. -/
theorem mirror_updateBet {α : Type} {set : BetSet} {k k' : Unit → Sql α} {db : Db}
    {Q : Except Fault α → Except Fault α → Db → Prop}
    (hk : Mirror (Db.relay betId L) exec (k ()) (k' ())
      { db with bets := db.bets.update (fun b => b.id == betId) set } Q) :
    Mirror (Db.relay betId L) exec (perform (.updateBet (fun b => b.id == betId) set) >>= k)
      (perform (.updateBet (fun b => b.id == betId) (set.relay L)) >>= k') db Q := by
  have hupd : (db.relay betId L).bets.update (fun b => b.id == betId) (set.relay L) =
      (db.bets.update (fun b => b.id == betId) set).relabel (Bet.relay betId L) keys_relay :=
    Table.update_relabel (fun bet => by rw [relay_id]) fun bet hbet => apply_relay set (beq_iff_eq.1 hbet)
  have himage : exec (.updateBet (fun b => b.id == betId) (set.relay L)) (db.relay betId L) =
      .ok ((), Db.relay betId L { db with bets := db.bets.update (fun b => b.id == betId) set }) := by
    simp only [exec, hupd]
    rfl
  exact mirror_stmt (q := Stmt.updateBet _ set) rfl himage hk

/-- An update of another bet, or one that writes no outcome. -/
theorem unaware_updateBet {α : Type} {id : Id} {set : BetSet} {k : Unit → Sql α}
    (hset : set.outcome = none ∨ id ≠ betId) (hk : Unaware betId L (k ())) :
    Unaware betId L (perform (.updateBet (fun b => b.id == id) set) >>= k) := by
  refine blind_bind (p := Prog.query (.updateBet (fun b => b.id == id) set)) (k := fun _ => k ()) (blind_query ?_ ?_)
    fun _ => hk
  · intro db _
    have hupd : (db.relay betId L).bets.update (fun b => b.id == id) set =
        (db.bets.update (fun b => b.id == id) set).relabel (Bet.relay betId L) keys_relay := by
      refine Table.update_relabel (fun bet => by rw [relay_id]) fun bet hbet => ?_
      by_cases hid : bet.id = betId
      · obtain hnone | hne := hset
        · have hsame : set.relay L = set := by
            cases set
            cases hnone
            rfl
          rw [← apply_relay set hid, hsame]
        · exact absurd (beq_iff_eq.1 hbet ▸ hid) hne
      · exact apply_relay_of_ne set hid
    simp only [exec, hupd]
    rfl
  · intro db _ t hs hq
    cases hq
    refine hs.updateBet fun bet hbet hid outcome hout => ?_
    obtain hnone | hne := hset
    · rw [hnone] at hout
      cases hout
    · exact absurd (beq_iff_eq.1 hbet ▸ hid) hne

/-! ## The checks and the shared parts of a round -/

theorem unaware_done {α : Type} {p : Sql α} (h : p.done = true) : Unaware betId L p := blind_of_done h

theorem unaware_requireOpenSession (userId sessionId : Id) (slug : GameSlug) :
    Unaware betId L (requireOpenSession userId sessionId slug) := by
  refine unaware_ask rfl fun r => ?_
  split
  · split_ifs <;> exact unaware_done rfl
  · exact unaware_done rfl

theorem unaware_getPlayableGame (userId : Id) (slug : GameSlug) : Unaware betId L (getPlayableGame userId slug) := by
  refine unaware_ask rfl fun r => ?_
  split
  · split_ifs
    · exact unaware_done rfl
    · exact unaware_done rfl
    · refine unaware_ask rfl fun r' => ?_
      split_ifs <;> exact unaware_done rfl
  · exact unaware_done rfl

theorem unaware_bumpSession (sessionId : Id) (staked won : Money) :
    Unaware betId L (bumpSession sessionId staked won) :=
  unaware_perform (k := fun _ => .ret ()) rfl (unaware_done rfl)

theorem unaware_requireWallet (userId : Id) : Unaware betId L (requireWallet userId) := by
  have hget : Unaware betId L (getOrCreate userId) := by
    refine unaware_ask rfl fun existing => ?_
    split
    · exact unaware_done rfl
    · refine unaware_ask rfl fun created => ?_
      split
      · exact unaware_done rfl
      · exact unaware_ask rfl fun _ => unaware_done rfl
  refine blind_bind hget fun wallet => ?_
  split
  · split_ifs <;> exact unaware_done rfl
  · exact unaware_done rfl

theorem unaware_nextNonce (userId : Id) : Unaware betId L (nextNonce userId) :=
  unaware_selectBet (fun bet => by rw [relay_userId]) (fun rows => by rw [List.length_map]) fun _ => unaware_done rfl

theorem unaware_getControlRule (userId gameId : Id) : Unaware betId L (getControlRule userId gameId) :=
  unaware_ask rfl fun _ => unaware_done rfl

theorem unaware_consumeForcedRound (row : Option UserGameControl) : Unaware betId L (consumeForcedRound row) := by
  unfold consumeForcedRound
  split
  · exact unaware_done rfl
  · split_ifs
    · exact unaware_done rfl
    · exact unaware_done rfl
    · exact unaware_perform (k := fun _ => .ret ()) rfl (unaware_done rfl)

/-- A bet is opened without a look at the outcome of another. -/
theorem unaware_openRound {Sel : Type} (G : GridGame Sel) (D : Digest) (fresh : Fresh) (userId sessionId : Id)
    (stakeInput : Num) (selectionInput : RawSelection) :
    Unaware betId L (openRound G D fresh userId sessionId stakeInput selectionInput) := by
  refine blind_bind (unaware_requireOpenSession _ _ _) fun ⟨_, game⟩ => ?_
  refine blind_bind (unaware_done (done_orInvalid _)) fun validated => ?_
  refine blind_bind (unaware_done (done_orFail _)) fun stake => ?_
  refine unaware_selectBet (fun bet => by rw [relay_userId, relay_gameId, relay_status])
    (fun rows => by rw [List.head?_map, Option.isSome_map]) fun opened => ?_
  split_ifs
  · exact unaware_done rfl
  refine blind_bind (unaware_requireWallet _) fun wallet => ?_
  refine blind_bind (unaware_nextNonce _) fun nonce => ?_
  refine blind_bind (unaware_getControlRule _ _) fun row => ?_
  refine blind_bind (unaware_done (done_orThrew _)) fun selection => ?_
  refine blind_bind (unaware_ask rfl fun debited => ?_) fun _ => ?_
  · split <;> exact unaware_done rfl
  refine unaware_insertBet (unaware_perform rfl ?_)
  exact blind_bind (unaware_bumpSession _ _ _) fun _ => unaware_done rfl

theorem unaware_payOut (fresh : Fresh) (slug : GameSlug) (userId sessionId : Id) (betReference : String) (bet : Bet) :
    Unaware betId L (payOut fresh slug userId sessionId betReference bet) := by
  refine unaware_ask rfl fun wallets => ?_
  refine unaware_updateBet (.inl rfl) (unaware_perform rfl ?_)
  exact blind_bind (unaware_bumpSession _ _ _) fun _ => unaware_done rfl

end Smink
