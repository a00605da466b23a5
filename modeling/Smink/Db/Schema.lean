import Smink.Engine.Resolver
import Smink.Store.Prog
import Smink.Store.Table

/-!
# The database

The rows of `libs/db/src/schema.ts` that the engine and the worker read, the `SET` parts their updates use, and the
statements they issue. Relative updates (`balance + x`, `GREATEST(locked - x, 0)`) are part of the `SET` value, so a
statement is atomic whatever its row held before.

`exec` is the meaning of one statement. It throws exactly when an insert violates a unique index; every other way a
statement can throw is a fault of the connection, which the semantics of programs adds.
-/

namespace Smink

open Store

abbrev Id := String

/-- Milliseconds since the epoch. -/
abbrev Time := ℤ

inductive BetStatus
  | open | won | lost | cashedOut | void
  deriving DecidableEq, Repr

inductive TxType
  | deposit | withdrawal | stake | payout | bonus | adjustment
  deriving DecidableEq, Repr

inductive TxStatus
  | pending | review | confirmed | failed | cancelled
  deriving DecidableEq, Repr

/-! ## Rows -/

structure User where
  id : Id
  createdAt : Time
  deriving DecidableEq

structure Game where
  id : Id
  slug : GameSlug
  minBet : Money
  maxBet : Money
  houseEdge : ℚ
  difficulty : ℤ
  maxMultiplier : ℚ
  isActive : Bool
  underMaintenance : Bool
  deriving DecidableEq

structure GameSession where
  id : Id
  userId : Id
  gameId : Id
  betCount : ℤ := 0
  totalStaked : Money := 0
  totalWon : Money := 0
  startedAt : Time
  endedAt : Option Time := none
  deriving DecidableEq

structure SminkWallet where
  userId : Id
  balance : Money := 0
  lockedBalance : Money := 0
  totalWagered : Money := 0
  totalWon : Money := 0
  totalDeposited : Money := 0
  isLocked : Bool := false
  difficulty : Option ℤ := none
  gameDifficulties : List (GameSlug × ℚ) := []
  deriving DecidableEq

/-- `metadata.simulate` when it is an object; `Number(…)` has been applied to its numbers. -/
structure SimulateBody where
  amount : Num
  hash : Option String := none
  confirmations : Option Num := none
  tickedAt : Option Time := none
  appearAt : Option Num := none
  deriving DecidableEq

inductive Simulate
  /-- A truthy value that is not an object. -/
  | flag
  | body (b : SimulateBody)
  deriving DecidableEq

/-- The fields of a ledger row's `metadata` that some code reads or writes; a number is the result of `Number(…)`, and
`none` is a missing field or `null`. -/
structure Metadata where
  betReference : Option String := none
  game : Option GameSlug := none
  sessionId : Option Id := none
  /-- The finite result of `Date.parse`, if there is one. -/
  expiresAt : Option Time := none
  requiredConfirmations : Option Num := none
  matchWindow : Option Num := none
  simulate : Option Simulate := none
  txHash : Option String := none
  receivedCrypto : Option Num := none
  confirmations : Option Num := none
  fromAddress : Option String := none
  cancelReason : Option String := none
  needsReview : Bool := false
  reviewReasons : List String := []
  flaggedAt : Option Time := none
  creditedAt : Option Time := none
  creditedBy : Option String := none
  deriving DecidableEq

structure SminkTransaction where
  id : Id
  userId : Id
  type : TxType
  status : TxStatus
  amount : Money
  balanceAfter : Option Money := none
  coin : Option String := none
  network : Option String := none
  address : Option String := none
  amountCrypto : Option ℚ := none
  reference : String
  metadata : Metadata := {}
  completedAt : Option Time := none
  createdAt : Time
  deriving DecidableEq

structure Bet where
  id : Id
  userId : Id
  gameId : Id
  sessionId : Option Id
  reference : String
  stake : Money
  multiplier : ℚ := 0
  payout : Money := 0
  status : BetStatus
  selection : Option GameSelection
  outcome : Option GameOutcome
  serverSeed : String
  serverSeedHash : String
  clientSeed : String
  nonce : Nat
  wasControlled : Bool
  settledAt : Option Time := none
  createdAt : Time
  deriving DecidableEq

structure GameExcluded where
  userId : Id
  gameId : Id
  deriving DecidableEq

structure UserGameControl where
  id : Id
  userId : Id
  /-- `none` applies the rule to every game. -/
  gameId : Option Id
  mode : ControlMode
  winRate : Option ℚ
  forceRounds : ℤ
  maxWinMultiplier : Option ℚ
  deriving DecidableEq

/-- What a round takes from its game's row. -/
def Game.config (game : Game) : RoundConfig := { houseEdge := game.houseEdge, maxMultiplier := game.maxMultiplier }

/-! ## Unique indexes and updates -/

def GameSlug.text : GameSlug → String
  | .dice => "dice"
  | .coinFlip => "coin-flip"
  | .limbo => "limbo"
  | .wheel => "wheel"
  | .mines => "mines"
  | .plinko => "plinko"
  | .towers => "towers"
  | .keno => "keno"
  | .other name => name

instance : Keyed User := ⟨fun r => [("id", r.id)]⟩
instance : Keyed Game := ⟨fun r => [("id", r.id), ("slug", r.slug.text)]⟩
instance : Keyed GameSession := ⟨fun r => [("id", r.id)]⟩
instance : Keyed SminkWallet := ⟨fun r => [("user_id", r.userId)]⟩
instance : Keyed SminkTransaction := ⟨fun r => [("id", r.id), ("reference", r.reference)]⟩
instance : Keyed Bet := ⟨fun r => [("id", r.id), ("reference", r.reference)]⟩
instance : Keyed GameExcluded := ⟨fun r => [("user_id, game_id", r.userId ++ ", " ++ r.gameId)]⟩
instance : Keyed UserGameControl := ⟨fun r => [("id", r.id)]⟩

/-- The counters are relative. -/
structure SessionSet where
  endedAt : Option Time := none
  betCount : ℤ := 0
  totalStaked : Money := 0
  totalWon : Money := 0

instance : Settable GameSession SessionSet where
  apply set r :=
    { r with
      endedAt := set.endedAt.or r.endedAt
      betCount := r.betCount + set.betCount
      totalStaked := r.totalStaked + set.totalStaked
      totalWon := r.totalWon + set.totalWon }
  keys_apply _ _ := rfl

/-- All amounts are relative; `release` is `GREATEST(locked_balance - stake, 0)`. -/
structure WalletSet where
  balance : Money := 0
  lock : Money := 0
  release : Option Money := none
  totalWagered : Money := 0
  totalWon : Money := 0
  totalDeposited : Money := 0

instance : Settable SminkWallet WalletSet where
  apply set r :=
    { r with
      balance := r.balance + set.balance
      lockedBalance := match set.release with
        | none => r.lockedBalance + set.lock
        | some stake => max (r.lockedBalance - stake) 0
      totalWagered := r.totalWagered + set.totalWagered
      totalWon := r.totalWon + set.totalWon
      totalDeposited := r.totalDeposited + set.totalDeposited }
  keys_apply _ _ := rfl

/-- The columns given are overwritten; `completedAt := some none` sets `NULL`. -/
structure TransactionSet where
  status : Option TxStatus := none
  completedAt : Option (Option Time) := none
  metadata : Option Metadata := none
  balanceAfter : Option Money := none

instance : Settable SminkTransaction TransactionSet where
  apply set r :=
    { r with
      status := set.status.getD r.status
      completedAt := set.completedAt.getD r.completedAt
      metadata := set.metadata.getD r.metadata
      balanceAfter := set.balanceAfter.or r.balanceAfter }
  keys_apply _ _ := rfl

/-- The columns given are overwritten. -/
structure BetSet where
  status : Option BetStatus := none
  multiplier : Option ℚ := none
  payout : Option Money := none
  outcome : Option GameOutcome := none
  settledAt : Option Time := none

instance : Settable Bet BetSet where
  apply set r :=
    { r with
      status := set.status.getD r.status
      multiplier := set.multiplier.getD r.multiplier
      payout := set.payout.getD r.payout
      outcome := set.outcome.or r.outcome
      settledAt := set.settledAt.or r.settledAt }
  keys_apply _ _ := rfl

/-- No update opens a bet. -/
theorem open_of_apply {set : BetSet} (hset : set.status ≠ some .open) {b : Bet}
    (h : (Settable.apply set b : Bet).status = .open) : b.status = .open := by
  cases hs : set.status with
  | none => simpa only [Settable.apply, hs, Option.getD_none] using h
  | some status =>
    simp only [Settable.apply, hs, Option.getD_some] at h
    exact absurd (hs.trans (congrArg some h)) hset

/-- `GREATEST(force_rounds - spend, 0)`. -/
structure ControlSet where
  spend : ℤ

instance : Settable UserGameControl ControlSet where
  apply set r := { r with forceRounds := max (r.forceRounds - set.spend) 0 }
  keys_apply _ _ := rfl

/-! ## Statements -/

structure Db where
  users : Table User
  games : Table Game
  gameSessions : Table GameSession
  sminkWallets : Table SminkWallet
  sminkTransactions : Table SminkTransaction
  bets : Table Bet
  gameExcluded : Table GameExcluded
  userGameControl : Table UserGameControl
  deriving DecidableEq

/-- The database with no rows. -/
def Db.empty : Db where
  users := .empty
  games := .empty
  gameSessions := .empty
  sminkWallets := .empty
  sminkTransactions := .empty
  bets := .empty
  gameExcluded := .empty
  userGameControl := .empty

inductive Stmt
  | selectGame (p : Game → Bool)
  | selectExcluded (p : GameExcluded → Bool)
  | selectSession (p : GameSession → Bool)
  /-- `gameSessions` joined with `games` on the session's game. -/
  | selectSessionGame (p : GameSession → Bool)
  | insertSession (r : GameSession)
  | updateSession (p : GameSession → Bool) (set : SessionSet)
  | selectWallet (p : SminkWallet → Bool)
  /-- `ON CONFLICT DO NOTHING`, with the columns' defaults. -/
  | insertWallet (userId : Id)
  | updateWallet (p : SminkWallet → Bool) (set : WalletSet)
  | selectTransaction (p : SminkTransaction → Bool)
  /-- `sminkTransactions` joined with `users` on the row's owner. -/
  | selectTransactionUser (p : SminkTransaction → Bool)
  | insertTransactions (rs : List SminkTransaction)
  | updateTransaction (p : SminkTransaction → Bool) (set : TransactionSet)
  | selectBet (p : Bet → Bool)
  | insertBet (r : Bet)
  | updateBet (p : Bet → Bool) (set : BetSet)
  | selectControl (p : UserGameControl → Bool)
  | updateControl (p : UserGameControl → Bool) (set : ControlSet)

/-- What a statement answers with: rows, also from `RETURNING`. -/
def Stmt.Resp : Stmt → Type
  | selectGame _ => List Game
  | selectExcluded _ => List GameExcluded
  | selectSession _ => List GameSession
  | selectSessionGame _ => List (GameSession × Game)
  | insertSession _ => Unit
  | updateSession _ _ => Unit
  | selectWallet _ => List SminkWallet
  | insertWallet _ => List SminkWallet
  | updateWallet _ _ => List SminkWallet
  | selectTransaction _ => List SminkTransaction
  | selectTransactionUser _ => List (SminkTransaction × User)
  | insertTransactions _ => Unit
  | updateTransaction _ _ => List SminkTransaction
  | selectBet _ => List Bet
  | insertBet _ => Unit
  | updateBet _ _ => Unit
  | selectControl _ => List UserGameControl
  | updateControl _ _ => Unit

/-! ## Programs -/

inductive ErrorCode
  | unauthorized | disconnected | validation | insufficient | unavailable
  deriving DecidableEq, Repr

/-- The body of an answer `{ ok: false, error, code }`. -/
structure RpcError where
  error : String
  code : ErrorCode
  deriving DecidableEq

/-- Why a call stops early. -/
inductive Fault
  /-- It answers `{ ok: false }`; no caller continues after that. -/
  | fail (e : RpcError)
  /-- An exception. -/
  | threw
  deriving DecidableEq

/-- The programs of the services. -/
abbrev Sql (α : Type) := Prog Stmt.Resp Fault α

/-- One statement. -/
def ask (q : Stmt) : Sql q.Resp := Prog.query q

/-- One statement whose answer is not looked at. -/
def perform (q : Stmt) : Sql Unit := .stmt q fun _ => .ret ()

/-- `return fail(error, code)`. -/
def fail {α : Type} (error : String) (code : ErrorCode) : Sql α := .throw (.fail { error, code })

/-- An `INSERT` whose unique index refuses it throws. -/
def orThrow {α β : Type} (a : Option α) (f : α → β) : Except Fault β :=
  match a with
  | some a => .ok (f a)
  | none => .error .threw

/-- The game rows joined to a session. -/
def Db.gamesOf (db : Db) (s : GameSession) : List Game := db.games.select fun g => g.id == s.gameId

def Db.usersOf (db : Db) (t : SminkTransaction) : List User := db.users.select fun u => u.id == t.userId

/-- The meaning of a statement. -/
def exec : (q : Stmt) → Db → Except Fault (q.Resp × Db)
  | .selectGame p, db => .ok (db.games.select p, db)
  | .selectExcluded p, db => .ok (db.gameExcluded.select p, db)
  | .selectSession p, db => .ok (db.gameSessions.select p, db)
  | .selectSessionGame p, db =>
    .ok ((db.gameSessions.select p).flatMap fun s => (db.gamesOf s).map fun g => (s, g), db)
  | .insertSession r, db => orThrow (db.gameSessions.insert r) fun t => ((), { db with gameSessions := t })
  | .updateSession p set, db => .ok ((), { db with gameSessions := db.gameSessions.update p set })
  | .selectWallet p, db => .ok (db.sminkWallets.select p, db)
  | .insertWallet userId, db =>
    match db.sminkWallets.insert { userId } with
    | some t => .ok ([{ userId }], { db with sminkWallets := t })
    | none => .ok ([], db)
  | .updateWallet p set, db =>
    .ok (db.sminkWallets.updated p set, { db with sminkWallets := db.sminkWallets.update p set })
  | .selectTransaction p, db => .ok (db.sminkTransactions.select p, db)
  | .selectTransactionUser p, db =>
    .ok ((db.sminkTransactions.select p).flatMap fun t => (db.usersOf t).map fun u => (t, u), db)
  | .insertTransactions rs, db =>
    orThrow (db.sminkTransactions.insertAll rs) fun t => ((), { db with sminkTransactions := t })
  | .updateTransaction p set, db =>
    .ok (db.sminkTransactions.updated p set, { db with sminkTransactions := db.sminkTransactions.update p set })
  | .selectBet p, db => .ok (db.bets.select p, db)
  | .insertBet r, db => orThrow (db.bets.insert r) fun t => ((), { db with bets := t })
  | .updateBet p set, db => .ok ((), { db with bets := db.bets.update p set })
  | .selectControl p, db => .ok (db.userGameControl.select p, db)
  | .updateControl p set, db => .ok ((), { db with userGameControl := db.userGameControl.update p set })

theorem orThrow_ok {α β : Type} {a : Option α} {f : α → β} {b : β} (h : orThrow a f = .ok b) :
    ∃ x, a = some x ∧ b = f x := by
  cases a with
  | none => cases h
  | some x => cases h; exact ⟨x, rfl, rfl⟩

/-- `ON CONFLICT DO NOTHING`: an empty wallet is inserted, or the user has one already. -/
theorem exec_insertWallet (userId : Id) (db : Db) :
    (∃ t, db.sminkWallets.insert { userId } = some t ∧
      exec (.insertWallet userId) db = .ok ([{ userId }], { db with sminkWallets := t })) ∨
    (∃ w ∈ db.sminkWallets.rows, w.userId = userId) ∧ exec (.insertWallet userId) db = .ok ([], db) := by
  cases hins : db.sminkWallets.insert { userId } with
  | some t => exact .inl ⟨t, rfl, by simp only [exec, hins]⟩
  | none =>
    obtain ⟨w, hw, k, hk, hk'⟩ := Table.exists_of_insert_none hins
    refine .inr ⟨⟨w, hw, ?_⟩, by simp only [exec, hins]⟩
    rw [List.mem_singleton.1 hk'] at hk
    simpa [Keyed.keys, eq_comm] using hk

/-! ## Unique columns -/

theorem bet_eq_of_id {t : Table Bet} {a b : Bet} (ha : a ∈ t.rows) (hb : b ∈ t.rows) (h : a.id = b.id) : a = b :=
  t.eq_of_key (k := ("id", a.id)) ha hb (by simp [Keyed.keys]) (by simp [Keyed.keys, h])

theorem bet_eq_of_reference {t : Table Bet} {a b : Bet} (ha : a ∈ t.rows) (hb : b ∈ t.rows)
    (h : a.reference = b.reference) : a = b :=
  t.eq_of_key (k := ("reference", a.reference)) ha hb (by simp [Keyed.keys]) (by simp [Keyed.keys, h])

theorem session_eq_of_id {t : Table GameSession} {a b : GameSession} (ha : a ∈ t.rows) (hb : b ∈ t.rows)
    (h : a.id = b.id) : a = b :=
  t.eq_of_key (k := ("id", a.id)) ha hb (by simp [Keyed.keys]) (by simp [Keyed.keys, h])

theorem game_eq_of_id {t : Table Game} {a b : Game} (ha : a ∈ t.rows) (hb : b ∈ t.rows) (h : a.id = b.id) : a = b :=
  t.eq_of_key (k := ("id", a.id)) ha hb (by simp [Keyed.keys]) (by simp [Keyed.keys, h])

theorem transaction_eq_of_id {t : Table SminkTransaction} {a b : SminkTransaction} (ha : a ∈ t.rows) (hb : b ∈ t.rows)
    (h : a.id = b.id) : a = b :=
  t.eq_of_key (k := ("id", a.id)) ha hb (by simp [Keyed.keys]) (by simp [Keyed.keys, h])

theorem wallet_eq_of_userId {t : Table SminkWallet} {a b : SminkWallet} (ha : a ∈ t.rows) (hb : b ∈ t.rows)
    (h : a.userId = b.userId) : a = b :=
  t.eq_of_key (k := ("user_id", a.userId)) ha hb (by simp [Keyed.keys]) (by simp [Keyed.keys, h])

theorem control_eq_of_id {t : Table UserGameControl} {a b : UserGameControl} (ha : a ∈ t.rows) (hb : b ∈ t.rows)
    (h : a.id = b.id) : a = b :=
  t.eq_of_key (k := ("id", a.id)) ha hb (by simp [Keyed.keys]) (by simp [Keyed.keys, h])

/-- A `WHERE` that pins the owner finds the owner's wallet. -/
theorem select_wallet {t : Table SminkWallet} {p : SminkWallet → Bool} {w : SminkWallet} (hw : w ∈ t.rows)
    (hp : p w = true) (hpin : ∀ a, p a = true → a.userId = w.userId) : t.select p = [w] :=
  t.select_eq_of_key (k := ("user_id", w.userId)) hw hp fun a _ ha => by simp [Keyed.keys, hpin a ha]

/-! ## One statement -/

theorem ask_bind {β : Type} (q : Stmt) (f : q.Resp → Sql β) : ask q >>= f = .stmt q f := rfl

theorem perform_bind {β : Type} (q : Stmt) (f : Unit → Sql β) : perform q >>= f = .stmt q fun _ => f () := rfl

theorem run_perform {q : Stmt} {db t : Db} {a : Unit} (h : (perform q).run exec db = (.ok a, t)) :
    ∃ r, exec q db = .ok (r, t) := by
  simp only [perform, Prog.run] at h
  split at h
  · rename_i r _ hq
    cases h
    exact ⟨r, hq⟩
  · cases h

end Smink
