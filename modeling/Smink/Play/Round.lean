import Smink.Db.Schema

/-!
# The pieces of a round

The private helpers of `PlayService` and the parts its methods share: what a call draws from outside the database
(`Fresh`), what it checks before money moves, the statements that settle a round, and the history of a session.

Mines and Towers run the same statements to open a round, to lose it and to cash it out; these are written once
(`openRound`, `settleLost`, `payOut`), with a `GridGame` for what the two games put into them.
-/

namespace Smink

open Store

/-- The clock, the seeds and the generated ids and references of one call. `placeBet` reads the clock again for its
answer. -/
structure Fresh where
  now : Time
  answeredAt : Time
  serverSeed : String
  clientSeed : String
  sessionId : Id
  betId : Id
  betHex : String
  stakeId : Id
  stakeHex : String
  payoutId : Id
  payoutHex : String
  deriving DecidableEq

/-- The draws of call number `n` of a sample run. -/
def freshAt (n : Nat) : Fresh where
  now := n
  answeredAt := n + 1
  serverSeed := "server"
  clientSeed := "client"
  sessionId := toString n ++ "s"
  betId := toString n ++ "b"
  betHex := toString n
  stakeId := toString n ++ "k"
  stakeHex := toString n
  payoutId := toString n ++ "p"
  payoutHex := toString n

/-- `reference` of `ids.ts`, with the random digits as an argument. -/
def reference (kind hex : String) : String := kind ++ "-" ++ hex

/-! ## Sessions and games -/

def requireOpenSession (userId sessionId : Id) (slug : GameSlug) : Sql (GameSession × Game) := do
  let some (session, game) :=
    (← ask (.selectSessionGame fun s => s.id == sessionId && s.userId == userId)).head?
    | fail "Start a session from the wait room first" .validation
  if session.endedAt.isSome then return ← fail "This session has ended. Open a new one." .validation
  if game.slug != slug then return ← fail "Session belongs to a different game" .validation
  if !game.isActive then return ← fail "Game unavailable" .unavailable
  if game.underMaintenance then return ← fail "Game is under maintenance" .unavailable
  return (session, game)

def getPlayableGame (userId : Id) (slug : GameSlug) : Sql Game := do
  let some game := (← ask (.selectGame fun g => g.slug == slug)).head? | fail "Game unavailable" .unavailable
  if !game.isActive then return ← fail "Game unavailable" .unavailable
  if game.underMaintenance then return ← fail "Game is under maintenance" .unavailable
  let hidden ← ask (.selectExcluded fun e => e.userId == userId && e.gameId == game.id)
  if hidden.head?.isSome then return ← fail "Game unavailable" .unavailable
  return game

def endOpenSessions (userId gameId : Id) (now : Time) : Sql Unit :=
  perform (.updateSession (fun s => s.userId == userId && s.gameId == gameId && s.endedAt.isNone)
    { endedAt := some now })

def bumpSession (sessionId : Id) (staked won : Money) : Sql Unit :=
  perform (.updateSession (fun s => s.id == sessionId) { betCount := 1, totalStaked := staked, totalWon := won })

/-! ## The history of a session -/

structure SessionHistoryItem where
  reference : String
  won : Bool
  stake : Money
  multiplier : ℚ
  payout : Money
  status : BetStatus
  outcome : Option GameOutcome
  settledAt : Option Time
  deriving DecidableEq

structure GameSessionDto where
  id : Id
  gameSlug : GameSlug
  startedAt : Time
  endedAt : Option Time
  betCount : ℤ
  totalStaked : Money
  totalWon : Money
  history : List SessionHistoryItem
  deriving DecidableEq

/-- `ORDER BY created_at DESC`. -/
def newestFirst (rows : List Bet) : List Bet := rows.insertionSort fun a b => b.createdAt ≤ a.createdAt

def historyItem (row : Bet) : SessionHistoryItem :=
  { reference := row.reference
    won := decide (row.status = .won ∨ row.status = .cashedOut)
    stake := row.stake
    multiplier := row.multiplier
    payout := row.payout
    status := row.status
    outcome := row.outcome
    settledAt := row.settledAt }

def toSessionDto (now : Time) (sessionId : Id) (gameSlug : GameSlug) : Sql GameSessionDto := do
  let session := (← ask (.selectSession fun s => s.id == sessionId)).head?
  let rows := (newestFirst (← ask (.selectBet fun b => b.sessionId == some sessionId))).take 50
  let history := rows.map historyItem
  return {
    id := sessionId
    gameSlug
    startedAt := (session.map GameSession.startedAt).getD now
    endedAt := session.bind GameSession.endedAt
    betCount := (session.map GameSession.betCount).getD history.length
    totalStaked := (session.map GameSession.totalStaked).getD 0
    totalWon := (session.map GameSession.totalWon).getD 0
    history }

/-! ## Stake, wallet and control -/

def parseStake (stakeInput : Num) (minBet maxBet : Money) : Except RpcError Money :=
  match stakeInput.map roundMoney with
  | none => .error ⟨"Enter a valid stake", .validation⟩
  | some stake =>
    if stake ≤ 0 then .error ⟨"Enter a valid stake", .validation⟩
    else if stake < minBet then .error ⟨"Minimum bet is $" ++ minBet.toText, .validation⟩
    else if stake > maxBet then .error ⟨"Maximum bet is $" ++ maxBet.toText, .validation⟩
    else .ok stake

/-- `if (!check.ok) return check`. -/
def orFail {α : Type} : Except RpcError α → Sql α
  | .ok a => pure a
  | .error e => .throw (.fail e)

/-- `if (!validated.ok) return fail(validated.error, "VALIDATION")`. -/
def orInvalid {α : Type} : Except String α → Sql α
  | .ok a => pure a
  | .error e => fail e .validation

/-- An expression that raises a `TypeError` where it has no value. -/
def orThrew {α : Type} : Option α → Sql α
  | some a => pure a
  | none => .throw .threw

/-- `WalletService.getOrCreate`. -/
def getOrCreate (userId : Id) : Sql (Option SminkWallet) := do
  let existing ← ask (.selectWallet fun w => w.userId == userId)
  match existing.head? with
  | some wallet => return some wallet
  | none =>
    let created ← ask (.insertWallet userId)
    match created.head? with
    | some wallet => return some wallet
    | none =>
      let refetched ← ask (.selectWallet fun w => w.userId == userId)
      return refetched.head?

/-- The wallet a bet is placed from. -/
def requireWallet (userId : Id) : Sql SminkWallet := do
  let some wallet ← getOrCreate userId | fail "Wallet unavailable" .unavailable
  if wallet.isLocked then return ← fail "Your wallet is locked. Contact support." .unavailable
  return wallet

def nextNonce (userId : Id) : Sql Nat := do
  let rows ← ask (.selectBet fun b => b.userId == userId)
  return rows.length + 1

def UserGameControl.rule (row : UserGameControl) : ControlRule :=
  { mode := row.mode
    winRate := row.winRate
    forceRounds := row.forceRounds
    maxWinMultiplier := row.maxWinMultiplier }

/-- The row that applies, if any: the game's own row wins over the one for all games. -/
def getControlRule (userId gameId : Id) : Sql (Option UserGameControl) := do
  let rows ← ask (.selectControl fun c => c.userId == userId && (c.gameId == some gameId || c.gameId.isNone))
  return (rows.find? fun c => c.gameId == some gameId).or rows.head?

def consumeForcedRound (row : Option UserGameControl) : Sql Unit :=
  match row with
  | none => pure ()
  | some row =>
    if row.mode ≠ .forceWin ∧ row.mode ≠ .forceLoss then pure ()
    else if row.forceRounds ≤ 0 then pure ()
    else perform (.updateControl (fun c => c.id == row.id) { spend := 1 })

/-- The seeds of a round, and what the controls decide for it. -/
def resolveSeeds (D : Digest) (fresh : Fresh) (nonce : Nat) : Stream :=
  seededFloat D { serverSeed := fresh.serverSeed, clientSeed := fresh.clientSeed, nonce }

def controlFor (row : Option UserGameControl) (wallet : SminkWallet) (slug : GameSlug) (game : Game) (u : Stream) :
    ForcedResult :=
  resolveControl (row.map UserGameControl.rule)
    (walletDifficultyForGame wallet.difficulty wallet.gameDifficulties slug) game.difficulty u

/-! ## Grid rounds -/

/-- What Mines and Towers put into the statements that open a round. -/
structure GridGame (Sel : Type) where
  slug : GameSlug
  kind : String
  inProgress : String
  ofSelection : GameSelection → Option Sel
  layout : Sel → Stream → ForcedResult → GameOutcome

/-- A round that has just been opened. -/
structure OpenedRound (Sel : Type) where
  reference : String
  selection : Sel
  houseEdge : ℚ

/-- The wallet a stake is debited from: the owner's, if it holds the stake. -/
def canPay (userId : Id) (stake : Money) (w : SminkWallet) : Bool := w.userId == userId && decide (w.balance ≥ stake)

/-- The debit of a grid round: the stake moves from the balance into the locked balance. -/
def debitSet (stake : Money) : WalletSet := { balance := -stake, lock := stake, totalWagered := stake }

def debitStake (userId : Id) (stake : Money) : Sql Unit := do
  let debited ← ask (.updateWallet (canPay userId stake) (debitSet stake))
  let some _ := debited.head? | fail "Insufficient balance" .insufficient
  return ()

/-- The ledger row of a stake. -/
def stakeTransaction (fresh : Fresh) (userId sessionId : Id) (slug : GameSlug) (betRef : String) (stake : Money) :
    SminkTransaction :=
  { id := fresh.stakeId
    userId
    type := .stake
    status := .confirmed
    amount := -stake
    reference := reference "STK" fresh.stakeHex
    metadata := { betReference := some betRef, game := some slug, sessionId := some sessionId }
    completedAt := some fresh.now
    createdAt := fresh.now }

/-- The ledger row of a payout. -/
def payoutTransaction (fresh : Fresh) (userId sessionId : Id) (slug : GameSlug) (betRef : String) (payout : Money)
    (balanceAfter : Option Money) : SminkTransaction :=
  { id := fresh.payoutId
    userId
    type := .payout
    status := .confirmed
    amount := payout
    balanceAfter
    reference := reference "PAY" fresh.payoutHex
    metadata := { betReference := some betRef, game := some slug, sessionId := some sessionId }
    completedAt := some fresh.now
    createdAt := fresh.now }

/-- `startMines` and `startTowers`, up to the answer. -/
def openRound {Sel : Type} (G : GridGame Sel) (D : Digest) (fresh : Fresh) (userId sessionId : Id) (stakeInput : Num)
    (selectionInput : RawSelection) : Sql (OpenedRound Sel) := do
  let (_, game) ← requireOpenSession userId sessionId G.slug
  let validated ← orInvalid (validateSelection G.slug selectionInput)
  let stake ← orFail (parseStake stakeInput game.minBet game.maxBet)
  let opened ← ask (.selectBet fun b => b.userId == userId && b.gameId == game.id && b.status == .open)
  if opened.head?.isSome then return ← fail G.inProgress .validation
  let wallet ← requireWallet userId
  let nonce ← nextNonce userId
  let row ← getControlRule userId game.id
  let u := resolveSeeds D fresh nonce
  let forced := controlFor row wallet G.slug game u
  let selection ← orThrew (G.ofSelection validated)
  debitStake userId stake
  let betRef := reference G.kind fresh.betHex
  perform (.insertBet {
    id := fresh.betId
    userId
    gameId := game.id
    sessionId := some sessionId
    reference := betRef
    stake
    status := .open
    selection := some validated
    outcome := some (G.layout selection u forced)
    serverSeed := fresh.serverSeed
    serverSeedHash := hashSeed D fresh.serverSeed
    clientSeed := fresh.clientSeed
    nonce
    wasControlled := forced.isSome
    createdAt := fresh.now })
  perform (.insertTransactions [stakeTransaction fresh userId sessionId G.slug betRef stake])
  bumpSession sessionId stake 0
  return { reference := betRef, selection, houseEdge := game.houseEdge }

/-- The open bet a reveal or a cash-out is about. -/
def findRound (userId sessionId : Id) (betReference : String) : Sql Bet := do
  let some bet := (← ask (.selectBet fun b =>
      b.reference == betReference && b.userId == userId && b.sessionId == some sessionId)).head?
    | fail "Round not found" .validation
  if bet.status != .open then return ← fail "Round already finished" .validation
  return bet

/-- The newest open bet of the session. -/
def findOpen (userId gameId sessionId : Id) : Sql (Option Bet) := do
  let rows ← ask (.selectBet fun b =>
    b.userId == userId && b.gameId == gameId && b.sessionId == some sessionId && b.status == .open)
  return (newestFirst rows).head?

/-- `GREATEST(locked_balance - stake, 0)`, and the payout of a round that is cashed out. -/
def releaseSet (stake payout : Money) : WalletSet := { balance := payout, release := some stake, totalWon := payout }

def lostSet (now : Time) (outcome : GameOutcome) : BetSet :=
  { status := some .lost
    multiplier := some 0
    payout := some 0
    outcome := some outcome
    settledAt := some now }

def cashedOutSet (now : Time) (payout : Money) : BetSet :=
  { status := some .cashedOut
    payout := some payout
    settledAt := some now }

def revealSet (multiplier : ℚ) (outcome : GameOutcome) : BetSet :=
  { multiplier := some (toFixed 4 multiplier)
    outcome := some outcome }

/-- A reveal that hits: the stake is released, nothing is paid, and the bet is lost. -/
def settleLost (now : Time) (userId : Id) (bet : Bet) (outcome : GameOutcome) : Sql Unit := do
  perform (.updateWallet (fun w => w.userId == userId) (releaseSet bet.stake 0))
  perform (.updateBet (fun b => b.id == bet.id) (lostSet now outcome))

/-- A safe reveal. -/
def recordReveal (bet : Bet) (multiplier : ℚ) (outcome : GameOutcome) : Sql Unit :=
  perform (.updateBet (fun b => b.id == bet.id) (revealSet multiplier outcome))

def cashOutPayout (bet : Bet) : Money := roundMoney (bet.stake.toRat * bet.multiplier)

/-- `cashOutMines` and `cashOutTowers`, from the first write to the answer: the new balance, if there is a wallet. -/
def payOut (fresh : Fresh) (slug : GameSlug) (userId sessionId : Id) (betReference : String) (bet : Bet) :
    Sql (Option Money) := do
  let payout := cashOutPayout bet
  let wallets ← ask (.updateWallet (fun w => w.userId == userId) (releaseSet bet.stake payout))
  let balance := wallets.head?.map SminkWallet.balance
  perform (.updateBet (fun b => b.id == bet.id) (cashedOutSet fresh.now payout))
  perform (.insertTransactions [payoutTransaction fresh userId sessionId slug betReference payout balance])
  bumpSession sessionId 0 payout
  return balance

end Smink
