import Smink.Play.Round

/-!
# The play service

The public methods of `libs/wallet/src/play.service.ts` as programs over the database. `Request` and `serve` put them
under one roof: a request is a method with its arguments, and `serve` the program that answers it.
-/

namespace Smink

open Store

/-! ## Sessions -/

def startSession (fresh : Fresh) (userId : Id) (gameSlug : GameSlug) : Sql GameSessionDto := do
  let game ← getPlayableGame userId gameSlug
  endOpenSessions userId game.id fresh.now
  perform (.insertSession { id := fresh.sessionId, userId, gameId := game.id, startedAt := fresh.now })
  toSessionDto fresh.now fresh.sessionId gameSlug

def endSession (fresh : Fresh) (userId sessionId : Id) : Sql Unit := do
  let some session := (← ask (.selectSession fun s => s.id == sessionId && s.userId == userId)).head?
    | fail "Session not found" .validation
  if session.endedAt.isSome then return ()
  perform (.updateSession (fun s => s.id == session.id) { endedAt := some fresh.now })

def getSession (fresh : Fresh) (userId sessionId : Id) : Sql GameSessionDto := do
  let some (session, game) :=
    (← ask (.selectSessionGame fun s => s.id == sessionId && s.userId == userId)).head?
    | fail "Session not found" .validation
  toSessionDto fresh.now session.id game.slug

/-! ## Instant games -/

structure SettledBet where
  reference : String
  sessionId : Id
  gameSlug : GameSlug
  won : Bool
  stake : Money
  multiplier : ℚ
  payout : Money
  outcome : GameOutcome
  serverSeedHash : String
  clientSeed : String
  nonce : Nat
  balance : Money
  settledAt : Time
  deriving DecidableEq

/-- The ledger rows of a settled instant bet: the stake, and the payout if there is one. -/
def betTransactions (fresh : Fresh) (userId sessionId : Id) (slug : GameSlug) (betRef : String)
    (stake payout balance : Money) : List SminkTransaction :=
  stakeTransaction fresh userId sessionId slug betRef stake ::
    if payout > 0 then [payoutTransaction fresh userId sessionId slug betRef payout (some balance)] else []

/-- The net result and the counters of an instant bet. -/
def betSet (stake payout : Money) : WalletSet :=
  { balance := payout - stake, totalWagered := stake, totalWon := payout }

def betPayout (result : RoundResult) (stake : Money) : Money :=
  if result.won then roundMoney (stake.toRat * result.multiplier) else 0

def placeBet (D : Digest) (fresh : Fresh) (userId sessionId : Id) (slug : GameSlug) (stakeInput : Num)
    (selectionInput : RawSelection) : Sql SettledBet := do
  if !isInstantGame slug then
    return ← fail
      (if slug = .towers then "Towers rounds are started with towers.start"
       else "Mines rounds are started with mines.start") .validation
  let (_, game) ← requireOpenSession userId sessionId slug
  let validated ← orInvalid (validateSelection slug selectionInput)
  let stake ← orFail (parseStake stakeInput game.minBet game.maxBet)
  let wallet ← requireWallet userId
  let nonce ← nextNonce userId
  let row ← getControlRule userId game.id
  let u := resolveSeeds D fresh nonce
  let forced := controlFor row wallet slug game u
  let raw ← orThrew (resolveRound slug validated u
    { houseEdge := game.houseEdge, maxMultiplier := game.maxMultiplier } forced)
  let result := applyWinCap raw (row.map UserGameControl.rule)
  let payout := betPayout result stake
  let debited ← ask (.updateWallet (canPay userId stake) (betSet stake payout))
  let some updated := debited.head? | fail "Insufficient balance" .insufficient
  let betRef := reference "BET" fresh.betHex
  perform (.insertBet {
    id := fresh.betId
    userId
    gameId := game.id
    sessionId := some sessionId
    reference := betRef
    stake
    multiplier := toFixed 4 result.multiplier
    payout
    status := if result.won then .won else .lost
    selection := some validated
    outcome := some result.outcome
    serverSeed := fresh.serverSeed
    serverSeedHash := hashSeed D fresh.serverSeed
    clientSeed := fresh.clientSeed
    nonce
    wasControlled := forced.isSome
    settledAt := some fresh.now
    createdAt := fresh.now })
  perform (.insertTransactions (betTransactions fresh userId sessionId slug betRef stake payout updated.balance))
  bumpSession sessionId stake payout
  consumeForcedRound row
  return {
    reference := betRef
    sessionId
    gameSlug := slug
    won := result.won
    stake
    multiplier := result.multiplier
    payout
    outcome := result.outcome
    serverSeedHash := hashSeed D fresh.serverSeed
    clientSeed := fresh.clientSeed
    nonce
    balance := updated.balance
    settledAt := fresh.answeredAt }

/-! ## Mines -/

structure MinesRoundState where
  reference : String
  sessionId : Id
  mineCount : Nat
  revealed : List Nat
  multiplier : ℚ
  nextMultiplier : ℚ
  status : BetStatus
  minePositions : Option (List Nat) := none
  payout : Option Money := none
  balance : Option Money := none
  deriving DecidableEq

/-- `outcome.minePositions`. -/
def Bet.minePositions (bet : Bet) : Option (List Nat) :=
  match bet.outcome with
  | some (.mines minePositions _) => some minePositions
  | _ => none

/-- `outcome.revealed ?? []`. -/
def Bet.revealed (bet : Bet) : List Nat :=
  match bet.outcome with
  | some (.mines _ revealed) => revealed
  | _ => []

def Bet.mineCount (bet : Bet) : Nat := (bet.minePositions.getD []).length

/-- The natural number that a JavaScript number is, if it is one. -/
def naturalNumber (value : Num) : Option Nat :=
  match value with
  | none => none
  | some q => if q.den = 1 ∧ 0 ≤ q.num then some q.num.toNat else none

def minesGame : GridGame MinesSelection where
  slug := .mines
  kind := "MIN"
  inProgress := "You already have a Mines round in progress"
  ofSelection
    | .mines s => some s
    | _ => none
  layout selection u forced := .mines (buildMinesGrid selection u forced) []

def startMines (D : Digest) (fresh : Fresh) (userId sessionId : Id) (stakeInput mineCountInput : Num) :
    Sql MinesRoundState := do
  let round ← openRound minesGame D fresh userId sessionId stakeInput { mineCount := mineCountInput }
  return {
    reference := round.reference
    sessionId
    mineCount := round.selection.mineCount
    revealed := []
    multiplier := 0
    nextMultiplier := minesMultiplier round.selection.mineCount 1 round.houseEdge
    status := .open }

def cashOutMines (fresh : Fresh) (userId sessionId : Id) (betReference : String) : Sql MinesRoundState := do
  let _ ← requireOpenSession userId sessionId .mines
  let bet ← findRound userId sessionId betReference
  if bet.revealed = [] then return ← fail "Reveal at least one tile first" .validation
  let balance ← payOut fresh .mines userId sessionId betReference bet
  return {
    reference := betReference
    sessionId
    mineCount := bet.mineCount
    revealed := bet.revealed
    multiplier := bet.multiplier
    nextMultiplier := 0
    status := .cashedOut
    minePositions := bet.minePositions
    payout := some (cashOutPayout bet)
    balance := some (balance.getD 0) }

def revealMines (fresh : Fresh) (userId sessionId : Id) (betReference : String) (tile : Num) :
    Sql MinesRoundState := do
  let some tile := naturalNumber tile | fail "Invalid tile" .validation
  if tile ≥ MINES_TILE_COUNT then return ← fail "Invalid tile" .validation
  let (_, game) ← requireOpenSession userId sessionId .mines
  let bet ← findRound userId sessionId betReference
  let minePositions := bet.minePositions.getD []
  if tile ∈ bet.revealed then return ← fail "Tile already revealed" .validation
  let nextRevealed := bet.revealed ++ [tile]
  if tile ∈ minePositions then
    settleLost fresh.now userId bet (.mines minePositions nextRevealed)
    return {
      reference := betReference
      sessionId
      mineCount := bet.mineCount
      revealed := nextRevealed
      multiplier := 0
      nextMultiplier := 0
      status := .lost
      minePositions
      payout := some 0 }
  let multiplier := minesMultiplier bet.mineCount nextRevealed.length game.houseEdge
  recordReveal bet multiplier (.mines minePositions nextRevealed)
  -- the board is clear: nothing is left to decide, so the round cashes out by itself
  if (nextRevealed.length : ℤ) ≥ (MINES_TILE_COUNT : ℤ) - bet.mineCount then
    return ← cashOutMines fresh userId sessionId betReference
  return {
    reference := betReference
    sessionId
    mineCount := bet.mineCount
    revealed := nextRevealed
    multiplier
    nextMultiplier := minesMultiplier bet.mineCount (nextRevealed.length + 1) game.houseEdge
    status := .open }

def getOpenMines (userId sessionId : Id) : Sql (Option MinesRoundState) := do
  let (_, game) ← requireOpenSession userId sessionId .mines
  let some bet ← findOpen userId game.id sessionId | return none
  return some {
    reference := bet.reference
    sessionId
    mineCount := bet.mineCount
    revealed := bet.revealed
    multiplier := minesMultiplier bet.mineCount bet.revealed.length game.houseEdge
    nextMultiplier := minesMultiplier bet.mineCount (bet.revealed.length + 1) game.houseEdge
    status := .open }

/-! ## Towers -/

structure TowersRoundState where
  reference : String
  sessionId : Id
  difficulty : TowersDifficulty
  tiles : Nat
  rows : Nat
  picks : List Nat
  multiplier : ℚ
  nextMultiplier : ℚ
  status : BetStatus
  traps : Option (List (List Nat)) := none
  payout : Option Money := none
  balance : Option Money := none
  deriving DecidableEq

/-- `outcome.traps`. -/
def Bet.traps (bet : Bet) : Option (List (List Nat)) :=
  match bet.outcome with
  | some (.towers traps _) => some traps
  | _ => none

/-- `outcome.picks ?? []`. -/
def Bet.picks (bet : Bet) : List Nat :=
  match bet.outcome with
  | some (.towers _ picks) => picks
  | _ => []

/-- `selection.difficulty`; the configuration of a missing difficulty is `undefined`, and reading it throws. -/
def Bet.difficulty (bet : Bet) : Option TowersDifficulty :=
  match bet.selection with
  | some (.towers s) => some s.difficulty
  | _ => none

def towersGame : GridGame TowersSelection where
  slug := .towers
  kind := "TWR"
  inProgress := "You already have a Towers round in progress"
  ofSelection
    | .towers s => some s
    | _ => none
  layout selection u forced := .towers (buildTowersGrid selection u forced) []

def TowersDifficulty.text : TowersDifficulty → String
  | .easy => "easy"
  | .medium => "medium"
  | .hard => "hard"
  | .expert => "expert"

def startTowers (D : Digest) (fresh : Fresh) (userId sessionId : Id) (stakeInput : Num) (difficultyInput : String) :
    Sql TowersRoundState := do
  let round ← openRound towersGame D fresh userId sessionId stakeInput { difficulty := difficultyInput }
  let difficulty := round.selection.difficulty
  return {
    reference := round.reference
    sessionId
    difficulty
    tiles := (towersConfig difficulty).tiles
    rows := (towersConfig difficulty).rows
    picks := []
    multiplier := 0
    nextMultiplier := towersMultiplier difficulty 1 round.houseEdge
    status := .open }

def cashOutTowers (fresh : Fresh) (userId sessionId : Id) (betReference : String) : Sql TowersRoundState := do
  let _ ← requireOpenSession userId sessionId .towers
  let bet ← findRound userId sessionId betReference
  if bet.picks = [] then return ← fail "Climb at least one floor first" .validation
  let balance ← payOut fresh .towers userId sessionId betReference bet
  let difficulty ← orThrew bet.difficulty
  return {
    reference := betReference
    sessionId
    difficulty
    tiles := (towersConfig difficulty).tiles
    rows := (towersConfig difficulty).rows
    picks := bet.picks
    multiplier := bet.multiplier
    nextMultiplier := 0
    status := .cashedOut
    traps := bet.traps
    payout := some (cashOutPayout bet)
    balance := some (balance.getD 0) }

def revealTowers (fresh : Fresh) (userId sessionId : Id) (betReference : String) (tile : Num) :
    Sql TowersRoundState := do
  let (_, game) ← requireOpenSession userId sessionId .towers
  let bet ← findRound userId sessionId betReference
  let some tile := naturalNumber tile | fail "Invalid tile" .validation
  let difficulty ← orThrew bet.difficulty
  let config := towersConfig difficulty
  if tile ≥ config.tiles then return ← fail "Invalid tile" .validation
  let traps := bet.traps.getD []
  let row := bet.picks.length
  if row ≥ config.rows then return ← fail "Tower is already clear" .validation
  let nextPicks := bet.picks ++ [tile]
  if tile ∈ traps.getD row [] then
    settleLost fresh.now userId bet (.towers traps nextPicks)
    return {
      reference := betReference
      sessionId
      difficulty
      tiles := config.tiles
      rows := config.rows
      picks := nextPicks
      multiplier := 0
      nextMultiplier := 0
      status := .lost
      traps
      payout := some 0 }
  let multiplier := towersMultiplier difficulty nextPicks.length game.houseEdge
  recordReveal bet multiplier (.towers traps nextPicks)
  if nextPicks.length ≥ config.rows then
    return ← cashOutTowers fresh userId sessionId betReference
  return {
    reference := betReference
    sessionId
    difficulty
    tiles := config.tiles
    rows := config.rows
    picks := nextPicks
    multiplier
    nextMultiplier := towersMultiplier difficulty (nextPicks.length + 1) game.houseEdge
    status := .open }

def getOpenTowers (userId sessionId : Id) : Sql (Option TowersRoundState) := do
  let (_, game) ← requireOpenSession userId sessionId .towers
  let some bet ← findOpen userId game.id sessionId | return none
  let difficulty ← orThrew bet.difficulty
  return some {
    reference := bet.reference
    sessionId
    difficulty
    tiles := (towersConfig difficulty).tiles
    rows := (towersConfig difficulty).rows
    picks := bet.picks
    multiplier := towersMultiplier difficulty bet.picks.length game.houseEdge
    nextMultiplier := towersMultiplier difficulty (bet.picks.length + 1) game.houseEdge
    status := .open }

/-! ## Requests -/

inductive Request
  | startSession (userId : Id) (gameSlug : GameSlug)
  | endSession (userId sessionId : Id)
  | getSession (userId sessionId : Id)
  | placeBet (userId sessionId : Id) (slug : GameSlug) (stakeInput : Num) (selectionInput : RawSelection)
  | startMines (userId sessionId : Id) (stakeInput mineCountInput : Num)
  | revealMines (userId sessionId : Id) (betReference : String) (tile : Num)
  | cashOutMines (userId sessionId : Id) (betReference : String)
  | getOpenMines (userId sessionId : Id)
  | startTowers (userId sessionId : Id) (stakeInput : Num) (difficultyInput : String)
  | revealTowers (userId sessionId : Id) (betReference : String) (tile : Num)
  | cashOutTowers (userId sessionId : Id) (betReference : String)
  | getOpenTowers (userId sessionId : Id)
  deriving DecidableEq

/-- The data of an answer `{ ok: true, data }`. -/
inductive Response
  | session (data : GameSessionDto)
  | ended
  | settled (data : SettledBet)
  | mines (data : MinesRoundState)
  | openMines (data : Option MinesRoundState)
  | towers (data : TowersRoundState)
  | openTowers (data : Option TowersRoundState)
  deriving DecidableEq

/-- The program that answers a request. -/
def serve (D : Digest) (fresh : Fresh) : Request → Sql Response
  | .startSession userId gameSlug => return .session (← startSession fresh userId gameSlug)
  | .endSession userId sessionId => do endSession fresh userId sessionId; return .ended
  | .getSession userId sessionId => return .session (← getSession fresh userId sessionId)
  | .placeBet userId sessionId slug stakeInput selectionInput =>
    return .settled (← placeBet D fresh userId sessionId slug stakeInput selectionInput)
  | .startMines userId sessionId stakeInput mineCountInput =>
    return .mines (← startMines D fresh userId sessionId stakeInput mineCountInput)
  | .revealMines userId sessionId betReference tile =>
    return .mines (← revealMines fresh userId sessionId betReference tile)
  | .cashOutMines userId sessionId betReference =>
    return .mines (← cashOutMines fresh userId sessionId betReference)
  | .getOpenMines userId sessionId => return .openMines (← getOpenMines userId sessionId)
  | .startTowers userId sessionId stakeInput difficultyInput =>
    return .towers (← startTowers D fresh userId sessionId stakeInput difficultyInput)
  | .revealTowers userId sessionId betReference tile =>
    return .towers (← revealTowers fresh userId sessionId betReference tile)
  | .cashOutTowers userId sessionId betReference =>
    return .towers (← cashOutTowers fresh userId sessionId betReference)
  | .getOpenTowers userId sessionId => return .openTowers (← getOpenTowers userId sessionId)

end Smink
