import Smink.Deposits.Chain
import Smink.Deposits.Credit

/-!
# The deposit watcher

`deposits/watch.ts`: a scan reads the pending deposits and the hashes already credited, and inspects the deposits one by
one. What `inspect` decides from the deposit, the clock and the explorer is a function of its own (`sighting`); its
statements follow. Publishing to the player's channel and the mail are left out.
-/

namespace Smink

open Store

def DEPOSIT_QUOTE_MS : Time := 60 * 60 * 1000

def quoteDeadline (metadata : Metadata) (createdAt : Time) : Time :=
  metadata.expiresAt.getD (createdAt + DEPOSIT_QUOTE_MS)

def paymentSeen (metadata : Metadata) : Bool :=
  Num.lt (some 0) (metadata.receivedCrypto.getD (some 0)) || Num.lt (some 0) (metadata.confirmations.getD (some 0))

structure PendingDeposit where
  id : Id
  userId : Id
  reference : String
  amount : Money
  amountCrypto : Option ℚ
  coin : Option String
  network : Option String
  address : Option String
  metadata : Metadata
  createdAt : Time
  userCreatedAt : Time
  deriving DecidableEq

/-- The columns a scan selects. -/
def pendingDeposit (row : SminkTransaction × User) : PendingDeposit :=
  { id := row.1.id
    userId := row.1.userId
    reference := row.1.reference
    amount := row.1.amount
    amountCrypto := row.1.amountCrypto
    coin := row.1.coin
    network := row.1.network
    address := row.1.address
    metadata := row.1.metadata
    createdAt := row.1.createdAt
    userCreatedAt := row.2.createdAt }

inductive ScanMode
  | chain | simulate
  deriving DecidableEq, Repr

/-! ## What an inspection sees -/

def simulatedIncoming (now : Time) (deposit : PendingDeposit) (required : Num) : Option IncomingTx :=
  match deposit.metadata.simulate with
  | none | some .flag => none
  | some (.body body) =>
    match body.amount with
    | none => none
    | some amount =>
      if amount ≤ 0 then none
      else
        let appearAt : Num := body.appearAt.getD (some (deposit.createdAt + 8000 : ℤ))
        if Num.lt (some now) appearAt then none
        else
          let current := Num.max (some 0) (body.confirmations.getD (some 0))
          let ticks : Num := (Num.sub (some now) appearAt).map fun ms => 1 + (⌊ms / 4000⌋ : ℚ)
          let due := Num.min required ticks
          if due.le current then none
          else some {
            hash := match body.hash with
              | none | some "" => "sim_" ++ deposit.id
              | some hash => hash
            amount := some amount
            confirmations := due
            timestamp := some now }

/-- The coin and address of a deposit that can be watched. -/
def watchable (deposit : PendingDeposit) : Option (String × QuoteCoin × String) :=
  match deposit.coin, deposit.address with
  | some coin, some address =>
    if address = "" then none else (quoteCoin coin).map fun quote => (coin, quote, address)
  | _, _ => none

/-- `Number(deposit.amountCrypto)`. -/
def PendingDeposit.expected (deposit : PendingDeposit) : ℚ := deposit.amountCrypto.getD 0

def requiredConfirmations (deposit : PendingDeposit) (coin : QuoteCoin) : Num :=
  deposit.metadata.requiredConfirmations.getD (some (COIN_QUOTE coin).confirmations)

def matchWindow (deposit : PendingDeposit) (coin : QuoteCoin) : Num :=
  deposit.metadata.matchWindow.getD (some (matchWindowFor coin deposit.expected))

/-- The incoming transactions an inspection works with; `none` when the lookup threw. -/
def incomingFor (X : Explorer) (now : Time) (deposit : PendingDeposit) (coin : String) (quote : QuoteCoin)
    (address : String) : ScanMode → Option (List IncomingTx)
  | .simulate => some (simulatedIncoming now deposit (requiredConfirmations deposit quote)).toList
  | .chain => listIncoming X coin (deposit.network.getD "") address

/-- The transactions whose hash is not credited yet. -/
def freshTxs (creditedHashes : List String) (incoming : List IncomingTx) : List IncomingTx :=
  incoming.filter fun tx => !creditedHashes.contains tx.hash

/-- The first transaction of the kind. -/
def firstOfKind (kind : ReceivedKind) (deposit : PendingDeposit) (coin : QuoteCoin) (txs : List IncomingTx) :
    Option IncomingTx :=
  txs.find? fun tx => decide (classifyReceived deposit.expected tx.amount coin = kind)

def pastDeadline (now : Time) (deposit : PendingDeposit) : Bool :=
  decide (now > quoteDeadline deposit.metadata deposit.createdAt)

/-- What an inspection has seen before its first statement. -/
structure Sighting where
  coin : QuoteCoin
  required : Num
  lookupFailed : Bool
  matched : Option IncomingTx
  near : Option IncomingTx

def sighting (X : Explorer) (now : Time) (deposit : PendingDeposit) (creditedHashes : List String) (mode : ScanMode) :
    Option Sighting :=
  (watchable deposit).map fun (coin, quote, address) =>
    let incoming := incomingFor X now deposit coin quote address mode
    let fresh := freshTxs creditedHashes (incoming.getD [])
    { coin := quote
      required := requiredConfirmations deposit quote
      lookupFailed := incoming.isNone
      matched := firstOfKind .matched deposit quote fresh
      near := firstOfKind .review deposit quote fresh }

/-! ## The statements -/

/-- `JSON` has no `NaN`: it is stored as `null`, which reads as a missing field. -/
def stored (value : Num) : Option Num := value.map some

def Simulate.ticked (tx : IncomingTx) (now : Time) : Simulate → Simulate
  | .flag => .flag
  | .body b => .body { b with confirmations := stored tx.confirmations, tickedAt := some now }

/-- The metadata that `progress` writes. -/
def progressed (metadata : Metadata) (tx : IncomingTx) (now : Time) : Metadata :=
  { metadata with
    simulate := metadata.simulate.map (Simulate.ticked tx now)
    txHash := some tx.hash
    receivedCrypto := stored tx.amount
    confirmations := stored tx.confirmations
    fromAddress := tx.sender }

def progress (now : Time) (deposit : PendingDeposit) (tx : IncomingTx) : Sql Unit :=
  let metadata := deposit.metadata
  let unchanged := Num.same (metadata.confirmations.getD (some (-1))) tx.confirmations &&
    metadata.txHash.getD "" == tx.hash
  if unchanged then pure ()
  else perform (.updateTransaction (fun t => t.id == deposit.id) { metadata := some (progressed metadata tx now) })

/-- The update that cancels a quote nobody paid. -/
def cancelSet (now : Time) (metadata : Metadata) : TransactionSet :=
  { status := some .cancelled
    completedAt := some (some now)
    metadata := some { metadata with cancelReason := some "expired" } }

def cancelUnpaid (now : Time) (deposit : PendingDeposit) : Sql Unit :=
  perform (.updateTransaction (fun t => t.id == deposit.id && t.status == .pending)
    (cancelSet now deposit.metadata))

/-- What is spread over the metadata of a deposit that `tx` pays. -/
def paidBy (tx : IncomingTx) (metadata : Metadata) : Metadata :=
  { metadata with
    txHash := some tx.hash
    receivedCrypto := stored tx.amount
    confirmations := stored tx.confirmations }

/-- `allPending.filter(…)`: the other quotes at the address that the amount would also pay. -/
def collisions (deposit : PendingDeposit) (allPending : List PendingDeposit) (amount window : Num) :
    List PendingDeposit :=
  allPending.filter fun row =>
    row.id != deposit.id && row.address == deposit.address &&
      Num.le ((Num.sub (some row.expected) amount).map abs) window

/-- Why a match is held. -/
def reviewReasons (now : Time) (deposit : PendingDeposit) (allPending : List PendingDeposit) (window : Num)
    (tx : IncomingTx) (totalDeposited : Money) (recent : Nat) : List String :=
  let usd := deposit.amount.toRat
  (if pastDeadline now deposit && !paymentSeen deposit.metadata then ["expired_payment"] else []) ++
  (if (collisions deposit allPending tx.amount window).length > 0 then ["shared_address_collision"] else []) ++
  (if now - deposit.userCreatedAt < 30 * 60 * 1000 ∧ usd ≥ 500 then ["new_account_large"] else []) ++
  (if totalDeposited ≤ 0 ∧ usd ≥ 1000 then ["large_first_deposit"] else []) ++
  (if recent ≥ 3 then ["rapid_deposits"] else [])

def creditedByText : ScanMode → String
  | .simulate => "simulate"
  | .chain => "chain"

/-- The exit of `inspect` for an amount near the quoted one. -/
def holdNear (now : Time) (deposit : PendingDeposit) (required : Num) (tx : IncomingTx) : Sql Unit := do
  progress now deposit tx
  if tx.confirmations.lt required then return ()
  let _ ← flagDepositForReview now deposit.id ["amount_mismatch"] (paidBy tx)
  return ()

/-- `createdAt > now - 10 min`, among the owner's deposits. -/
def isRecent (now : Time) (userId : Id) (t : SminkTransaction) : Bool :=
  t.userId == userId && t.type == .deposit && decide (t.createdAt > now - 10 * 60 * 1000)

/-- The exits of `inspect` for a matching amount; answers with the credited row, if there is one. -/
def settleMatch (now : Time) (deposit : PendingDeposit) (allPending : List PendingDeposit) (s : Sighting)
    (mode : ScanMode) (tx : IncomingTx) : Sql (Option SminkTransaction) := do
  let wallets ← ask (.selectWallet fun w => w.userId == deposit.userId)
  let recent ← ask (.selectTransaction (isRecent now deposit.userId))
  let reasons := reviewReasons now deposit allPending (matchWindow deposit s.coin) tx
    ((wallets.head?.map SminkWallet.totalDeposited).getD 0) recent.length
  progress now deposit tx
  if tx.confirmations.lt s.required then return none
  if reasons ≠ [] then
    let _ ← flagDepositForReview now deposit.id reasons fun m => { paidBy tx m with fromAddress := tx.sender }
    return none
  creditDeposit now deposit.id fun m => { paidBy tx m with creditedBy := some (creditedByText mode) }

/-- What `inspect` does about what it has seen. -/
def actOn (now : Time) (deposit : PendingDeposit) (allPending : List PendingDeposit) (creditedHashes : List String)
    (mode : ScanMode) (s : Sighting) : Sql (List String) := do
  if pastDeadline now deposit && !paymentSeen deposit.metadata && s.matched.isNone && s.near.isNone then
    cancelUnpaid now deposit
    return creditedHashes
  if s.lookupFailed then return creditedHashes
  match s.matched, s.near with
  | none, none => return creditedHashes
  | none, some near =>
    holdNear now deposit s.required near
    return creditedHashes
  | some tx, _ =>
    let credited ← settleMatch now deposit allPending s mode tx
    return if credited.isSome then tx.hash :: creditedHashes else creditedHashes

/-- Inspects one deposit and answers with the hashes credited so far. -/
def inspect (X : Explorer) (now : Time) (deposit : PendingDeposit) (allPending : List PendingDeposit)
    (creditedHashes : List String) (mode : ScanMode) : Sql (List String) :=
  match sighting X now deposit creditedHashes mode with
  | none => pure creditedHashes
  | some s => actOn now deposit allPending creditedHashes mode s

/-! ## Scans -/

/-- The set of hashes a scan starts with. -/
def creditedHashes : Sql (List String) := do
  let rows ← ask (.selectTransaction fun t => t.type == .deposit && (t.status == .confirmed || t.status == .review))
  return (rows.map fun row => row.metadata.txHash.getD "").filter fun hash => hash != ""

/-- The clock and the explorer, as each inspection of a scan finds them. -/
structure ScanInput where
  mode : ScanMode
  now : PendingDeposit → Time
  explorer : PendingDeposit → Explorer

def inScan (mode : ScanMode) (deposit : PendingDeposit) : Bool :=
  match mode with
  | .simulate => deposit.metadata.simulate.isSome
  | .chain => deposit.metadata.simulate.isNone

def scanLoop (I : ScanInput) (allPending : List PendingDeposit) : List PendingDeposit → List String → Sql Unit
  | [], _ => pure ()
  | deposit :: rest, hashes => do
    let hashes ← if inScan I.mode deposit then
      inspect (I.explorer deposit) (I.now deposit) deposit allPending hashes I.mode
      else pure hashes
    scanLoop I allPending rest hashes

/-- `ORDER BY created_at DESC`. -/
def newestDeposits (rows : List PendingDeposit) : List PendingDeposit :=
  rows.insertionSort fun a b => b.createdAt ≤ a.createdAt

def pendingDeposits : Sql (List PendingDeposit) := do
  let rows ← ask (.selectTransactionUser fun t => t.type == .deposit && t.status == .pending)
  return newestDeposits (rows.map pendingDeposit)

def scan (I : ScanInput) : Sql Unit := do
  let pending ← pendingDeposits
  let hashes ← creditedHashes
  scanLoop I pending pending hashes

end Smink
