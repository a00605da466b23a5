import Smink.Db.Schema

/-!
# Crediting and flagging a deposit

`deposits/credit.ts`. `extraMetadata` is what the caller spreads over the row's metadata.
-/

namespace Smink

open Store

/-- `CREDITABLE`: the statuses a deposit is credited from. -/
def creditable (status : TxStatus) : Bool := status == .pending || status == .review

/-- The update that claims a deposit: from here on no other call credits it. -/
def claimSet (now : Time) (metadata : Metadata) : TransactionSet :=
  { status := some .confirmed
    completedAt := some (some now)
    metadata := some { metadata with creditedAt := some now } }

/-- The wallet is created if it is missing, and credited. -/
def creditWallet (userId : Id) (amount : Money) : Sql (Option SminkWallet) := do
  perform (.insertWallet userId)
  let rows ← ask (.updateWallet (fun w => w.userId == userId) { balance := amount, totalDeposited := amount })
  return rows.head?

def creditDeposit (now : Time) (depositId : Id) (extraMetadata : Metadata → Metadata) :
    Sql (Option SminkTransaction) := do
  let some current := (← ask (.selectTransaction fun t =>
    t.id == depositId && t.type == .deposit && creditable t.status)).head? | return none
  let claimedRows ← ask (.updateTransaction (fun t => t.id == depositId && creditable t.status)
    (claimSet now (extraMetadata current.metadata)))
  let some claimed := claimedRows.head? | return none
  match ← creditWallet claimed.userId claimed.amount with
  | none =>
    perform (.updateTransaction (fun t => t.id == depositId)
      { status := some current.status, completedAt := some none })
    return none
  | some wallet =>
    let updatedRows ← ask (.updateTransaction (fun t => t.id == depositId) { balanceAfter := some wallet.balance })
    return some (updatedRows.head?.getD claimed)

/-- The update that puts a deposit into review. -/
def flagSet (now : Time) (reasons : List String) (metadata : Metadata) : TransactionSet :=
  { status := some .review
    metadata := some { metadata with
      needsReview := true
      reviewReasons := reasons
      flaggedAt := some now } }

def flagDepositForReview (now : Time) (depositId : Id) (reasons : List String)
    (extraMetadata : Metadata → Metadata) : Sql (Option (List SminkTransaction)) := do
  let some current := (← ask (.selectTransaction fun t => t.id == depositId)).head? | return none
  if current.status != .pending then return none
  let rows ← ask (.updateTransaction (fun t => t.id == depositId && t.status == .pending)
    (flagSet now reasons (extraMetadata current.metadata)))
  return some rows

end Smink
