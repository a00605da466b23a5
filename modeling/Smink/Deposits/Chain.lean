import Smink.Deposits.Coins
import Mathlib.Data.List.Infix

/-!
# Explorers

`deposits/chain.ts`: one reader for each explorer, from the body it answers with to the incoming transactions of an
address. The network is a parameter: an `Explorer` answers each request, or fails (`none`) where `fetch` rejects, the
status is not ok, or the RPC body holds an error. `Number(…)` has been applied to the numeric fields of a body.
-/

namespace Smink

structure IncomingTx where
  hash : String
  amount : Num
  confirmations : Num
  timestamp : Option ℤ
  sender : Option String := none
  deriving DecidableEq

/-! ## The bodies -/

structure BtcOutput where
  value : Num
  address : Option String

structure BtcTx where
  txid : String
  blockHeight : Option ℚ
  blockTime : Option ℤ
  vout : List BtcOutput

structure EthTx where
  hash : String
  value : Num
  timestamp : Option ℤ
  confirmations : Option Num
  sender : Option String
  receiver : Option String

structure TokenTransfer where
  transactionHash : String
  value : Option Num
  decimals : Option Nat
  timestamp : Option ℤ
  sender : Option String
  receiver : Option String
  symbol : Option String

structure Trc20Transfer where
  transactionId : String
  value : Num
  decimals : Option Nat
  symbol : Option String
  blockTimestamp : Option ℤ
  sender : Option String

structure SolanaTx where
  blockTime : Option ℤ
  accountKeys : List String
  preBalances : List ℚ
  postBalances : List ℚ

structure Explorer where
  tipHeight : (base : String) → Option ℚ
  addressTxs : (base address : String) → Option (List BtcTx)
  ethTransactions : (address : String) → Option (List EthTx)
  tokenTransfers : (address : String) → Option (List TokenTransfer)
  trc20Transfers : (address : String) → Option (List Trc20Transfer)
  signaturesForAddress : (address : String) → Option (List String)
  transaction : (signature : String) → Option SolanaTx

/-! ## The readers -/

def btcReceived (tx : BtcTx) (address : String) : Num :=
  (tx.vout.filter fun out => out.address == some address).foldl (fun sum out => sum.add out.value) (some 0)

/-- `height ? Math.max(0, tip - height + 1) : 0`. -/
def btcConfirmations (tip : ℚ) : Option ℚ → ℚ
  | none => 0
  | some height => if height = 0 then 0 else max 0 (tip - height + 1)

/-- `seconds ? seconds * 1000 : null`. -/
def millis : Option ℤ → Option ℤ
  | none => none
  | some seconds => if seconds = 0 then none else some (seconds * 1000)

def btcFamily (X : Explorer) (base address : String) : Option (List IncomingTx) := do
  let tip ← X.tipHeight base
  let txs ← X.addressTxs base address
  return txs.flatMap fun tx =>
    let received := btcReceived tx address
    if received.le (some 0) then []
    else [{
      hash := tx.txid
      amount := received.div (some 100000000)
      confirmations := some (btcConfirmations tip tx.blockHeight)
      timestamp := millis tx.blockTime }]

def ethNative (X : Explorer) (address : String) : Option (List IncomingTx) := do
  let items ← X.ethTransactions address
  return (items.filter fun tx => tx.receiver.map String.toLower == some address.toLower).map fun tx =>
    { hash := tx.hash
      amount := tx.value.div (some (10 ^ 18))
      confirmations := tx.confirmations.getD (some 0)
      timestamp := tx.timestamp
      sender := tx.sender }

def ethToken (X : Explorer) (address symbol : String) : Option (List IncomingTx) := do
  let items ← X.tokenTransfers address
  return (items.filter fun tx =>
      tx.symbol.map String.toUpper == some symbol &&
        tx.receiver.map String.toLower == some address.toLower).map fun tx =>
    { hash := tx.transactionHash
      amount := (tx.value.getD (some 0)).div (some (10 ^ tx.decimals.getD 6))
      confirmations := some 12
      timestamp := tx.timestamp
      sender := tx.sender }

/-- `(symbol || "USDT").toUpperCase() === "USDT"`. -/
def isUsdt : Option String → Bool
  | none => true
  | some symbol => symbol == "" || symbol.toUpper == "USDT"

def usdtTrc20 (X : Explorer) (address : String) : Option (List IncomingTx) := do
  let data ← X.trc20Transfers address
  return (data.filter fun tx => isUsdt tx.symbol).map fun tx =>
    { hash := tx.transactionId
      amount := tx.value.div (some (10 ^ tx.decimals.getD 6))
      confirmations := some 12
      timestamp := tx.blockTimestamp
      sender := tx.sender }

/-- What one transaction adds to the address, in whole coins. -/
def solanaDelta (tx : SolanaTx) (index : Nat) : ℚ :=
  (tx.postBalances.getD index 0 - tx.preBalances.getD index 0) / 1000000000

/-- One round of the loop over the signatures. -/
def solanaEntry (address signature : String) (tx : SolanaTx) : List IncomingTx :=
  if address ∈ tx.accountKeys then
    let delta := solanaDelta tx (tx.accountKeys.idxOf address)
    if delta ≤ 0 then []
    else [{ hash := signature, amount := some delta, confirmations := some 32, timestamp := millis tx.blockTime }]
  else []

def solanaLoop (X : Explorer) (address : String) : List String → Option (List IncomingTx)
  | [] => some []
  | signature :: rest => do
    let tx ← X.transaction signature
    let incoming ← solanaLoop X address rest
    return solanaEntry address signature tx ++ incoming

def solana (X : Explorer) (address : String) : Option (List IncomingTx) := do
  let signatures ← X.signaturesForAddress address
  solanaLoop X address (signatures.take 12)

def isTrc (network : String) : Bool := decide ("TRC".toList <:+: network.toUpper.toList)

/-- The incoming transactions of an address; `none` when the lookup throws. -/
def listIncoming (X : Explorer) (coin network address : String) : Option (List IncomingTx) :=
  match coin with
  | "BTC" => btcFamily X "https://blockstream.info/api" address
  | "LTC" => btcFamily X "https://litecoinspace.org/api" address
  | "ETH" => ethNative X address
  | "USDC" => ethToken X address "USDC"
  | "USDT" => if isTrc network then usdtTrc20 X address else ethToken X address "USDT"
  | "SOL" => solana X address
  | _ => some []

end Smink
