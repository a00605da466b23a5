import Smink.Engine.Number

/-!
# Coins and quotes

`deposits/coins.ts`: the quote table, the window around a quoted amount that counts as paid, and the classification of
a received amount.
-/

namespace Smink

structure CoinQuote where
  decimals : Nat
  floor : ℚ
  tolerance : ℚ
  confirmations : ℚ
  deriving DecidableEq

inductive QuoteCoin
  | BTC | ETH | USDT | USDC | SOL | LTC
  deriving DecidableEq, Repr

def COIN_QUOTE : QuoteCoin → CoinQuote
  | .BTC => { decimals := 8, floor := 1 / 1000000, tolerance := 15 / 100, confirmations := 3 }
  | .ETH => { decimals := 8, floor := 1 / 100000, tolerance := 15 / 100, confirmations := 12 }
  | .USDT => { decimals := 6, floor := 2 / 100, tolerance := 15 / 1000, confirmations := 12 }
  | .USDC => { decimals := 6, floor := 2 / 100, tolerance := 15 / 1000, confirmations := 12 }
  | .SOL => { decimals := 9, floor := 1 / 1000, tolerance := 8 / 100, confirmations := 32 }
  | .LTC => { decimals := 8, floor := 1 / 100000, tolerance := 15 / 100, confirmations := 6 }

/-- `coin in COIN_QUOTE`, for the table's own keys. -/
def quoteCoin : String → Option QuoteCoin
  | "BTC" => some .BTC
  | "ETH" => some .ETH
  | "USDT" => some .USDT
  | "USDC" => some .USDC
  | "SOL" => some .SOL
  | "LTC" => some .LTC
  | _ => none

/-- The coin's name, its key in the table. -/
def QuoteCoin.text : QuoteCoin → String
  | .BTC => "BTC"
  | .ETH => "ETH"
  | .USDT => "USDT"
  | .USDC => "USDC"
  | .SOL => "SOL"
  | .LTC => "LTC"

theorem quoteCoin_text (coin : QuoteCoin) : quoteCoin coin.text = some coin := by
  cases coin <;> rfl

def matchWindowFor (coin : QuoteCoin) (expected : ℚ) : ℚ :=
  let quote := COIN_QUOTE coin
  if expected ≤ 0 then quote.floor else max quote.floor (expected * quote.tolerance)

inductive ReceivedKind
  | matched | review | ignore
  deriving DecidableEq, Repr

def classifyReceived (expected : ℚ) (received : Num) (coin : QuoteCoin) : ReceivedKind :=
  match received with
  | none => .ignore
  | some received =>
    if expected ≤ 0 then .ignore
    else if |expected - received| ≤ matchWindowFor coin expected then .matched
    else if |expected - received| / expected ≤ 1 / 2 then .review
    else .ignore

end Smink
