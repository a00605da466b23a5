import Smink.Deposits.SpentOnce

/-!
# Ambiguous payments

A received amount can match two quotes at one address. Each quote's own window decides whether it matches, but the
collision test of an inspection measures the other quote with the inspected quote's window. The two agree when each
quoted amount lies in the other's window around the payment (`InBothWindows`); `ambiguous_held_iff` says that this is
exactly when no scan credits either quote with the payment.
-/

namespace Smink

open Store

/-- The amount matches a quote of `a` and a quote of `b`. -/
def Ambiguous (coin : QuoteCoin) (a b received : ℚ) : Prop :=
  classifyReceived a (some received) coin = .matched ∧ classifyReceived b (some received) coin = .matched

instance (coin : QuoteCoin) (a b received : ℚ) : Decidable (Ambiguous coin a b received) :=
  inferInstanceAs (Decidable (classifyReceived a (some received) coin = .matched ∧
    classifyReceived b (some received) coin = .matched))

/-- Each quoted amount is as near to the received one as the other quote's window asks. -/
def InBothWindows (coin : QuoteCoin) (a b received : ℚ) : Prop :=
  |b - received| ≤ matchWindowFor coin a ∧ |a - received| ≤ matchWindowFor coin b

instance (coin : QuoteCoin) (a b received : ℚ) : Decidable (InBothWindows coin a b received) :=
  inferInstanceAs (Decidable (|b - received| ≤ matchWindowFor coin a ∧ |a - received| ≤ matchWindowFor coin b))

/-- A quote of the coin at the address, with no window of its own or with the coin's. -/
structure QuoteFor (coin : QuoteCoin) (address : String) (expected : ℚ) (deposit : PendingDeposit) : Prop where
  coin_eq : deposit.coin.bind quoteCoin = some coin
  address_eq : deposit.address = some address
  expected_eq : deposit.expected = expected
  window : deposit.metadata.matchWindow = none ∨
    deposit.metadata.matchWindow = some (some (matchWindowFor coin expected))

/-- The inspection credits its deposit on the strength of the transaction. -/
def CreditsWith (v : Inspection) (tx : IncomingTx) : Prop :=
  (∃ s ∈ v.sighting, s.matched = some tx) ∧ Credits v tx.hash

instance (v : Inspection) (tx : IncomingTx) : Decidable (CreditsWith v tx) :=
  inferInstanceAs (Decidable ((∃ s ∈ v.sighting, s.matched = some tx) ∧ Credits v tx.hash))

/-- No scan that finds quotes for `a` and `b` pending at one address credits the one for `a` with a payment of
`received`. -/
def NeverCredits (coin : QuoteCoin) (a b received : ℚ) : Prop :=
  ∀ (I : ScanInput) (db : Db) (address : String), ∀ v ∈ scanInspections I db, ∀ other ∈ pendingOf db,
    other.id ≠ v.deposit.id → QuoteFor coin address a v.deposit → QuoteFor coin address b other →
      ∀ tx, tx.amount = some received → ¬ CreditsWith v tx

/-! ## The windows -/

section Windows

variable {coin : QuoteCoin} {a b received : ℚ}

theorem tolerance_nonneg (coin : QuoteCoin) : 0 ≤ (COIN_QUOTE coin).tolerance := by
  cases coin <;> norm_num [COIN_QUOTE]

theorem floor_le_matchWindowFor (coin : QuoteCoin) (a : ℚ) : (COIN_QUOTE coin).floor ≤ matchWindowFor coin a := by
  unfold matchWindowFor
  dsimp only
  split_ifs
  · exact le_rfl
  · exact le_max_left _ _

theorem matchWindowFor_nonneg (coin : QuoteCoin) (a : ℚ) : 0 ≤ matchWindowFor coin a := by
  have hfloor : 0 ≤ (COIN_QUOTE coin).floor := by cases coin <;> norm_num [COIN_QUOTE]
  exact hfloor.trans (floor_le_matchWindowFor coin a)

theorem mul_tolerance_le (coin : QuoteCoin) (a : ℚ) : a * (COIN_QUOTE coin).tolerance ≤ matchWindowFor coin a := by
  by_cases ha : a ≤ 0
  · exact (mul_nonpos_of_nonpos_of_nonneg ha (tolerance_nonneg coin)).trans (matchWindowFor_nonneg coin a)
  · unfold matchWindowFor
    dsimp only
    rw [if_neg ha]
    exact le_max_right _ _

/-- Windows grow with the amounts. -/
theorem matchWindowFor_mono (h : b ≤ a) : matchWindowFor coin b ≤ matchWindowFor coin a := by
  by_cases hb : b ≤ 0
  · have hwb : matchWindowFor coin b = (COIN_QUOTE coin).floor := if_pos hb
    rw [hwb]
    exact floor_le_matchWindowFor coin a
  · have hwb : matchWindowFor coin b = max (COIN_QUOTE coin).floor (b * (COIN_QUOTE coin).tolerance) := if_neg hb
    rw [hwb]
    refine max_le (floor_le_matchWindowFor coin a) ?_
    exact (mul_le_mul_of_nonneg_right h (tolerance_nonneg coin)).trans (mul_tolerance_le coin a)

theorem classifyReceived_matched :
    classifyReceived a (some received) coin = .matched ↔ 0 < a ∧ |a - received| ≤ matchWindowFor coin a := by
  simp only [classifyReceived]
  split_ifs with ha hw hn
  · simp [ha]
  · simp [not_le.1 ha, hw]
  · simp [hw]
  · simp [hw]

/-- The larger quote measures both amounts with the larger window, so only the smaller one's can miss. -/
theorem inBothWindows_of_le (h : Ambiguous coin a b received) (hab : a ≤ b) :
    InBothWindows coin a b received ↔ |b - received| ≤ matchWindowFor coin a := by
  obtain ⟨ha, haw⟩ := classifyReceived_matched.1 h.1
  have hmono : matchWindowFor coin a ≤ matchWindowFor coin b := matchWindowFor_mono hab
  exact ⟨And.left, fun hb => ⟨hb, haw.trans hmono⟩⟩

end Windows

/-! ## The collision test -/

section Held

variable {coin : QuoteCoin} {address : String} {a b received : ℚ} {deposit other : PendingDeposit}

/-- A quote of the coin measures with the coin's window. -/
theorem QuoteFor.matchWindow (h : QuoteFor coin address a deposit) :
    matchWindow deposit coin = some (matchWindowFor coin a) := by
  unfold Smink.matchWindow
  obtain hw | hw := h.window
  · rw [hw, h.expected_eq]
    rfl
  · rw [hw, Option.getD_some]

/-- The sighting of a quote is of its coin. -/
theorem QuoteFor.sighting_coin (h : QuoteFor coin address a deposit) {X : Explorer} {now : Time} {hashes : List String}
    {mode : ScanMode} {s : Sighting} (hs : sighting X now deposit hashes mode = some s) : s.coin = coin := by
  unfold sighting at hs
  obtain ⟨⟨c, quote, addr⟩, hw, rfl⟩ := Option.map_eq_some_iff.1 hs
  have hcoin := h.coin_eq
  unfold watchable at hw
  split at hw
  · rename_i hc _
    rw [hc] at hcoin
    split_ifs at hw
    obtain ⟨q, hq, heq⟩ := Option.map_eq_some_iff.1 hw
    cases heq
    exact Option.some.inj (hq.symm.trans hcoin)
  · cases hw

/-- Another quote in the window is a reason to hold the payment. -/
theorem collision_mem_reviewReasons (now : Time) {allPending : List PendingDeposit} {tx : IncomingTx}
    (totalDeposited : Money) (recent : Nat) (hd : QuoteFor coin address a deposit) (ho : QuoteFor coin address b other)
    (hmem : other ∈ allPending) (hid : other.id ≠ deposit.id) (htx : tx.amount = some received)
    (hw : |b - received| ≤ matchWindowFor coin a) :
    "shared_address_collision" ∈
      reviewReasons now deposit allPending (matchWindow deposit coin) tx totalDeposited recent := by
  have hin : other ∈ collisions deposit allPending tx.amount (matchWindow deposit coin) := by
    refine List.mem_filter.2 ⟨hmem, ?_⟩
    simp [hid, hd.address_eq, ho.address_eq, ho.expected_eq, htx, hd.matchWindow, Num.sub, Num.lift₂, Num.le,
      Num.holds₂, hw]
  have hpos := List.length_pos_of_mem hin
  simp [reviewReasons, hpos]

/-- Every inspection of a scan tests against the deposits the scan began with. -/
theorem allPending_of_mem {I : ScanInput} {start : Db} {allPending : List PendingDeposit} :
    ∀ {rest : List PendingDeposit} {hashes : List String} {db : Db},
      ∀ v ∈ loopInspections I start allPending rest hashes db, v.allPending = allPending
  | [], _, _, _, hv => nomatch hv
  | deposit :: rest, hashes, db, v, hv => by
    rw [loopInspections] at hv
    split at hv
    · split at hv
      · rcases List.mem_cons.1 hv with rfl | hv
        · rfl
        · exact allPending_of_mem v hv
      · rw [List.mem_singleton.1 hv]
    · exact allPending_of_mem v hv

/-- What is known of each inspection of a scan. -/
theorem inspectionStep_of_mem {I : ScanInput} {db : Db} {v : Inspection} (hv : v ∈ scanInspections I db) :
    ∃ r r' hashes', InspectionStep v r r' hashes' := by
  obtain ⟨hall, -⟩ := @scan_inv I (fun _ _ => True) db (fun _ _ _ _ _ _ _ _ => trivial) trivial
  obtain ⟨-, -, r, r', hashes', h, -⟩ := hall v hv
  exact ⟨r, r', hashes', h⟩

/-- **A quote is not credited with a payment that is in its window around another quote of its address.** -/
theorem neverCredits_of_window (hw : |b - received| ≤ matchWindowFor coin a) : NeverCredits coin a b received := by
  intro I db address v hv other hother hid hd ho tx htx ⟨⟨s, hs, hm⟩, hc⟩
  obtain ⟨r, r', hashes', h⟩ := inspectionStep_of_mem hv
  obtain ⟨s', tx', hs', hm', -, -, hreasons⟩ := matched_of_credits h hc
  obtain rfl : s = s' := Option.some.inj (hs.symm.trans hs')
  obtain rfl : tx = tx' := Option.some.inj (hm.symm.trans hm')
  have hcoin : s.coin = coin := hd.sighting_coin hs
  have hmem : other ∈ v.allPending := by
    rw [allPending_of_mem v hv]
    exact hother
  have hreason : "shared_address_collision" ∈ reasonsIn v.before v.now v.deposit v.allPending s tx := by
    rw [reasonsIn, hcoin]
    exact collision_mem_reviewReasons _ _ _ hd ho hmem hid htx hw
  rw [hreasons] at hreason
  cases hreason

end Held

/-! ## A scan that credits the smaller quote -/

section Sample

variable (coin : QuoteCoin) (a b received : ℚ)

/-- An explorer that shows one payment of `received` coins to the address `a1`, old enough for every coin. -/
def payingExplorer : Explorer where
  tipHeight _ := some 110
  addressTxs _ _ := some [{
    txid := "h1"
    blockHeight := some 100
    blockTime := some 10
    vout := [{ value := some (received * 100000000), address := some "a1" }] }]
  ethTransactions _ := some [{
    hash := "h1"
    value := some (received * 10 ^ 18)
    timestamp := some 10
    confirmations := some (some 12)
    sender := none
    receiver := some "a1" }]
  tokenTransfers _ := some [{
    transactionHash := "h1"
    value := some (some (received * 10 ^ 6))
    decimals := some 6
    timestamp := some 10
    sender := none
    receiver := some "a1"
    symbol := some coin.text }]
  trc20Transfers _ := some []
  signaturesForAddress _ := some ["h1"]
  transaction _ := some {
    blockTime := some 10
    accountKeys := ["a1"]
    preBalances := [0]
    postBalances := [received * 1000000000] }

/-- A quote of the coin at the address `a1`. -/
def sampleQuote (id userId reference : String) (createdAt : Time) (expected : ℚ) : SminkTransaction :=
  { id
    userId
    type := .deposit
    status := .pending
    amount := 10000
    coin := some coin.text
    network := some "mainnet"
    address := some "a1"
    amountCrypto := some expected
    reference
    createdAt }

/-- Quotes for `a` and for `b`, the one for `a` being the newer. -/
def sampleQuotesDb : Db :=
  { Db.empty with
    users := ⟨[{ id := "u1", createdAt := 0 }, { id := "u2", createdAt := 0 }], by decide⟩
    sminkTransactions :=
      ⟨[sampleQuote coin "d1" "u1" "DEP-1" 1000 a, sampleQuote coin "d2" "u2" "DEP-2" 0 b], by
        simp [Apart, Keyed.keys, sampleQuote]⟩ }

def sampleScan : ScanInput where
  mode := .chain
  now _ := 60000
  explorer _ := payingExplorer coin received

def sampleDeposit (id userId reference : String) (createdAt : Time) (expected : ℚ) : PendingDeposit :=
  pendingDeposit (sampleQuote coin id userId reference createdAt expected, { id := userId, createdAt := 0 })

theorem pendingOf_sampleQuotesDb : pendingOf (sampleQuotesDb coin a b) =
    [sampleDeposit coin "d1" "u1" "DEP-1" 1000 a, sampleDeposit coin "d2" "u2" "DEP-2" 0 b] := rfl

/-- What the explorer lists for the address. -/
theorem listIncoming_paying (hr : 0 < received) : ∃ tx : IncomingTx,
    listIncoming (payingExplorer coin received) coin.text "mainnet" "a1" = some [tx] ∧ tx.amount = some received ∧
      tx.confirmations.lt (some (COIN_QUOTE coin).confirmations) = false := by
  have hbtc : ∀ base, btcFamily (payingExplorer coin received) base "a1" = some [
      { hash := "h1", amount := some received, confirmations := some 11, timestamp := some 10000 }] := by
    intro base
    have hpos : ¬ received * 100000000 ≤ 0 := by linarith
    have hdiv : received * 100000000 / 100000000 = received := by field_simp
    simp [btcFamily, payingExplorer, btcReceived, btcConfirmations, millis, Num.add, Num.le, Num.div, Num.lift₂,
      Num.holds₂, hpos, hdiv]
    norm_num
  have htoken : ethToken (payingExplorer coin received) "a1" coin.text = some [
      { hash := "h1", amount := some received, confirmations := some 12, timestamp := some 10 }] := by
    have hdiv : received * 10 ^ 6 / 10 ^ 6 = received := by field_simp
    have hupper : coin.text.toUpper = coin.text := by cases coin <;> decide +kernel
    simp [ethToken, payingExplorer, Num.div, Num.lift₂, hdiv, hupper]
  cases coin with
  | BTC => exact ⟨_, hbtc _, rfl, by norm_num [Num.lt, Num.holds₂, COIN_QUOTE]⟩
  | LTC => exact ⟨_, hbtc _, rfl, by norm_num [Num.lt, Num.holds₂, COIN_QUOTE]⟩
  | USDC => exact ⟨_, htoken, rfl, by norm_num [Num.lt, Num.holds₂, COIN_QUOTE]⟩
  | USDT =>
    have htrc : isTrc "mainnet" = false := by decide +kernel
    refine ⟨_, Eq.trans ?_ htoken, rfl, by norm_num [Num.lt, Num.holds₂, COIN_QUOTE]⟩
    simp only [QuoteCoin.text, listIncoming, htrc, Bool.false_eq_true, if_false]
  | ETH =>
    have hdiv : received * 10 ^ 18 / 10 ^ 18 = received := by field_simp
    refine ⟨{ hash := "h1", amount := some received, confirmations := some 12, timestamp := some 10 }, ?_, rfl,
      by norm_num [Num.lt, Num.holds₂, COIN_QUOTE]⟩
    simp [listIncoming, QuoteCoin.text, ethNative, payingExplorer, Num.div, Num.lift₂, hdiv]
  | SOL =>
    have hdiv : received * 1000000000 / 1000000000 = received := by field_simp
    refine ⟨{ hash := "h1", amount := some received, confirmations := some 32, timestamp := some 10000 }, ?_, rfl,
      by norm_num [Num.lt, Num.holds₂, COIN_QUOTE]⟩
    simp [listIncoming, QuoteCoin.text, solana, solanaLoop, solanaEntry, solanaDelta, payingExplorer, millis, hdiv, hr]

/-- The newest quote is inspected against the table as the scan finds it. -/
theorem newest_inspected {I : ScanInput} {db : Db} {deposit : PendingDeposit} {rest : List PendingDeposit}
    (hp : pendingOf db = deposit :: rest) (hin : inScan I.mode deposit = true) :
    ∃ t, (⟨I, db, pendingOf db, deposit, creditedHashesOf db, db, t⟩ : Inspection) ∈ scanInspections I db := by
  have hloop : scanInspections I db =
      loopInspections I db (pendingOf db) (deposit :: rest) (creditedHashesOf db) db := by
    rw [← hp]
    rfl
  rw [hloop, loopInspections, if_pos hin]
  split
  · exact ⟨_, List.mem_cons_self ..⟩
  · exact ⟨_, List.mem_cons_self ..⟩

variable {coin a b received}

theorem quoteFor_sampleDeposit (id userId reference : String) (createdAt : Time) :
    QuoteFor coin "a1" a (sampleDeposit coin id userId reference createdAt a) :=
  ⟨quoteCoin_text coin, rfl, rfl, .inl rfl⟩

/-- The inspection of the newer quote matches the payment. -/
theorem sighting_paying (ha : classifyReceived a (some received) coin = .matched) {tx : IncomingTx}
    (hlist : listIncoming (payingExplorer coin received) coin.text "mainnet" "a1" = some [tx])
    (hamount : tx.amount = some received) :
    ∃ s, sighting (payingExplorer coin received) 60000 (sampleDeposit coin "d1" "u1" "DEP-1" 1000 a)
      [] .chain = some s ∧
      s.coin = coin ∧ s.required = some (COIN_QUOTE coin).confirmations ∧ s.matched = some tx := by
  have hw : watchable (sampleDeposit coin "d1" "u1" "DEP-1" 1000 a) = some (coin.text, coin, "a1") := by
    simp [watchable, sampleDeposit, pendingDeposit, sampleQuote, quoteCoin_text]
  have hin : incomingFor (payingExplorer coin received) 60000 (sampleDeposit coin "d1" "u1" "DEP-1" 1000 a) coin.text
      coin "a1" .chain = some [tx] := hlist
  refine ⟨_, by rw [sighting, hw]; rfl, rfl, rfl, ?_⟩
  have hexp : (sampleDeposit coin "d1" "u1" "DEP-1" 1000 a).expected = a := rfl
  simp [hin, freshTxs, firstOfKind, hexp, hamount, ha]

/-- Nothing holds the payment back where the older quote lies outside the newer one's window. -/
theorem reasonsIn_sample (hb : ¬ |b - received| ≤ matchWindowFor coin a) {s : Sighting} {tx : IncomingTx}
    (hcoin : s.coin = coin) (hamount : tx.amount = some received) :
    reasonsIn (sampleQuotesDb coin a b) 60000 (sampleDeposit coin "d1" "u1" "DEP-1" 1000 a)
      (pendingOf (sampleQuotesDb coin a b)) s tx = [] := by
  have hwindow : matchWindow (sampleDeposit coin "d1" "u1" "DEP-1" 1000 a) coin = some (matchWindowFor coin a) :=
    (quoteFor_sampleDeposit (a := a) _ _ _ _).matchWindow
  have hexp : (sampleDeposit coin "d2" "u2" "DEP-2" 0 b).expected = b := rfl
  have hcoll : collisions (sampleDeposit coin "d1" "u1" "DEP-1" 1000 a) (pendingOf (sampleQuotesDb coin a b)) tx.amount
      (matchWindow (sampleDeposit coin "d1" "u1" "DEP-1" 1000 a) s.coin) = [] := by
    rw [pendingOf_sampleQuotesDb, hcoin, hwindow, hamount]
    simp [collisions, hexp, Num.sub, Num.lift₂, Num.le, Num.holds₂, hb]
  have hrecent : ((sampleQuotesDb coin a b).sminkTransactions.select
      (isRecent 60000 (sampleDeposit coin "d1" "u1" "DEP-1" 1000 a).userId)).length = 1 := rfl
  have hwallet : ((sampleQuotesDb coin a b).sminkWallets.select
      fun w => w.userId == (sampleDeposit coin "d1" "u1" "DEP-1" 1000 a).userId).head? = none := rfl
  have hdeadline : pastDeadline 60000 (sampleDeposit coin "d1" "u1" "DEP-1" 1000 a) = false := rfl
  have husd : (sampleDeposit coin "d1" "u1" "DEP-1" 1000 a).amount.toRat = 100 := by
    norm_num [sampleDeposit, pendingDeposit, sampleQuote, Money.toRat]
  norm_num [reasonsIn, reviewReasons, hcoll, hrecent, hwallet, hdeadline, husd]

/-- A scan credits the newer quote where the older one lies outside its window. -/
theorem credits_sample (ha : classifyReceived a (some received) coin = .matched) (hr : 0 < received)
    (hb : ¬ |b - received| ≤ matchWindowFor coin a) : ¬ NeverCredits coin a b received := by
  intro hnever
  obtain ⟨tx, hlist, hamount, hconf⟩ := listIncoming_paying coin received hr
  have hp := pendingOf_sampleQuotesDb coin a b
  obtain ⟨t, hv⟩ := newest_inspected (I := sampleScan coin received) hp rfl
  obtain ⟨r, r', hashes', h⟩ := inspectionStep_of_mem hv
  obtain ⟨s, hs, hcoin, hreq, hm⟩ := sighting_paying ha hlist hamount
  have hc := credits_of_matched h hs hm (by rw [hreq]; exact hconf) (reasonsIn_sample hb hcoin hamount)
  exact hnever _ _ "a1" _ hv (sampleDeposit coin "d2" "u2" "DEP-2" 0 b) (by rw [hp]; simp)
    (by simp [sampleDeposit, pendingDeposit, sampleQuote]) (quoteFor_sampleDeposit _ _ _ _)
    (quoteFor_sampleDeposit _ _ _ _) tx hamount ⟨⟨s, hs, hm⟩, hc⟩

end Sample

/-- A payment that matches a quote is positive, or the quote is so small that its window is the coin's floor. -/
theorem matchWindowFor_of_nonpos {coin : QuoteCoin} {a received : ℚ}
    (ha : classifyReceived a (some received) coin = .matched) (hr : received ≤ 0) :
    matchWindowFor coin a = (COIN_QUOTE coin).floor := by
  obtain ⟨hpos, hw⟩ := classifyReceived_matched.1 ha
  have hle : a ≤ matchWindowFor coin a := le_trans (by linarith) ((le_abs_self _).trans hw)
  have ht : (COIN_QUOTE coin).tolerance < 1 := by cases coin <;> norm_num [COIN_QUOTE]
  simp only [matchWindowFor, not_le.2 hpos, if_false] at hle ⊢
  refine max_eq_left (not_lt.1 fun hlt => ?_)
  rw [max_eq_right hlt.le] at hle
  nlinarith

/-- **An ambiguous payment is credited to neither quote by any scan exactly when each quoted amount lies in the other
quote's window around it.** Amounts are rationals here; as doubles, one on the very edge of a window may fall on the
other side of it. -/
theorem ambiguous_held_iff {coin : QuoteCoin} {a b received : ℚ} (h : Ambiguous coin a b received) :
    NeverCredits coin a b received ∧ NeverCredits coin b a received ↔ InBothWindows coin a b received := by
  constructor
  · rintro ⟨hab, hba⟩
    rcases lt_or_ge 0 received with hr | hr
    · exact ⟨by_contra fun hb => credits_sample h.1 hr hb hab, by_contra fun ha => credits_sample h.2 hr ha hba⟩
    · -- both windows are the coin's floor
      have hwa := matchWindowFor_of_nonpos h.1 hr
      have hwb := matchWindowFor_of_nonpos h.2 hr
      obtain ⟨-, ha⟩ := classifyReceived_matched.1 h.1
      obtain ⟨-, hb⟩ := classifyReceived_matched.1 h.2
      exact ⟨by rwa [hwa, ← hwb], by rwa [hwb, ← hwa]⟩
  · rintro ⟨hb, ha⟩
    exact ⟨neverCredits_of_window hb, neverCredits_of_window ha⟩

/-- 1.11 bitcoins pay a quote of 1 and a quote of 1.3, and a scan credits the former. -/
theorem ambiguous_credited : Ambiguous .BTC 1 (13 / 10) (111 / 100) ∧
    ∃ v ∈ scanInspections (sampleScan .BTC (111 / 100)) (sampleQuotesDb .BTC 1 (13 / 10)),
      v.deposit.expected = 1 ∧ (∃ other ∈ pendingOf v.start, other.expected = 13 / 10 ∧ other.id ≠ v.deposit.id ∧
        other.address = v.deposit.address) ∧
      ∃ s ∈ v.sighting, ∃ tx ∈ s.matched, tx.amount = some (111 / 100) ∧ CreditsWith v tx := by
  decide +kernel

/-- 1.1 bitcoins pay quotes of 1 and of 1.2 that lie in each other's windows, and no scan credits either. -/
theorem ambiguous_held_near : NeverCredits .BTC 1 (12 / 10) (11 / 10) ∧ NeverCredits .BTC (12 / 10) 1 (11 / 10) :=
  (ambiguous_held_iff (by decide +kernel)).2 (by decide +kernel)

end Smink
