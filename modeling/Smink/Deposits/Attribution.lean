import Smink.Deposits.Outage

/-!
# Which payment settles a quote

An inspection credits or flags a deposit on the strength of one transaction of the explorer's answer. What it asks of
that transaction is a hash that is not credited yet and an amount of the right kind (`inspect_attribution`); when the
transaction was made plays no part, so an answer with other timestamps has the same effect.
-/

namespace Smink

open Store

/-! ## Timestamps are not read -/

def IncomingTx.untimed (tx : IncomingTx) : IncomingTx := { tx with timestamp := none }

def Sighting.untimed (s : Sighting) : Sighting :=
  { s with matched := s.matched.map IncomingTx.untimed, near := s.near.map IncomingTx.untimed }

/-- Two explorers whose answers for the deposit differ in timestamps only. -/
def SameButTimes (X Y : Explorer) (deposit : PendingDeposit) : Prop :=
  ∀ coin quote address, watchable deposit = some (coin, quote, address) →
    (listIncoming X coin (deposit.network.getD "") address).map (List.map IncomingTx.untimed) =
      (listIncoming Y coin (deposit.network.getD "") address).map (List.map IncomingTx.untimed)

section Untimed

variable {X Y : Explorer} {now : Time} {deposit : PendingDeposit} {allPending : List PendingDeposit}
  {hashes : List String} {mode : ScanMode}

theorem actOn_untimed (s : Sighting) :
    actOn now deposit allPending hashes mode s.untimed = actOn now deposit allPending hashes mode s := by
  obtain ⟨coin, required, lookupFailed, matched, near⟩ := s
  cases matched <;> cases near <;> rfl

theorem freshTxs_untimed (txs : List IncomingTx) :
    (freshTxs hashes txs).map IncomingTx.untimed = freshTxs hashes (txs.map IncomingTx.untimed) := by
  unfold freshTxs
  rw [List.filter_map]
  rfl

theorem firstOfKind_untimed (kind : ReceivedKind) (coin : QuoteCoin) (txs : List IncomingTx) :
    (firstOfKind kind deposit coin txs).map IncomingTx.untimed =
      firstOfKind kind deposit coin (txs.map IncomingTx.untimed) := by
  unfold firstOfKind
  rw [List.find?_map]
  rfl

theorem incomingFor_untimed (now : Time) (mode : ScanMode) (h : SameButTimes X Y deposit) {coin address : String}
    {quote : QuoteCoin}
    (hw : watchable deposit = some (coin, quote, address)) :
    (incomingFor X now deposit coin quote address mode).map (List.map IncomingTx.untimed) =
      (incomingFor Y now deposit coin quote address mode).map (List.map IncomingTx.untimed) := by
  cases mode with
  | chain => exact h coin quote address hw
  | simulate => rfl

theorem sighting_untimed (now : Time) (hashes : List String) (mode : ScanMode) (h : SameButTimes X Y deposit) :
    (sighting X now deposit hashes mode).map Sighting.untimed =
      (sighting Y now deposit hashes mode).map Sighting.untimed := by
  unfold sighting
  cases hw : watchable deposit with
  | none => rfl
  | some w =>
    obtain ⟨coin, quote, address⟩ := w
    have hinc := incomingFor_untimed now mode h hw
    have hnone := congrArg Option.isNone hinc
    have hlist : ((incomingFor X now deposit coin quote address mode).getD []).map IncomingTx.untimed =
        ((incomingFor Y now deposit coin quote address mode).getD []).map IncomingTx.untimed := by
      generalize incomingFor X now deposit coin quote address mode = a at hinc ⊢
      generalize incomingFor Y now deposit coin quote address mode = b at hinc ⊢
      cases a <;> cases b <;> simp_all
    simp only [Option.map_some, Sighting.untimed, firstOfKind_untimed, freshTxs_untimed, hlist]
    simpa using hnone

/-- Timestamps do not matter to an inspection. -/
theorem inspect_untimed (h : SameButTimes X Y deposit) :
    inspect X now deposit allPending hashes mode = inspect Y now deposit allPending hashes mode := by
  have hs := sighting_untimed now hashes mode h
  unfold inspect
  cases hx : sighting X now deposit hashes mode with
  | none =>
    rw [hx] at hs
    rw [Option.map_eq_none_iff.1 hs.symm]
  | some s =>
    rw [hx] at hs
    obtain ⟨s', hy, hs'⟩ := Option.map_eq_some_iff.1 hs.symm
    rw [hy]
    exact (actOn_untimed s).symm.trans ((congrArg _ hs'.symm).trans (actOn_untimed s'))

end Untimed

/-! ## What is asked of a payment -/

/-- `tx` is in the answer for the deposit, its hash is not credited, and its amount is of the kind the new status asks
for: a match to be credited, a match or a near amount to be held. -/
structure Attributed (X : Explorer) (now : Time) (deposit : PendingDeposit) (hashes : List String) (mode : ScanMode)
    (r' : SminkTransaction) (tx : IncomingTx) : Prop where
  answered : ∃ coin quote address incoming, watchable deposit = some (coin, quote, address) ∧
    incomingFor X now deposit coin quote address mode = some incoming ∧ tx ∈ incoming ∧
    (classifyReceived deposit.expected tx.amount quote = .matched ∨
      (r'.status = .review ∧ classifyReceived deposit.expected tx.amount quote = .review))
  fresh : tx.hash ∉ hashes
  recorded : r'.metadata.txHash = some tx.hash

section Attribution

variable {db : Db} {r : SminkTransaction} {X : Explorer} {now : Time} {deposit : PendingDeposit}
  {allPending : List PendingDeposit} {hashes : List String} {mode : ScanMode}

/-- The payment of a sighting comes from the answer and is fresh. -/
theorem payment_spec {s : Sighting} {tx : IncomingTx} (h : sighting X now deposit hashes mode = some s)
    (hp : s.payment = some tx) :
    tx.hash ∉ hashes ∧ ∃ coin quote address incoming, watchable deposit = some (coin, quote, address) ∧
      incomingFor X now deposit coin quote address mode = some incoming ∧ tx ∈ incoming ∧
      classifyReceived deposit.expected tx.amount quote = if s.matched = some tx then .matched else .review := by
  unfold sighting at h
  obtain ⟨⟨coin, quote, address⟩, hw, rfl⟩ := Option.map_eq_some_iff.1 h
  have hmem : ∀ {kind}, firstOfKind kind deposit quote
      (freshTxs hashes ((incomingFor X now deposit coin quote address mode).getD [])) = some tx →
      tx.hash ∉ hashes ∧ (∃ incoming, incomingFor X now deposit coin quote address mode = some incoming ∧
        tx ∈ incoming) ∧ classifyReceived deposit.expected tx.amount quote = kind := by
    intro kind hfirst
    obtain ⟨hin, hnot⟩ := List.mem_filter.1 (List.mem_of_find?_eq_some hfirst)
    refine ⟨by simpa using hnot, ?_, by simpa using List.find?_some hfirst⟩
    cases hi : incomingFor X now deposit coin quote address mode with
    | none => rw [hi] at hin; cases hin
    | some incoming => rw [hi] at hin; exact ⟨incoming, rfl, hin⟩
  rcases hm : firstOfKind .matched deposit quote
      (freshTxs hashes ((incomingFor X now deposit coin quote address mode).getD [])) with _ | tx'
  · simp only [Sighting.payment, hm, Option.none_or] at hp
    obtain ⟨hfresh, ⟨incoming, hi, hin⟩, hc⟩ := hmem hp
    exact ⟨hfresh, coin, quote, address, incoming, hw, hi, hin, by simp [hm, hc]⟩
  · simp only [Sighting.payment, hm, Option.some_or, Option.some.injEq] at hp
    subst hp
    obtain ⟨hfresh, ⟨incoming, hi, hin⟩, hc⟩ := hmem hm
    exact ⟨hfresh, coin, quote, address, incoming, hw, hi, hin, by simp [hm, hc]⟩

/-- The row an exit leaves is attributed when it is credited or held. -/
theorem attributed_of_exit {r' : SminkTransaction} {hashes' : List String} (hs : r.status = .pending)
    (he : Exit db X now deposit allPending hashes mode r r' hashes')
    (hst : r'.status = .confirmed ∨ r'.status = .review) : ∃ tx, Attributed X now deposit hashes mode r' tx := by
  obtain ⟨s, tx, h, hp, hrec, hkept⟩ := he.settled hs hst
  obtain ⟨hfresh, coin, quote, address, incoming, hw, hi, hin, hkind⟩ := payment_spec h hp
  refine ⟨tx, ⟨coin, quote, address, incoming, hw, hi, hin, ?_⟩, hfresh, hrec⟩
  by_cases hm : s.matched = some tx
  · exact .inl (by rw [hkind, if_pos hm])
  · rcases hkept with hrev | ⟨-, hm', -, -, -⟩
    · exact .inr ⟨hrev, by rw [hkind, if_neg hm]⟩
    · exact absurd hm' hm

/-- **A deposit is credited or held on the strength of an uncredited transaction of the answer whose amount is of the
right kind, and of nothing about its time.** -/
theorem inspect_attribution {u : User} (hr : r ∈ db.sminkTransactions.rows) (hd : r.type = .deposit)
    (hs : r.status = .pending) :
    (∀ r' ∈ ((inspect X now (pendingDeposit (r, u)) allPending hashes mode).run exec db).2.sminkTransactions.rows,
      r'.id = r.id → r'.status = .confirmed ∨ r'.status = .review →
        ∃ tx, Attributed X now (pendingDeposit (r, u)) hashes mode r' tx) ∧
    ∀ Y, SameButTimes X Y (pendingDeposit (r, u)) →
      (inspect Y now (pendingDeposit (r, u)) allPending hashes mode).run exec db =
        (inspect X now (pendingDeposit (r, u)) allPending hashes mode).run exec db := by
  constructor
  · obtain ⟨hashes', r₁, t, hrun, hrw, hexit⟩ := run_inspect allPending X now hashes mode hr hd hs
      (rfl : _ = pendingDeposit (r, u))
    rw [hrun]
    intro r' hr' hid hst
    obtain rfl | ⟨-, hne⟩ := hrw.mem_iff.1 hr'
    · exact attributed_of_exit hs hexit hst
    · exact absurd hid hne
  · intro Y hY
    rw [inspect_untimed hY]

end Attribution

/-- A quote made one hour after the epoch. -/
def laterQuote : SminkTransaction := { btcQuote with createdAt := 3600000 }

def laterQuoteDb : Db :=
  { btcQuoteDb with
    sminkTransactions := ⟨[laterQuote], by decide⟩ }

/-- The address received one coin at second `time`, in a block now three deep. -/
def paidAt (time : ℤ) : Explorer :=
  { offline with
    tipHeight := fun _ => some 102
    addressTxs := fun _ _ => some [{
      txid := "a1"
      blockHeight := some 100
      blockTime := some time
      vout := [{ value := some 100000000, address := some "bc1" }] }] }

/-- A transfer one second after the epoch credits the quote made an hour later. -/
theorem old_transfer_credits :
    (∃ tx ∈ (listIncoming (paidAt 1) "BTC" "Bitcoin" "bc1").getD [],
      tx.hash = "a1" ∧ tx.timestamp = some 1000 ∧ 1000 < laterQuote.createdAt) ∧
    ∃ r' ∈ ((inspect (paidAt 1) 3600001 (pendingDeposit (laterQuote, payer)) [] [] .chain).run exec
        laterQuoteDb).2.sminkTransactions.rows,
      r'.id = laterQuote.id ∧ r'.status = .confirmed ∧ r'.metadata.txHash = some "a1" := by
  decide +kernel

theorem inspect_attribution_old_transfer :
    (∀ r' ∈ ((inspect (paidAt 1) 3600001 (pendingDeposit (laterQuote, payer)) [] [] .chain).run exec
        laterQuoteDb).2.sminkTransactions.rows,
      r'.id = laterQuote.id → r'.status = .confirmed ∨ r'.status = .review →
        ∃ tx, Attributed (paidAt 1) 3600001 (pendingDeposit (laterQuote, payer)) [] .chain r' tx) ∧
    ∀ Y, SameButTimes (paidAt 1) Y (pendingDeposit (laterQuote, payer)) →
      (inspect Y 3600001 (pendingDeposit (laterQuote, payer)) [] [] .chain).run exec laterQuoteDb =
        (inspect (paidAt 1) 3600001 (pendingDeposit (laterQuote, payer)) [] [] .chain).run exec laterQuoteDb :=
  inspect_attribution (by decide) rfl rfl

end Smink
