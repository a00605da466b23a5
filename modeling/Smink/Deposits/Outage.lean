import Smink.Deposits.Inspect

/-!
# Explorer outages

A lookup that throws reaches `inspect` as an empty list and a flag, and the flag is looked at only after the exit that
cancels an unpaid quote. `inspect_outage_iff` says exactly when an outage leaves the deposit and the wallets alone.
-/

namespace Smink

open Store

/-- The lookup for the deposit throws. -/
def LookupThrows (X : Explorer) (deposit : PendingDeposit) : Prop :=
  ∃ coin quote address, watchable deposit = some (coin, quote, address) ∧
    listIncoming X coin (deposit.network.getD "") address = none

/-- The deposit's row and the wallets are in `t` what they are in `db`. -/
def Untouched (db t : Db) (r : SminkTransaction) : Prop :=
  r ∈ t.sminkTransactions.rows ∧ t.sminkWallets = db.sminkWallets

instance (db t : Db) (r : SminkTransaction) : Decidable (Untouched db t r) :=
  inferInstanceAs (Decidable (r ∈ t.sminkTransactions.rows ∧ t.sminkWallets = db.sminkWallets))

section Outage

variable {db : Db} {r : SminkTransaction} {X : Explorer} {now : Time} {deposit : PendingDeposit}
  {allPending : List PendingDeposit} {hashes : List String}

theorem sighting_of_throws (now : Time) (hashes : List String) (h : LookupThrows X deposit) :
    ∃ s, sighting X now deposit hashes .chain = some s ∧ s.lookupFailed = true ∧ s.matched = none ∧ s.near = none := by
  obtain ⟨coin, quote, address, hw, hl⟩ := h
  have hnone : incomingFor X now deposit coin quote address .chain = none := hl
  refine ⟨_, by rw [sighting, hw]; rfl, ?_, ?_, ?_⟩
  all_goals simp [hnone, freshTxs, firstOfKind]

/-- An outage cancels a quote that has expired unpaid. -/
theorem inspect_outage_expired (h : LookupThrows X deposit) (hd : pastDeadline now deposit = true)
    (hs : paymentSeen deposit.metadata = false) :
    ((inspect X now deposit allPending hashes .chain).run exec db).2.sminkTransactions =
      db.sminkTransactions.update (fun t => t.id == deposit.id && t.status == .pending)
        (cancelSet now deposit.metadata) := by
  obtain ⟨s, h, -, hm, hn⟩ := sighting_of_throws now hashes h
  unfold inspect
  rw [h]
  simp only [actOn, hd, hs, hm, hn, Option.isNone_none, Bool.not_false, Bool.and_self, if_true]
  rfl

/-- Any other outage changes nothing. -/
theorem inspect_outage_quiet (h : LookupThrows X deposit)
    (hq : ¬ (pastDeadline now deposit = true ∧ paymentSeen deposit.metadata = false)) :
    (inspect X now deposit allPending hashes .chain).run exec db = (.ok hashes, db) := by
  obtain ⟨s, h, hf, -, -⟩ := sighting_of_throws now hashes h
  have hc : (pastDeadline now deposit && !paymentSeen deposit.metadata && s.matched.isNone && s.near.isNone) =
      false := by
    cases hp : pastDeadline now deposit with
    | false => simp
    | true => simp [(by simpa [hp] using hq : paymentSeen deposit.metadata = true)]
  unfold inspect
  rw [h]
  simp only [actOn, hc, hf, Bool.false_eq_true, if_false, if_true]
  rfl

/-- **An outage leaves a pending deposit and the wallets alone exactly when the quote has not expired unpaid.** -/
theorem inspect_outage_iff {u : User} (hr : r ∈ db.sminkTransactions.rows) (hs : r.status = .pending)
    (h : LookupThrows X (pendingDeposit (r, u))) :
    Untouched db ((inspect X now (pendingDeposit (r, u)) allPending hashes .chain).run exec db).2 r ↔
      ¬ (pastDeadline now (pendingDeposit (r, u)) = true ∧
        paymentSeen (pendingDeposit (r, u)).metadata = false) := by
  constructor
  · rintro ⟨hmem, -⟩ ⟨hd, hseen⟩
    rw [inspect_outage_expired h hd hseen] at hmem
    have hrw := rewritten_update (cancelSet now (pendingDeposit (r, u)).metadata)
      (p := fun t => t.id == (pendingDeposit (r, u)).id && t.status == .pending) hr (by simp [pendingDeposit, hs])
      fun a ha => by
        rw [Bool.and_eq_true, beq_iff_eq] at ha
        exact ha.1
    -- the row with this id is the cancelled one
    obtain heq | ⟨-, hne⟩ := hrw.mem_iff.1 hmem
    · have hst : r.status = .cancelled := by rw [heq]; rfl
      rw [hs] at hst
      cases hst
    · exact hne rfl
  · intro hq
    rw [inspect_outage_quiet h hq]
    exact ⟨hr, rfl⟩

end Outage

/-- A Bitcoin quote of one coin. -/
def btcQuote : SminkTransaction :=
  { id := "d1"
    userId := "u1"
    type := .deposit
    status := .pending
    amount := 10000
    coin := some "BTC"
    network := some "Bitcoin"
    address := some "bc1"
    amountCrypto := some 1
    reference := "DEP-1"
    createdAt := 0 }

def payer : User := { id := "u1", createdAt := 0 }

def btcQuoteDb : Db :=
  { Db.empty with
    users := ⟨[payer], by decide⟩
    sminkTransactions := ⟨[btcQuote], by decide⟩ }

/-- An explorer that answers nothing. -/
def offline : Explorer where
  tipHeight _ := none
  addressTxs _ _ := none
  ethTransactions _ := none
  tokenTransfers _ := none
  trc20Transfers _ := none
  signaturesForAddress _ := none
  transaction _ := none

/-- One millisecond after the deadline an outage cancels the quote. -/
theorem outage_cancels_expired : LookupThrows offline (pendingDeposit (btcQuote, payer)) ∧
    ¬ Untouched btcQuoteDb
      ((inspect offline 3600001 (pendingDeposit (btcQuote, payer)) [] [] .chain).run exec btcQuoteDb).2 btcQuote :=
  ⟨⟨"BTC", .BTC, "bc1", rfl, rfl⟩, by decide +kernel⟩

/-- At the deadline itself it does not. -/
theorem inspect_outage_iff_at_deadline :
    Untouched btcQuoteDb
      ((inspect offline 3600000 (pendingDeposit (btcQuote, payer)) [] [] .chain).run exec btcQuoteDb).2 btcQuote :=
  (inspect_outage_iff (by decide) rfl ⟨"BTC", .BTC, "bc1", rfl, rfl⟩).2 (by decide +kernel)

end Smink
