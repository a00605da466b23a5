import Smink.Deposits.Scan
import Smink.Deposits.Attribution

/-!
# Late payments

A payment first seen after the deadline is held, as long as the inspection that first sees it sees all the
confirmations it needs: `late_payment_held`. An inspection that sees fewer records the payment in the metadata
(`progress`), and the next one takes it for a payment seen in time (`late_payment_credited`).
-/

namespace Smink

open Store

/-- No inspection of the quote at or before its deadline saw a payment for it. -/
def UnseenInTime (id : Id) (vs : List Inspection) : Prop :=
  ∀ v ∈ vs, v.deposit.id = id → pastDeadline v.now v.deposit = false → ∀ s ∈ v.sighting, s.payment = none

/-- Each payment that an inspection of the quote sees after its deadline has the confirmations it needs. -/
def SeenComplete (id : Id) (vs : List Inspection) : Prop :=
  ∀ v ∈ vs, v.deposit.id = id → pastDeadline v.now v.deposit = true →
    ∀ s ∈ v.sighting, ∀ tx ∈ s.payment, tx.confirmations.lt s.required = false

/-- Some inspection of the quote saw a payment for it. -/
def SawPayment (id : Id) (vs : List Inspection) : Prop :=
  ∃ v ∈ vs, v.deposit.id = id ∧ ∃ s ∈ v.sighting, s.payment.isSome = true

/-- What the inspections have made of a quote that was not paid in time: once one of them has seen a payment, it is in
review for that; and as long as none has, it is as it was or cancelled. -/
structure HeldLate (vs : List Inspection) (r₀ r : SminkTransaction) : Prop where
  paid : SawPayment r₀.id vs → r.status = .review ∧
    ("expired_payment" ∈ r.metadata.reviewReasons ∨ r.metadata.reviewReasons = ["amount_mismatch"])
  unpaid : ¬ SawPayment r₀.id vs → r = r₀ ∨ r.status = .cancelled

instance (id : Id) (vs : List Inspection) : Decidable (SawPayment id vs) :=
  inferInstanceAs (Decidable (∃ v ∈ vs, v.deposit.id = id ∧ ∃ s ∈ v.sighting, s.payment.isSome = true))

/-- A quote that is still pending has seen nothing. -/
theorem HeldLate.eq_of_pending {vs : List Inspection} {r₀ r : SminkTransaction} (h : HeldLate vs r₀ r)
    (hs : r.status = .pending) : r = r₀ ∧ ¬ SawPayment r₀.id vs := by
  have hnot : ¬ SawPayment r₀.id vs := fun hsaw => by
    have hreview := (h.paid hsaw).1
    rw [hs] at hreview
    cases hreview
  refine ⟨?_, hnot⟩
  rcases h.unpaid hnot with rfl | hcancelled
  · rfl
  · rw [hs] at hcancelled
    cases hcancelled

/-- The quote is never credited. -/
theorem HeldLate.not_confirmed {vs : List Inspection} {r₀ r : SminkTransaction} (h : HeldLate vs r₀ r)
    (h₀ : r₀.status ≠ .confirmed) : r.status ≠ .confirmed := by
  intro hc
  by_cases hsaw : SawPayment r₀.id vs
  · have hreview := (h.paid hsaw).1
    rw [hc] at hreview
    cases hreview
  · rcases h.unpaid hsaw with rfl | hcancelled
    · exact h₀ hc
    · rw [hc] at hcancelled
      cases hcancelled

theorem sawPayment_append {id : Id} {vs : List Inspection} {v : Inspection} :
    SawPayment id (vs ++ [v]) ↔
      SawPayment id vs ∨ (v.deposit.id = id ∧ ∃ s ∈ v.sighting, s.payment.isSome = true) := by
  simp [SawPayment, or_and_right, exists_or]

/-- A match past the deadline of an unpaid quote is never without a reason to hold it. -/
theorem expired_mem_reasonsIn {db : Db} {now : Time} {deposit : PendingDeposit} (allPending : List PendingDeposit)
    (s : Sighting) (tx : IncomingTx) (hd : pastDeadline now deposit = true)
    (hs : paymentSeen deposit.metadata = false) :
    "expired_payment" ∈ reasonsIn db now deposit allPending s tx := by
  simp [reasonsIn, reviewReasons, hd, hs]

/-- One inspection of a quote that was never paid in time. -/
theorem late_of_exit {db : Db} {X : Explorer} {now : Time} {deposit : PendingDeposit}
    {allPending : List PendingDeposit}
    {hashes hashes' : List String} {mode : ScanMode} {r r' : SminkTransaction}
    (hseen : paymentSeen deposit.metadata = false)
    (hu : pastDeadline now deposit = false → ∀ s ∈ sighting X now deposit hashes mode, s.payment = none)
    (hc : pastDeadline now deposit = true → ∀ s ∈ sighting X now deposit hashes mode, ∀ tx ∈ s.payment,
      tx.confirmations.lt s.required = false)
    (he : Exit db X now deposit allPending hashes mode r r' hashes') :
    ((∃ s ∈ sighting X now deposit hashes mode, s.payment.isSome = true) ∧ r'.status = .review ∧
        ("expired_payment" ∈ r'.metadata.reviewReasons ∨ r'.metadata.reviewReasons = ["amount_mismatch"])) ∨
      ((¬ ∃ s ∈ sighting X now deposit hashes mode, s.payment.isSome = true) ∧ (r' = r ∨ r'.status = .cancelled)) := by
  -- a payment is only seen past the deadline
  have late : ∀ {s tx}, sighting X now deposit hashes mode = some s → s.payment = some tx →
      pastDeadline now deposit = true := by
    intro s tx h hp
    cases hpast : pastDeadline now deposit with
    | true => rfl
    | false => rw [hu hpast s h] at hp; cases hp
  have unseen : ∀ {s}, sighting X now deposit hashes mode = some s → s.payment = none →
      ¬ ∃ s ∈ sighting X now deposit hashes mode, s.payment.isSome = true := by
    rintro s h hp ⟨s', h', hp'⟩
    rw [h] at h'
    cases h'
    rw [hp] at hp'
    cases hp'
  cases he with
  | unwatched h =>
    refine .inr ⟨?_, .inl rfl⟩
    rintro ⟨s, h', -⟩
    rw [h] at h'
    cases h'
  | nothing s h hp hq => exact .inr ⟨unseen h hp, .inl rfl⟩
  | cancelled s h hp hd hs => exact .inr ⟨unseen h hp, .inr rfl⟩
  | waiting s h tx hp hlt =>
    rw [hc (late h hp) s h tx hp] at hlt
    cases hlt
  | held s h tx hp hlt reasons hr =>
    refine .inl ⟨⟨s, h, by rw [hp]; rfl⟩, rfl, ?_⟩
    show "expired_payment" ∈ reasons ∨ reasons = ["amount_mismatch"]
    obtain ⟨-, rfl⟩ | ⟨-, -, rfl⟩ := hr
    · exact .inr rfl
    · exact .inl (expired_mem_reasonsIn allPending s tx (late h hp) hseen)
  | credited s h tx hm hlt balance hr =>
    have hp : s.payment = some tx := by simp [Sighting.payment, hm]
    have hmem : "expired_payment" ∈ reasonsIn db now deposit allPending s tx :=
      expired_mem_reasonsIn allPending s tx (late h hp) hseen
    rw [hr] at hmem
    cases hmem

/-- One more inspection of a run leaves a late quote held. -/
theorem heldLate_inspects {v : Inspection} {vs : List Inspection} {db t : Db} {r₀ : SminkTransaction}
    (hseen : paymentSeen r₀.metadata = false) (hu : UnseenInTime r₀.id [v]) (hc : SeenComplete r₀.id [v])
    (h : Inspects db v t) (hdb : ∀ r ∈ db.sminkTransactions.rows, r.id = r₀.id → HeldLate vs r₀ r) :
    ∀ r ∈ t.sminkTransactions.rows, r.id = r₀.id → HeldLate (vs ++ [v]) r₀ r := by
  obtain ⟨r, r', hashes', hstep⟩ := h.step
  obtain rfl := h.before
  obtain rfl := h.kept
  intro a ha haid
  rw [hstep.rewritten.mem_iff] at ha
  rcases ha with rfl | ⟨ha, hne⟩
  · have hid : r.id = r₀.id := hstep.rewritten.id_eq.symm.trans haid
    obtain ⟨rfl, hnot⟩ := (hdb r hstep.mem hid).eq_of_pending hstep.pending
    have hvid : v.deposit.id = r.id := hstep.id_eq
    obtain ⟨u, hread⟩ := hstep.read
    have hmeta : paymentSeen v.deposit.metadata = false := by
      rw [hread]
      exact hseen
    obtain ⟨hsaw, hreview⟩ | ⟨hunseen, hrow⟩ := late_of_exit hmeta (hu v (by simp) hvid) (hc v (by simp) hvid)
      hstep.exit
    · exact ⟨fun _ => hreview, fun h => absurd (sawPayment_append.2 (.inr ⟨hvid, hsaw⟩)) h⟩
    · refine ⟨fun h => ?_, fun _ => hrow⟩
      rcases sawPayment_append.1 h with h | ⟨-, h⟩
      · exact absurd h hnot
      · exact absurd h hunseen
  · have hvid : v.deposit.id ≠ r₀.id := fun he => hne (haid.trans (he.symm.trans hstep.id_eq))
    have hsame : SawPayment r₀.id (vs ++ [v]) ↔ SawPayment r₀.id vs := by simp [sawPayment_append, hvid]
    have hold := hdb a ha haid
    exact ⟨fun h => hold.paid (hsame.1 h), fun h => hold.unpaid fun h' => h (hsame.2 h')⟩

theorem heldLate_trace {vs : List Inspection} {db t : Db} {r₀ : SminkTransaction} (h : Trace Inspects db vs t)
    (hr : r₀ ∈ db.sminkTransactions.rows) (hseen : paymentSeen r₀.metadata = false) (hu : UnseenInTime r₀.id vs)
    (hc : SeenComplete r₀.id vs) : ∀ r ∈ t.sminkTransactions.rows, r.id = r₀.id → HeldLate vs r₀ r := by
  refine h.keeps (J := fun vs t => ∀ r ∈ t.sminkTransactions.rows, r.id = r₀.id → HeldLate vs r₀ r) []
    (fun past v hv s t hstep hs => ?_) fun r hr' hid => ?_
  · refine heldLate_inspects hseen (fun w hw => ?_) (fun w hw => ?_) hstep hs
    · rw [List.mem_singleton.1 hw]
      exact hu v hv
    · rw [List.mem_singleton.1 hw]
      exact hc v hv
  · refine ⟨fun ⟨v, hv, _⟩ => (by cases hv), fun _ => .inl (transaction_eq_of_id hr' hr hid)⟩

/-- **A quote that no scan saw paid in time is held when it is paid late**, in any run of scans that sees its late
payments complete: from the first inspection that sees a payment on it is in review, it is cancelled only as long as
none has, and it is never credited. -/
theorem late_payment_held (Is : List ScanInput) {db : Db} {r₀ : SminkTransaction}
    (hr : r₀ ∈ db.sminkTransactions.rows) (hseen : paymentSeen r₀.metadata = false)
    (hu : UnseenInTime r₀.id (inspections Is db)) (hc : SeenComplete r₀.id (inspections Is db)) :
    (∀ vs v, vs ++ [v] <+: inspections Is db →
      ∀ r ∈ v.after.sminkTransactions.rows, r.id = r₀.id → HeldLate (vs ++ [v]) r₀ r) ∧
    (∀ r ∈ (runScans Is db).sminkTransactions.rows, r.id = r₀.id → HeldLate (inspections Is db) r₀ r) ∧
    (r₀.status ≠ .confirmed →
      ∀ r ∈ (runScans Is db).sminkTransactions.rows, r.id = r₀.id → r.status ≠ .confirmed) := by
  have htrace := trace_inspections Is db
  have hend := heldLate_trace htrace hr hseen hu hc
  refine ⟨fun vs v hpre => ?_, hend, fun h₀ r hr' hid => (hend r hr' hid).not_confirmed h₀⟩
  obtain ⟨post, hpost⟩ := hpre
  have hmem : ∀ w ∈ vs ++ [v], w ∈ inspections Is db := fun w hw => hpost ▸ List.mem_append_left _ hw
  rw [← hpost] at htrace
  obtain ⟨t, ht, -⟩ := htrace.split
  obtain ⟨u, -, hlast⟩ := ht.split
  obtain _ | ⟨head, tail⟩ := hlast
  cases tail
  rw [head.kept]
  exact heldLate_trace ht hr hseen (fun w hw => hu w (hmem w hw)) fun w hw => hc w (hmem w hw)

/-- The address received one coin, in a block now `depth` deep. -/
def paidDeep (depth : ℚ) : Explorer :=
  { offline with
    tipHeight := fun _ => some (99 + depth)
    addressTxs := fun _ _ => some [{
      txid := "a1"
      blockHeight := some 100
      blockTime := some 3601
      vout := [{ value := some 100000000, address := some "bc1" }] }] }

/-- A scan one second after the deadline that finds the payment `depth` deep. -/
def lateScan (depth : ℚ) : ScanInput where
  mode := .chain
  now _ := 3601000
  explorer _ := paidDeep depth

/-- Seen one block deep and then three deep, both times after the deadline, the payment is credited. -/
theorem late_payment_credited :
    (∀ v ∈ inspections [lateScan 1, lateScan 3] btcQuoteDb, pastDeadline v.now v.deposit = true) ∧
    ∃ r ∈ (runScans [lateScan 1, lateScan 3] btcQuoteDb).sminkTransactions.rows,
      r.id = btcQuote.id ∧ r.status = .confirmed := by
  decide +kernel

/-- Seen three deep at once, it is held. -/
theorem late_payment_held_at_once :
    ∃ r ∈ (runScans [lateScan 3] btcQuoteDb).sminkTransactions.rows,
      r.id = btcQuote.id ∧ r.status = .review ∧ HeldLate (inspections [lateScan 3] btcQuoteDb) btcQuote r := by
  have found : ∃ r ∈ (runScans [lateScan 3] btcQuoteDb).sminkTransactions.rows,
      r.id = btcQuote.id ∧ r.status = .review := by decide +kernel
  obtain ⟨r, hr, hid, hs⟩ := found
  have held := late_payment_held [lateScan 3] (by decide : btcQuote ∈ btcQuoteDb.sminkTransactions.rows)
    (by decide +kernel) (by unfold UnseenInTime; decide +kernel) (by unfold SeenComplete; decide +kernel)
  exact ⟨r, hr, hid, hs, held.2.1 r hr hid⟩

end Smink
