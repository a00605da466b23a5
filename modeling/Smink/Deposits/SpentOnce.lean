import Smink.Deposits.Scan
import Smink.Deposits.Attribution

/-!
# One payment, one credit

The hashes a scan starts with are those of the confirmed and the held deposits, and a credit adds its own. A deposit
that the scan holds does not add its hash, so the hashes and the table agree up to the deposits held in the running
scan (`Covered`). `spent_once_iff` is what follows: a credit shares its hash with no other deposit, unless the scan held
one with that hash just before.
-/

namespace Smink

open Store

/-- The row is a confirmed or held deposit paid by the transaction `hash`. -/
def Spent (hash : String) (r : SminkTransaction) : Prop :=
  r.type = .deposit ∧ (r.status = .confirmed ∨ r.status = .review) ∧ r.metadata.txHash = some hash

instance (hash : String) (r : SminkTransaction) : Decidable (Spent hash r) :=
  inferInstanceAs (Decidable (r.type = .deposit ∧ (r.status = .confirmed ∨ r.status = .review) ∧
    r.metadata.txHash = some hash))

/-- The row is in review now and was pending when the scan started. -/
def HeldInScan (start : Db) (r : SminkTransaction) : Prop :=
  r.status = .review ∧ ∃ r₀ ∈ start.sminkTransactions.rows, r₀.id = r.id ∧ r₀.status = .pending

instance (start : Db) (r : SminkTransaction) : Decidable (HeldInScan start r) :=
  inferInstanceAs (Decidable (r.status = .review ∧ ∃ r₀ ∈ start.sminkTransactions.rows, r₀.id = r.id ∧
    r₀.status = .pending))

/-- Where an inspection is about to credit its deposit, no spent payment has the same hash and was missed: one whose
hash is empty, or one that the same scan has held before. -/
def ClearMatch (v : Inspection) : Prop :=
  ∀ s ∈ v.sighting, ∀ tx ∈ s.matched, tx.confirmations.lt s.required = false →
    reasonsIn v.before v.now v.deposit v.allPending s tx = [] →
      ∀ r ∈ v.before.sminkTransactions.rows, Spent tx.hash r → tx.hash ≠ "" ∧ ¬ HeldInScan v.start r

instance (v : Inspection) : Decidable (ClearMatch v) :=
  inferInstanceAs (Decidable (∀ s ∈ v.sighting, ∀ tx ∈ s.matched, tx.confirmations.lt s.required = false →
    reasonsIn v.before v.now v.deposit v.allPending s tx = [] →
      ∀ r ∈ v.before.sminkTransactions.rows, Spent tx.hash r → tx.hash ≠ "" ∧ ¬ HeldInScan v.start r))

/-- The inspection credits its deposit with the payment `hash`. -/
def Credits (v : Inspection) (hash : String) : Prop :=
  (∃ r ∈ v.before.sminkTransactions.rows, r.id = v.deposit.id ∧ r.status = .pending) ∧
    ∃ r ∈ v.after.sminkTransactions.rows, r.id = v.deposit.id ∧ r.status = .confirmed ∧ r.metadata.txHash = some hash

instance (v : Inspection) (hash : String) : Decidable (Credits v hash) :=
  inferInstanceAs (Decidable ((∃ r ∈ v.before.sminkTransactions.rows, r.id = v.deposit.id ∧ r.status = .pending) ∧
    ∃ r ∈ v.after.sminkTransactions.rows, r.id = v.deposit.id ∧ r.status = .confirmed ∧
      r.metadata.txHash = some hash))

/-- No other deposit is confirmed or held with the payment `hash`. -/
def SpentOnce (v : Inspection) (hash : String) : Prop :=
  ∀ r ∈ v.after.sminkTransactions.rows, r.id ≠ v.deposit.id → ¬ Spent hash r

instance (v : Inspection) (hash : String) : Decidable (SpentOnce v hash) :=
  inferInstanceAs (Decidable (∀ r ∈ v.after.sminkTransactions.rows, r.id ≠ v.deposit.id → ¬ Spent hash r))

/-! ## The invariant of a scan -/

/-- Every payment spent so far is among the hashes, or is that of a deposit held in this scan. -/
def Covered (start : Db) (hashes : List String) (db : Db) : Prop :=
  ∀ r ∈ db.sminkTransactions.rows, ∀ hash, hash ≠ "" → Spent hash r → hash ∈ hashes ∨ HeldInScan start r

theorem covered_start (db : Db) : Covered db (creditedHashesOf db) db := by
  rintro r hr hash hne ⟨hd, hs, hh⟩
  refine .inl (List.mem_filter.2 ⟨List.mem_map.2 ⟨r, Table.mem_select.2 ⟨hr, ?_⟩, by rw [hh]; rfl⟩, by simpa using hne⟩)
  rcases hs with hs | hs <;> simp [hd, hs]

/-- An inspection keeps the invariant. -/
theorem covered_step {v : Inspection} {r r' : SminkTransaction} {hashes' : List String}
    (h : InspectionStep v r r' hashes') (hJ : Covered v.start v.hashes v.before) :
    Covered v.start hashes' v.after := by
  intro a ha hash hne hspent
  obtain rfl | ⟨ha, -⟩ := h.rewritten.mem_iff.1 ha
  · obtain ⟨-, hs, hh⟩ := hspent
    obtain ⟨s, tx, -, -, hrec, hrev | ⟨-, -, rfl, -, -⟩⟩ := h.exit.settled h.pending hs
    · -- the deposit was pending when the scan started
      obtain ⟨r₀, hr₀, -, hs₀, u, -, -, hu⟩ := mem_pendingOf.1 h.scanned
      have hid : r₀.id = a.id := by
        rw [h.rewritten.id_eq, ← h.id_eq, hu]
        rfl
      exact .inr ⟨hrev, r₀, hr₀, hid, hs₀⟩
    · rw [hh, Option.some.injEq] at hrec
      rw [hrec]
      exact .inl (List.mem_cons_self ..)
  · exact (hJ a ha hash hne hspent).imp_left fun hin => h.exit.subset hin

/-- What an inspection that credits its deposit went by. -/
theorem matched_of_credits {v : Inspection} {r r' : SminkTransaction} {hashes' : List String} {hash : String}
    (h : InspectionStep v r r' hashes') (hc : Credits v hash) :
    ∃ s tx, v.sighting = some s ∧ s.matched = some tx ∧ tx.hash = hash ∧ tx.confirmations.lt s.required = false ∧
      reasonsIn v.before v.now v.deposit v.allPending s tx = [] := by
  obtain ⟨-, a, ha, hid, hst, hh⟩ := hc
  obtain rfl | ⟨-, hne⟩ := h.rewritten.mem_iff.1 ha
  · obtain ⟨s, tx, hs, -, hrec, hrev | ⟨-, hm, -, hconf, hreasons⟩⟩ := h.exit.settled h.pending (.inl hst)
    · rw [hst] at hrev; cases hrev
    · rw [hh, Option.some.injEq] at hrec
      exact ⟨s, tx, hs, hm, hrec.symm, hconf, hreasons⟩
  · exact absurd (hid.trans h.id_eq) hne

/-- An inspection with a match that nothing holds back credits its deposit. -/
theorem credits_of_matched {v : Inspection} {r r' : SminkTransaction} {hashes' : List String} {s : Sighting}
    {tx : IncomingTx} (h : InspectionStep v r r' hashes') (hs : v.sighting = some s) (hm : s.matched = some tx)
    (hconf : tx.confirmations.lt s.required = false)
    (hreasons : reasonsIn v.before v.now v.deposit v.allPending s tx = []) : Credits v tx.hash := by
  obtain ⟨hst, hh⟩ := h.exit.credited_of_matched hs hm hconf hreasons
  exact ⟨⟨r, h.mem, h.id_eq.symm, h.pending⟩, r', h.rewritten.mem', h.rewritten.id_eq.trans h.id_eq.symm, hst, hh⟩

/-- One inspection: the payment of a credit is spent once exactly when the match is clear. -/
theorem spentOnce_of_step {v : Inspection} {r r' : SminkTransaction} {hashes' : List String}
    (h : InspectionStep v r r' hashes') (hJ : Covered v.start v.hashes v.before) :
    (∀ hash, Credits v hash → SpentOnce v hash) ↔ ClearMatch v := by
  constructor
  · intro hall s hs tx hm hconf hreasons a ha hspent
    -- the deposit's own row is not spent yet
    have hne : a.id ≠ v.deposit.id := by
      intro hid
      obtain rfl : a = r := transaction_eq_of_id ha h.mem (hid.trans h.id_eq)
      have hp := h.pending
      rcases hspent.2.1 with hst | hst <;> rw [hst] at hp <;> cases hp
    have hafter : a ∈ v.after.sminkTransactions.rows :=
      h.rewritten.mem_iff.2 (.inr ⟨ha, fun he => hne (he.trans h.id_eq.symm)⟩)
    exact absurd hspent (hall tx.hash (credits_of_matched h hs hm hconf hreasons) a hafter hne)
  · intro hclear hash hc a ha hid hspent
    obtain ⟨s, tx, hs, hm, rfl, hconf, hreasons⟩ := matched_of_credits h hc
    have hfresh : tx.hash ∉ v.hashes := (payment_spec hs (by simp [Sighting.payment, hm])).1
    obtain rfl | ⟨ha, -⟩ := h.rewritten.mem_iff.1 ha
    · exact hid (h.rewritten.id_eq.trans h.id_eq.symm)
    · obtain ⟨hne, hheld⟩ := hclear s hs tx hm hconf hreasons a ha hspent
      rcases hJ a ha tx.hash hne hspent with hin | hin
      · exact hfresh hin
      · exact hheld hin

/-- **A payment is spent once** by an inspection of a run of scans exactly when its match is clear. Amounts are
rationals here; as doubles, one on the very edge of a match window may be classified the other way. -/
theorem spent_once_iff : ∀ (Is : List ScanInput) (db : Db), ∀ v ∈ inspections Is db,
    ((∀ hash, Credits v hash → SpentOnce v hash) ↔ ClearMatch v)
  | [], _, _, hv => nomatch hv
  | I :: Is, db, v, hv => by
    rcases List.mem_append.1 hv with hv | hv
    · obtain ⟨hall, -⟩ := scan_inv (J := Covered db) (I := I)
        (fun v _ r r' hashes' hstart h hJ => by rw [← hstart] at hJ ⊢; exact covered_step h hJ) (covered_start db)
      obtain ⟨hstart, hJ, r, r', hashes', h, -⟩ := hall v hv
      rw [← hstart] at hJ
      exact spentOnce_of_step h hJ
    · exact spent_once_iff Is _ v hv

/-- Two Bitcoin quotes for one address: the older asks for 1.4 coins, the newer for one. -/
def olderQuote : SminkTransaction :=
  { btcQuote with id := "d2", reference := "DEP-2", amountCrypto := some (14 / 10), userId := "u2" }

def newerQuote : SminkTransaction := { btcQuote with createdAt := 1000 }

def twoQuotesDb : Db :=
  { Db.empty with
    users := ⟨[payer, { id := "u2", createdAt := 0 }], by decide⟩
    sminkTransactions := ⟨[newerQuote, olderQuote], by decide⟩ }

/-- A scan that finds `amount` hundred-millionths of a coin, three blocks deep. -/
def paidScan (amount : ℚ) : ScanInput where
  mode := .chain
  now _ := 60000
  explorer _ :=
    { offline with
      tipHeight := fun _ => some 102
      addressTxs := fun _ _ => some [{
        txid := "a1"
        blockHeight := some 100
        blockTime := some 10
        vout := [{ value := some amount, address := some "bc1" }] }] }

/-- One payment of 1.3 coins holds the newer quote as a near amount and then credits the older one. -/
theorem payment_spent_twice :
    ∃ v ∈ inspections [paidScan 130000000] twoQuotesDb, Credits v "a1" ∧ ¬ SpentOnce v "a1" := by
  decide +kernel

/-- A payment of 1.6 coins, which the newer quote ignores, credits the older one alone. -/
theorem spent_once_iff_far_quote :
    ∃ v ∈ inspections [paidScan 160000000] twoQuotesDb, Credits v "a1" ∧ SpentOnce v "a1" := by
  obtain ⟨v, hv, hc, hclear⟩ : ∃ v ∈ inspections [paidScan 160000000] twoQuotesDb, Credits v "a1" ∧ ClearMatch v := by
    decide +kernel
  exact ⟨v, hv, hc, (spent_once_iff [paidScan 160000000] twoQuotesDb v hv).2 hclear "a1" hc⟩

end Smink
