import Smink.Deposits.SpentOnce
import Smink.Play.Balances

/-!
# Where a quote ends

What one inspection decides about its deposit is its verdict: confirmed, in review, cancelled, or nothing yet. A run of
scans does what its verdicts say and no more (`deposit_fate`). Each scan inspects the pending deposits of its mode, once
each; the first verdict on a deposit is the last, and the status it ends in; and the balances grow by the amounts of the
deposits that are confirmed.
-/

namespace Smink

open Store

/-! ## Verdicts -/

/-- What an inspection decides about its deposit; `none` where it stays pending. -/
def Inspection.verdict (v : Inspection) : Option TxStatus :=
  match v.sighting with
  | none => none
  | some s =>
    match s.payment with
    | none => if pastDeadline v.now v.deposit && !paymentSeen v.deposit.metadata then some .cancelled else none
    | some tx =>
      if tx.confirmations.lt s.required then none
      else if s.matched.isSome && (reasonsIn v.before v.now v.deposit v.allPending s tx).isEmpty then some .confirmed
      else some .review

/-- What an inspection adds to the balances. -/
def Inspection.credit (v : Inspection) : Id → Money :=
  if v.verdict = some .confirmed then Pi.single v.deposit.userId v.deposit.amount else 0

/-- The verdicts on one deposit, in order. -/
def verdictsOn (id : Id) (vs : List Inspection) : List TxStatus :=
  vs.filterMap fun v => if v.deposit.id = id then v.verdict else none

/-- The status as the verdicts that led to it. -/
def settled (status : TxStatus) : List TxStatus := if status = .pending then [] else [status]

/-- What an inspection that ends in an exit has decided. -/
theorem InspectionStep.status_eq {v : Inspection} {r r' : SminkTransaction} {hashes' : List String}
    (h : InspectionStep v r r' hashes') : r'.status = v.verdict.getD .pending := by
  have hp := h.pending
  unfold Inspection.verdict Inspection.sighting
  cases h.exit with
  | unwatched hs => simp [hs, hp]
  | nothing s hs hpay hquiet =>
    have hnot : (pastDeadline v.now v.deposit && !paymentSeen v.deposit.metadata) = false := by
      cases hpast : pastDeadline v.now v.deposit with
      | true => simp [hquiet hpast]
      | false => rfl
    simp [hs, hpay, hnot, hp]
  | cancelled s hs hpay hd hseen => simp [hs, hpay, hd, hseen, Settable.apply, cancelSet]
  | waiting s hs tx hpay hc => simp [hs, hpay, hc, afterProgress_status, hp]
  | held s hs tx hpay hc reasons hr =>
    have hheld : (s.matched.isSome && (reasonsIn v.before v.now v.deposit v.allPending s tx).isEmpty) = false := by
      obtain ⟨hm, -⟩ | ⟨-, hne, rfl⟩ := hr
      · simp [hm]
      · simp [hne]
    simp [hs, hpay, hc, hheld, Settable.apply, flagSet]
  | credited s hs tx hm hc balance hr => simp [hs, Sighting.payment, hm, hc, hr, credited]

theorem settled_verdict {v : Inspection} : settled (v.verdict.getD .pending) = v.verdict.toList := by
  cases hv : v.verdict with
  | none => rfl
  | some status =>
    have hne : status ≠ .pending := by
      rintro rfl
      unfold Inspection.verdict at hv
      split at hv
      · cases hv
      · split at hv
        · split at hv <;> cases hv
        · split at hv
          · cases hv
          · split at hv <;> cases hv
    simp [settled, hne]

/-! ## One deposit -/

/-- An inspection moves the status of its own deposit to the verdict, and no other. -/
theorem Inspects.settles {v : Inspection} {db t : Db} (h : Inspects db v t) {r : SminkTransaction}
    (hr : r ∈ db.sminkTransactions.rows) :
    ∃ r' ∈ t.sminkTransactions.rows, r'.id = r.id ∧
      settled r'.status = settled r.status ++ verdictsOn r.id [v] := by
  obtain ⟨a, a', hashes', hstep⟩ := h.step
  obtain rfl := h.before
  obtain rfl := h.kept
  by_cases hid : v.deposit.id = r.id
  · obtain rfl : r = a := transaction_eq_of_id hr hstep.mem (hid.symm.trans hstep.id_eq)
    refine ⟨a', hstep.rewritten.mem', hstep.rewritten.id_eq, ?_⟩
    rw [hstep.status_eq, settled_verdict, hstep.pending]
    cases hv : v.verdict <;> simp [verdictsOn, hid, hv, settled]
  · refine ⟨r, hstep.rewritten.mem_iff.2 (.inr ⟨hr, fun he => hid (hstep.id_eq.trans he.symm)⟩), rfl, ?_⟩
    simp [verdictsOn, hid]

theorem settles_trace {db t : Db} {vs : List Inspection} (h : Trace Inspects db vs t) :
    ∀ r ∈ db.sminkTransactions.rows, ∃ r' ∈ t.sminkTransactions.rows, r'.id = r.id ∧
      settled r'.status = settled r.status ++ verdictsOn r.id vs := by
  induction h with
  | nil db => exact fun r hr => ⟨r, hr, rfl, by simp [verdictsOn]⟩
  | @cons db t u v vs head _ ih =>
    intro r hr
    obtain ⟨r₁, hr₁, hid₁, hs₁⟩ := head.settles hr
    obtain ⟨r₂, hr₂, hid₂, hs₂⟩ := ih r₁ hr₁
    refine ⟨r₂, hr₂, hid₂.trans hid₁, ?_⟩
    have hsplit : verdictsOn r.id (v :: vs) = verdictsOn r.id [v] ++ verdictsOn r.id vs := by
      rw [← List.singleton_append, verdictsOn, List.filterMap_append]
      rfl
    rw [hs₂, hs₁, hid₁, hsplit, List.append_assoc]

/-! ## The money -/

/-- The statement reads, or writes ledger rows. -/
def Stmt.onLedger : Stmt → Bool
  | .updateTransaction _ _ => true
  | q => q.isRead

theorem exec_onLedger_balance {q : Stmt} (hq : q.onLedger = true) {db t : Db} {r : q.Resp}
    (h : exec q db = .ok (r, t)) : t.balance = db.balance := by
  cases q <;> first | (cases h; rfl) | cases hq

theorem balance_onLedger {α : Type} {p : Sql α} (hp : Reads Stmt.onLedger p) (db : Db) :
    (p.run exec db).2.balance = db.balance := by
  have hends : Prog.Ends exec p db fun _ t => t.balance = db.balance :=
    hp.ends_keeps (J := fun t => t.balance = db.balance)
      (fun _ hq _ _ _ ht hr => (exec_onLedger_balance hq hr).trans ht) rfl
  exact hends

section Inspect

variable {now : Time} {deposit : PendingDeposit} {tx : IncomingTx}

theorem onLedger_progress (now : Time) (deposit : PendingDeposit) (tx : IncomingTx) :
    Reads Stmt.onLedger (progress now deposit tx) := by
  unfold progress
  dsimp only
  split
  · trivial
  · exact ⟨rfl, fun _ => trivial⟩

theorem onLedger_flag (depositId : Id) (reasons : List String) (extraMetadata : Metadata → Metadata) :
    Reads Stmt.onLedger (flagDepositForReview now depositId reasons extraMetadata) := by
  refine reads_bind (p := ask _) ⟨rfl, fun _ => trivial⟩ fun rows => ?_
  split
  · split
    · trivial
    · exact ⟨rfl, fun _ => trivial⟩
  · trivial

theorem onLedger_holdNear (required : Num) : Reads Stmt.onLedger (holdNear now deposit required tx) := by
  refine reads_bind (onLedger_progress now deposit tx) fun _ => ?_
  split
  · trivial
  · exact reads_bind (onLedger_flag ..) fun _ => trivial

theorem afterProgress_payee (now : Time) (deposit : PendingDeposit) (tx : IncomingTx) (r : SminkTransaction) :
    (afterProgress now deposit tx r).userId = r.userId ∧ (afterProgress now deposit tx r).amount = r.amount := by
  unfold afterProgress
  split <;> exact ⟨rfl, rfl⟩

/-- A match that is confirmed pays the deposit's amount to its owner, and any other pays nothing. -/
theorem balance_settleMatch {db : Db} {r : SminkTransaction} {u : User} {allPending : List PendingDeposit}
    {s : Sighting} (mode : ScanMode) (hr : r ∈ db.sminkTransactions.rows) (hd : r.type = .deposit)
    (hs : r.status = .pending) (hdep : deposit = pendingDeposit (r, u)) :
    ((settleMatch now deposit allPending s mode tx).run exec db).2.balance = db.balance +
      if tx.confirmations.lt s.required = false ∧ reasonsIn db now deposit allPending s tx = [] then
        Pi.single deposit.userId deposit.amount else 0 := by
  have hid : r.id = deposit.id := by rw [hdep]; rfl
  obtain ⟨t, hrun, ht⟩ := run_progress tx hr hid
  have hbalance : t.balance = db.balance := by
    have hledger := balance_onLedger (onLedger_progress now deposit tx) db
    rwa [hrun] at hledger
  unfold settleMatch
  rw [ask_bind, Prog.run_stmt rfl, ask_bind, Prog.run_stmt rfl]
  dsimp only
  rw [Prog.run_bind_ok hrun]
  cases hc : tx.confirmations.lt s.required with
  | true => simpa using hbalance
  | false =>
    simp only [Bool.false_eq_true, if_false, true_and]
    by_cases hne : reasonsIn db now deposit allPending s tx = []
    · have hnot : ¬ reasonsIn db now deposit allPending s tx ≠ [] := not_not.2 hne
      rw [if_pos hne]
      refine (congrArg (fun p => (Prog.run exec p t).2.balance) (if_neg hnot)).trans ?_
      obtain ⟨row, balance, v, hcredit, -⟩ := run_creditDeposit now
        (fun m => { paidBy tx m with creditedBy := some (creditedByText mode) }) ht.mem'
        ((afterProgress_id tx).trans hid) ((afterProgress_type tx).trans hd)
        (by rw [afterProgress_status, hs]; rfl)
      have hends := ends_creditDeposit now deposit.id
        (fun m => { paidBy tx m with creditedBy := some (creditedByText mode) }) t
      unfold Prog.Ends at hends
      rw [hcredit] at hends ⊢
      obtain ⟨-, ⟨hnone, -⟩ | ⟨-, -, a, ha, haid, -, hpaid⟩⟩ := hends
      · cases hnone
      · -- the row that is paid is the deposit's own
        obtain rfl : a = afterProgress now deposit tx r :=
          transaction_eq_of_id ha ht.mem' (haid.trans (((afterProgress_id tx).trans hid)).symm)
        obtain ⟨huser, hamount⟩ := afterProgress_payee now deposit tx r
        rw [hpaid, hbalance, huser, hamount, hdep]
        rfl
    · rw [if_neg hne, add_zero]
      refine (congrArg (fun p => (Prog.run exec p t).2.balance) (if_pos hne)).trans ?_
      have hflag : Reads Stmt.onLedger (do
          let _ ← flagDepositForReview now deposit.id (reasonsIn db now deposit allPending s tx)
            fun m => { paidBy tx m with fromAddress := tx.sender }
          return (none : Option SminkTransaction)) :=
        reads_bind (onLedger_flag ..) fun _ => trivial
      exact (balance_onLedger hflag t).trans hbalance

end Inspect

/-- Without a match nothing is paid. -/
theorem onLedger_actOn {now : Time} {deposit : PendingDeposit} {s : Sighting} (h : s.matched = none)
    (allPending : List PendingDeposit) (hashes : List String) (mode : ScanMode) :
    Reads Stmt.onLedger (actOn now deposit allPending hashes mode s) := by
  unfold actOn
  rw [h]
  split
  · exact ⟨rfl, fun _ => trivial⟩
  split
  · trivial
  cases s.near with
  | none => trivial
  | some near => exact reads_bind (onLedger_holdNear _) fun _ => trivial

theorem credit_of_unmatched {v : Inspection} {s : Sighting} (hs : v.sighting = some s) (hm : s.matched = none) :
    v.credit = 0 := by
  have hne : v.verdict ≠ some .confirmed := by
    intro hv
    unfold Inspection.verdict at hv
    rw [hs] at hv
    dsimp only at hv
    split at hv
    · split at hv <;> cases hv
    · rw [hm] at hv
      split at hv
      · cases hv
      · cases hv
  exact if_neg hne

theorem credit_of_matched {v : Inspection} {s : Sighting} {tx : IncomingTx} (hs : v.sighting = some s)
    (hm : s.matched = some tx) :
    v.credit = if tx.confirmations.lt s.required = false ∧
      reasonsIn v.before v.now v.deposit v.allPending s tx = [] then
        Pi.single v.deposit.userId v.deposit.amount else 0 := by
  have hp : s.payment = some tx := by simp [Sighting.payment, hm]
  unfold Inspection.credit Inspection.verdict
  rw [hs]
  cases hc : tx.confirmations.lt s.required <;> simp [hp, hm, hc]

/-- An inspection adds its credit to the balances. -/
theorem Inspects.pays {v : Inspection} {db t : Db} (h : Inspects db v t) : t.balance = db.balance + v.credit := by
  obtain ⟨r, r', hashes', hstep⟩ := h.step
  obtain ⟨u, hdep⟩ := hstep.read
  obtain rfl := h.before
  rw [← h.after]
  have hinspect : inspectIn v.input v.allPending v.deposit v.hashes = match v.sighting with
    | none => pure v.hashes
    | some s => actOn v.now v.deposit v.allPending v.hashes v.input.mode s := rfl
  rw [hinspect]
  cases hs : v.sighting with
  | none => simp [Inspection.credit, Inspection.verdict, hs]
  | some s =>
    cases hm : s.matched with
    | none =>
      rw [credit_of_unmatched hs hm, add_zero]
      exact balance_onLedger (onLedger_actOn hm v.allPending v.hashes v.input.mode) v.before
    | some tx =>
      have hfound : s.lookupFailed = false := by
        cases hf : s.lookupFailed with
        | false => rfl
        | true =>
          have hp := payment_of_lookupFailed hs hf
          simp [Sighting.payment, hm] at hp
      rw [credit_of_matched hs hm, ← balance_settleMatch v.input.mode hstep.mem hstep.deposit_type hstep.pending hdep]
      unfold actOn
      simp only [hm, hfound, Option.isNone_some, Bool.and_false, Bool.false_and, Bool.false_eq_true, if_false]
      exact congrArg (fun x : _ × Db => x.2.balance) (Prog.run_map (fun credited : Option SminkTransaction =>
        if credited.isSome then tx.hash :: v.hashes else v.hashes) (settleMatch ..) v.before)

/-! ## Runs -/

/-- **Where each deposit ends.** In every run of scans, each scan inspects the pending deposits of its mode, once each.
No deposit gets a second verdict: one that is settled has had its verdicts, and one that is pending ends in the first
one it gets. The balances grow by the amounts of the deposits whose verdict is that they are confirmed. -/
theorem deposit_fate (Is : List ScanInput) (db : Db) :
    (∀ I t, (scanInspections I t).map Inspection.deposit = (pendingOf t).filter (inScan I.mode)) ∧
    (∀ r ∈ db.sminkTransactions.rows, ∃ r' ∈ (runScans Is db).sminkTransactions.rows, r'.id = r.id ∧
      settled r'.status = settled r.status ++ verdictsOn r.id (inspections Is db)) ∧
    (runScans Is db).balance = db.balance + ((inspections Is db).map Inspection.credit).sum :=
  ⟨fun I t => (scan_inspects I t).1, settles_trace (trace_inspections Is db),
    (trace_inspections Is db).sum_eq fun _ _ _ h => h.pays⟩

/-- Of two quotes the older one gets its payment in the first scan, and the second scan leaves it alone. -/
theorem deposit_fate_farQuote :
    (∃ r ∈ (runScans [paidScan 160000000, paidScan 140000000] twoQuotesDb).sminkTransactions.rows,
      r.id = "d2" ∧ settled r.status = [.confirmed]) ∧
    (runScans [paidScan 160000000, paidScan 140000000] twoQuotesDb).balance =
      twoQuotesDb.balance +
        ((inspections [paidScan 160000000, paidScan 140000000] twoQuotesDb).map Inspection.credit).sum := by
  obtain ⟨-, hrows, hbalance⟩ := deposit_fate [paidScan 160000000, paidScan 140000000] twoQuotesDb
  obtain ⟨r, hr, hid, hsettled⟩ := hrows olderQuote (.tail _ (.head _))
  refine ⟨⟨r, hr, hid, hsettled.trans ?_⟩, hbalance⟩
  decide +kernel

end Smink
