import Smink.Deposits.Watch

/-!
# What one inspection does

An inspection touches one ledger row, the deposit's own. `Rewritten db t r r'` says that `t` has `r'` where `db` has
`r`, and every other ledger row as before; `Exit` lists the ways an inspection ends with the row and the hashes each
leaves behind, and `run_inspect` is the spec lemma: an inspection of a pending row always ends in one of them.
-/

namespace Smink

open Store

/-! ## Rewriting one row -/

/-- Puts `r'` in the place of the row with its id. -/
def rewrite (r' a : SminkTransaction) : SminkTransaction := if a.id = r'.id then r' else a

/-- The row `r` of `db` is `r'` in `t`, and the other ledger rows and the users are the same. -/
structure Rewritten (db t : Db) (r r' : SminkTransaction) : Prop where
  mem : r ∈ db.sminkTransactions.rows
  id_eq : r'.id = r.id
  rows : t.sminkTransactions.rows = db.sminkTransactions.rows.map (rewrite r')
  users : t.users = db.users

theorem rewrite_of_ne {r' a : SminkTransaction} (h : a.id ≠ r'.id) : rewrite r' a = a := if_neg h

theorem rewrite_of_eq {r' a : SminkTransaction} (h : a.id = r'.id) : rewrite r' a = r' := if_pos h

namespace Rewritten

variable {db t u : Db} {r r' r'' : SminkTransaction}

theorem refl (hr : r ∈ db.sminkTransactions.rows) : Rewritten db db r r := by
  refine ⟨hr, rfl, ?_, rfl⟩
  have hid : ∀ a ∈ db.sminkTransactions.rows, rewrite r a = a := by
    intro a ha
    by_cases h : a.id = r.id
    · rw [rewrite_of_eq h, transaction_eq_of_id ha hr h]
    · exact rewrite_of_ne h
  exact ((List.map_congr_left hid).trans (List.map_id _)).symm

theorem mem' (h : Rewritten db t r r') : r' ∈ t.sminkTransactions.rows := by
  rw [h.rows]
  exact List.mem_map.2 ⟨r, h.mem, rewrite_of_eq h.id_eq.symm⟩

theorem trans (h : Rewritten db t r r') (h' : Rewritten t u r' r'') : Rewritten db u r r'' := by
  refine ⟨h.mem, h'.id_eq.trans h.id_eq, ?_, h'.users.trans h.users⟩
  rw [h'.rows, h.rows, List.map_map]
  refine List.map_congr_left fun a _ => ?_
  rw [Function.comp_apply]
  by_cases ha : a.id = r'.id
  · rw [rewrite_of_eq ha, rewrite_of_eq h'.id_eq.symm, rewrite_of_eq (ha.trans h'.id_eq.symm)]
  · rw [rewrite_of_ne ha]

/-- The rows of the new table are the rewritten one and the others. -/
theorem mem_iff (h : Rewritten db t r r') {a : SminkTransaction} :
    a ∈ t.sminkTransactions.rows ↔ a = r' ∨ (a ∈ db.sminkTransactions.rows ∧ a.id ≠ r.id) := by
  rw [h.rows, List.mem_map]
  constructor
  · rintro ⟨b, hb, rfl⟩
    by_cases hid : b.id = r'.id
    · exact .inl (rewrite_of_eq hid)
    · rw [rewrite_of_ne hid]
      exact .inr ⟨hb, fun he => hid (he.trans h.id_eq.symm)⟩
  · rintro (rfl | ⟨ha, hid⟩)
    · exact ⟨r, h.mem, rewrite_of_eq h.id_eq.symm⟩
    · exact ⟨a, ha, rewrite_of_ne fun he => hid (he.trans h.id_eq)⟩

/-- Writes to other tables do not count. -/
theorem of_eq (h : Rewritten db t r r') (hrows : u.sminkTransactions = t.sminkTransactions) (hu : u.users = t.users) :
    Rewritten db u r r' :=
  ⟨h.mem, h.id_eq, by rw [hrows, h.rows], by rw [hu, h.users]⟩

end Rewritten

section Update

variable {db : Db} {r : SminkTransaction} {p : SminkTransaction → Bool} (set : TransactionSet)

/-- An update whose `WHERE` pins the id of `r` rewrites `r`. -/
theorem rewritten_update (hr : r ∈ db.sminkTransactions.rows) (hp : p r = true) (hid : ∀ a, p a = true → a.id = r.id) :
    Rewritten db { db with sminkTransactions := db.sminkTransactions.update p set } r (Settable.apply set r) := by
  refine ⟨hr, rfl, ?_, rfl⟩
  rw [Table.rows_update]
  refine List.map_congr_left fun a ha => ?_
  by_cases h : a.id = r.id
  · have har : rewrite (Settable.apply set r) a = Settable.apply set r := rewrite_of_eq h
    rw [har, transaction_eq_of_id ha hr h, Table.updateRow_pos hp]
  · have hpa : p a = false := by
      cases hpa : p a with
      | true => exact absurd (hid a hpa) h
      | false => rfl
    have har : rewrite (Settable.apply set r) a = a := rewrite_of_ne h
    rw [har, Table.updateRow_neg hpa]

omit set in
theorem select_pinned (hr : r ∈ db.sminkTransactions.rows) (hp : p r = true) (hid : ∀ a, p a = true → a.id = r.id) :
    db.sminkTransactions.select p = [r] :=
  db.sminkTransactions.select_eq_of_key (k := ("id", r.id)) hr hp fun a _ ha => by simp [Keyed.keys, hid a ha]

theorem updated_pinned (hr : r ∈ db.sminkTransactions.rows) (hp : p r = true) (hid : ∀ a, p a = true → a.id = r.id) :
    db.sminkTransactions.updated p set = [Settable.apply set r] := by
  rw [Table.updated_eq_map, select_pinned hr hp hid]
  rfl

end Update

/-! ## The statements of an inspection -/

section Statements

variable {db : Db} {r : SminkTransaction} {now : Time} {deposit : PendingDeposit}

/-- The row after `progress`. -/
def afterProgress (now : Time) (deposit : PendingDeposit) (tx : IncomingTx) (r : SminkTransaction) :
    SminkTransaction :=
  if Num.same (deposit.metadata.confirmations.getD (some (-1))) tx.confirmations &&
      deposit.metadata.txHash.getD "" == tx.hash then r
  else { r with metadata := progressed deposit.metadata tx now }

theorem run_progress (tx : IncomingTx) (hr : r ∈ db.sminkTransactions.rows) (hid : r.id = deposit.id) :
    ∃ t, (progress now deposit tx).run exec db = (.ok (), t) ∧
      Rewritten db t r (afterProgress now deposit tx r) := by
  unfold progress afterProgress
  dsimp only
  split
  · exact ⟨db, rfl, .refl hr⟩
  · exact ⟨_, rfl, rewritten_update { metadata := some (progressed deposit.metadata tx now) } hr
      (by simp [hid]) (fun a ha => by simpa [hid] using ha)⟩

theorem afterProgress_status (tx : IncomingTx) : (afterProgress now deposit tx r).status = r.status := by
  unfold afterProgress
  split <;> rfl

theorem afterProgress_type (tx : IncomingTx) : (afterProgress now deposit tx r).type = r.type := by
  unfold afterProgress
  split <;> rfl

theorem afterProgress_id (tx : IncomingTx) : (afterProgress now deposit tx r).id = r.id := by
  unfold afterProgress
  split <;> rfl

theorem run_flag {id : Id} (now : Time) (reasons : List String) (extraMetadata : Metadata → Metadata)
    (hr : r ∈ db.sminkTransactions.rows) (hid : r.id = id) (hs : r.status = .pending) :
    ∃ rows t, (flagDepositForReview now id reasons extraMetadata).run exec db = (.ok (some rows), t) ∧
      Rewritten db t r (Settable.apply (flagSet now reasons (extraMetadata r.metadata)) r) := by
  have hsel : db.sminkTransactions.select (fun t => t.id == id) = [r] :=
    select_pinned hr (by simp [hid]) fun a ha => by simpa [hid] using ha
  have hflag := rewritten_update (flagSet now reasons (extraMetadata r.metadata)) hr
    (p := fun t => t.id == id && t.status == .pending) (by simp [hid, hs]) fun a ha => by
      rw [Bool.and_eq_true, beq_iff_eq] at ha
      rw [ha.1, hid]
  unfold flagDepositForReview
  rw [ask_bind, Prog.run_stmt rfl, hsel]
  simp only [List.head?_cons, hs]
  exact ⟨_, _, rfl, hflag⟩

theorem run_creditWallet (db : Db) (userId : Id) (amount : Money) :
    ∃ w t, (creditWallet userId amount).run exec db = (.ok (some w), t) ∧
      t.sminkTransactions = db.sminkTransactions ∧ t.users = db.users := by
  obtain ⟨rows, t, ht, ⟨w, hw, hwu⟩, htx, hus⟩ : ∃ rows t, exec (.insertWallet userId) db = .ok (rows, t) ∧
      (∃ w ∈ t.sminkWallets.rows, w.userId = userId) ∧ t.sminkTransactions = db.sminkTransactions ∧
      t.users = db.users := by
    obtain ⟨u, hins, he⟩ | ⟨hwallet, he⟩ := exec_insertWallet userId db
    · exact ⟨_, _, he, ⟨{ userId }, by simp [Table.rows_insert hins], rfl⟩, rfl, rfl⟩
    · exact ⟨_, _, he, hwallet, rfl, rfl⟩
  have hsel : t.sminkWallets.select (fun w => w.userId == userId) = [w] :=
    select_wallet hw (by simp [hwu]) fun a ha => by rw [hwu]; exact beq_iff_eq.1 ha
  unfold creditWallet
  rw [perform_bind, Prog.run_stmt ht, ask_bind, Prog.run_stmt rfl, Table.updated_eq_map, hsel]
  exact ⟨_, _, rfl, htx, hus⟩

/-- The row after a credit that left `balance` in the wallet. -/
def credited (now : Time) (metadata : Metadata) (balance : Money) (r : SminkTransaction) : SminkTransaction :=
  { r with
    status := .confirmed
    completedAt := some now
    metadata := { metadata with creditedAt := some now }
    balanceAfter := some balance }

theorem run_creditDeposit {id : Id} (now : Time) (extraMetadata : Metadata → Metadata)
    (hr : r ∈ db.sminkTransactions.rows)
    (hid : r.id = id) (hd : r.type = .deposit) (hs : creditable r.status = true) :
    ∃ row balance t, (creditDeposit now id extraMetadata).run exec db = (.ok (some row), t) ∧
      Rewritten db t r (credited now (extraMetadata r.metadata) balance r) := by
  have hsel : db.sminkTransactions.select (fun t => t.id == id && t.type == .deposit && creditable t.status) = [r] :=
    select_pinned hr (by simp [hid, hd, hs]) fun a ha => by
      simp only [Bool.and_eq_true, beq_iff_eq] at ha
      rw [ha.1.1, hid]
  have hp : (r.id == id && creditable r.status) = true := by simp [hid, hs]
  have hpin : ∀ a : SminkTransaction, (a.id == id && creditable a.status) = true → a.id = r.id := by
    intro a ha
    rw [Bool.and_eq_true, beq_iff_eq] at ha
    rw [ha.1, hid]
  have hclaim := rewritten_update (claimSet now (extraMetadata r.metadata)) hr hp hpin
  unfold creditDeposit
  rw [ask_bind, Prog.run_stmt rfl, hsel]
  simp only [List.head?_cons, ask_bind]
  rw [Prog.run_stmt rfl, updated_pinned _ hr hp hpin]
  simp only [List.head?_cons]
  generalize { db with sminkTransactions := db.sminkTransactions.update _ _ } = db₁ at hclaim ⊢
  generalize hc : Settable.apply (claimSet now (extraMetadata r.metadata)) r = claimed at hclaim ⊢
  obtain ⟨w, db₂, hrun, htx, hus⟩ := run_creditWallet db₁ claimed.userId claimed.amount
  rw [Prog.run_bind_ok hrun]
  have hclaim' := hclaim.of_eq htx hus
  have hcid : claimed.id = id := hclaim.id_eq.trans hid
  refine ⟨_, w.balance, _, rfl, hclaim'.trans ?_⟩
  have hlast := rewritten_update { balanceAfter := some w.balance } hclaim'.mem' (p := fun t => t.id == id)
    (by simp [hcid]) fun a ha => by rw [beq_iff_eq.1 ha, hcid]
  rw [← hc] at hlast ⊢
  exact hlast

end Statements

/-! ## The exits of an inspection -/

/-- The transaction an inspection goes by: the first match, or without one the first near amount. -/
def Sighting.payment (s : Sighting) : Option IncomingTx := s.matched.or s.near

/-- What a held payment spreads over the metadata. -/
def heldMetadata (s : Sighting) (tx : IncomingTx) (metadata : Metadata) : Metadata :=
  if s.matched.isSome then { paidBy tx metadata with fromAddress := tx.sender } else paidBy tx metadata

/-- The reasons to hold a matching payment, as an inspection of `db` finds them. -/
def reasonsIn (db : Db) (now : Time) (deposit : PendingDeposit) (allPending : List PendingDeposit) (s : Sighting)
    (tx : IncomingTx) : List String :=
  reviewReasons now deposit allPending (matchWindow deposit s.coin) tx
    (((db.sminkWallets.select fun w => w.userId == deposit.userId).head?.map SminkWallet.totalDeposited).getD 0)
    (db.sminkTransactions.select (isRecent now deposit.userId)).length

/-- The reasons a payment is held for: its amount is only near, or some check of a matching one fails. -/
def HoldReasons (db : Db) (now : Time) (deposit : PendingDeposit) (allPending : List PendingDeposit) (s : Sighting)
    (tx : IncomingTx) (reasons : List String) : Prop :=
  (s.matched = none ∧ reasons = ["amount_mismatch"]) ∨
  (s.matched = some tx ∧ reasons ≠ [] ∧ reasons = reasonsIn db now deposit allPending s tx)

/-- How an inspection of `db` that finds the row `r` ends: the row and the hashes it leaves. -/
inductive Exit (db : Db) (X : Explorer) (now : Time) (deposit : PendingDeposit) (allPending : List PendingDeposit)
    (hashes : List String) (mode : ScanMode) (r : SminkTransaction) : SminkTransaction → List String → Prop
  | unwatched (h : sighting X now deposit hashes mode = none) :
    Exit db X now deposit allPending hashes mode r r hashes
  | nothing (s : Sighting) (h : sighting X now deposit hashes mode = some s) (hp : s.payment = none)
    (hq : pastDeadline now deposit = true → paymentSeen deposit.metadata = true) :
    Exit db X now deposit allPending hashes mode r r hashes
  | cancelled (s : Sighting) (h : sighting X now deposit hashes mode = some s) (hp : s.payment = none)
    (hd : pastDeadline now deposit = true) (hs : paymentSeen deposit.metadata = false) :
    Exit db X now deposit allPending hashes mode r (Settable.apply (cancelSet now deposit.metadata) r) hashes
  | waiting (s : Sighting) (h : sighting X now deposit hashes mode = some s) (tx : IncomingTx)
    (hp : s.payment = some tx) (hc : tx.confirmations.lt s.required = true) :
    Exit db X now deposit allPending hashes mode r (afterProgress now deposit tx r) hashes
  | held (s : Sighting) (h : sighting X now deposit hashes mode = some s) (tx : IncomingTx)
    (hp : s.payment = some tx) (hc : tx.confirmations.lt s.required = false) (reasons : List String)
    (hr : HoldReasons db now deposit allPending s tx reasons) :
    Exit db X now deposit allPending hashes mode r
      (Settable.apply (flagSet now reasons (heldMetadata s tx (afterProgress now deposit tx r).metadata))
        (afterProgress now deposit tx r)) hashes
  | credited (s : Sighting) (h : sighting X now deposit hashes mode = some s) (tx : IncomingTx)
    (hm : s.matched = some tx) (hc : tx.confirmations.lt s.required = false) (balance : Money)
    (hr : reasonsIn db now deposit allPending s tx = []) :
    Exit db X now deposit allPending hashes mode r
      (credited now { paidBy tx (afterProgress now deposit tx r).metadata with
        creditedBy := some (creditedByText mode) } balance (afterProgress now deposit tx r)) (tx.hash :: hashes)

section Exit

variable {db : Db} {X : Explorer} {now : Time} {deposit : PendingDeposit} {allPending : List PendingDeposit}
  {hashes hashes' : List String} {mode : ScanMode} {r r' : SminkTransaction}

/-- The hashes only grow. -/
theorem Exit.subset (h : Exit db X now deposit allPending hashes mode r r' hashes') : hashes ⊆ hashes' := by
  cases h with
  | credited s h tx hm hc balance hr => exact List.subset_cons_self _ _
  | _ => exact List.Subset.refl _

/-- The exits that settle a deposit: it is held, or it is credited by a match whose hash is added. -/
theorem Exit.settled (h : Exit db X now deposit allPending hashes mode r r' hashes') (hp : r.status = .pending)
    (hs : r'.status = .confirmed ∨ r'.status = .review) :
    ∃ s tx, sighting X now deposit hashes mode = some s ∧ s.payment = some tx ∧
      r'.metadata.txHash = some tx.hash ∧
      (r'.status = .review ∨ (r'.status = .confirmed ∧ s.matched = some tx ∧ hashes' = tx.hash :: hashes ∧
        tx.confirmations.lt s.required = false ∧ reasonsIn db now deposit allPending s tx = [])) := by
  cases h with
  | unwatched h => simp [hp] at hs
  | nothing s h hp' hq => simp [hp] at hs
  | cancelled s h hp' hd hseen => exact absurd hs (by rintro (h | h) <;> cases h)
  | waiting s h tx hp' hc =>
    simp [afterProgress_status, hp] at hs
  | held s h tx hp' hc reasons hr =>
    refine ⟨s, tx, h, hp', ?_, .inl rfl⟩
    show (heldMetadata s tx _).txHash = some tx.hash
    unfold heldMetadata
    split <;> rfl
  | credited s h tx hm hc balance hr =>
    exact ⟨s, tx, h, by simp [Sighting.payment, hm], rfl, .inr ⟨rfl, hm, rfl, hc, hr⟩⟩

/-- A match with its confirmations and without a reason to hold it leaves one exit. -/
theorem Exit.credited_of_matched {s : Sighting} {tx : IncomingTx}
    (he : Exit db X now deposit allPending hashes mode r r' hashes')
    (h : sighting X now deposit hashes mode = some s) (hm : s.matched = some tx)
    (hc : tx.confirmations.lt s.required = false) (hr : reasonsIn db now deposit allPending s tx = []) :
    r'.status = .confirmed ∧ r'.metadata.txHash = some tx.hash := by
  have hp : s.payment = some tx := by simp [Sighting.payment, hm]
  cases he with
  | unwatched h' => rw [h] at h'; cases h'
  | nothing s' h' hp' hq => rw [h] at h'; cases h'; rw [hp] at hp'; cases hp'
  | cancelled s' h' hp' hd hseen => rw [h] at h'; cases h'; rw [hp] at hp'; cases hp'
  | waiting s' h' tx' hp' hc' => rw [h] at h'; cases h'; rw [hp] at hp'; cases hp'; rw [hc] at hc'; cases hc'
  | held s' h' tx' hp' hc' reasons hr' =>
    rw [h] at h'
    cases h'
    rw [hp] at hp'
    cases hp'
    obtain ⟨hm', -⟩ | ⟨-, hne, rfl⟩ := hr'
    · rw [hm] at hm'; cases hm'
    · exact absurd hr hne
  | credited s' h' tx' hm' hc' balance hr' =>
    rw [h] at h'
    cases h'
    rw [hm] at hm'
    cases hm'
    exact ⟨rfl, rfl⟩

end Exit

/-- A lookup that threw shows no payment. -/
theorem payment_of_lookupFailed {X : Explorer} {now : Time} {deposit : PendingDeposit} {hashes : List String}
    {mode : ScanMode} {s : Sighting} (h : sighting X now deposit hashes mode = some s) (hf : s.lookupFailed = true) :
    s.payment = none := by
  unfold sighting at h
  obtain ⟨⟨coin, quote, address⟩, -, rfl⟩ := Option.map_eq_some_iff.1 h
  have hnone : incomingFor X now deposit coin quote address mode = none := by simpa using hf
  simp [Sighting.payment, hnone, freshTxs, firstOfKind]

section Run

variable {db : Db} {r : SminkTransaction} {X : Explorer} {now : Time} {deposit : PendingDeposit}
  (allPending : List PendingDeposit) {hashes : List String} {mode : ScanMode} {s : Sighting} {tx : IncomingTx}

theorem run_holdNear (hr : r ∈ db.sminkTransactions.rows) (hid : r.id = deposit.id) (hs : r.status = .pending)
    (h : sighting X now deposit hashes mode = some s) (hm : s.matched = none) (hn : s.near = some tx) :
    ∃ r' t, (holdNear now deposit s.required tx).run exec db = (.ok (), t) ∧ Rewritten db t r r' ∧
      Exit db X now deposit allPending hashes mode r r' hashes := by
  have hp : s.payment = some tx := by simp [Sighting.payment, hm, hn]
  obtain ⟨t, hrun, ht⟩ := run_progress tx hr hid
  unfold holdNear
  rw [Prog.run_bind_ok hrun]
  cases hc : tx.confirmations.lt s.required with
  | true => exact ⟨_, t, rfl, ht, .waiting s h tx hp hc⟩
  | false =>
    obtain ⟨rows, u, hrun', hu⟩ := run_flag now ["amount_mismatch"] (paidBy tx) ht.mem'
      ((afterProgress_id tx).trans hid) ((afterProgress_status tx).trans hs)
    simp only [Bool.false_eq_true, if_false]
    rw [Prog.run_bind_ok hrun']
    refine ⟨_, u, rfl, ht.trans hu, ?_⟩
    have he : paidBy tx = heldMetadata s tx := by
      funext metadata
      simp [heldMetadata, hm]
    rw [he]
    exact .held s h tx hp hc _ (.inl ⟨hm, rfl⟩)

theorem run_settleMatch (hr : r ∈ db.sminkTransactions.rows) (hid : r.id = deposit.id) (hd : r.type = .deposit)
    (hs : r.status = .pending) (h : sighting X now deposit hashes mode = some s) (hm : s.matched = some tx) :
    ∃ row r' t, (settleMatch now deposit allPending s mode tx).run exec db = (.ok row, t) ∧ Rewritten db t r r' ∧
      Exit db X now deposit allPending hashes mode r r' (if row.isSome then tx.hash :: hashes else hashes) := by
  have hp : s.payment = some tx := by simp [Sighting.payment, hm]
  obtain ⟨t, hrun, ht⟩ := run_progress tx hr hid
  unfold settleMatch
  rw [ask_bind, Prog.run_stmt rfl, ask_bind, Prog.run_stmt rfl]
  dsimp only
  rw [Prog.run_bind_ok hrun]
  cases hc : tx.confirmations.lt s.required with
  | true => exact ⟨none, _, t, rfl, ht, .waiting s h tx hp hc⟩
  | false =>
    simp only [Bool.false_eq_true, if_false]
    by_cases hne : reasonsIn db now deposit allPending s tx = []
    · obtain ⟨row, balance, u, hrun', hu⟩ := run_creditDeposit now
        (fun m => { paidBy tx m with creditedBy := some (creditedByText mode) }) ht.mem'
        ((afterProgress_id tx).trans hid) ((afterProgress_type tx).trans hd)
        (by rw [afterProgress_status, hs]; rfl)
      have hnot : ¬ reasonsIn db now deposit allPending s tx ≠ [] := not_not.2 hne
      refine ⟨some row, _, u, (congrArg (Prog.run exec · t) (if_neg hnot)).trans hrun', ht.trans hu, ?_⟩
      exact .credited s h tx hm hc balance hne
    · obtain ⟨rows, u, hrun', hu⟩ := run_flag now (reasonsIn db now deposit allPending s tx)
        (fun m => { paidBy tx m with fromAddress := tx.sender }) ht.mem' ((afterProgress_id tx).trans hid)
        ((afterProgress_status tx).trans hs)
      refine ⟨none, _, u, (congrArg (Prog.run exec · t) (if_pos hne)).trans (Prog.run_bind_ok hrun'), ht.trans hu, ?_⟩
      have he : (fun m => { paidBy tx m with fromAddress := tx.sender }) = heldMetadata s tx := by
        funext metadata
        simp [heldMetadata, hm]
      have hheld : Exit db X now deposit allPending hashes mode r _ hashes :=
        .held s h tx hp hc _ (.inr ⟨hm, hne, rfl⟩)
      rw [← he] at hheld
      exact hheld

/-- **The spec of `inspect`** on a deposit whose row is still as the scan read it. -/
theorem run_inspect (X : Explorer) (now : Time) (hashes : List String) (mode : ScanMode) {u : User}
    (hr : r ∈ db.sminkTransactions.rows) (hd : r.type = .deposit) (hs : r.status = .pending)
    (hdep : deposit = pendingDeposit (r, u)) :
    ∃ hashes' r' t, (inspect X now deposit allPending hashes mode).run exec db = (.ok hashes', t) ∧
      Rewritten db t r r' ∧ Exit db X now deposit allPending hashes mode r r' hashes' := by
  have hid : r.id = deposit.id := by rw [hdep]; rfl
  unfold inspect
  cases h : sighting X now deposit hashes mode with
  | none => exact ⟨hashes, r, db, rfl, .refl hr, .unwatched h⟩
  | some s =>
    simp only [actOn]
    split
    · rename_i hcancel
      simp only [Bool.and_eq_true, Bool.not_eq_true', Option.isNone_iff_eq_none] at hcancel
      obtain ⟨⟨⟨hpast, hseen⟩, hm⟩, hn⟩ := hcancel
      refine ⟨hashes, _, _, rfl, rewritten_update (cancelSet now deposit.metadata) hr (by simp [hid, hs])
        fun a ha => ?_, .cancelled s h (by simp [Sighting.payment, hm, hn]) hpast hseen⟩
      rw [Bool.and_eq_true, beq_iff_eq] at ha
      rw [ha.1, hid]
    · rename_i hcancel
      have hquiet : s.payment = none → pastDeadline now deposit = true → paymentSeen deposit.metadata = true := by
        intro hp hpast
        obtain ⟨hm, hn⟩ := Option.or_eq_none_iff.1 hp
        simpa [hpast, hm, hn] using hcancel
      split
      · rename_i hf
        have hp := payment_of_lookupFailed h hf
        exact ⟨hashes, r, db, rfl, .refl hr, .nothing s h hp (hquiet hp)⟩
      · cases hm : s.matched with
        | none =>
          cases hn : s.near with
          | none =>
            have hp : s.payment = none := by simp [Sighting.payment, hm, hn]
            exact ⟨hashes, r, db, rfl, .refl hr, .nothing s h hp (hquiet hp)⟩
          | some near =>
            obtain ⟨r', t, hrun, ht, hexit⟩ := run_holdNear allPending hr hid hs h hm hn
            dsimp only
            rw [Prog.run_bind_ok hrun]
            exact ⟨hashes, r', t, rfl, ht, hexit⟩
        | some tx =>
          obtain ⟨row, r', t, hrun, ht, hexit⟩ := run_settleMatch allPending hr hid hd hs h hm
          dsimp only
          rw [Prog.run_bind_ok hrun]
          exact ⟨_, r', t, rfl, ht, hexit⟩

end Run

end Smink
