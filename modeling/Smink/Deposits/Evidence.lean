import Smink.Deposits.Exactly
import Smink.Deposits.Outage
import Smink.Deposits.Scan
import Mathlib.Algebra.Order.PUnit

/-!
# The evidence of a settlement

A settled deposit keeps in its metadata what it was settled by, and the hash in it is what later scans leave out. Every
write of metadata is guarded by the status of the row, but one: `progress` writes the metadata its scan has read, with
the sighting on top, whatever the row has become since. While each such write finds its row neither confirmed nor in
review, no interleaving changes the evidence (`evidence_kept`); in `evidence_erased` one watcher erases what another has
just written.
-/

namespace Smink

open Store

/-- The later row still has the evidence of its settlement: of its credit from then on, of a review as long as it is
in review. -/
structure EvidenceKept (a b : SminkTransaction) : Prop extends RowMove a b where
  confirmed : a.status = .confirmed → b.metadata.txHash = a.metadata.txHash ∧
    b.metadata.creditedAt = a.metadata.creditedAt ∧ b.metadata.creditedBy = a.metadata.creditedBy
  review : a.status = .review → b.status = .review → b.metadata.txHash = a.metadata.txHash ∧
    b.metadata.reviewReasons = a.metadata.reviewReasons

theorem EvidenceKept.refl (a : SminkTransaction) : EvidenceKept a a :=
  ⟨.refl a, fun _ => ⟨rfl, rfl, rfl⟩, fun _ _ => ⟨rfl, rfl⟩⟩

/-- A deposit that has left the review does not come back to it. -/
theorem StatusMove.review_between {status : TxStatus} (h₁ : StatusMove .review status)
    (h₂ : StatusMove status .review) : status = .review := by
  cases h₁ with
  | stay => rfl
  | creditHeld => cases h₂

theorem EvidenceKept.trans {a b c : SminkTransaction} (h₁ : EvidenceKept a b) (h₂ : EvidenceKept b c) :
    EvidenceKept a c := by
  refine ⟨h₁.toRowMove.trans h₂.toRowMove, fun ha => ?_, fun ha hc => ?_⟩
  · obtain ⟨hhash, hat, hby⟩ := h₁.confirmed ha
    obtain ⟨hhash', hat', hby'⟩ := h₂.confirmed (ha ▸ h₁.status).of_confirmed
    exact ⟨hhash'.trans hhash, hat'.trans hat, hby'.trans hby⟩
  · have hb : b.status = .review := (ha ▸ h₁.status).review_between (hc ▸ h₂.status)
    obtain ⟨hhash, hreasons⟩ := h₁.review ha hb
    obtain ⟨hhash', hreasons'⟩ := h₂.review hb hc
    exact ⟨hhash'.trans hhash, hreasons'.trans hreasons⟩

/-- A write to a row that has no evidence yet, or that leaves the review. -/
theorem evidenceKept_of_move {a : SminkTransaction} {set : TransactionSet}
    (hmove : StatusMove a.status (set.status.getD a.status)) (hconfirmed : a.status ≠ .confirmed)
    (hreview : a.status = .review → set.status.getD a.status ≠ .review) : EvidenceKept a (Settable.apply set a) :=
  ⟨⟨rfl, rfl, rfl, rfl, hmove⟩, fun h => absurd h hconfirmed, fun h h' => absurd h' (hreview h)⟩

/-- A write to other columns. -/
theorem evidenceKept_annotate {a : SminkTransaction} {set : TransactionSet} (hstatus : set.status = none)
    (hmeta : set.metadata = none) : EvidenceKept a (Settable.apply set a) := by
  have hmetadata : (Settable.apply set a : SminkTransaction).metadata = a.metadata := by simp [Settable.apply, hmeta]
  refine ⟨⟨rfl, rfl, rfl, rfl, ?_⟩, fun _ => ?_, fun _ _ => ?_⟩
  · simp only [Settable.apply, hstatus, Option.getD_none]
    exact .stay _
  · rw [hmetadata]
    exact ⟨rfl, rfl, rfl⟩
  · rw [hmetadata]
    exact ⟨rfl, rfl⟩

/-- The ledger keeps its evidence, and no wallet is lost. -/
structure EvidenceMove (db t : Db) : Prop where
  rows : Table.Moves EvidenceKept db.sminkTransactions t.sminkTransactions
  wallets : WalletsPersist db t

variable {db t : Db}

theorem EvidenceMove.refl (db : Db) : EvidenceMove db db := ⟨.refl EvidenceKept.refl _, fun _ h => h⟩

theorem EvidenceMove.trans {u : Db} (h₁ : EvidenceMove db t) (h₂ : EvidenceMove t u) : EvidenceMove db u :=
  ⟨h₁.rows.trans (fun _ _ _ => EvidenceKept.trans) h₂.rows, fun userId h => h₂.wallets userId (h₁.wallets userId h)⟩

theorem EvidenceMove.update {p : SminkTransaction → Bool} {set : TransactionSet}
    (h : ∀ a ∈ db.sminkTransactions.rows, p a = true → EvidenceKept a (Settable.apply set a)) :
    EvidenceMove db { db with sminkTransactions := db.sminkTransactions.update p set } :=
  ⟨Table.moves_update EvidenceKept.refl h, fun _ h => h⟩

/-! ## When it holds -/

/-- A write of metadata that is not guarded by a status finds its row neither confirmed nor in review. -/
def MayReport (w : DepositWorld) (_ : DepositCall) : Stmt → Prop
  | .updateTransaction p set => set.status = none → set.metadata.isSome = true →
    ∀ a ∈ w.store.sminkTransactions.rows, p a = true → a.status ≠ .confirmed ∧ a.status ≠ .review
  | _ => True

/-- Nothing is held; the evidence is kept from each step to the next. -/
def evidenceDiscipline : Discipline DepositCall Stmt Db Unit where
  inv _ _ := True
  rely w v := EvidenceMove w.store v.store
  rely_refl w := .refl w.store
  rely_trans h₁ h₂ := h₁.trans h₂
  ok := MayReport

/-! ## The calls -/

section Calls

variable {i : DepositCall} {w : DepositWorld} {α : Type}

/-- The program keeps the evidence. -/
def KeepsEvidence (i : DepositCall) (p : Sql α) (w : DepositWorld) : Prop :=
  Safe evidenceDiscipline exec i p w 0 Released

theorem keeps_stmt {q : Stmt} {k : q.Resp → Sql α}
    (h : ∀ (v : DepositWorld) r s, EvidenceMove w.store v.store → MayReport v i q → exec q v.store = .ok (r, s) →
      EvidenceMove v.store s ∧ ∀ u : DepositWorld, u.store = s → KeepsEvidence i (k r) u) :
    KeepsEvidence i (.stmt q k) w := by
  intro v hv _ _ hok r s hr
  obtain ⟨hmove, hk⟩ := h v r s hv hok hr
  exact ⟨hmove, 0, trivial, hk _ rfl⟩

theorem keeps_select {p : SminkTransaction → Bool} {f : List SminkTransaction → Sql α}
    (hf : ∀ rows u, KeepsEvidence i (f rows) u) : KeepsEvidence i (ask (.selectTransaction p) >>= f) w := by
  change KeepsEvidence i (.stmt (.selectTransaction p) f) w
  refine keeps_stmt fun v r s _ _ hr => ?_
  cases hr
  exact ⟨.refl _, fun u _ => hf _ u⟩

theorem keeps_update {p : SminkTransaction → Bool} {set : TransactionSet} {f : List SminkTransaction → Sql α}
    (h : ∀ v, MayReport v i (.updateTransaction p set) → ∀ a ∈ v.store.sminkTransactions.rows, p a = true →
      EvidenceKept a (Settable.apply set a))
    (hf : ∀ rows u, KeepsEvidence i (f rows) u) : KeepsEvidence i (ask (.updateTransaction p set) >>= f) w := by
  change KeepsEvidence i (.stmt (.updateTransaction p set) f) w
  refine keeps_stmt fun v r s _ hok hr => ?_
  cases hr
  exact ⟨.update (h v hok), fun u _ => hf _ u⟩

theorem evidence_readFree : ReadFree evidenceDiscipline Stmt.isRead := fun _ _ _ _ _ _ => ⟨.refl _, trivial⟩

/-- The wallet is there when it is credited. -/
theorem keeps_creditWallet {userId : Id} {amount : Money} {f : Option SminkWallet → Sql α}
    (hf : ∀ a u, KeepsEvidence i (f (some a)) u) : KeepsEvidence i (creditWallet userId amount >>= f) w := by
  refine keeps_stmt fun v r s _ _ hr => ?_
  have hwallet := hasWallet_insertWallet hr
  have hinsert : EvidenceMove v.store s := by
    obtain ⟨t, ht, he⟩ | ⟨-, he⟩ := exec_insertWallet userId v.store
    · rw [he] at hr
      cases hr
      exact ⟨.refl EvidenceKept.refl _, fun _ => hasWallet_insert ht⟩
    · rw [he] at hr
      cases hr
      exact .refl _
  refine ⟨hinsert, fun u hu => ?_⟩
  rw [← hu] at hwallet
  refine keeps_stmt fun v r s hv _ hr => ?_
  obtain ⟨rfl, rfl⟩ := exec_updateWallet hr
  obtain ⟨a, -, hsel⟩ := (hv.wallets userId hwallet).select
  refine ⟨⟨.refl EvidenceKept.refl _, fun _ => hasWallet_update⟩, fun x _ => ?_⟩
  rw [Table.updated_eq_map, hsel]
  exact hf _ x

theorem keeps_creditDeposit (now : Time) (depositId : Id) (extraMetadata : Metadata → Metadata) :
    KeepsEvidence i (creditDeposit now depositId extraMetadata) w := by
  refine keeps_select fun rows _ => ?_
  split
  · refine keeps_update (fun v _ a _ ha => ?_) fun claimedRows _ => ?_
    · -- the claim confirms a row that was not confirmed
      rw [Bool.and_eq_true] at ha
      exact evidenceKept_of_move (.of_creditable ha.2) (ne_confirmed_of_creditable ha.2) fun _ h => nomatch h
    · split
      · exact keeps_creditWallet fun wallet _ =>
          keeps_update (fun _ _ _ _ _ => evidenceKept_annotate rfl rfl) fun _ _ => rfl
      · exact rfl
  · exact rfl

/-- A write to a pending row that moves it. -/
theorem evidenceKept_pending {depositId : Id} {set : TransactionSet} {status : TxStatus} {a : SminkTransaction}
    (hset : set.status = some status) (hmove : StatusMove .pending status)
    (ha : (a.id == depositId && a.status == .pending) = true) : EvidenceKept a (Settable.apply set a) := by
  have hpending := pending_of_where ha
  refine evidenceKept_of_move ?_ (by rw [hpending]; decide) fun h => ?_
  · rw [hpending, hset]
    exact hmove
  · rw [hpending] at h
    cases h

theorem keeps_flagDepositForReview (now : Time) (depositId : Id) (reasons : List String)
    (extraMetadata : Metadata → Metadata) :
    KeepsEvidence i (flagDepositForReview now depositId reasons extraMetadata) w := by
  refine keeps_select fun rows _ => ?_
  split
  · split
    · exact rfl
    · exact keeps_update (fun _ _ _ _ => evidenceKept_pending rfl .flag) fun _ _ => rfl
  · exact rfl

theorem keeps_cancelUnpaid (now : Time) (deposit : PendingDeposit) : KeepsEvidence i (cancelUnpaid now deposit) w :=
  keeps_update (fun _ _ _ _ => evidenceKept_pending rfl .cancel) fun _ _ => rfl

/-- A report keeps the evidence where it meets the step condition. -/
theorem keeps_progress (now : Time) (deposit : PendingDeposit) (tx : IncomingTx) :
    KeepsEvidence i (progress now deposit tx) w := by
  unfold progress
  dsimp only
  split
  · exact rfl
  · refine keeps_update (fun v hok a ha hp => ?_) fun _ _ => rfl
    obtain ⟨hconfirmed, hreview⟩ := hok rfl rfl a ha hp
    exact evidenceKept_of_move (.stay _) hconfirmed fun h => absurd h hreview

theorem keeps_prog (i : DepositCall) (w : DepositWorld) : KeepsEvidence i i.prog w :=
  StepsSafe.prog {
    reads := evidence_readFree
    creditDeposit := fun _ _ => keeps_creditDeposit
    flagDepositForReview := fun _ _ => keeps_flagDepositForReview
    progress := fun _ _ => keeps_progress
    cancelUnpaid := fun _ _ => keeps_cancelUnpaid } i w

end Calls

/-! ## All interleavings -/

/-- The hash of a deposit that is confirmed, or that stays in review, is left out by the scans that start later. -/
theorem EvidenceMove.hash_mem (h : EvidenceMove db t) {a : SminkTransaction} (ha : a ∈ db.sminkTransactions.rows)
    (htype : a.type = .deposit) {hash : String} (hhash : a.metadata.txHash = some hash) (hne : hash ≠ "")
    (hsettled : a.status = .confirmed ∨ a.status = .review ∧ ∀ b ∈ t.sminkTransactions.rows, b.id = a.id →
      b.status = .review) : hash ∈ creditedHashesOf t := by
  obtain ⟨b, hb, hkept⟩ := h.rows.exists_later ha
  have hlater : (b.status = .confirmed ∨ b.status = .review) ∧ b.metadata.txHash = some hash := by
    rcases hsettled with hs | ⟨hs, hstays⟩
    · exact ⟨.inl (hs ▸ hkept.status).of_confirmed, (hkept.confirmed hs).1.trans hhash⟩
    · have hreview := hstays b hb hkept.id_eq
      exact ⟨.inr hreview, (hkept.review hs hreview).1.trans hhash⟩
  unfold creditedHashesOf
  rw [List.mem_filter, List.mem_map]
  refine ⟨⟨b, Table.mem_select.2 ⟨hb, ?_⟩, by rw [hlater.2]; rfl⟩, by simpa using hne⟩
  rcases hlater.1 with hs | hs <;> simp [hkept.type_eq, htype, hs]

/-- **The evidence of a settlement survives** every interleaving in which no report finds its row settled: from any
point of a run to any later one it is kept row by row, and the hashes stay left out. -/
theorem evidence_kept (db : Db) (ms ns : List (Move DepositCall Fault))
    (c d : Pool DepositCall Stmt.Resp Fault Unit Db)
    (hmay : MayMoves evidenceDiscipline exec DepositCall.prog
      (Pool.init db : Pool DepositCall Stmt.Resp Fault Unit Db) (ms ++ ns))
    (hc : (Pool.init db).replay exec DepositCall.prog ms = some c) (hd : c.replay exec DepositCall.prog ns = some d) :
    List.Forall₂ EvidenceKept c.store.sminkTransactions.rows d.store.sminkTransactions.rows ∧
      ∀ a ∈ c.store.sminkTransactions.rows, a.type = .deposit → ∀ hash, a.metadata.txHash = some hash → hash ≠ "" →
        (a.status = .confirmed ∨ a.status = .review ∧ ∀ b ∈ d.store.sminkTransactions.rows, b.id = a.id →
          b.status = .review) → hash ∈ creditedHashesOf d.store := by
  have hinv : PoolInv evidenceDiscipline exec (Pool.init db : Pool DepositCall Stmt.Resp Fault Unit Db) :=
    poolInv_init trivial
  obtain ⟨-, hinvc⟩ := replay_safe_fail keeps_prog hc (mayMoves_of_append hmay) hinv
  obtain ⟨hmove, -⟩ := replay_safe_fail keeps_prog hd (mayMoves_append hmay hc) hinvc
  have hmove : EvidenceMove c.store d.store := hmove
  exact ⟨hmove.rows, fun a ha htype hash hhash hne => hmove.hash_mem ha htype hhash hne⟩

/-! ## Two watchers -/

/-- The address of `btcQuote` received one coin in the transaction, in a block now three deep. -/
def transferExplorer (txid : String) : Explorer :=
  { offline with
    tipHeight := fun _ => some 102
    addressTxs := fun _ _ => some [{
      txid
      blockHeight := some 100
      blockTime := some 1
      vout := [{ value := some 100000000, address := some "bc1" }] }] }

/-- A scan by a watcher whose explorer lists the transaction. -/
def watcher (txid : String) : DepositCall :=
  .scan { mode := .chain, now := fun _ => 10, explorer := fun _ => transferExplorer txid }

def twoWatchers : List (Move DepositCall Fault) := [.start (watcher "a1"), .start (watcher "b2")]

instance (w : DepositWorld) (i : DepositCall) : ∀ q, Decidable (evidenceDiscipline.ok w i q)
  | .updateTransaction p set => inferInstanceAs (Decidable (set.status = none → set.metadata.isSome = true →
      ∀ a ∈ w.store.sminkTransactions.rows, p a = true → a.status ≠ .confirmed ∧ a.status ≠ .review))
  | .selectGame _ | .selectExcluded _ | .selectSession _ | .selectSessionGame _ | .insertSession _
  | .updateSession _ _ | .selectWallet _ | .insertWallet _ | .updateWallet _ _ | .selectTransaction _
  | .selectTransactionUser _ | .insertTransactions _ | .selectBet _ | .insertBet _ | .updateBet _ _
  | .selectControl _ | .updateControl _ _ => .isTrue trivial

/-- Both watchers report before the first of them credits, and the second finds the credit. -/
theorem evidence_kept_twoWatchers :
    ∃ c d : Pool DepositCall Stmt.Resp Fault Unit Db,
      (Pool.init btcQuoteDb).replay exec DepositCall.prog
        (twoWatchers ++ [1, 1, 0, 0, 1, 1, 0, 0, 1, 0, 0, 0].map .stmt) = some c ∧
      c.replay exec DepositCall.prog ([0, 0, 0, 1].map .stmt) = some d ∧ d.Idle ∧
      c.store.sminkTransactions.rows.map SminkTransaction.status = [.confirmed] ∧
      List.Forall₂ EvidenceKept c.store.sminkTransactions.rows d.store.sminkTransactions.rows := by
  have hrun : ((Pool.init btcQuoteDb).replay exec DepositCall.prog
      (twoWatchers ++ [1, 1, 0, 0, 1, 1, 0, 0, 1, 0, 0, 0].map .stmt)).any
        (fun c : Pool DepositCall Stmt.Resp Fault Unit Db =>
          (c.replay exec DepositCall.prog ([0, 0, 0, 1].map .stmt)).any fun d =>
            decide (d.Idle ∧ c.store.sminkTransactions.rows.map SminkTransaction.status = [.confirmed])) = true := by
    decide +kernel
  obtain ⟨c, hc, hrun⟩ := (Option.any_eq_true _ _).1 hrun
  obtain ⟨d, hd, hidle⟩ := (Option.any_eq_true _ _).1 hrun
  rw [decide_eq_true_eq] at hidle
  exact ⟨c, d, hc, hd, hidle.1, hidle.2,
    (evidence_kept btcQuoteDb (twoWatchers ++ [1, 1, 0, 0, 1, 1, 0, 0, 1, 0, 0, 0].map .stmt)
      ([0, 0, 0, 1].map .stmt) c d (by decide +kernel) hc hd).1⟩

/-- A deposit credited by the hash `a1` at time 10 has lost all three, and the hash is not left out any more. -/
def CreditErased (db t : Db) : Prop :=
  (∃ a ∈ db.sminkTransactions.rows, a.id = "d1" ∧ a.status = .confirmed ∧ a.metadata.txHash = some "a1" ∧
    a.metadata.creditedAt = some 10 ∧ a.metadata.creditedBy = some "chain") ∧
  (∃ b ∈ t.sminkTransactions.rows, b.id = "d1" ∧ b.status = .confirmed ∧ b.metadata.txHash = some "b2" ∧
    b.metadata.creditedAt = none ∧ b.metadata.creditedBy = none) ∧
  "a1" ∈ creditedHashesOf db ∧ "a1" ∉ creditedHashesOf t

instance (db t : Db) : Decidable (CreditErased db t) := by
  unfold CreditErased
  infer_instance

/-- The second watcher has read the pending row, and reports after the first has credited it. -/
theorem evidence_erased :
    ∃ c d : Pool DepositCall Stmt.Resp Fault Unit Db,
      (Pool.init btcQuoteDb).replay exec DepositCall.prog
        (twoWatchers ++ ([1, 1, 1, 1] ++ List.replicate 10 0).map .stmt) = some c ∧
      c.replay exec DepositCall.prog ([1, 1].map .stmt) = some d ∧ d.Idle ∧ CreditErased c.store d.store := by
  have hrun : ((Pool.init btcQuoteDb).replay exec DepositCall.prog
      (twoWatchers ++ ([1, 1, 1, 1] ++ List.replicate 10 0).map .stmt)).any
        (fun c : Pool DepositCall Stmt.Resp Fault Unit Db =>
          (c.replay exec DepositCall.prog ([1, 1].map .stmt)).any fun d =>
            decide (d.Idle ∧ CreditErased c.store d.store)) = true := by
    decide +kernel
  obtain ⟨c, hc, hrun⟩ := (Option.any_eq_true _ _).1 hrun
  obtain ⟨d, hd, hfacts⟩ := (Option.any_eq_true _ _).1 hrun
  exact ⟨c, d, hc, hd, of_decide_eq_true hfacts⟩

end Smink
