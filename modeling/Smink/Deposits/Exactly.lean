import Smink.Deposits.Watch
import Smink.Play.Explained

/-!
# A deposit is credited once

Watchers and other callers credit, flag, report on and cancel deposits side by side, each from what it has read at some
time. The status of a deposit only moves along `StatusMove`, whatever the order (`RowMove` on the rows of the ledger,
`WalletsPersist` on the wallets). Between the claim of a deposit and the update of the wallet a call owes its amount to
the wallet's `totalDeposited`; `creditDiscipline` says that nothing else is owed. The wallet is there when it is
updated, so the branch of `creditDeposit` that takes a claim back is never reached.
-/

namespace Smink

open Store

inductive DepositCall
  | credit (now : Time) (depositId : Id) (extraMetadata : Metadata → Metadata)
  | flag (now : Time) (depositId : Id) (reasons : List String) (extraMetadata : Metadata → Metadata)
  | progress (now : Time) (deposit : PendingDeposit) (tx : IncomingTx)
  | cancelUnpaid (now : Time) (deposit : PendingDeposit)
  /-- A whole scan of a watcher. -/
  | scan (I : ScanInput)

def DepositCall.prog : DepositCall → Sql Unit
  | .credit now depositId extraMetadata => do let _ ← creditDeposit now depositId extraMetadata; return ()
  | .flag now depositId reasons extraMetadata => do
    let _ ← flagDepositForReview now depositId reasons extraMetadata; return ()
  | .progress now deposit tx => Smink.progress now deposit tx
  | .cancelUnpaid now deposit => Smink.cancelUnpaid now deposit
  | .scan I => Smink.scan I

/-! ## Calls and their steps -/

section Steps

variable {G : Type} [AddCommMonoid G] {D : Discipline DepositCall Stmt Db G} {i : DepositCall}
  {w : World DepositCall Stmt Db}

/-- The steps that write, each keeping to the discipline, with nothing held at its end. -/
structure StepsSafe (D : Discipline DepositCall Stmt Db G) : Prop where
  reads : ReadFree D Stmt.isRead
  creditDeposit : ∀ i w now depositId extraMetadata,
    Safe D exec i (creditDeposit now depositId extraMetadata) w 0 Released
  flagDepositForReview : ∀ i w now depositId reasons extraMetadata,
    Safe D exec i (flagDepositForReview now depositId reasons extraMetadata) w 0 Released
  progress : ∀ i w now deposit tx, Safe D exec i (progress now deposit tx) w 0 Released
  cancelUnpaid : ∀ i w now deposit, Safe D exec i (cancelUnpaid now deposit) w 0 Released

namespace StepsSafe

theorem read (h : StepsSafe D) {α : Type} {p : Sql α} (hp : Reads Stmt.isRead p) : Safe D exec i p w 0 Released :=
  (safe_reads readOnly h.reads hp).mono fun _ _ _ h => h.2

theorem settleMatch (h : StepsSafe D) (now : Time) (deposit : PendingDeposit) (allPending : List PendingDeposit)
    (s : Sighting) (mode : ScanMode) (tx : IncomingTx) :
    Safe D exec i (settleMatch now deposit allPending s mode tx) w 0 Released := by
  refine safe_bind_released (h.read ⟨rfl, fun _ => trivial⟩) fun wallets _ => ?_
  refine safe_bind_released (h.read ⟨rfl, fun _ => trivial⟩) fun recent _ => ?_
  dsimp only
  refine safe_bind_released (h.progress _ _ _ _ _) fun _ _ => ?_
  split
  · exact rfl
  split
  · exact safe_bind_released (h.flagDepositForReview _ _ _ _ _ _) fun _ _ => rfl
  · exact h.creditDeposit _ _ _ _ _

theorem inspect (h : StepsSafe D) (X : Explorer) (now : Time) (deposit : PendingDeposit)
    (allPending : List PendingDeposit) (hashes : List String) (mode : ScanMode) :
    Safe D exec i (inspect X now deposit allPending hashes mode) w 0 Released := by
  unfold Smink.inspect
  split
  · exact rfl
  unfold actOn
  split
  · exact safe_bind_released (h.cancelUnpaid _ _ _ _) fun _ _ => rfl
  split
  · exact rfl
  split
  · exact rfl
  · refine safe_bind_released ?_ fun _ _ => rfl
    refine safe_bind_released (h.progress _ _ _ _ _) fun _ _ => ?_
    split
    · exact rfl
    · exact safe_bind_released (h.flagDepositForReview _ _ _ _ _ _) fun _ _ => rfl
  · exact safe_bind_released (h.settleMatch _ _ _ _ _ _) fun _ _ => rfl

theorem scanLoop (h : StepsSafe D) (I : ScanInput) (allPending pending : List PendingDeposit) :
    ∀ (hashes : List String) (w : World DepositCall Stmt Db),
      Safe D exec i (scanLoop I allPending pending hashes) w 0 Released := by
  induction pending with
  | nil => exact fun _ _ => rfl
  | cons deposit rest ih =>
    intro hashes w
    unfold Smink.scanLoop
    dsimp only
    split
    · exact safe_bind_released (h.inspect _ _ _ _ _ _) ih
    · exact ih hashes w

/-- A call keeps to a discipline that its steps keep to. -/
theorem prog (h : StepsSafe D) (i : DepositCall) (w : World DepositCall Stmt Db) :
    Safe D exec i i.prog w 0 Released := by
  cases i with
  | credit now depositId extraMetadata => exact safe_bind_released (h.creditDeposit _ _ _ _ _) fun _ _ => rfl
  | flag now depositId reasons extraMetadata =>
    exact safe_bind_released (h.flagDepositForReview _ _ _ _ _ _) fun _ _ => rfl
  | progress now deposit tx => exact h.progress _ _ _ _ _
  | cancelUnpaid now deposit => exact h.cancelUnpaid _ _ _ _
  | scan I =>
    refine safe_bind_released (h.read ⟨rfl, fun _ => trivial⟩) fun pending _ => ?_
    refine safe_bind_released (h.read ⟨rfl, fun _ => trivial⟩) fun hashes _ => ?_
    exact h.scanLoop I pending pending hashes _

end StepsSafe

end Steps

/-! ## How a deposit moves -/

inductive StatusMove : TxStatus → TxStatus → Prop
  | stay (status : TxStatus) : StatusMove status status
  | flag : StatusMove .pending .review
  | credit : StatusMove .pending .confirmed
  | creditHeld : StatusMove .review .confirmed
  | cancel : StatusMove .pending .cancelled

theorem StatusMove.trans {a b c : TxStatus} (h₁ : StatusMove a b) (h₂ : StatusMove b c) : StatusMove a c := by
  cases h₁ with
  | stay => exact h₂
  | flag =>
    cases h₂ with
    | stay => exact .flag
    | creditHeld => exact .credit
  | credit => cases h₂; exact .credit
  | creditHeld => cases h₂; exact .creditHeld
  | cancel => cases h₂; exact .cancel

theorem StatusMove.of_creditable {status : TxStatus} (h : creditable status = true) : StatusMove status .confirmed := by
  cases status <;> first | exact .credit | exact .creditHeld | cases h

theorem StatusMove.of_confirmed {status : TxStatus} (h : StatusMove .confirmed status) : status = .confirmed := by
  cases h
  rfl

/-- The later row is of the same deposit. -/
structure RowMove (a b : SminkTransaction) : Prop where
  id_eq : b.id = a.id
  userId_eq : b.userId = a.userId
  type_eq : b.type = a.type
  amount_eq : b.amount = a.amount
  status : StatusMove a.status b.status

theorem RowMove.refl (a : SminkTransaction) : RowMove a a := ⟨rfl, rfl, rfl, rfl, .stay _⟩

theorem RowMove.trans {a b c : SminkTransaction} (h₁ : RowMove a b) (h₂ : RowMove b c) : RowMove a c :=
  ⟨h₂.id_eq.trans h₁.id_eq, h₂.userId_eq.trans h₁.userId_eq, h₂.type_eq.trans h₁.type_eq,
    h₂.amount_eq.trans h₁.amount_eq, h₁.status.trans h₂.status⟩

/-- The ledger moves row by row, and no wallet is lost. -/
structure DepositsMove (db t : Db) : Prop where
  rows : Table.Moves RowMove db.sminkTransactions t.sminkTransactions
  wallets : WalletsPersist db t

variable {db t : Db}

theorem DepositsMove.refl (db : Db) : DepositsMove db db := ⟨.refl RowMove.refl _, fun _ h => h⟩

theorem DepositsMove.trans {u : Db} (h₁ : DepositsMove db t) (h₂ : DepositsMove t u) : DepositsMove db u :=
  ⟨h₁.rows.trans (fun _ _ _ => RowMove.trans) h₂.rows, fun userId h => h₂.wallets userId (h₁.wallets userId h)⟩

/-- An update moves the ledger when it moves the status of each row that it finds. -/
theorem DepositsMove.update {p : SminkTransaction → Bool} {set : TransactionSet}
    (h : ∀ a ∈ db.sminkTransactions.rows, p a = true → StatusMove a.status (set.status.getD a.status)) :
    DepositsMove db { db with sminkTransactions := db.sminkTransactions.update p set } :=
  ⟨Table.moves_update RowMove.refl fun a ha hp => ⟨rfl, rfl, rfl, rfl, h a ha hp⟩, fun _ h => h⟩

/-! ## What is owed -/

/-- What a wallet contributes to what its owner has deposited. -/
def depositedOf (userId : Id) (w : SminkWallet) : Money := if w.userId = userId then w.totalDeposited else 0

/-- What a ledger row contributes to it. -/
def creditedOf (userId : Id) (t : SminkTransaction) : Money :=
  if t.userId = userId ∧ t.type = .deposit ∧ t.status = .confirmed then t.amount else 0

/-- The confirmed deposits of a user, minus what the wallet says. -/
def Db.owed (db : Db) (userId : Id) : Money :=
  db.sminkTransactions.total (creditedOf userId) - db.sminkWallets.total (depositedOf userId)

abbrev DepositWorld := World DepositCall Stmt Db

/-- What the calls hold is what is owed beyond the start. -/
def creditDiscipline (base : Id → Money) : Discipline DepositCall Stmt Db (Id → Money) where
  inv w g := w.store.owed = base + g
  rely w v := DepositsMove w.store v.store
  rely_refl w := .refl w.store
  rely_trans h₁ h₂ := h₁.trans h₂
  ok _ _ _ := True

variable {base : Id → Money} {i : DepositCall} {w : DepositWorld} {g : Id → Money} {α β : Type}
  {Q : α → DepositWorld → (Id → Money) → Prop}

/-- The program keeps to the discipline, owing `g` at its start. -/
def Owes (base : Id → Money) (i : DepositCall) (p : Sql α) (w : DepositWorld) (g : Id → Money)
    (Q : α → DepositWorld → (Id → Money) → Prop) : Prop :=
  Safe (creditDiscipline base) exec i p w g Q

/-! ## One statement -/

/-- A statement that moves what is owed by `δ`. -/
theorem owes_stmt {q : Stmt} {k : q.Resp → Sql α}
    (h : ∀ v r s, DepositsMove w.store v → exec q v = .ok (r, s) → DepositsMove v s ∧ ∃ δ, s.owed = v.owed + δ ∧
      ∀ u : DepositWorld, u.store = s → Owes base i (k r) u (g + δ) Q) :
    Owes base i (.stmt q k) w g Q := by
  intro v hv frame hi _ r s hr
  obtain ⟨hmove, δ, hδ, hk⟩ := h v.store r s hv hr
  refine ⟨hmove, g + δ, ?_, hk _ rfl⟩
  change s.owed = base + (g + δ + frame)
  have hi' : v.store.owed = base + (g + frame) := hi
  rw [hδ, hi']
  abel

/-- A statement that moves nothing. -/
theorem owes_neutral {q : Stmt} {k : q.Resp → Sql α}
    (h : ∀ v r s, DepositsMove w.store v → exec q v = .ok (r, s) → DepositsMove v s ∧ s.owed = v.owed ∧
      ∀ u : DepositWorld, u.store = s → Owes base i (k r) u g Q) :
    Owes base i (.stmt q k) w g Q := by
  refine owes_stmt fun v r s hv hr => ?_
  obtain ⟨hmove, howed, hk⟩ := h v r s hv hr
  refine ⟨hmove, 0, by rw [howed, add_zero], fun u hu => ?_⟩
  rw [add_zero]
  exact hk u hu

theorem owes_readFree (base : Id → Money) : ReadFree (creditDiscipline base) Stmt.isRead :=
  fun _ _ _ _ _ h => ⟨.refl _, h⟩

/-- Rows keep their status: nothing is owed. -/
theorem owed_annotate (p : SminkTransaction → Bool) {set : TransactionSet} (hset : set.status = none) :
    Db.owed { db with sminkTransactions := db.sminkTransactions.update p set } = db.owed := by
  funext u
  unfold Db.owed
  rw [Table.total_update_of_eq]
  intro r _ _
  simp [creditedOf, Settable.apply, hset]

/-- A row that was pending goes elsewhere: nothing is owed. -/
theorem owed_unclaimed {p : SminkTransaction → Bool} {set : TransactionSet}
    (hp : ∀ a, p a = true → a.status = .pending) {status : TxStatus} (hset : set.status = some status)
    (hne : status ≠ .confirmed) :
    Db.owed { db with sminkTransactions := db.sminkTransactions.update p set } = db.owed := by
  funext u
  unfold Db.owed
  rw [Table.total_update_of_eq]
  intro r _ hr
  simp [creditedOf, Settable.apply, hset, hne, hp r hr]

/-- A claimed deposit is owed. -/
theorem owed_claim {p : SminkTransaction → Bool} {r : SminkTransaction} {set : TransactionSet}
    (hsel : db.sminkTransactions.select p = [r]) (htype : r.type = .deposit) (hr : r.status ≠ .confirmed)
    (hset : set.status = some .confirmed) :
    Db.owed { db with sminkTransactions := db.sminkTransactions.update p set } =
      db.owed + Pi.single r.userId r.amount := by
  funext u
  unfold Db.owed
  rw [Pi.add_apply, Table.total_update_one _ hsel, Pi.single_apply]
  simp only [creditedOf, Settable.apply, hset, hr, htype, eq_comm (a := u), Option.getD_some, and_true, and_false,
    if_false]
  ring

/-- A credit of the wallet pays what is owed. -/
theorem owed_pay {p : SminkWallet → Bool} {a : SminkWallet} (set : WalletSet) (hsel : db.sminkWallets.select p = [a]) :
    Db.owed { db with sminkWallets := db.sminkWallets.update p set } =
      db.owed - Pi.single a.userId set.totalDeposited := by
  funext u
  unfold Db.owed
  rw [Pi.sub_apply, Table.total_update_one _ hsel, Pi.single_apply]
  simp only [depositedOf, Settable.apply, eq_comm (a := u)]
  split <;> ring

theorem owed_insertWallet {userId : Id} {wallets : Table SminkWallet}
    (hins : db.sminkWallets.insert { userId } = some wallets) :
    Db.owed { db with sminkWallets := wallets } = db.owed := by
  funext u
  unfold Db.owed
  rw [Table.total_insert _ hins]
  simp [depositedOf]

/-! ## The calls -/

theorem owes_select {p : SminkTransaction → Bool} {f : List SminkTransaction → Sql α}
    (hf : ∀ u : DepositWorld, Owes base i (f (u.store.sminkTransactions.select p)) u 0 Q) :
    Owes base i (ask (.selectTransaction p) >>= f) w 0 Q := by
  change Owes base i (.stmt (.selectTransaction p) f) w 0 Q
  refine owes_neutral fun v r s hv hr => ?_
  cases hr
  refine ⟨.refl v, rfl, fun u hu => ?_⟩
  rw [← hu]
  exact hf u

/-- The wallet is there, and takes what is owed. -/
theorem owes_creditWallet (userId : Id) (amount : Money) :
    Owes base i (creditWallet userId amount) w (Pi.single userId amount) fun r _ g => g = 0 ∧ ∃ a, r = some a := by
  unfold creditWallet
  refine owes_neutral fun v r s _ hr => ?_
  have hwallet := hasWallet_insertWallet hr
  have hinsert : DepositsMove v s ∧ s.owed = v.owed := by
    obtain ⟨t, ht, he⟩ | ⟨-, he⟩ := exec_insertWallet userId v
    · rw [he] at hr
      cases hr
      exact ⟨⟨.refl RowMove.refl _, fun _ => hasWallet_insert ht⟩, owed_insertWallet ht⟩
    · rw [he] at hr
      cases hr
      exact ⟨.refl v, rfl⟩
  refine ⟨hinsert.1, hinsert.2, fun u hu => ?_⟩
  rw [← hu] at hwallet
  refine owes_stmt fun v r s hv hr => ?_
  obtain ⟨rfl, rfl⟩ := exec_updateWallet hr
  obtain ⟨a, hau, hsel⟩ := (hv.wallets userId hwallet).select
  have hpay := owed_pay { balance := amount, totalDeposited := amount } hsel
  rw [hau, sub_eq_add_neg] at hpay
  refine ⟨⟨.refl RowMove.refl _, fun _ => hasWallet_update⟩, _, hpay, fun x _ => ?_⟩
  rw [Table.updated_eq_map, hsel, add_neg_cancel]
  exact ⟨rfl, _, rfl⟩

theorem owes_creditDeposit (now : Time) (depositId : Id) (extraMetadata : Metadata → Metadata) :
    Owes base i (creditDeposit now depositId extraMetadata) w 0 Released := by
  refine owes_select fun u => ?_
  split
  · rename_i current hcurrent
    obtain ⟨hmem, hcurrent⟩ := Table.mem_of_select_head hcurrent
    simp only [Bool.and_eq_true, beq_iff_eq] at hcurrent
    refine owes_stmt fun v rows s hv hr => ?_
    cases hr
    refine ⟨DepositsMove.update fun a _ ha => ?_, ?_⟩
    · rw [Bool.and_eq_true] at ha
      exact .of_creditable ha.2
    obtain hnil | ⟨r, hmemr, hid, hst, hone⟩ := select_claimable v.sminkTransactions depositId
    · -- another call has come first
      refine ⟨0, by rw [Table.update_eq_self hnil, add_zero], fun x _ => ?_⟩
      rw [Table.updated_eq_map, hnil, add_zero]
      exact rfl
    · -- the claimed row is the one that was read, so it is a deposit
      have htype : r.type = .deposit := by
        obtain ⟨d, hd, hmove⟩ := hv.rows.exists_later hmem
        obtain rfl : d = r := transaction_eq_of_id hd hmemr (by rw [hmove.id_eq, hcurrent.1.1, hid])
        rw [hmove.type_eq, hcurrent.1.2]
      refine ⟨_, owed_claim hone htype (ne_confirmed_of_creditable hst) rfl, fun x _ => ?_⟩
      rw [Table.updated_eq_map, hone, zero_add]
      refine safe_bind (p := creditWallet _ _) (Safe.mono (owes_creditWallet _ _) ?_)
      rintro wallet y _ ⟨rfl, a, rfl⟩
      refine owes_neutral fun v r s _ hr => ?_
      cases hr
      exact ⟨DepositsMove.update fun a _ _ => .stay _, owed_annotate _ rfl, fun _ _ => rfl⟩
  · exact rfl

/-- The guard of the flag and of the cancellation. -/
theorem pending_of_where {depositId : Id} {a : SminkTransaction}
    (h : (a.id == depositId && a.status == .pending) = true) : a.status = .pending := by
  rw [Bool.and_eq_true, beq_iff_eq, beq_iff_eq] at h
  exact h.2

theorem owes_flagDepositForReview (now : Time) (depositId : Id) (reasons : List String)
    (extraMetadata : Metadata → Metadata) :
    Owes base i (flagDepositForReview now depositId reasons extraMetadata) w 0 Released := by
  refine owes_select fun u => ?_
  split
  · rename_i current _
    split
    · exact rfl
    · refine owes_neutral fun v r s _ hr => ?_
      cases hr
      refine ⟨DepositsMove.update fun a _ ha => ?_, owed_unclaimed (fun a => pending_of_where) rfl (by simp),
        fun _ _ => rfl⟩
      rw [pending_of_where ha]
      exact .flag
  · exact rfl

theorem owes_progress (now : Time) (deposit : PendingDeposit) (tx : IncomingTx) :
    Owes base i (progress now deposit tx) w 0 Released := by
  unfold progress
  dsimp only
  split
  · exact rfl
  · refine owes_neutral fun v r s _ hr => ?_
    cases hr
    exact ⟨DepositsMove.update fun a _ _ => .stay _, owed_annotate _ rfl, fun _ _ => rfl⟩

theorem owes_cancelUnpaid (now : Time) (deposit : PendingDeposit) :
    Owes base i (cancelUnpaid now deposit) w 0 Released := by
  refine owes_neutral fun v r s _ hr => ?_
  cases hr
  refine ⟨DepositsMove.update fun a _ ha => ?_, owed_unclaimed (fun a => pending_of_where) rfl (by simp),
    fun _ _ => rfl⟩
  rw [pending_of_where ha]
  exact .cancel

/-- **At every program point, a call owes exactly what it has claimed and not paid yet.** -/
theorem owes_prog (i : DepositCall) (w : DepositWorld) : Owes base i i.prog w 0 Released :=
  StepsSafe.prog {
    reads := owes_readFree base
    creditDeposit := fun _ _ => owes_creditDeposit
    flagDepositForReview := fun _ _ => owes_flagDepositForReview
    progress := fun _ _ => owes_progress
    cancelUnpaid := fun _ _ => owes_cancelUnpaid } i w

/-! ## All interleavings -/

/-- A deposit of the user that is confirmed, and was not confirmed at the start. -/
def isNewlyConfirmed (start : Db) (userId : Id) (t : SminkTransaction) : Bool :=
  t.userId == userId && t.type == .deposit && t.status == .confirmed &&
    !start.sminkTransactions.rows.any fun a => a.id == t.id && a.status == .confirmed

/-- The sum of the user's deposits that have become confirmed since the start. -/
def Db.newlyConfirmed (db start : Db) (userId : Id) : Money :=
  ((db.sminkTransactions.select (isNewlyConfirmed start userId)).map SminkTransaction.amount).sum

/-- What the user's wallet says was deposited, zero without a wallet. -/
def Db.totalDeposited (db : Db) (userId : Id) : Money :=
  ((db.sminkWallets.select fun w => w.userId == userId).map SminkWallet.totalDeposited).sum

theorem totalDeposited_eq (db : Db) (userId : Id) :
    db.sminkWallets.total (depositedOf userId) = db.totalDeposited userId :=
  Table.total_eq_sum_select (fun _ hw => if_pos (by simpa using hw)) fun _ hw => if_neg (by simpa using hw)

theorem totalDeposited_of_mem {w : SminkWallet} (hw : w ∈ db.sminkWallets.rows) :
    db.totalDeposited w.userId = w.totalDeposited := by
  unfold Db.totalDeposited
  rw [select_wallet hw (by simp) fun a ha => by simpa using ha]
  simp

theorem sum_forall₂ {δ : Type} {f h : δ → Money} {e : δ → Money} : ∀ {l m : List δ},
    List.Forall₂ (fun a b => f b = e a + h b) l m → (m.map f).sum = (l.map e).sum + (m.map h).sum
  | _, _, .nil => by simp
  | _, _, .cons hab hlm => by
    simp only [List.map_cons, List.sum_cons, hab, sum_forall₂ hlm]
    ring

/-- What a deposit adds to the confirmed ones while it moves. -/
theorem RowMove.creditedOf {a b : SminkTransaction} (h : RowMove a b) (ha : a ∈ db.sminkTransactions.rows)
    (userId : Id) :
    Smink.creditedOf userId b = Smink.creditedOf userId a + if isNewlyConfirmed db userId b then b.amount else 0 := by
  have hany : (db.sminkTransactions.rows.any fun c => c.id == b.id && c.status == .confirmed) =
      decide (a.status = .confirmed) := by
    rw [Bool.eq_iff_iff, List.any_eq_true, decide_eq_true_iff]
    constructor
    · rintro ⟨c, hc, hca⟩
      simp only [Bool.and_eq_true, beq_iff_eq] at hca
      obtain rfl : c = a := transaction_eq_of_id hc ha (by rw [hca.1, h.id_eq])
      exact hca.2
    · exact fun hs => ⟨a, ha, by simp [h.id_eq, hs]⟩
  unfold isNewlyConfirmed Smink.creditedOf
  rw [hany, h.userId_eq, h.type_eq, h.amount_eq]
  by_cases hs : a.status = .confirmed
  · -- confirmed is final
    have hb : b.status = .confirmed := (hs ▸ h.status).of_confirmed
    simp [hs, hb]
  · simp [hs, and_assoc]

theorem total_creditedOf (h : DepositsMove db t) (userId : Id) :
    t.sminkTransactions.total (creditedOf userId) =
      db.sminkTransactions.total (creditedOf userId) + t.newlyConfirmed db userId := by
  have hnew : t.newlyConfirmed db userId =
      t.sminkTransactions.total fun b => if isNewlyConfirmed db userId b then b.amount else 0 :=
    (Table.total_eq_sum_select (fun _ hb => if_pos hb) fun _ hb => if_neg (by simp [hb])).symm
  rw [hnew]
  refine sum_forall₂ ?_
  have hrows := (List.forall₂_and_left _ _).2 ⟨fun a ha => ha, h.rows⟩
  exact hrows.imp fun a b hab => RowMove.creditedOf hab.2 hab.1 userId

/-- **A deposit is credited exactly once, or not at all.** From any point of a run to any later one its status only
moves as `StatusMove` says, and with no call in flight a wallet has been credited what has become confirmed. -/
theorem credited_exactly_once (db : Db) (ms ns : List (Move DepositCall Fault))
    (hok : ∀ m ∈ ms ++ ns, m.ok = true) (c d : Pool DepositCall Stmt.Resp Fault Unit Db)
    (hc : (Pool.init db).replay exec DepositCall.prog ms = some c) (hd : c.replay exec DepositCall.prog ns = some d) :
    List.Forall₂ RowMove c.store.sminkTransactions.rows d.store.sminkTransactions.rows ∧
      (d.Idle → ∀ w ∈ d.store.sminkWallets.rows,
        w.totalDeposited = db.totalDeposited w.userId + d.store.newlyConfirmed db w.userId) := by
  have hinv : PoolInv (creditDiscipline db.owed) exec (Pool.init db : Pool DepositCall Stmt.Resp Fault Unit Db) :=
    poolInv_init (by change db.owed = db.owed + 0; rw [add_zero])
  have hokc : ∀ m ∈ ms, m.ok = true := fun m hm => hok m (List.mem_append_left _ hm)
  have hokd : ∀ m ∈ ns, m.ok = true := fun m hm => hok m (List.mem_append_right _ hm)
  obtain ⟨hmc, hinvc⟩ := replay_safe owes_prog hc (okMoves_of_ok (fun _ _ _ => trivial) hokc) hinv
  obtain ⟨hmd, hinvd⟩ := replay_safe owes_prog hd (okMoves_of_ok (fun _ _ _ => trivial) hokd) hinvc
  refine ⟨DepositsMove.rows hmd, fun hidle w hw => ?_⟩
  have hend : d.store.owed = db.owed + 0 := idle_inv hinvd hidle
  have howed := congrFun hend w.userId
  have hmove : DepositsMove db d.store := (creditDiscipline db.owed).rely_trans hmc hmd
  have hgrown := total_creditedOf hmove w.userId
  simp only [Db.owed, add_zero] at howed
  rw [totalDeposited_eq, totalDeposited_eq, totalDeposited_of_mem hw] at howed
  linarith

/-- Two callers credit a deposit of $25 while a watcher cancels it. -/
def creditTwice : List (Move DepositCall Fault) :=
  [.start (.credit 1 "d1" id), .start (.credit 2 "d1" id),
    .start (.cancelUnpaid 3 (pendingDeposit (pendingDeposit25, { id := "u1", createdAt := 0 })))] ++
  [0, 1, 1, 0, 2, 1, 1, 1].map .stmt

/-- The wallet has $25 more, once. -/
theorem credited_exactly_once_creditTwice :
    ∃ c : Pool DepositCall Stmt.Resp Fault Unit Db,
      (Pool.init depositDb).replay exec DepositCall.prog creditTwice = some c ∧ c.Idle ∧
      c.store.sminkTransactions.rows.map SminkTransaction.status = [.confirmed] ∧
      ∀ w ∈ c.store.sminkWallets.rows,
        w.totalDeposited = depositDb.totalDeposited w.userId + c.store.newlyConfirmed depositDb w.userId := by
  have hrun : ((Pool.init depositDb).replay exec DepositCall.prog creditTwice).any
      (fun c : Pool DepositCall Stmt.Resp Fault Unit Db =>
        decide (c.Idle ∧ c.store.sminkTransactions.rows.map SminkTransaction.status = [.confirmed])) = true := by
    decide +kernel
  obtain ⟨c, hc, hidle⟩ := (Option.any_eq_true _ _).1 hrun
  rw [decide_eq_true_eq] at hidle
  refine ⟨c, hc, hidle.1, hidle.2, ?_⟩
  exact (credited_exactly_once depositDb [] creditTwice (by decide) (Pool.init depositDb) c rfl hc).2 hidle.1

end Smink
