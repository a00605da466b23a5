import Smink.Deposits.Credit
import Smink.Play.Effects
import Smink.Play.Explained

/-!
# What moves a balance

A balance is a sum over the wallets. Reading and opening wallets leave every balance alone, a debit goes through only
where the balance covers the stake, and a deposit that is credited adds its amount to its owner's.
-/

namespace Smink

open Store

variable {db t : Db}

theorem balance_eq_total (db : Db) (userId : Id) : db.balance userId = db.sminkWallets.total (balanceOf userId) :=
  (Table.total_eq_sum_select (fun w hw => if_pos (by simpa using hw)) fun w hw => if_neg (by simpa using hw)).symm

theorem exec_onWallets_balance {q : Stmt} (hq : q.onWallets = true) {r : q.Resp} (h : exec q db = .ok (r, t)) :
    t.balance = db.balance := by
  funext userId
  cases q with
  | insertWallet owner =>
    obtain ⟨u, hu, he⟩ | ⟨-, he⟩ := exec_insertWallet owner db
    · rw [he] at h
      cases h
      rw [balance_eq_total, balance_eq_total, Table.total_insert _ hu]
      simp [balanceOf]
    · rw [he] at h
      cases h
      rfl
  | _ => first
    | (cases h; rfl)
    | cases hq

theorem ends_requireWallet_balance (userId : Id) (db : Db) :
    Prog.Ends exec (requireWallet userId) db fun _ t => t.bets = db.bets ∧ t.balance = db.balance := by
  have hbets : Prog.Ends exec (requireWallet userId) db fun _ t => t.bets = db.bets :=
    (ends_onWallets (onWallets_requireWallet userId) db).mono fun _ t ht => by rw [ht]
  have hbalance : Prog.Ends exec (requireWallet userId) db fun _ t => t.balance = db.balance :=
    (onWallets_requireWallet userId).ends_keeps (J := fun t => t.balance = db.balance)
      (fun _ hq _ _ _ ht hr => (exec_onWallets_balance hq hr).trans ht) rfl
  exact ⟨hbets, hbalance⟩

/-- A debit that finds a wallet has found one that holds the stake. -/
theorem covered_of_debited {stake : Money} {set : WalletSet} {w : SminkWallet}
    (h : (db.sminkWallets.updated (canPay userId stake) set).head? = some w) : stake ≤ db.balance userId := by
  rw [Table.updated_eq_map, List.head?_map] at h
  obtain ⟨a, ha, -⟩ := Option.map_eq_some_iff.1 h
  obtain ⟨hmem, hpay⟩ := Table.mem_of_select_head ha
  simp only [canPay, Bool.and_eq_true, beq_iff_eq, decide_eq_true_eq] at hpay
  have hselect : db.sminkWallets.select (fun a => a.userId == userId) = [a] :=
    select_wallet hmem (by simp [hpay.1]) fun a' ha' => by rw [hpay.1]; exact beq_iff_eq.1 ha'
  rw [Db.balance, hselect]
  simpa using hpay.2

theorem ends_creditWallet (userId : Id) (amount : Money) (db : Db) :
    Prog.Ends exec (creditWallet userId amount) db fun r t =>
      t.bets = db.bets ∧ t.balance = db.balance + Pi.single userId amount ∧ ∃ w, r = .ok (some w) := by
  unfold creditWallet
  rw [perform_bind]
  refine Prog.ends_stmt (fun _ u hu => ?_) fun _ he => ?_
  · have hbalance := exec_onWallets_balance rfl hu
    have hbets : u.bets = db.bets := exec_sparesBets rfl hu
    obtain ⟨w, hw, hselect⟩ := (hasWallet_insertWallet hu).select
    rw [ask_bind]
    refine Prog.ends_stmt (fun rows v hv => ?_) fun _ he => by cases he
    cases hv
    refine ⟨hbets, ?_, Settable.apply ({ balance := amount, totalDeposited := amount } : WalletSet) w, ?_⟩
    · funext owner
      rw [balance_eq_total]
      show Table.total _ (u.sminkWallets.update _ ({ balance := amount, totalDeposited := amount } : WalletSet)) = _
      rw [Table.total_update_one _ hselect, ← balance_eq_total, hbalance, Pi.add_apply, Pi.single_apply]
      simp only [balanceOf, Settable.apply, hw, eq_comm (a := owner)]
      split <;> ring
    · show Except.ok (List.head? _) = _
      rw [Table.updated_eq_map, hselect]
      rfl
  · obtain ⟨_, _, h⟩ | ⟨-, h⟩ := exec_insertWallet userId db <;> rw [h] at he <;> cases he

/-- A credit that goes through, and only such a one, adds the amount of the deposit to its owner's balance. -/
theorem ends_creditDeposit (now : Time) (depositId : Id) (extraMetadata : Metadata → Metadata) (db : Db) :
    Prog.Ends exec (creditDeposit now depositId extraMetadata) db fun a t =>
      t.bets = db.bets ∧ (a = .ok none ∧ t.balance = db.balance ∨
        ∃ row, a = .ok (some row) ∧ ∃ r ∈ db.sminkTransactions.rows, r.id = depositId ∧ r.type = .deposit ∧
          t.balance = db.balance + Pi.single r.userId r.amount) := by
  unfold creditDeposit
  rw [ask_bind]
  refine Prog.ends_stmt (fun rows u hu => ?_) fun _ he => by cases he
  cases hu
  split
  · rename_i current hcurrent
    obtain ⟨hmem, hpick⟩ := Table.mem_of_select_head hcurrent
    simp only [Bool.and_eq_true, beq_iff_eq] at hpick
    rw [ask_bind]
    refine Prog.ends_stmt (fun claimedRows u hu => ?_) fun _ he => by cases he
    cases hu
    split
    · rename_i claimed hclaimed
      rw [Table.updated_eq_map, List.head?_map] at hclaimed
      obtain ⟨a, ha, rfl⟩ := Option.map_eq_some_iff.1 hclaimed
      obtain ⟨hamem, hapick⟩ := Table.mem_of_select_head ha
      simp only [Bool.and_eq_true, beq_iff_eq] at hapick
      obtain rfl : current = a := transaction_eq_of_id hmem hamem (hpick.1.1.trans hapick.1.symm)
      refine Prog.ends_bind ((ends_creditWallet _ _ _).mono fun r u ⟨hbets, hbalance, w, hr⟩ => ?_)
      subst hr
      exact ⟨hbets, .inr ⟨_, rfl, current, hmem, hpick.1.1, hpick.1.2, hbalance⟩⟩
    · exact ⟨rfl, .inl ⟨rfl, rfl⟩⟩
  · exact ⟨rfl, .inl ⟨rfl, rfl⟩⟩

end Smink
