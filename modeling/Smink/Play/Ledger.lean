import Smink.Play.Reads
import Mathlib.Algebra.Group.Pi.Lemmas

/-!
# The ledger against the balances

`Db.unexplained db u` is what user `u` has in the wallet beyond the confirmed rows of the ledger. `Accounts db x` says
that it is `x u`, with the facts about games, controls and bets that the calls rely on; the lemmas here say by how much
each statement moves it.
-/

namespace Smink

open Store

/-- What a wallet contributes to its owner's balance. -/
def balanceOf (userId : Id) (w : SminkWallet) : Money := if w.userId = userId then w.balance else 0

/-- What a ledger row contributes to its owner's confirmed sum. -/
def confirmedOf (userId : Id) (t : SminkTransaction) : Money :=
  if t.userId = userId ∧ t.status = .confirmed then t.amount else 0

/-- The balance minus the confirmed rows of the ledger. -/
def Db.unexplained (db : Db) (userId : Id) : Money :=
  db.sminkWallets.total (balanceOf userId) - db.sminkTransactions.total (confirmedOf userId)

def HasWallet (db : Db) (userId : Id) : Prop := ∃ w ∈ db.sminkWallets.rows, w.userId = userId

structure Accounts (db : Db) (x : Id → Money) : Prop where
  unexplained : db.unexplained = x
  games : ∀ game ∈ db.games.rows, game.houseEdge ≤ 1 ∧ 0 ≤ game.maxMultiplier
  caps : ∀ row ∈ db.userGameControl.rows, ∀ cap, row.maxWinMultiplier = some cap → 0 ≤ cap
  owners : ∀ bet ∈ db.bets.rows, bet.status = .open → HasWallet db bet.userId

/-! ## Wallets by owner -/

/-- The wallet of a user who has one. -/
theorem HasWallet.select {db : Db} {userId : Id} (h : HasWallet db userId) :
    ∃ w, w.userId = userId ∧ db.sminkWallets.select (fun a => a.userId == userId) = [w] := by
  obtain ⟨w, hw, hu⟩ := h
  exact ⟨w, hu, select_wallet hw (by simp [hu]) fun a ha => by rw [hu]; exact beq_iff_eq.1 ha⟩

/-- Updated wallets keep their owners. -/
theorem hasWallet_update {t : Table SminkWallet} {p : SminkWallet → Bool} {set : WalletSet} {userId : Id}
    (h : ∃ w ∈ t.rows, w.userId = userId) : ∃ w ∈ (t.update p set).rows, w.userId = userId := by
  obtain ⟨w, hw, hu⟩ := h
  refine ⟨_, Table.mem_update.2 ⟨w, hw, rfl⟩, ?_⟩
  unfold Table.updateRow
  split <;> exact hu

theorem hasWallet_insert {t t' : Table SminkWallet} {r : SminkWallet} {userId : Id} (h : t.insert r = some t')
    (hw : ∃ w ∈ t.rows, w.userId = userId) : ∃ w ∈ t'.rows, w.userId = userId := by
  obtain ⟨w, hw, hu⟩ := hw
  exact ⟨w, by rw [Table.rows_insert h]; exact List.mem_append_left _ hw, hu⟩

/-- After `ON CONFLICT DO NOTHING` the wallet is there. -/
theorem hasWallet_insertWallet {db t : Db} {userId : Id} {r : List SminkWallet}
    (h : exec (.insertWallet userId) db = .ok (r, t)) : HasWallet t userId := by
  obtain ⟨u, hu, he⟩ | ⟨hw, he⟩ := exec_insertWallet userId db
  · rw [he] at h
    cases h
    exact ⟨{ userId }, by rw [Table.rows_insert hu]; simp, rfl⟩
  · rw [he] at h
    cases h
    exact hw

/-! ## What the statements move -/

namespace Accounts

variable {db : Db} {x : Id → Money}

/-- A statement that leaves wallets, ledger, games, controls and bets alone. -/
theorem of_eq {t : Db} (h : Accounts db x) (hw : t.sminkWallets = db.sminkWallets)
    (ht : t.sminkTransactions = db.sminkTransactions) (hg : t.games = db.games)
    (hc : t.userGameControl = db.userGameControl) (hb : t.bets = db.bets) : Accounts t x := by
  refine ⟨?_, by rw [hg]; exact h.games, by rw [hc]; exact h.caps, ?_⟩
  · funext u
    rw [← h.unexplained, Db.unexplained, Db.unexplained, hw, ht]
  · unfold HasWallet
    rw [hb, hw]
    exact h.owners

theorem updateWallet (h : Accounts db x) {p : SminkWallet → Bool} {w : SminkWallet} (set : WalletSet)
    (hsel : db.sminkWallets.select p = [w]) :
    Accounts { db with sminkWallets := db.sminkWallets.update p set } (x + Pi.single w.userId set.balance) := by
  refine ⟨?_, h.games, h.caps, fun bet hb hs => hasWallet_update (h.owners bet hb hs)⟩
  funext u
  rw [Pi.add_apply, ← h.unexplained, Db.unexplained, Db.unexplained, Table.total_update_one _ hsel, Pi.single_apply]
  simp only [balanceOf, Settable.apply, eq_comm (a := u)]
  split <;> ring

/-- A wallet begins empty. -/
theorem insertWallet (h : Accounts db x) {userId : Id} {t : Table SminkWallet}
    (hins : db.sminkWallets.insert { userId } = some t) : Accounts { db with sminkWallets := t } x := by
  refine ⟨?_, h.games, h.caps, fun bet hb hs => hasWallet_insert hins (h.owners bet hb hs)⟩
  funext u
  rw [← h.unexplained, Db.unexplained, Db.unexplained, Table.total_insert _ hins]
  simp [balanceOf]

theorem insertTransactions (h : Accounts db x) {rs : List SminkTransaction} {t : Table SminkTransaction}
    (hins : db.sminkTransactions.insertAll rs = some t) {userId : Id} {amount : Money}
    (hrs : ∀ u, (rs.map (confirmedOf u)).sum = (Pi.single userId amount : Id → Money) u) :
    Accounts { db with sminkTransactions := t } (x - Pi.single userId amount) := by
  refine ⟨?_, h.games, h.caps, h.owners⟩
  funext u
  rw [Pi.sub_apply, ← h.unexplained, Db.unexplained, Db.unexplained, Table.total_insertAll _ hins, hrs u]
  ring

/-- A ledger row that is not confirmed becomes it. -/
theorem claim (h : Accounts db x) {p : SminkTransaction → Bool} {r : SminkTransaction} {set : TransactionSet}
    (hsel : db.sminkTransactions.select p = [r]) (hr : r.status ≠ .confirmed) (hset : set.status = some .confirmed) :
    Accounts { db with sminkTransactions := db.sminkTransactions.update p set } (x - Pi.single r.userId r.amount) := by
  refine ⟨?_, h.games, h.caps, h.owners⟩
  funext u
  rw [Pi.sub_apply, ← h.unexplained, Db.unexplained, Db.unexplained, Table.total_update_one _ hsel, Pi.single_apply]
  simp only [confirmedOf, Settable.apply, hset, hr, eq_comm (a := u), Option.getD_some, and_true, and_false, if_false,
    sub_zero]
  ring

/-- Ledger rows keep their status. -/
theorem annotate (h : Accounts db x) (p : SminkTransaction → Bool) {set : TransactionSet} (hset : set.status = none) :
    Accounts { db with sminkTransactions := db.sminkTransactions.update p set } x := by
  refine ⟨?_, h.games, h.caps, h.owners⟩
  funext u
  rw [← h.unexplained, Db.unexplained, Db.unexplained, Table.total_update_of_eq]
  intro r _ _
  simp [confirmedOf, Settable.apply, hset]

theorem insertBet (h : Accounts db x) {bet : Bet} {t : Table Bet} (hins : db.bets.insert bet = some t)
    (hown : HasWallet db bet.userId) : Accounts { db with bets := t } x := by
  refine ⟨h.unexplained, h.games, h.caps, fun b hb hs => ?_⟩
  rw [Table.rows_insert hins, List.mem_append, List.mem_singleton] at hb
  rcases hb with hb | rfl
  · exact h.owners b hb hs
  · exact hown

theorem updateBet (h : Accounts db x) (p : Bet → Bool) {set : BetSet} (hset : set.status ≠ some .open) :
    Accounts { db with bets := db.bets.update p set } x := by
  refine ⟨h.unexplained, h.games, h.caps, fun b hb hs => ?_⟩
  obtain ⟨a, ha, rfl⟩ := Table.mem_update.1 hb
  cases hp : p a with
  | false =>
    rw [Table.updateRow_neg hp] at hs ⊢
    exact h.owners a ha hs
  | true =>
    rw [Table.updateRow_pos hp] at hs ⊢
    exact h.owners a ha (open_of_apply hset hs)

theorem updateControl (h : Accounts db x) (p : UserGameControl → Bool) (set : ControlSet) :
    Accounts { db with userGameControl := db.userGameControl.update p set } x := by
  refine ⟨h.unexplained, h.games, fun row hrow cap hcap => ?_, h.owners⟩
  obtain ⟨a, ha, rfl⟩ := Table.mem_update.1 hrow
  refine h.caps a ha cap ?_
  unfold Table.updateRow at hcap
  split at hcap <;> exact hcap

end Accounts

end Smink
