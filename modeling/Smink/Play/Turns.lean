import Smink.Play.Counters
import Smink.Play.Serial
import Smink.Play.Shown

/-!
# What taking turns restores

Requests of one player that overlap can open two rounds, settle one twice and leave its counters wrong. Where the calls
of each player take turns none of this happens, whatever the other players do in between: with no call in flight the
counters are the sums over the bets, each grid round stands as its status says, and no player has two open rounds at one
game (`turns_keep_rounds`).
-/

namespace Smink

open Store

/-- The invariants of requests that are answered one after another. -/
structure Sound (db : Db) : Prop where
  books : Balanced db
  grid : GridInv db
  alone : RoundsAlone db

section Turns

variable {db t : Db}

/-! ## Databases with the same rows -/

theorem total_of_perm {ρ : Type} [Keyed ρ] {a b : Table ρ} (f : ρ → Money) (h : a.rows.Perm b.rows) :
    a.total f = b.total f :=
  (h.map f).sum_eq

theorem Sound.of_sameRows (h : Sound t) (hsame : SameRows db t) : Sound db where
  books := by
    have hbets : ∀ b, b ∈ db.bets.rows ↔ b ∈ t.bets.rows := fun b => hsame.bets.mem_iff.symm
    refine ⟨fun c => ?_, fun b hb => ?_, fun b hb => ?_, fun b hb => ?_⟩
    · have hgap := h.books.gap c
      unfold Db.gap at hgap ⊢
      rw [← total_of_perm _ hsame.wallets, ← total_of_perm _ hsame.sessions, ← total_of_perm _ hsame.bets]
      exact hgap
    · exact h.books.unpaid b ((hbets b).1 hb)
    · exact h.books.staked b ((hbets b).1 hb)
    · obtain ⟨w, hw, howner⟩ := h.books.owned b ((hbets b).1 hb)
      exact ⟨w, hsame.wallets.mem_iff.1 hw, howner⟩
  grid := by
    refine ⟨fun b hb => ?_, fun b hb => ?_⟩
    · obtain ⟨s, hs, hseat⟩ := h.grid.seated b (hsame.bets.mem_iff.2 hb)
      exact ⟨s, hsame.sessions.mem_iff.1 hs, hseat⟩
    · obtain ⟨game, hgame, hid, hbet⟩ := h.grid.grid b (hsame.bets.mem_iff.2 hb)
      rw [hsame.games] at hgame
      exact ⟨game, hgame, hid, hbet⟩
  alone a ha b hb := h.alone a (hsame.bets.mem_iff.2 ha) b (hsame.bets.mem_iff.2 hb)

/-! ## A credited deposit -/

/-- No counter of a wallet moves. -/
theorem Books.creditWallet {g : Counter → Money} (h : Books db g) (p : SminkWallet → Bool) {set : WalletSet}
    (hset : set.lock = 0 ∧ set.release = none ∧ set.totalWagered = 0 ∧ set.totalWon = 0) :
    Books { db with sminkWallets := db.sminkWallets.update p set } g := by
  obtain ⟨hlock, hrelease, hwagered, hwon⟩ := hset
  refine ⟨fun c => ?_, h.unpaid, h.staked, fun b hb => hasWallet_update (h.owned b hb)⟩
  rw [← h.gap c]
  unfold Db.gap
  rw [Table.total_update_of_eq]
  intro w _ _
  cases c <;> simp [walletCounter, Settable.apply, hlock, hrelease, hwagered, hwon]

theorem Sound.exec_onDeposit {q : Stmt} (hq : q.onDeposit = true) {r : q.Resp} (h : Sound db)
    (hr : exec q db = .ok (r, t)) : Sound t := by
  cases q with
  | updateTransaction p set =>
    cases hr
    exact ⟨h.books.of_eq rfl rfl rfl, ⟨h.grid.seated, h.grid.grid⟩, h.alone⟩
  | updateWallet p set =>
    cases hr
    exact ⟨h.books.creditWallet p (of_decide_eq_true hq), ⟨h.grid.seated, h.grid.grid⟩, h.alone⟩
  | insertWallet id =>
    obtain ⟨u, hu, he⟩ | ⟨-, he⟩ := exec_insertWallet id db
    · rw [he] at hr
      cases hr
      exact ⟨h.books.insertWallet hu, ⟨h.grid.seated, h.grid.grid⟩, h.alone⟩
    · rw [he] at hr
      cases hr
      exact h
  | _ =>
    first
      | (cases hr; exact h)
      | cases hq

/-! ## Calls that run alone -/

theorem Sound.serve (h : Sound db) {D : Digest} {fresh : Fresh} {request : Request}
    (hc : (serve D fresh request).Completes exec db) : Sound ((serve D fresh request).run exec db).2 where
  books := (keepsBooks_serve h.books D fresh request).run hc
  grid := (gridInv_serve h.grid D fresh request).1
  alone := h.alone.effect (ends_serve D fresh request db)

/-- A call that answers in its own words has run the same statements. -/
theorem completes_of_map {α β : Type} {p : Sql α} {f : α → β} (h : (p >>= fun a => Prog.ret (f a)).Completes exec db) :
    p.Completes exec db := by
  induction p generalizing db with
  | ret a => trivial
  | throw e => trivial
  | stmt q k ih =>
    obtain ⟨r, s, hq, hk⟩ := h
    exact ⟨r, s, hq, ih r hk⟩

theorem Sound.prog (D : Digest) (i : Call) (h : Sound db) (hc : (i.prog D).Completes exec db) :
    Sound ((i.prog D).run exec db).2 := by
  cases i with
  | play fresh request =>
    have hrun : ((Call.play fresh request).prog D).run exec db = _ :=
      Prog.run_map Answer.play (Smink.serve D fresh request) db
    rw [hrun]
    exact h.serve (completes_of_map hc)
  | credit now depositId extraMetadata =>
    have hrun : ((Call.credit now depositId extraMetadata).prog D).run exec db = _ :=
      Prog.run_map Answer.credit (creditDeposit now depositId extraMetadata) db
    rw [hrun]
    exact (onDeposit_creditDeposit now depositId extraMetadata).ends_keeps
      (fun q hq s r s' hs hr => hs.exec_onDeposit hq hr) h

theorem Sound.of_none (hzero : ZeroCounters db) : Sound db where
  books := hzero.balanced
  grid := gridInv_of_none hzero.bets
  alone a ha := by
    rw [hzero.bets] at ha
    cases ha

end Turns

/-- **Taking turns keeps the rounds sound.** From a database without bets, in every interleaving in which the calls of
each player take turns and no statement fails, with no call in flight: the counters of the wallets and the totals of the
sessions are recomputable from the bets, every grid round stands as its status says, and no player has two open rounds
at one game. -/
theorem turns_keep_rounds (D : Digest) (holder : Id → Id) (db : Db) (hzero : ZeroCounters db) (hheld : Held holder db)
    (moves : List (Move Call Fault)) (c : Pool Call Stmt.Resp Fault Answer Db)
    (hc : (Pool.init db).replay exec (Call.prog D) moves = some c)
    (hapart : AllStartApart (Call.Lawful holder) (Call.Apart holder) exec (Call.prog D) (Pool.init db) moves)
    (hok : ∀ m ∈ moves, m.ok = true) (hidle : c.Idle) :
    Recomputable c.store ∧ GridInv c.store ∧ RoundsAlone c.store := by
  have hseated : BetsSeated db := by
    intro b hb
    rw [hzero.bets] at hb
    cases hb
  have hsound : Sound c.store := idle_keeps (P := services D holder)
    (fun s t hsame h => h.of_sameRows (LooksSame.sameRows hsame)) (fun i s h hcomplete => h.prog D i hcomplete)
    ⟨hseated, hheld⟩ (Sound.of_none hzero) hc hapart hok hidle
  exact ⟨hsound.books.recomputable, hsound.grid, hsound.alone⟩

/-- Both players have opened a round; one reveals a mine while the other reveals a safe tile. -/
def overlappingReveals : List (Move Call Fault) :=
  overlappingStarts ++ [.start (.play (freshAt 3) (.revealMines "u1" "s1" "MIN-1" (some 1))),
    .start (.play (freshAt 4) (.revealMines "u2" "s2" "MIN-2" (some 20))), .stmt 2, .stmt 3, .stmt 3, .stmt 2, .stmt 3,
    .stmt 2, .stmt 2]

/-- The ledger rows of the two players, reveals included. -/
def holderOfReveals (id : Id) : Id :=
  if id ∈ (freshAt 2).transactionIds ++ (freshAt 4).transactionIds then "u2" else "u1"

theorem turns_keep_rounds_overlappingReveals : ∃ c : Pool Call Stmt.Resp Fault Answer Db,
    (Pool.init twoPlayers).replay exec (Call.prog zeroDigest) overlappingReveals = some c ∧
      c.store.bets.rows.map Bet.status = [.lost, .open] ∧
        Recomputable c.store ∧ GridInv c.store ∧ RoundsAlone c.store := by
  have hrun : ((Pool.init twoPlayers).replay exec (Call.prog zeroDigest) overlappingReveals).any
      (fun c => decide (c.Idle ∧ c.store.bets.rows.map Bet.status = [.lost, .open])) = true := by
    decide +kernel
  obtain ⟨c, hc, hreached⟩ := (Option.any_eq_true _ _).1 hrun
  obtain ⟨hidle, hstatus⟩ := of_decide_eq_true hreached
  have hzero : ZeroCounters twoPlayers :=
    { bets := rfl
      wallets := by decide
      sessions := by decide }
  have hok : ∀ m ∈ overlappingReveals, m.ok = true := by decide
  exact ⟨c, hc, hstatus, turns_keep_rounds zeroDigest holderOfReveals twoPlayers hzero (by decide +kernel)
    overlappingReveals c hc (by decide +kernel) hok hidle⟩

end Smink
