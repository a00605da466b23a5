import Smink.Db.Seed
import Smink.Play.Reads
import Smink.Store.Schedule

/-!
# A round is settled once

Reveals and cash-outs of the same rounds, side by side. A call that settles a round reads the bet, updates the wallet
and then closes the bet; between the last two it holds a credit for the round. `roundDiscipline` counts both kinds of
updates in the log: there is one wallet update for each closing and each credit held, a round with a credit is open, and
a closed round stays closed. The check of the status keeps calls from settling a round again, but only where no other
call settles it between the check and the update of the wallet. This is the step condition (`MayUpdateWallet`), a
condition on the order of the statements; `settled_once` is about the runs that meet it, and `settled_twice` is one that
does not.
-/

namespace Smink

open Store

inductive RoundAction
  | revealMines (tile : Num)
  | cashOutMines
  | revealTowers (tile : Num)
  | cashOutTowers
  deriving DecidableEq

/-- A reveal or a cash-out of the round `betReference`. -/
structure RoundCall where
  fresh : Fresh
  userId : Id
  sessionId : Id
  betReference : String
  action : RoundAction
  deriving DecidableEq

def RoundCall.request (i : RoundCall) : Request :=
  match i.action with
  | .revealMines tile => .revealMines i.userId i.sessionId i.betReference tile
  | .cashOutMines => .cashOutMines i.userId i.sessionId i.betReference
  | .revealTowers tile => .revealTowers i.userId i.sessionId i.betReference tile
  | .cashOutTowers => .cashOutTowers i.userId i.sessionId i.betReference

def RoundCall.prog (D : Digest) (i : RoundCall) : Sql Response := serve D i.fresh i.request

/-! ## What the log says about a round -/

abbrev RoundWorld := World RoundCall Stmt Db

/-- The statement updates the wallet on behalf of the round. -/
def updatesWallet (betReference : String) : RoundCall × Stmt → Bool
  | (i, .updateWallet _ _) => i.betReference == betReference
  | _ => false

/-- It adds a payout to the balance. -/
def paysRound (betReference : String) : RoundCall × Stmt → Bool
  | (i, .updateWallet _ set) => i.betReference == betReference && decide (set.balance ≠ 0)
  | _ => false

/-- It subtracts the stake from the locked balance. -/
def releasesRound (betReference : String) : RoundCall × Stmt → Bool
  | (i, .updateWallet _ set) => i.betReference == betReference && set.release.isSome
  | _ => false

/-- It sets the status of the bet. -/
def closesRound (betReference : String) : RoundCall × Stmt → Bool
  | (i, .updateBet _ set) => i.betReference == betReference && set.status.isSome
  | _ => false

structure Rounds (w : RoundWorld) (g : String → ℕ) : Prop where
  credit : ∀ ref, w.log.countP (updatesWallet ref) = w.log.countP (closesRound ref) + g ref
  once : ∀ ref, w.log.countP (updatesWallet ref) ≤ 1
  closed : ∀ ref, 0 < w.log.countP (closesRound ref) → ∀ b ∈ w.store.bets.rows, b.reference = ref → b.status ≠ .open
  held : ∀ ref, 0 < g ref → ∀ b ∈ w.store.bets.rows, b.reference = ref → b.status = .open

/-- The call reads its bet. -/
def readsBet (i : RoundCall) : RoundCall × Stmt → Bool
  | (j, q) => decide (j = i) && q.selectsBet

/-- What calls do: the log grows, bets stay, a bet that is not open keeps its status, and any bet does until a call
closes its round. -/
structure Onward (w v : RoundWorld) : Prop where
  log : w.log <+: v.log
  bets : ∀ b ∈ w.store.bets.rows, ∃ b' ∈ v.store.bets.rows, b'.id = b.id ∧ b'.reference = b.reference ∧
    (b.status ≠ .open → b'.status = b.status) ∧
    (v.log.countP (closesRound b.reference) = w.log.countP (closesRound b.reference) → b'.status = b.status)

theorem Onward.refl (w : RoundWorld) : Onward w w :=
  ⟨List.prefix_rfl, fun b hb => ⟨b, hb, rfl, rfl, fun _ => rfl, fun _ => rfl⟩⟩

theorem Onward.trans {u v w : RoundWorld} (h₁ : Onward u v) (h₂ : Onward v w) : Onward u w := by
  refine ⟨h₁.log.trans h₂.log, fun b hb => ?_⟩
  obtain ⟨b', hb', hid', href', hst', hsame'⟩ := h₁.bets b hb
  obtain ⟨b'', hb'', hid'', href'', hst'', hsame''⟩ := h₂.bets b' hb'
  refine ⟨b'', hb'', hid''.trans hid', href''.trans href', fun hs => ?_, fun hcount => ?_⟩
  · rw [hst'' (by rw [hst' hs]; exact hs), hst' hs]
  · have hle₁ := h₁.log.sublist.countP_le (p := closesRound b.reference)
    have hle₂ := h₂.log.sublist.countP_le (p := closesRound b.reference)
    rw [hsame'' (by rw [href']; omega), hsame' (by omega)]

/-- The step condition, on the order of the statements: from the moment a call first reads its bet until it updates the
wallet, no call settles the round. When it read, every wallet update for the round had been followed by its closing, and
since then there has been neither. -/
def MayUpdateWallet (w : RoundWorld) (i : RoundCall) : Stmt → Prop
  | .updateWallet _ _ =>
    (beforeFirst (readsBet i) w.log).countP (updatesWallet i.betReference) =
        (beforeFirst (readsBet i) w.log).countP (closesRound i.betReference) ∧
      ∀ e ∈ sinceFirst (readsBet i) w.log, updatesWallet i.betReference e = false ∧
        closesRound i.betReference e = false
  | _ => True

instance (w : RoundWorld) (i : RoundCall) : ∀ q, Decidable (MayUpdateWallet w i q)
  | .updateWallet _ _ => inferInstanceAs (Decidable (_ = _ ∧ ∀ e ∈ _, _ ∧ _))
  | .selectGame _ | .selectExcluded _ | .selectSession _ | .selectSessionGame _ | .insertSession _
  | .updateSession _ _ | .selectWallet _ | .insertWallet _ | .selectTransaction _ | .selectTransactionUser _
  | .insertTransactions _ | .updateTransaction _ _ | .selectBet _ | .insertBet _ | .updateBet _ _
  | .selectControl _ | .updateControl _ _ => .isTrue trivial

def roundDiscipline : Discipline RoundCall Stmt Db (String → ℕ) where
  inv := Rounds
  rely := Onward
  rely_refl := .refl
  rely_trans h₁ h₂ := h₁.trans h₂
  ok := MayUpdateWallet

instance (w : RoundWorld) (i : RoundCall) (q : Stmt) : Decidable (roundDiscipline.ok w i q) :=
  inferInstanceAs (Decidable (MayUpdateWallet w i q))

variable {D : Digest} {i : RoundCall} {w : RoundWorld} {g : String → ℕ} {fresh : Fresh} {userId sessionId : Id}
  {α β : Type} {Q : α → RoundWorld → (String → ℕ) → Prop}

/-- The program keeps to the discipline, with the credits `g` at its start. -/
def Settles (i : RoundCall) (p : Sql α) (w : RoundWorld) (g : String → ℕ)
    (Q : α → RoundWorld → (String → ℕ) → Prop) : Prop :=
  Safe roundDiscipline exec i p w g Q

/-! ## One statement -/

/-- The statement leaves the counts and the status of every bet alone. -/
structure Quiet (q : Stmt) : Prop where
  wallet : ∀ i ref, updatesWallet ref (i, q) = false
  closes : ∀ i ref, closesRound ref (i, q) = false
  persist : ∀ v r s, exec q v = .ok (r, s) → ∀ b ∈ v.bets.rows, ∃ b' ∈ s.bets.rows,
    b'.id = b.id ∧ b'.reference = b.reference ∧ b'.status = b.status
  back : ∀ v r s, exec q v = .ok (r, s) → ∀ b' ∈ s.bets.rows, ∃ b ∈ v.bets.rows,
    b.reference = b'.reference ∧ b.status = b'.status

theorem Rounds.quiet {v : RoundWorld} {q : Stmt} {r : q.Resp} {s : Db} (h : Rounds v g) (hq : Quiet q)
    (hr : exec q v.store = .ok (r, s)) : Rounds (v.after i q s) g := by
  have hw : ∀ ref, (v.after i q s).log.countP (updatesWallet ref) = v.log.countP (updatesWallet ref) := fun ref => by
    rw [countP_after, hq.wallet i ref]
    rfl
  have hc : ∀ ref, (v.after i q s).log.countP (closesRound ref) = v.log.countP (closesRound ref) := fun ref => by
    rw [countP_after, hq.closes i ref]
    rfl
  refine ⟨fun ref => ?_, fun ref => ?_, fun ref hpos b' hb' href => ?_, fun ref hpos b' hb' href => ?_⟩
  · rw [hw, hc]
    exact h.credit ref
  · rw [hw]
    exact h.once ref
  · obtain ⟨b, hb, hbr, hbs⟩ := hq.back _ _ _ hr b' hb'
    rw [hc] at hpos
    rw [← hbs]
    exact h.closed ref hpos b hb (hbr.trans href)
  · obtain ⟨b, hb, hbr, hbs⟩ := hq.back _ _ _ hr b' hb'
    rw [← hbs]
    exact h.held ref hpos b hb (hbr.trans href)

theorem Quiet.onward {v : RoundWorld} {q : Stmt} {r : q.Resp} {s : Db} (hq : Quiet q)
    (hr : exec q v.store = .ok (r, s)) : Onward v (v.after i q s) := by
  refine ⟨List.prefix_append _ _, fun b hb => ?_⟩
  obtain ⟨b', hb', hid, href, hst⟩ := hq.persist _ _ _ hr b hb
  exact ⟨b', hb', hid, href, fun _ => hst, fun _ => hst⟩

theorem settles_quiet {q : Stmt} {k : q.Resp → Sql α} (hq : Quiet q)
    (hk : ∀ r u, Onward w u → Settles i (k r) u g Q) : Settles i (.stmt q k) w g Q := by
  intro v hv frame hi _ r s hr
  have hp : Onward v (v.after i q s) := hq.onward hr
  exact ⟨hp, g, hi.quiet hq hr, hk r _ (hv.trans hp)⟩

theorem quiet_of_isRead {q : Stmt} (h : q.isRead = true) : Quiet q := by
  refine ⟨fun i ref => ?_, fun i ref => ?_, fun v r s hr b hb => ?_, fun v r s hr b hb => ?_⟩
  · cases q <;> first | rfl | cases h
  · cases q <;> first | rfl | cases h
  · obtain rfl := readOnly.store_eq h hr
    exact ⟨b, hb, rfl, rfl, rfl⟩
  · obtain rfl := readOnly.store_eq h hr
    exact ⟨b, hb, rfl, rfl⟩

theorem round_readFree : ReadFree roundDiscipline Stmt.isRead := by
  intro v i q g hq h
  obtain ⟨r, hr⟩ := readOnly q hq v.store
  exact ⟨(quiet_of_isRead hq).onward hr, h.quiet (quiet_of_isRead hq) hr⟩

theorem quiet_insertTransactions (rs : List SminkTransaction) : Quiet (.insertTransactions rs) := by
  refine ⟨fun _ _ => rfl, fun _ _ => rfl, fun v r s hr b hb => ?_, fun v r s hr b hb => ?_⟩
  · obtain ⟨t, -, he⟩ := orThrow_ok hr
    cases he
    exact ⟨b, hb, rfl, rfl, rfl⟩
  · obtain ⟨t, -, he⟩ := orThrow_ok hr
    cases he
    exact ⟨b, hb, rfl, rfl⟩

theorem quiet_updateSession (p : GameSession → Bool) (set : SessionSet) : Quiet (.updateSession p set) := by
  refine ⟨fun _ _ => rfl, fun _ _ => rfl, fun v r s hr b hb => ?_, fun v r s hr b hb => ?_⟩
  · cases hr
    exact ⟨b, hb, rfl, rfl, rfl⟩
  · cases hr
    exact ⟨b, hb, rfl, rfl⟩

/-- An update of bets that sets no status. -/
theorem quiet_updateBet (p : Bet → Bool) {set : BetSet} (hset : set.status = none) : Quiet (.updateBet p set) := by
  have hrow : ∀ b : Bet, (Table.updateRow p set b).id = b.id ∧ (Table.updateRow p set b).reference = b.reference ∧
      (Table.updateRow p set b).status = b.status := fun b => by
    unfold Table.updateRow
    split <;> simp [Settable.apply, hset]
  refine ⟨fun _ _ => rfl, fun i ref => by simp [closesRound, hset], fun v r s hr b hb => ?_,
    fun v r s hr b' hb' => ?_⟩
  · cases hr
    obtain ⟨hid, href, hst⟩ := hrow b
    exact ⟨_, Table.mem_update.2 ⟨b, hb, rfl⟩, hid, href, hst⟩
  · cases hr
    obtain ⟨b, hb, rfl⟩ := Table.mem_update.1 hb'
    obtain ⟨-, href, hst⟩ := hrow b
    exact ⟨b, hb, href.symm, hst.symm⟩

/-! ## The two statements that settle -/

/-- The credit for a round. -/
def creditFor (betReference : String) : String → ℕ := fun ref => if betReference = ref then 1 else 0

/-- The bet as a call has read it: the round was open, so no call had closed it. -/
structure ReadOpen (u : RoundWorld) (i : RoundCall) (bet : Bet) : Prop where
  mem : bet ∈ u.store.bets.rows
  reference : bet.reference = i.betReference
  status : bet.status = .open
  logged : ∃ e ∈ u.log, readsBet i e = true
  unclosed : u.log.countP (closesRound i.betReference) = 0

/-- The call has read its bet, and the round was open then. -/
def SawOpen (w : RoundWorld) (i : RoundCall) (bet : Bet) : Prop := ∃ u, ReadOpen u i bet ∧ Onward u w

theorem SawOpen.onward {v : RoundWorld} {bet : Bet} (h : SawOpen w i bet) (hv : Onward w v) : SawOpen v i bet := by
  obtain ⟨u, hu, huw⟩ := h
  exact ⟨u, hu, huw.trans hv⟩

/-- Where the call may update the wallet, the round it has seen open is unsettled, and open still. -/
theorem SawOpen.unsettled {p : SminkWallet → Bool} {set : WalletSet} {bet : Bet} (h : SawOpen w i bet)
    (hok : MayUpdateWallet w i (.updateWallet p set)) :
    w.log.countP (updatesWallet i.betReference) = 0 ∧ w.log.countP (closesRound i.betReference) = 0 ∧
      ∃ b ∈ w.store.bets.rows, b.reference = i.betReference ∧ b.status = .open := by
  obtain ⟨u, hu, huw⟩ := h
  obtain ⟨hbefore, hsince⟩ := hok
  have hsplit := beforeFirst_append_sinceFirst (readsBet i) w.log
  -- what came before the first read came before this one
  have hclosed : (beforeFirst (readsBet i) w.log).countP (closesRound i.betReference) = 0 := by
    obtain ⟨post, hpost⟩ := huw.log
    rw [← hpost, beforeFirst_append hu.logged]
    have hle := (List.takeWhile_sublist (fun e => !readsBet i e) (l := u.log)).countP_le
      (p := closesRound i.betReference)
    rw [hu.unclosed] at hle
    exact Nat.le_zero.1 hle
  have count : ∀ f : RoundCall × Stmt → Bool, (beforeFirst (readsBet i) w.log).countP f = 0 →
      (∀ e ∈ sinceFirst (readsBet i) w.log, f e = false) → w.log.countP f = 0 := by
    intro f hb hs
    rw [← hsplit, List.countP_append, hb, zero_add, List.countP_eq_zero]
    exact fun e he => by simp [hs e he]
  have hcloses := count _ hclosed fun e he => (hsince e he).2
  refine ⟨count _ (hbefore.trans hclosed) fun e he => (hsince e he).1, hcloses, ?_⟩
  obtain ⟨b, hb, -, href, -, hsame⟩ := huw.bets bet hu.mem
  refine ⟨b, hb, href.trans hu.reference, ?_⟩
  rw [hsame (by rw [hu.reference, hcloses, hu.unclosed]), hu.status]

/-- A wallet update that meets the step condition, of a call that has seen its round open, takes the credit for it. -/
theorem Rounds.take {v : RoundWorld} {p : SminkWallet → Bool} {set : WalletSet} {s : Db} {bet : Bet} (h : Rounds v g)
    (hsaw : SawOpen v i bet) (hok : MayUpdateWallet v i (.updateWallet p set)) (hs : s.bets = v.store.bets) :
    Rounds (v.after i (.updateWallet p set) s) (creditFor i.betReference + g) := by
  obtain ⟨hwallet, hzero, b, hb, href, hopen⟩ := hsaw.unsettled hok
  have hw : ∀ ref, (v.after i (.updateWallet p set) s).log.countP (updatesWallet ref) =
      v.log.countP (updatesWallet ref) + creditFor i.betReference ref := fun ref => by
    rw [countP_after]
    simp [updatesWallet, creditFor]
  have hc : ∀ ref, (v.after i (.updateWallet p set) s).log.countP (closesRound ref) =
      v.log.countP (closesRound ref) := fun ref => by
    rw [countP_after]
    rfl
  have hbets : (v.after i (.updateWallet p set) s).store.bets = v.store.bets := hs
  refine ⟨fun ref => ?_, fun ref => ?_, fun ref hpos => ?_, fun ref hpos a ha hr => ?_⟩
  · rw [hw, hc, h.credit ref, Pi.add_apply]
    omega
  · rw [hw, creditFor]
    split
    · rename_i hr
      rw [← hr, hwallet]
    · exact h.once ref
  · rw [hc] at hpos
    rw [hbets]
    exact h.closed ref hpos
  · rw [hbets] at ha
    by_cases hi : i.betReference = ref
    · rw [bet_eq_of_reference ha hb (hr.trans (hi.symm.trans href.symm))]
      exact hopen
    · rw [Pi.add_apply, creditFor, if_neg hi, zero_add] at hpos
      exact h.held ref hpos a ha hr

/-- The bet is in the store, and it is the call's round. -/
def Found (db : Db) (i : RoundCall) (bet : Bet) : Prop :=
  ∃ b ∈ db.bets.rows, b.id = bet.id ∧ b.reference = i.betReference

theorem Found.persist {v : RoundWorld} {bet : Bet} (h : Found w.store i bet) (hv : Onward w v) :
    Found v.store i bet := by
  obtain ⟨b, hb, hid, href⟩ := h
  obtain ⟨b', hb', hid', href', -⟩ := hv.bets b hb
  exact ⟨b', hb', hid'.trans hid, href'.trans href⟩

section Close

variable {v : RoundWorld} {bet : Bet} {set : BetSet} {st : BetStatus}

/-- The rows of the bets table after one bet has been closed. -/
theorem mem_closed {a : Bet} (hset : set.status = some st)
    (ha : a ∈ (v.store.bets.update (fun b => b.id == bet.id) set).rows) :
    ∃ b ∈ v.store.bets.rows, a.id = b.id ∧ a.reference = b.reference ∧
      a.status = if b.id = bet.id then st else b.status := by
  obtain ⟨b, hb, rfl⟩ := Table.mem_update.1 ha
  refine ⟨b, hb, ?_⟩
  by_cases h : b.id = bet.id <;> simp [Table.updateRow, h, Settable.apply, hset]

/-- Closing the round uses the credit up. -/
theorem Rounds.close (h : Rounds v (creditFor i.betReference + g)) (hf : Found v.store i bet)
    (hset : set.status = some st) (hst : st ≠ .open) :
    Rounds (v.after i (.updateBet (fun b => b.id == bet.id) set)
      { v.store with bets := v.store.bets.update (fun b => b.id == bet.id) set }) g := by
  obtain ⟨b, hb, hid, href⟩ := hf
  have hw : ∀ ref s, (v.after i (.updateBet (fun b => b.id == bet.id) set) s).log.countP (updatesWallet ref) =
      v.log.countP (updatesWallet ref) := fun ref s => by
    rw [countP_after]
    rfl
  have hc : ∀ ref s, (v.after i (.updateBet (fun b => b.id == bet.id) set) s).log.countP (closesRound ref) =
      v.log.countP (closesRound ref) + creditFor i.betReference ref := fun ref s => by
    rw [countP_after]
    simp [closesRound, creditFor, hset]
  have hcredit := h.credit i.betReference
  have honce := h.once i.betReference
  rw [Pi.add_apply, creditFor, if_pos rfl] at hcredit
  refine ⟨fun ref => ?_, fun ref => ?_, fun ref hpos a ha hr => ?_, fun ref hpos a ha hr => ?_⟩
  · rw [hw, hc, h.credit ref, Pi.add_apply]
    omega
  · rw [hw]
    exact h.once ref
  · obtain ⟨a₀, ha₀, -, haref, hastatus⟩ := mem_closed hset ha
    rw [hastatus]
    by_cases hai : a₀.id = bet.id
    · rw [if_pos hai]
      exact hst
    · rw [if_neg hai]
      have hne : i.betReference ≠ ref := fun hi => hai
        (by rw [bet_eq_of_reference ha₀ hb (haref.symm.trans (hr.trans (hi.symm.trans href.symm))), hid])
      rw [hc, creditFor, if_neg hne, add_zero] at hpos
      exact h.closed ref hpos a₀ ha₀ (haref.symm.trans hr)
  · obtain ⟨a₀, ha₀, -, haref, hastatus⟩ := mem_closed hset ha
    have hne : i.betReference ≠ ref := by
      rintro rfl
      omega
    have hai : a₀.id ≠ bet.id := fun hai => hne
      (by rw [← href, ← bet_eq_of_id ha₀ hb (hai.trans hid.symm), ← haref, hr])
    rw [hastatus, if_neg hai]
    exact h.held ref (by rw [Pi.add_apply]; omega) a₀ ha₀ (haref.symm.trans hr)

/-- A round with a credit is open, so closing it changes no settled bet. -/
theorem Rounds.close_onward (h : Rounds v (creditFor i.betReference + g)) (hf : Found v.store i bet)
    (hset : set.status = some st) :
    Onward v (v.after i (.updateBet (fun b => b.id == bet.id) set)
      { v.store with bets := v.store.bets.update (fun b => b.id == bet.id) set }) := by
  refine ⟨List.prefix_append _ _, fun a ha => ?_⟩
  obtain ⟨b, hb, hid, href⟩ := hf
  refine ⟨_, Table.mem_update.2 ⟨a, ha, rfl⟩, ?_⟩
  by_cases hai : a.id = bet.id
  · obtain rfl := bet_eq_of_id ha hb (hai.trans hid.symm)
    have hopen : a.status = .open :=
      h.held _ (by rw [Pi.add_apply, creditFor, if_pos rfl]; omega) a ha href
    have hcounted : closesRound a.reference (i, .updateBet (fun b => b.id == bet.id) set) = true := by
      simp [closesRound, href, hset]
    rw [countP_after, if_pos hcounted]
    simp [Table.updateRow, hai, Settable.apply, hopen]
  · simp [Table.updateRow, hai]

end Close

theorem settles_updateWallet {p : SminkWallet → Bool} {set : WalletSet} {bet : Bet}
    {k : (Stmt.updateWallet p set).Resp → Sql α} (hsaw : SawOpen w i bet)
    (hk : ∀ r u, Onward w u → Settles i (k r) u (creditFor i.betReference) Q) :
    Settles i (.stmt (.updateWallet p set) k) w 0 Q := by
  intro v hv frame hi hok r s hr
  cases hr
  rw [zero_add] at hi
  have hquiet : Onward v (v.after i (.updateWallet p set) { v.store with
      sminkWallets := v.store.sminkWallets.update p set }) :=
    ⟨List.prefix_append _ _, fun b hb => ⟨b, hb, rfl, rfl, fun _ => rfl, fun _ => rfl⟩⟩
  exact ⟨hquiet, creditFor i.betReference, hi.take (hsaw.onward hv) hok rfl, hk _ _ (hv.trans hquiet)⟩

theorem settles_close {bet : Bet} {set : BetSet} {st : BetStatus} {f : Unit → Sql α} (hf : Found w.store i bet)
    (hset : set.status = some st) (hst : st ≠ .open) (hk : ∀ u, Settles i (f ()) u 0 Q) :
    Settles i (perform (.updateBet (fun b => b.id == bet.id) set) >>= f) w (creditFor i.betReference) Q := by
  intro v hv frame hi _ r s hr
  cases hr
  have hfv := hf.persist hv
  refine ⟨hi.close_onward hfv hset, 0, ?_, hk _⟩
  rw [zero_add]
  exact hi.close hfv hset hst

/-! ## The calls -/

theorem settles_oneRead {p : Sql α} {f : α → Sql β} {Q : β → RoundWorld → (String → ℕ) → Prop}
    (hp : OneRead Stmt.isRead p)
    (hf : ∀ v a, p.run exec v.store = (.ok a, v.store) → Settles i (f a) v 0 Q) : Settles i (p >>= f) w 0 Q :=
  safe_bind (safe_oneRead readOnly round_readFree hp fun v a _ _ _ hr => hf v a hr)

theorem settles_done {p : Sql α} {f : α → Sql β} {Q : β → RoundWorld → (String → ℕ) → Prop} (hp : p.done = true)
    (hf : ∀ a, Settles i (f a) w 0 Q) : Settles i (p >>= f) w 0 Q := by
  obtain ⟨a, rfl⟩ | ⟨e, rfl⟩ := Prog.done_cases hp
  · exact hf a
  · exact rfl

theorem SawOpen.found {bet : Bet} (h : SawOpen w i bet) : Found w.store i bet := by
  obtain ⟨u, hu, huw⟩ := h
  obtain ⟨b, hb, hid, href, -⟩ := huw.bets bet hu.mem
  exact ⟨b, hb, hid, href.trans hu.reference⟩

/-- The check of the status leaves its entry in the log, and no call has closed a round that it finds open. -/
theorem settles_findRound {betReference : String} {f : Bet → Sql β} {Q : β → RoundWorld → (String → ℕ) → Prop}
    (hi : i.betReference = betReference) (hf : ∀ v bet, SawOpen v i bet → Settles i (f bet) v 0 Q) :
    Settles i (findRound userId sessionId betReference >>= f) w 0 Q := by
  have hread : ReadOnly Stmt.selectsBet exec := fun q hq => readOnly q (isRead_of_selectsBet q hq)
  have hfree : ReadFree roundDiscipline Stmt.selectsBet := fun v j q g hq =>
    round_readFree v j q g (isRead_of_selectsBet q hq)
  refine safe_bind (safe_read hread hfree (selectsBet_findRound ..) fun v q bet _ hq _ hinv hr => ?_)
  have hbet := run_findRound hr
  have href : bet.reference = i.betReference := hbet.reference.trans hi.symm
  have hunclosed : (v.after i q v.store).log.countP (closesRound i.betReference) = 0 := by
    by_contra hpos
    exact hinv.closed _ (Nat.pos_of_ne_zero hpos) bet hbet.mem href hbet.status
  have hlogged : ∃ e ∈ (v.after i q v.store).log, readsBet i e = true :=
    ⟨(i, q), by simp [World.after], by simp [readsBet, hq]⟩
  exact hf _ bet ⟨v.after i q v.store, ⟨hbet.mem, href, hbet.status, hlogged, hunclosed⟩, .refl _⟩

theorem settles_settleLost {bet : Bet} (now : Time) (outcome : GameOutcome) (hsaw : SawOpen w i bet) :
    Settles i (settleLost now userId bet outcome) w 0 Released := by
  refine settles_updateWallet hsaw fun _ u hu => ?_
  exact settles_close (f := fun _ => .ret ()) (hsaw.found.persist hu) rfl (by decide) fun _ => rfl

theorem settles_payOut {bet : Bet} (slug : GameSlug) (betReference : String) (hsaw : SawOpen w i bet) :
    Settles i (payOut fresh slug userId sessionId betReference bet) w 0 Released := by
  refine settles_updateWallet hsaw fun _ u hu => ?_
  refine settles_close (hsaw.found.persist hu) rfl (by decide) fun u => ?_
  refine settles_quiet (quiet_insertTransactions _) fun _ u _ => ?_
  exact settles_quiet (quiet_updateSession _ _) fun _ u _ => rfl

theorem settles_recordReveal {bet : Bet} {multiplier : ℚ} {outcome : GameOutcome} {f : Unit → Sql α}
    (hk : ∀ u, Settles i (f ()) u 0 Q) : Settles i (recordReveal bet multiplier outcome >>= f) w 0 Q :=
  settles_quiet (quiet_updateBet _ rfl) fun _ u _ => hk u

theorem settles_cashOutMines {betReference : String} (hi : i.betReference = betReference) :
    Settles i (cashOutMines fresh userId sessionId betReference) w 0 Released := by
  refine settles_oneRead (oneRead_requireOpenSession ..) fun _ _ _ => ?_
  refine settles_findRound hi fun v bet hsaw => ?_
  split
  · exact rfl
  · exact safe_bind_released (settles_payOut _ _ hsaw) fun _ _ => rfl

theorem settles_cashOutTowers {betReference : String} (hi : i.betReference = betReference) :
    Settles i (cashOutTowers fresh userId sessionId betReference) w 0 Released := by
  refine settles_oneRead (oneRead_requireOpenSession ..) fun _ _ _ => ?_
  refine settles_findRound hi fun v bet hsaw => ?_
  split
  · exact rfl
  · refine safe_bind_released (settles_payOut _ _ hsaw) fun _ _ => ?_
    exact settles_done (done_orThrew _) fun _ => rfl

theorem settles_revealMines {betReference : String} (hi : i.betReference = betReference) (tile : Num) :
    Settles i (revealMines fresh userId sessionId betReference tile) w 0 Released := by
  unfold revealMines
  split
  · split
    · exact rfl
    refine settles_oneRead (oneRead_requireOpenSession ..) fun _ _ _ => ?_
    refine settles_findRound hi fun v bet hsaw => ?_
    dsimp only
    split
    · exact rfl
    split
    · exact safe_bind_released (settles_settleLost _ _ hsaw) fun _ _ => rfl
    · refine settles_recordReveal fun u => ?_
      split
      · exact settles_cashOutMines hi
      · exact rfl
  · exact rfl

theorem settles_revealTowers {betReference : String} (hi : i.betReference = betReference) (tile : Num) :
    Settles i (revealTowers fresh userId sessionId betReference tile) w 0 Released := by
  refine settles_oneRead (oneRead_requireOpenSession ..) fun _ _ _ => ?_
  refine settles_findRound hi fun v bet hsaw => ?_
  split
  · refine settles_done (done_orThrew _) fun difficulty => ?_
    dsimp only
    split
    · exact rfl
    split
    · exact rfl
    split
    · exact safe_bind_released (settles_settleLost _ _ hsaw) fun _ _ => rfl
    · refine settles_recordReveal fun u => ?_
      split
      · exact settles_cashOutTowers hi
      · exact rfl
  · exact rfl

/-- Every call takes a credit before it closes its round, and keeps none. -/
theorem settles_prog (D : Digest) (i : RoundCall) (w : RoundWorld) : Settles i (i.prog D) w 0 Released := by
  unfold RoundCall.prog RoundCall.request
  split
  · exact safe_bind_released (settles_revealMines rfl _) fun _ _ => rfl
  · exact safe_bind_released (settles_cashOutMines rfl) fun _ _ => rfl
  · exact safe_bind_released (settles_revealTowers rfl _) fun _ _ => rfl
  · exact safe_bind_released (settles_cashOutTowers rfl) fun _ _ => rfl

/-! ## All interleavings -/

/-- One payout, one release of the stake and one change of status at most. -/
structure SettledOnce (log : List (RoundCall × Stmt)) (betReference : String) : Prop where
  payouts : log.countP (paysRound betReference) ≤ 1
  releases : log.countP (releasesRound betReference) ≤ 1
  closings : log.countP (closesRound betReference) ≤ 1

theorem Rounds.settledOnce (h : Rounds w g) (betReference : String) : SettledOnce w.log betReference := by
  have hone := h.once betReference
  have hcredit := h.credit betReference
  have hle : ∀ f : RoundCall × Stmt → Bool, (∀ e, f e = true → updatesWallet betReference e = true) →
      w.log.countP f ≤ 1 := fun f hf => (List.countP_mono_left fun e _ => hf e).trans hone
  refine ⟨hle _ fun ⟨i, q⟩ hq => ?_, hle _ fun ⟨i, q⟩ hq => ?_, by omega⟩
  · cases q <;> simp only [paysRound, Bool.and_eq_true, Bool.false_eq_true] at hq
    exact hq.1
  · cases q <;> simp only [releasesRound, Bool.and_eq_true, Bool.false_eq_true] at hq
    exact hq.1

/-- **In a run in which no call settles a round between another call's check of it and that call's wallet update, every
round is settled at most once**, and a bet that has left `open` keeps its status from then on. -/
theorem settled_once (D : Digest) (db : Db) (before after : List (Move RoundCall Fault))
    (c d : Pool RoundCall Stmt.Resp Fault Response Db)
    (hc : (Pool.init db).replay exec (RoundCall.prog D) before = some c)
    (hd : c.replay exec (RoundCall.prog D) after = some d)
    (hok : OkMoves roundDiscipline exec (RoundCall.prog D)
      (Pool.init db : Pool RoundCall Stmt.Resp Fault Response Db) (before ++ after)) :
    (∀ betReference, SettledOnce d.log betReference) ∧
    ∀ b ∈ c.store.bets.rows, b.status ≠ .open →
      ∃ b' ∈ d.store.bets.rows, b'.id = b.id ∧ b'.status = b.status := by
  obtain ⟨hok₁, hok₂⟩ := okMoves_append hok hc
  have hinit : PoolInv roundDiscipline exec (Pool.init db : Pool RoundCall Stmt.Resp Fault Response Db) :=
    poolInv_init ⟨fun _ => rfl, fun _ => Nat.zero_le _, fun _ h => absurd h (lt_irrefl 0),
      fun _ h => absurd h (lt_irrefl 0)⟩
  obtain ⟨hrely, gs, -, hinv⟩ := replay_safe (settles_prog D) hd hok₂ (replay_safe (settles_prog D) hc hok₁ hinit).2
  refine ⟨hinv.settledOnce, fun b hb hs => ?_⟩
  obtain ⟨b', hb', hid, -, hst, -⟩ := hrely.bets b hb
  exact ⟨b', hb', hid, hst hs⟩

/-! ## Two cash-outs of one round -/

/-- A Mines round of $5 with one tile revealed, worth $5.55. -/
def revealedDb : Db :=
  let opened := ((serve zeroDigest (freshAt 1) (.startMines "u1" "s1" (some 5) (some 3))).run exec (tableDb .mines)).2
  ((serve zeroDigest (freshAt 2) (.revealMines "u1" "s1" "MIN-1" (some 20))).run exec opened).2

def cashOutAt (n : Nat) : RoundCall where
  fresh := freshAt n
  userId := "u1"
  sessionId := "s1"
  betReference := "MIN-1"
  action := .cashOutMines

/-- Both calls read that the round is open before either of them writes. -/
def bothCashOut : List (Move RoundCall Fault) :=
  [.start (cashOutAt 3), .start (cashOutAt 4)] ++ [0, 0, 1, 1, 0, 0, 0, 0, 1, 1, 1, 1].map .stmt

/-- The round is paid twice: $95 + 2 · $5.55. -/
theorem settled_twice :
    ∃ d, (Pool.init revealedDb).replay exec (RoundCall.prog zeroDigest) bothCashOut = some d ∧
      ¬ SettledOnce d.log "MIN-1" ∧ d.store.sminkWallets.rows.map SminkWallet.balance = [10610] := by
  have hrun : ((Pool.init revealedDb).replay exec (RoundCall.prog zeroDigest) bothCashOut).any (fun d =>
      decide (d.log.countP (paysRound "MIN-1") = 2 ∧ d.store.sminkWallets.rows.map SminkWallet.balance = [10610])) =
        true := by
    decide +kernel
  obtain ⟨d, hd, h⟩ := (Option.any_eq_true _ _).1 hrun
  rw [decide_eq_true_eq] at h
  exact ⟨d, hd, fun hs => absurd hs.payouts (by rw [h.1]; decide), h.2⟩

/-- The second call begins before the first one writes, and reads the bet after it. -/
def cashOutInTurn : List (Move RoundCall Fault) × List (Move RoundCall Fault) :=
  ([.start (cashOutAt 3), .start (cashOutAt 4)] ++ [0, 0, 1, 0, 0].map .stmt, [0, 0, 1].map .stmt)

theorem settled_once_in_turn :
    ∃ c d, (Pool.init revealedDb).replay exec (RoundCall.prog zeroDigest) cashOutInTurn.1 = some c ∧
      c.replay exec (RoundCall.prog zeroDigest) cashOutInTurn.2 = some d ∧
      (∀ betReference, SettledOnce d.log betReference) ∧
      ∀ b ∈ c.store.bets.rows, b.status ≠ .open → ∃ b' ∈ d.store.bets.rows, b'.id = b.id ∧ b'.status = b.status := by
  have hrun : ((Pool.init revealedDb).replay exec (RoundCall.prog zeroDigest) cashOutInTurn.1).any (fun c =>
      (c.replay exec (RoundCall.prog zeroDigest) cashOutInTurn.2).isSome) = true := by
    decide +kernel
  obtain ⟨c, hc, h⟩ := (Option.any_eq_true _ _).1 hrun
  obtain ⟨d, hd⟩ := Option.isSome_iff_exists.1 h
  exact ⟨c, d, hc, hd, settled_once zeroDigest revealedDb _ _ c d hc hd (by decide +kernel)⟩

end Smink
