import Smink.Play.Ledger

/-!
# The books: counters against bets

Each wallet and each session keeps running sums over the bets. The `gap` of a counter is the sum kept minus the sum over
the bets; `Books db g` says what every gap is, with the facts about bets that the settling statements rely on. The
lemmas here say by how much each statement moves the gaps, and what the statements of a settlement move together.
-/

namespace Smink

open Store

inductive Counter
  | wagered (userId : Id)
  | won (userId : Id)
  | locked (userId : Id)
  | staked (sessionId : Id)
  | sessionWon (sessionId : Id)

/-- What a wallet contributes to a counter. -/
def walletCounter : Counter → SminkWallet → Money
  | .wagered userId, w => if w.userId = userId then w.totalWagered else 0
  | .won userId, w => if w.userId = userId then w.totalWon else 0
  | .locked userId, w => if w.userId = userId then w.lockedBalance else 0
  | .staked _, _ => 0
  | .sessionWon _, _ => 0

def sessionCounter : Counter → GameSession → Money
  | .staked sessionId, s => if s.id = sessionId then s.totalStaked else 0
  | .sessionWon sessionId, s => if s.id = sessionId then s.totalWon else 0
  | .wagered _, _ => 0
  | .won _, _ => 0
  | .locked _, _ => 0

/-- What a bet contributes to the sum a counter stands for. -/
def betCounter : Counter → Bet → Money
  | .wagered userId, b => if b.userId = userId then b.stake else 0
  | .won userId, b => if b.userId = userId then b.payout else 0
  | .locked userId, b => if b.userId = userId ∧ b.status = .open then b.stake else 0
  | .staked sessionId, b => if b.sessionId = some sessionId then b.stake else 0
  | .sessionWon sessionId, b => if b.sessionId = some sessionId then b.payout else 0

/-- The sum a counter keeps, minus the sum it stands for. -/
def Db.gap (db : Db) (c : Counter) : Money :=
  db.sminkWallets.total (walletCounter c) + db.gameSessions.total (sessionCounter c) - db.bets.total (betCounter c)

/-- The gaps, and what settling a bet relies on. -/
structure Books (db : Db) (g : Counter → Money) : Prop where
  gap : ∀ c, db.gap c = g c
  unpaid : ∀ b ∈ db.bets.rows, b.status = .open → b.payout = 0
  staked : ∀ b ∈ db.bets.rows, 0 ≤ b.stake
  owned : ∀ b ∈ db.bets.rows, ∃ w ∈ db.sminkWallets.rows, w.userId = b.userId

def HasSession (db : Db) (sessionId : Id) : Prop := ∃ s ∈ db.gameSessions.rows, s.id = sessionId

/-! ## Rows by key -/

theorem select_session {t : Table GameSession} {sessionId : Id} {s : GameSession} (hs : s ∈ t.rows)
    (hid : s.id = sessionId) : t.select (fun s => s.id == sessionId) = [s] :=
  t.select_eq_of_key (k := ("id", sessionId)) hs (by simp [hid]) fun a _ ha => by
    simpa [Keyed.keys] using (beq_iff_eq.1 ha).symm

theorem select_bet {t : Table Bet} {b : Bet} (hb : b ∈ t.rows) : t.select (fun a => a.id == b.id) = [b] :=
  t.select_eq_of_key (k := ("id", b.id)) hb (by simp) fun a _ ha => by
    simp [Keyed.keys, beq_iff_eq.1 ha]

/-- The rows of a table after one of them is updated. -/
theorem mem_update_one {ρ π : Type} [Keyed ρ] [Settable ρ π] {t : Table ρ} {p : ρ → Bool} {set : π} {r a : ρ}
    (h : t.select p = [r]) (ha : a ∈ (t.update p set).rows) : a = Settable.apply set r ∨ a ∈ t.rows := by
  obtain ⟨b, hb, rfl⟩ := Table.mem_update.1 ha
  cases hp : p b with
  | true =>
    have hbr : b ∈ t.select p := Table.mem_select.2 ⟨hb, hp⟩
    rw [h, List.mem_singleton] at hbr
    exact .inl (by rw [Table.updateRow_pos hp, hbr])
  | false => exact .inr (by rw [Table.updateRow_neg hp]; exact hb)

/-! ## What the statements do to the books -/

namespace Books

variable {db : Db} {g : Counter → Money}

/-- Statements on other tables. -/
theorem of_eq {t : Db} (h : Books db g) (hw : t.sminkWallets = db.sminkWallets) (hs : t.gameSessions = db.gameSessions)
    (hb : t.bets = db.bets) : Books t g := by
  refine ⟨fun c => ?_, ?_, ?_, ?_⟩
  · rw [← h.gap c]
    unfold Db.gap
    rw [hw, hs, hb]
  · rw [hb]; exact h.unpaid
  · rw [hb]; exact h.staked
  · rw [hb, hw]; exact h.owned

theorem congr {g' : Counter → Money} (h : Books db g) (hg : ∀ c, g c = g' c) : Books db g' :=
  ⟨fun c => (h.gap c).trans (hg c), h.unpaid, h.staked, h.owned⟩

/-- One wallet is updated. -/
theorem updateWallet (h : Books db g) {p : SminkWallet → Bool} {w : SminkWallet} (set : WalletSet)
    (hsel : db.sminkWallets.select p = [w]) :
    Books { db with sminkWallets := db.sminkWallets.update p set } fun c =>
      g c + (walletCounter c (Settable.apply set w) - walletCounter c w) := by
  refine ⟨fun c => ?_, h.unpaid, h.staked, fun b hb => hasWallet_update (h.owned b hb)⟩
  rw [← h.gap c]
  unfold Db.gap
  rw [Table.total_update_one _ hsel]
  ring

/-- One session is updated. -/
theorem updateSession (h : Books db g) {p : GameSession → Bool} {s : GameSession} (set : SessionSet)
    (hsel : db.gameSessions.select p = [s]) :
    Books { db with gameSessions := db.gameSessions.update p set } fun c =>
      g c + (sessionCounter c (Settable.apply set s) - sessionCounter c s) := by
  refine ⟨fun c => ?_, h.unpaid, h.staked, h.owned⟩
  rw [← h.gap c]
  unfold Db.gap
  rw [Table.total_update_one _ hsel]
  ring

/-- Sessions are ended: no counter moves. -/
theorem endSessions (h : Books db g) (p : GameSession → Bool) (now : Time) :
    Books { db with gameSessions := db.gameSessions.update p { endedAt := some now } } g := by
  refine ⟨fun c => ?_, h.unpaid, h.staked, h.owned⟩
  rw [← h.gap c]
  unfold Db.gap
  rw [Table.total_update_of_eq]
  intro s _ _
  cases c <;> simp [sessionCounter, Settable.apply]

/-- One bet is updated. -/
theorem updateBet (h : Books db g) {p : Bet → Bool} {b : Bet} (set : BetSet) (hb : b ∈ db.bets.rows)
    (hsel : db.bets.select p = [b])
    (hpaid : (Settable.apply set b : Bet).status = .open → (Settable.apply set b : Bet).payout = 0) :
    Books { db with bets := db.bets.update p set } fun c =>
      g c - (betCounter c (Settable.apply set b) - betCounter c b) := by
  refine ⟨fun c => ?_, fun a ha => ?_, fun a ha => ?_, fun a ha => ?_⟩
  · rw [← h.gap c]
    unfold Db.gap
    rw [Table.total_update_one _ hsel]
    ring
  · rcases mem_update_one hsel ha with rfl | ha
    · exact hpaid
    · exact h.unpaid a ha
  · rcases mem_update_one hsel ha with rfl | ha
    · exact h.staked b hb
    · exact h.staked a ha
  · rcases mem_update_one hsel ha with rfl | ha
    · exact h.owned b hb
    · exact h.owned a ha

/-- A bet is inserted. -/
theorem insertBet (h : Books db g) {b : Bet} {t : Table Bet} (hins : db.bets.insert b = some t)
    (hpaid : b.status = .open → b.payout = 0) (hstake : 0 ≤ b.stake) (hown : HasWallet db b.userId) :
    Books { db with bets := t } fun c => g c - betCounter c b := by
  have hrows := Table.rows_insert hins
  refine ⟨fun c => ?_, fun a ha => ?_, fun a ha => ?_, fun a ha => ?_⟩
  · rw [← h.gap c]
    unfold Db.gap
    rw [Table.total_insert _ hins]
    ring
  all_goals
    rw [hrows, List.mem_append, List.mem_singleton] at ha
    rcases ha with ha | rfl
  · exact h.unpaid a ha
  · exact hpaid
  · exact h.staked a ha
  · exact hstake
  · exact h.owned a ha
  · exact hown

/-- An empty wallet is inserted. -/
theorem insertWallet (h : Books db g) {userId : Id} {t : Table SminkWallet}
    (hins : db.sminkWallets.insert { userId } = some t) : Books { db with sminkWallets := t } g := by
  refine ⟨fun c => ?_, h.unpaid, h.staked, fun b hb => hasWallet_insert hins (h.owned b hb)⟩
  rw [← h.gap c]
  unfold Db.gap
  rw [Table.total_insert _ hins]
  have hzero : walletCounter c { userId } = 0 := by cases c <;> simp [walletCounter]
  rw [hzero, add_zero]

end Books

/-! ## What the settling statements move -/

section Deltas

variable {db : Db}

theorem total_walletCounter {w : SminkWallet} (hw : w ∈ db.sminkWallets.rows) {c : Counter}
    (hz : ∀ a : SminkWallet, a.userId ≠ w.userId → walletCounter c a = 0) :
    db.sminkWallets.total (walletCounter c) = walletCounter c w :=
  Table.total_eq_of_key (k := ("user_id", w.userId)) (fun a ha => hz a fun he => ha (by simp [Keyed.keys, he])) hw
    (by simp [Keyed.keys])

theorem total_sessionCounter {s : GameSession} (hs : s ∈ db.gameSessions.rows) {c : Counter}
    (hz : ∀ a : GameSession, a.id ≠ s.id → sessionCounter c a = 0) :
    db.gameSessions.total (sessionCounter c) = sessionCounter c s :=
  Table.total_eq_of_key (k := ("id", s.id)) (fun a ha => hz a fun he => ha (by simp [Keyed.keys, he])) hs
    (by simp [Keyed.keys])

theorem total_zero {ρ : Type} [Keyed ρ] {t : Table ρ} {f : ρ → Money} (h : ∀ a, f a = 0) : t.total f = 0 := by
  unfold Table.total
  rw [List.map_congr_left fun a _ => h a]
  simp

/-- The stake of an open bet is part of what its owner has open. -/
theorem Books.stake_le_open {g : Counter → Money} (h : Books db g) {b : Bet} (hb : b ∈ db.bets.rows)
    (hs : b.status = .open) : b.stake ≤ db.bets.total (betCounter (.locked b.userId)) := by
  have hle : betCounter (.locked b.userId) b ≤ db.bets.total (betCounter (.locked b.userId)) := by
    refine List.single_le_sum (fun x hx => ?_) _ (List.mem_map_of_mem hb)
    obtain ⟨a, ha, rfl⟩ := List.mem_map.1 hx
    unfold betCounter
    dsimp only
    split
    · exact h.staked a ha
    · exact le_refl 0
  rwa [betCounter, if_pos ⟨rfl, hs⟩] at hle

/-- The stake of an open bet is locked in its owner's wallet. -/
theorem Books.stake_le_locked (h : Books db 0) {b : Bet} {w : SminkWallet} (hb : b ∈ db.bets.rows)
    (hs : b.status = .open) (hw : w ∈ db.sminkWallets.rows) (hu : w.userId = b.userId) :
    b.stake ≤ w.lockedBalance := by
  have hgap := h.gap (.locked w.userId)
  have hwallet : db.sminkWallets.total (walletCounter (.locked w.userId)) = w.lockedBalance :=
    (total_walletCounter (c := .locked w.userId) hw fun a ha => if_neg ha).trans (if_pos rfl)
  have hsession : db.gameSessions.total (sessionCounter (.locked w.userId)) = 0 := total_zero fun _ => rfl
  have hbets := h.stake_le_open hb hs
  rw [← hu] at hbets
  unfold Db.gap at hgap
  rw [hwallet, hsession, Pi.zero_apply] at hgap
  linarith

/-- What a settlement moves: `won` into the wallet, and the stake out of its locked balance. -/
def settleDelta (userId : Id) (stake won : Money) : Counter → Money
  | .won u => if userId = u then won else 0
  | .locked u => if userId = u then -stake else 0
  | _ => 0

theorem walletCounter_release {w : SminkWallet} {stake : Money} (hle : stake ≤ w.lockedBalance) (payout : Money)
    (c : Counter) :
    walletCounter c (Settable.apply (releaseSet stake payout) w) - walletCounter c w =
      settleDelta w.userId stake payout c := by
  have hmax : max (w.lockedBalance - stake) 0 = w.lockedBalance - stake := max_eq_left (sub_nonneg.2 hle)
  cases c with
  | locked u => simp only [walletCounter, Settable.apply, releaseSet, settleDelta, hmax]; split <;> ring
  | won u => simp only [walletCounter, Settable.apply, releaseSet, settleDelta]; split <;> ring
  | wagered u => simp [walletCounter, Settable.apply, releaseSet, settleDelta]
  | staked s => simp [walletCounter, settleDelta]
  | sessionWon s => simp [walletCounter, settleDelta]

/-- What `bumpSession` moves. -/
def bumpDelta (sessionId : Id) (staked won : Money) : Counter → Money
  | .staked s => if sessionId = s then staked else 0
  | .sessionWon s => if sessionId = s then won else 0
  | _ => 0

/-- What placing a bet moves in its owner's wallet. -/
def placeDelta (userId : Id) (stake lock won : Money) : Counter → Money
  | .wagered u => if userId = u then stake else 0
  | .locked u => if userId = u then lock else 0
  | .won u => if userId = u then won else 0
  | _ => 0

theorem walletCounter_place {set : WalletSet} (hset : set.release = none) (w : SminkWallet) (c : Counter) :
    walletCounter c (Settable.apply set w) - walletCounter c w =
      placeDelta w.userId set.totalWagered set.lock set.totalWon c := by
  cases c with
  | wagered u => simp only [walletCounter, Settable.apply, placeDelta]; split <;> ring
  | locked u => simp only [walletCounter, Settable.apply, placeDelta, hset]; split <;> ring
  | won u => simp only [walletCounter, Settable.apply, placeDelta]; split <;> ring
  | staked s => simp [walletCounter, placeDelta]
  | sessionWon s => simp [walletCounter, placeDelta]

/-- What a new bet adds to the sums over the bets. -/
theorem betCounter_new {b : Bet} {sessionId : Id} (hses : b.sessionId = some sessionId) (c : Counter) :
    betCounter c b = placeDelta b.userId b.stake (if b.status = .open then b.stake else 0) b.payout c +
      bumpDelta sessionId b.stake b.payout c := by
  cases c with
  | locked u => by_cases hu : b.userId = u <;> simp [betCounter, placeDelta, bumpDelta, hu]
  | staked s => simp [betCounter, placeDelta, bumpDelta, hses]
  | sessionWon s => simp [betCounter, placeDelta, bumpDelta, hses]
  | _ => simp [betCounter, placeDelta, bumpDelta]

/-- What closing an open bet moves in the sums over the bets. -/
theorem betCounter_close {b : Bet} {set : BetSet} {st : BetStatus} {payout : Money} {sessionId : Id}
    (hs : b.status = .open) (hp : b.payout = 0) (hses : b.sessionId = some sessionId)
    (hst : set.status = some st) (hne : st ≠ .open) (hpay : set.payout = some payout) (c : Counter) :
    betCounter c (Settable.apply set b) - betCounter c b =
      settleDelta b.userId b.stake payout c + bumpDelta sessionId 0 payout c := by
  cases c with
  | locked u =>
    by_cases hu : b.userId = u <;> simp [betCounter, Settable.apply, settleDelta, bumpDelta, hst, hs, hne, hu]
  | won u => by_cases hu : b.userId = u <;> simp [betCounter, Settable.apply, settleDelta, bumpDelta, hp, hpay, hu]
  | wagered u => simp [betCounter, Settable.apply, settleDelta, bumpDelta]
  | staked s => simp [betCounter, Settable.apply, settleDelta, bumpDelta]
  | sessionWon s =>
    by_cases hu : sessionId = s <;> simp [betCounter, Settable.apply, settleDelta, bumpDelta, hp, hpay, hses, hu]

theorem sessionCounter_bump {s : GameSession} (staked won : Money) (c : Counter) :
    sessionCounter c (Settable.apply (ρ := GameSession) { betCount := 1, totalStaked := staked, totalWon := won } s) -
      sessionCounter c s = bumpDelta s.id staked won c := by
  cases c with
  | staked id => simp only [sessionCounter, Settable.apply, bumpDelta]; split <;> ring
  | sessionWon id => simp only [sessionCounter, Settable.apply, bumpDelta]; split <;> ring
  | _ => simp [sessionCounter, bumpDelta]

end Deltas

end Smink
