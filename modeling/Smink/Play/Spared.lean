import Smink.Play.Separate
import Smink.Store.Embed

/-!
# Whose rows a call leaves alone

A call finds some rows by an id alone. Such an id was in a row that a check has found to be the caller's, and no
statement of any call gives a row to somebody else (`OwnersKept`), so what the call changes is the caller's even when
other calls, also of the same caller, come in between. `spared_serve` says so of a user who is watched: no request of
another user touches the watched rows, and none that only ends or reads sessions touches money.
-/

namespace Smink

open Store

/-! ## What is watched -/

/-- The rows of a user in a database; those of its sessions where `sessions` asks for them. -/
structure Watch where
  userId : Id
  db : Db
  sessions : Prop

/-- The watched rows are as they were. -/
structure Watch.Untouched (W : Watch) (t : Db) : Prop where
  sessions : W.sessions → t.gameSessions.owned W.userId = W.db.gameSessions.owned W.userId
  wallets : t.sminkWallets.owned W.userId = W.db.sminkWallets.owned W.userId
  transactions : t.sminkTransactions.owned W.userId = W.db.sminkTransactions.owned W.userId
  bets : t.bets.owned W.userId = W.db.bets.owned W.userId
  controls : t.userGameControl.owned W.userId = W.db.userGameControl.owned W.userId

/-- No row has gone to another owner. -/
structure OwnersKept (db t : Db) : Prop where
  sessions : db.gameSessions.Keeps t.gameSessions
  bets : db.bets.Keeps t.bets
  controls : db.userGameControl.Keeps t.userGameControl

/-- Ids that a call has read. -/
structure Known where
  sessions : Id → Prop := fun _ => False
  bets : Id → Prop := fun _ => False
  controls : Id → Prop := fun _ => False

/-- They are ids of rows of other users. -/
structure Known.Elsewhere (K : Known) (userId : Id) (db : Db) : Prop where
  sessions : ∀ id, K.sessions id → db.gameSessions.Elsewhere userId ("id", id)
  bets : ∀ id, K.bets id → db.bets.Elsewhere userId ("id", id)
  controls : ∀ id, K.controls id → db.userGameControl.Elsewhere userId ("id", id)

/-- The statement finds no watched row, when the known ids are of other users. -/
def Watch.Spares (W : Watch) (K : Known) : Stmt → Prop
  | .insertSession r => W.sessions → r.userId ≠ W.userId
  | .updateSession p _ => W.sessions → ∀ s, p s = true → s.userId ≠ W.userId ∨ K.sessions s.id
  | .insertWallet id => id ≠ W.userId
  | .updateWallet p _ => ∀ w, p w = true → w.userId ≠ W.userId
  | .insertTransactions rs => ∀ r ∈ rs, r.userId ≠ W.userId
  | .updateTransaction p _ => ∀ r ∈ W.db.sminkTransactions.owned W.userId, p r = false
  | .insertBet b => b.userId ≠ W.userId
  | .updateBet p _ => ∀ b, p b = true → b.userId ≠ W.userId ∨ K.bets b.id
  | .updateControl p _ => ∀ c, p c = true → c.userId ≠ W.userId ∨ K.controls c.id
  | _ => True

section Statements

variable {W : Watch} {K : Known} {db t u : Db}

theorem OwnersKept.refl (db : Db) : OwnersKept db db := ⟨.refl _, .refl _, .refl _⟩

theorem OwnersKept.trans (h : OwnersKept db t) (h' : OwnersKept t u) : OwnersKept db u :=
  ⟨h.sessions.trans h'.sessions, h.bets.trans h'.bets, h.controls.trans h'.controls⟩

theorem Known.Elsewhere.kept (h : K.Elsewhere W.userId db) (hk : OwnersKept db t) : K.Elsewhere W.userId t :=
  ⟨fun id hid => (h.sessions id hid).keeps hk.sessions, fun id hid => (h.bets id hid).keeps hk.bets,
    fun id hid => (h.controls id hid).keeps hk.controls⟩

theorem Known.Elsewhere.none : Known.Elsewhere {} W.userId db :=
  ⟨fun _ h => h.elim, fun _ h => h.elim, fun _ h => h.elim⟩

theorem exec_ownersKept {q : Stmt} {r : q.Resp} (h : exec q db = .ok (r, t)) : OwnersKept db t := by
  cases q with
  | insertSession s =>
    obtain ⟨v, hv, he⟩ := orThrow_ok h
    cases he
    exact ⟨Table.keeps_insert hv, .refl _, .refl _⟩
  | updateSession p set => cases h; exact ⟨Table.keeps_update, .refl _, .refl _⟩
  | insertBet b =>
    obtain ⟨v, hv, he⟩ := orThrow_ok h
    cases he
    exact ⟨.refl _, Table.keeps_insert hv, .refl _⟩
  | updateBet p set => cases h; exact ⟨.refl _, Table.keeps_update, .refl _⟩
  | updateControl p set => cases h; exact ⟨.refl _, .refl _, Table.keeps_update⟩
  | insertTransactions rs =>
    obtain ⟨v, -, he⟩ := orThrow_ok h
    cases he
    exact ⟨.refl _, .refl _, .refl _⟩
  | insertWallet id =>
    obtain ⟨v, -, he⟩ | ⟨-, he⟩ := exec_insertWallet id db
    · rw [he] at h
      cases h
      exact ⟨.refl _, .refl _, .refl _⟩
    · rw [he] at h
      cases h
      exact .refl _
  | _ => cases h; exact ⟨.refl _, .refl _, .refl _⟩

/-- A statement that spares the watched rows leaves them as they were. -/
theorem exec_untouched {q : Stmt} {r : q.Resp} (hq : W.Spares K q) (hK : K.Elsewhere W.userId db)
    (hdb : W.Untouched db) (h : exec q db = .ok (r, t)) : W.Untouched t := by
  have hkey : ∀ id : Id, ("id", id) ∈ [("id", id)] := fun id => List.mem_singleton_self _
  cases q with
  | insertSession s =>
    obtain ⟨v, hv, he⟩ := orThrow_ok h
    cases he
    exact { hdb with sessions := fun hs => (Table.owned_insert_of_ne hv (hq hs)).trans (hdb.sessions hs) }
  | updateSession p set =>
    cases h
    refine { hdb with sessions := fun hs => (Table.owned_update_of_spares fun s hs' hu => ?_).trans (hdb.sessions hs) }
    refine eq_false_of_ne_true fun hp => ?_
    rcases hq hs s hp with hne | hknown
    · exact hne hu
    · exact (hK.sessions _ hknown).owner_ne hs' (hkey s.id) hu
  | insertWallet id =>
    obtain ⟨v, hv, he⟩ | ⟨-, he⟩ := exec_insertWallet id db
    · rw [he] at h
      cases h
      exact { hdb with wallets := (Table.owned_insert_of_ne hv hq).trans hdb.wallets }
    · rw [he] at h
      cases h
      exact hdb
  | updateWallet p set =>
    cases h
    refine { hdb with wallets := (Table.owned_update_of_spares fun w _ hu => ?_).trans hdb.wallets }
    exact eq_false_of_ne_true fun hp => hq w hp hu
  | insertTransactions rs =>
    obtain ⟨v, hv, he⟩ := orThrow_ok h
    cases he
    exact { hdb with transactions := (Table.owned_insertAll_of_ne hv hq).trans hdb.transactions }
  | updateTransaction p set =>
    cases h
    refine { hdb with transactions := (Table.owned_update_of_spares fun r hr hu => ?_).trans hdb.transactions }
    refine hq r ?_
    rw [← hdb.transactions]
    exact List.mem_filter.2 ⟨hr, decide_eq_true hu⟩
  | insertBet b =>
    obtain ⟨v, hv, he⟩ := orThrow_ok h
    cases he
    exact { hdb with bets := (Table.owned_insert_of_ne hv hq).trans hdb.bets }
  | updateBet p set =>
    cases h
    refine { hdb with bets := (Table.owned_update_of_spares fun b hb hu => ?_).trans hdb.bets }
    refine eq_false_of_ne_true fun hp => ?_
    rcases hq b hp with hne | hknown
    · exact hne hu
    · exact (hK.bets _ hknown).owner_ne hb (by simp [Keyed.keys]) hu
  | updateControl p set =>
    cases h
    refine { hdb with controls := (Table.owned_update_of_spares fun c hc hu => ?_).trans hdb.controls }
    refine eq_false_of_ne_true fun hp => ?_
    rcases hq c hp with hne | hknown
    · exact hne hu
    · exact (hK.controls _ hknown).owner_ne hc (hkey c.id) hu
  | _ => cases h; exact hdb

end Statements

/-! ## Programs -/

/-- Nothing is held; that the watched rows are as they were is the invariant. -/
def watchDiscipline (W : Watch) : Discipline Call Stmt Db Unit where
  inv w _ := W.Untouched w.store
  rely w v := OwnersKept w.store v.store
  rely_refl w := .refl w.store
  rely_trans := .trans
  ok _ _ _ := True

section Programs

variable {W : Watch} {K : Known} {D : Digest} {i : Call} {w : World Call Stmt Db} {fresh : Fresh} {userId sessionId : Id}
  {α β : Type}

/-- Every statement that the program can execute leaves the watched rows alone. -/
def Spared (W : Watch) (i : Call) (p : Sql α) (w : World Call Stmt Db) : Prop :=
  Safe (watchDiscipline W) exec i p w 0 Released

/-- A program of statements that find no watched row. -/
theorem safe_spares {p : Sql α} (hK : K.Elsewhere W.userId w.store) (hp : p.Only (W.Spares K)) :
    Safe (watchDiscipline W) exec i p w 0 fun _ v g => K.Elsewhere W.userId v.store ∧ g = 0 := by
  have hstep : ∀ (v : World Call Stmt Db) (q : Stmt) (g : Unit) (r : q.Resp) (s : Db), W.Spares K q →
      (watchDiscipline W).rely w v → (watchDiscipline W).inv v g → exec q v.store = .ok (r, s) →
        (watchDiscipline W).rely v (v.after i q s) ∧ (watchDiscipline W).inv (v.after i q s) g :=
    fun v q g r s hq hv hinv hr => ⟨exec_ownersKept hr, exec_untouched hq (hK.kept hv) hinv hr⟩
  exact (safe_only hstep hp ((watchDiscipline W).rely_refl w)).mono fun _ _ _ h => ⟨hK.kept h.1, h.2⟩

theorem spared_rest {p : Sql α} (hK : K.Elsewhere W.userId w.store) (hp : p.Only (W.Spares K)) : Spared W i p w :=
  (safe_spares hK hp).mono fun _ _ _ h => h.2

/-- A part of a call, with what is known before and after it. -/
theorem spared_between {p : Sql α} {f : α → Sql β} (hK : K.Elsewhere W.userId w.store) (hp : p.Only (W.Spares K))
    (hf : ∀ a v, K.Elsewhere W.userId v.store → Spared W i (f a) v) : Spared W i (p >>= f) w := by
  refine safe_bind ((safe_spares hK hp).mono fun a v g h => ?_)
  obtain ⟨hv, rfl⟩ := h
  exact hf a v hv

theorem spared_answer {p : Sql α} {f : α → β} (hp : Spared W i p w) : Spared W i (p >>= fun a => Prog.ret (f a)) w :=
  safe_bind_released hp fun _ _ => rfl

theorem only_of_reads {P : Stmt → Bool} (hP : ∀ q, P q = true → W.Spares K q) {p : Sql α} (hp : Reads P p) :
    p.Only (W.Spares K) := by
  induction p with
  | ret a => trivial
  | throw e => trivial
  | stmt q k ih => exact ⟨hP q hp.1, fun r => ih r (hp.2 r)⟩

theorem spares_of_isRead {q : Stmt} (h : q.isRead = true) : W.Spares K q := by
  cases q <;> trivial

theorem only_isRead {p : Sql α} (hp : Reads Stmt.isRead p) : p.Only (W.Spares K) :=
  only_of_reads (fun _ => spares_of_isRead) hp

theorem only_done {p : Sql α} (hp : p.done = true) : p.Only (W.Spares K) := only_isRead (reads_of_done hp)

/-- A check, and what it has read. -/
theorem spared_check {p : Sql α} {f : α → Sql β} (hp : OneRead Stmt.isRead p)
    (hf : ∀ a v, OwnersKept w.store v.store → p.run exec v.store = (.ok a, v.store) → Spared W i (f a) v) :
    Spared W i (p >>= f) w := by
  have hfree : ReadFree (watchDiscipline W) Stmt.isRead := fun _ _ _ _ _ h => ⟨.refl _, h⟩
  exact safe_bind (safe_oneRead readOnly hfree hp fun v a _ hv _ hr => hf a v hv hr)

end Programs

/-! ## Calls of another user -/

section Others

variable {W : Watch} {K : Known} {D : Digest} {i : Call} {w : World Call Stmt Db} {fresh : Fresh} {userId sessionId : Id}
  {betReference : String} {α : Type}

theorem only_getOrCreate (hne : userId ≠ W.userId) : (getOrCreate userId).Only (W.Spares K) := by
  refine Prog.only_bind (p := ask _) ⟨trivial, fun _ => trivial⟩ fun existing => ?_
  split
  · trivial
  · refine Prog.only_bind (p := ask _) ⟨hne, fun _ => trivial⟩ fun created => ?_
    split
    · trivial
    · exact ⟨trivial, fun _ => trivial⟩

theorem only_requireWallet (hne : userId ≠ W.userId) : (requireWallet userId).Only (W.Spares K) := by
  refine Prog.only_bind (only_getOrCreate hne) fun wallet => ?_
  split
  · split_ifs <;> trivial
  · trivial

/-- The check of a session: it is the caller's. -/
theorem spared_requireOpenSession (hne : userId ≠ W.userId) {slug : GameSlug} {f : GameSession × Game → Sql α}
    (hf : ∀ a v, Known.Elsewhere { sessions := (· = sessionId) } W.userId v.store → Spared W i (f a) v) :
    Spared W i (requireOpenSession userId sessionId slug >>= f) w := by
  refine spared_check (oneRead_requireOpenSession ..) fun ⟨session, game⟩ v _ hr => hf _ v ?_
  have hopen := run_requireOpenSession hr
  refine ⟨fun id hid => ⟨session, hopen.session_mem, ?_, ?_⟩, fun _ h => h.elim, fun _ h => h.elim⟩
  · rw [show id = session.id from hid.trans hopen.session_id.symm]
    simp [Keyed.keys]
  · rw [show Owned.owner session = userId from hopen.session_user]
    exact hne

/-- The check that finds the round, in a session that is known. -/
theorem spared_findRound (hne : userId ≠ W.userId)
    (hK : Known.Elsewhere { sessions := (· = sessionId) } W.userId w.store) {f : Bet → Sql α}
    (hf : ∀ (bet : Bet) v,
      Known.Elsewhere { sessions := (· = sessionId), bets := (· = bet.id) } W.userId v.store → Spared W i (f bet) v) :
    Spared W i (findRound userId sessionId betReference >>= f) w := by
  refine spared_check (oneRead_findRound ..) fun bet v hv hr => hf bet v ?_
  have hround := run_findRound hr
  refine ⟨(hK.kept hv).sessions, fun id hid => ⟨bet, hround.mem, ?_, ?_⟩, fun _ h => h.elim⟩
  · rw [show id = bet.id from hid]
    simp [Keyed.keys]
  · rw [show Owned.owner bet = userId from hround.user]
    exact hne

/-- The row that decides the round is the caller's. -/
theorem spared_getControlRule (hne : userId ≠ W.userId) {gameId : Id}
    (hK : Known.Elsewhere { sessions := (· = sessionId) } W.userId w.store) {f : Option UserGameControl → Sql α}
    (hf : ∀ (row : Option UserGameControl) v,
      Known.Elsewhere { sessions := (· = sessionId), controls := fun id => ∃ c ∈ row, c.id = id } W.userId v.store →
        Spared W i (f row) v) :
    Spared W i (getControlRule userId gameId >>= f) w := by
  refine spared_check (oneRead_getControlRule ..) fun row v hv hr => hf row v ?_
  have hrow := run_controlRow hr
  refine ⟨(hK.kept hv).sessions, fun _ h => h.elim, fun id hid => ?_⟩
  obtain ⟨c, hc, rfl⟩ := hid
  have happlies : v.store.controlRow userId gameId = some c := hrow ▸ hc
  refine ⟨c, mem_of_controlRow happlies, by simp [Keyed.keys], ?_⟩
  rw [show Owned.owner c = userId from user_of_controlRow happlies]
  exact hne

theorem only_bumpSession (hK : K.sessions sessionId) (staked won : Money) :
    (bumpSession sessionId staked won).Only (W.Spares K) := by
  refine ⟨fun _ s hs => .inr ?_, fun _ => trivial⟩
  rw [beq_iff_eq.1 hs]
  exact hK

theorem only_consumeForcedRound {row : Option UserGameControl} (hK : ∀ c ∈ row, K.controls c.id) :
    (consumeForcedRound row).Only (W.Spares K) := by
  unfold consumeForcedRound
  split
  · trivial
  · split_ifs
    · trivial
    · trivial
    · refine ⟨fun c hc => .inr ?_, fun _ => trivial⟩
      rw [beq_iff_eq.1 hc]
      exact hK _ rfl

/-- A wallet that is found by its user. -/
theorem spares_updateWallet (hne : userId ≠ W.userId) {p : SminkWallet → Bool}
    (hp : ∀ w, p w = true → w.userId = userId) (set : WalletSet) : W.Spares K (.updateWallet p set) := by
  intro w hw
  rw [hp w hw]
  exact hne

theorem spares_ownWallet (hne : userId ≠ W.userId) (set : WalletSet) :
    W.Spares K (.updateWallet (fun w => w.userId == userId) set) :=
  spares_updateWallet hne (fun _ hw => beq_iff_eq.1 hw) set

theorem spares_updateBet {bet : Bet} (hK : K.bets bet.id) (set : BetSet) :
    W.Spares K (.updateBet (fun b => b.id == bet.id) set) := by
  intro b hb
  rw [beq_iff_eq.1 hb]
  exact .inr hK

theorem spares_stake (hne : userId ≠ W.userId) (slug : GameSlug) (betRef : String) (stake : Money) :
    W.Spares K (.insertTransactions [stakeTransaction fresh userId sessionId slug betRef stake]) := by
  intro r hr
  rw [List.mem_singleton.1 hr]
  exact hne

theorem spared_placeBet (hne : userId ≠ W.userId) (slug : GameSlug) (stakeInput : Num) (selectionInput : RawSelection) :
    Spared W i (placeBet D fresh userId sessionId slug stakeInput selectionInput) w := by
  unfold placeBet
  split
  · exact rfl
  refine spared_requireOpenSession hne fun ⟨_, game⟩ v hK => ?_
  refine spared_between hK (only_done (done_orInvalid _)) fun validated v hK => ?_
  refine spared_between hK (only_done (done_orFail _)) fun stake v hK => ?_
  refine spared_between hK (only_requireWallet hne) fun wallet v hK => ?_
  refine spared_between hK (only_isRead (oneRead_nextNonce _).reads) fun nonce v hK => ?_
  refine spared_getControlRule hne hK fun row v hK => ?_
  refine spared_between hK (only_done (done_orThrew _)) fun raw v hK => ?_
  refine spared_rest hK (Prog.only_bind (p := ask _)
    ⟨spares_updateWallet hne (fun _ => canPay_user) _, fun _ => trivial⟩ fun debited => ?_)
  split
  · refine Prog.only_bind (p := perform _) ⟨hne, fun _ => trivial⟩ fun _ => ?_
    refine Prog.only_bind (p := perform _) ⟨fun r hr => ?_, fun _ => trivial⟩ fun _ => ?_
    · unfold betTransactions at hr
      split at hr
      · simp only [List.mem_cons, List.not_mem_nil, or_false] at hr
        rcases hr with rfl | rfl <;> exact hne
      · rw [List.mem_singleton.1 hr]
        exact hne
    · refine Prog.only_bind (p := bumpSession _ _ _) (only_bumpSession rfl _ _) fun _ => ?_
      exact Prog.only_bind (only_consumeForcedRound fun c hc => ⟨c, hc, rfl⟩) fun _ => trivial
  · trivial

theorem spared_openRound (hne : userId ≠ W.userId) {Sel : Type} (G : GridGame Sel) (stakeInput : Num)
    (selectionInput : RawSelection) :
    Spared W i (openRound G D fresh userId sessionId stakeInput selectionInput) w := by
  refine spared_requireOpenSession hne fun ⟨_, game⟩ v hK => ?_
  refine spared_rest hK (Prog.only_bind (only_done (done_orInvalid _)) fun validated => ?_)
  refine Prog.only_bind (only_done (done_orFail _)) fun stake => ?_
  refine Prog.only_bind (p := ask _) ⟨trivial, fun _ => trivial⟩ fun opened => ?_
  split
  · trivial
  refine Prog.only_bind (only_requireWallet hne) fun wallet => ?_
  refine Prog.only_bind (only_isRead (oneRead_nextNonce _).reads) fun nonce => ?_
  refine Prog.only_bind (only_isRead (oneRead_getControlRule ..).reads) fun row => ?_
  refine Prog.only_bind (only_done (done_orThrew _)) fun selection => ?_
  refine Prog.only_bind (Prog.only_bind (p := ask _)
    ⟨spares_updateWallet hne (fun _ => canPay_user) _, fun _ => trivial⟩ fun debited => ?_) fun _ => ?_
  · split <;> trivial
  · refine Prog.only_bind (p := perform _) ⟨hne, fun _ => trivial⟩ fun _ => ?_
    refine Prog.only_bind (p := perform _) ⟨spares_stake hne _ _ _, fun _ => trivial⟩ fun _ => ?_
    exact Prog.only_bind (only_bumpSession rfl _ _) fun _ => trivial

theorem only_payOut (hne : userId ≠ W.userId) {bet : Bet} (hses : K.sessions sessionId) (hbet : K.bets bet.id)
    (slug : GameSlug) : (payOut fresh slug userId sessionId betReference bet).Only (W.Spares K) := by
  refine Prog.only_bind (p := ask _) ⟨spares_ownWallet hne _, fun _ => trivial⟩ fun wallets => ?_
  refine Prog.only_bind (p := perform _) ⟨spares_updateBet hbet _, fun _ => trivial⟩ fun _ => ?_
  refine Prog.only_bind (p := perform _) ⟨fun r hr => ?_, fun _ => trivial⟩ fun _ => ?_
  · rw [List.mem_singleton.1 hr]
    exact hne
  · exact Prog.only_bind (only_bumpSession hses _ _) fun _ => trivial

theorem spared_cashOutMines (hne : userId ≠ W.userId) : Spared W i (cashOutMines fresh userId sessionId betReference) w := by
  refine spared_requireOpenSession hne fun _ v hK => ?_
  refine spared_findRound hne hK fun bet v hK => ?_
  split
  · exact rfl
  exact spared_rest hK (Prog.only_bind (only_payOut hne rfl rfl _) fun balance => trivial)

theorem spared_cashOutTowers (hne : userId ≠ W.userId) :
    Spared W i (cashOutTowers fresh userId sessionId betReference) w := by
  refine spared_requireOpenSession hne fun _ v hK => ?_
  refine spared_findRound hne hK fun bet v hK => ?_
  split
  · exact rfl
  refine spared_rest hK (Prog.only_bind (only_payOut hne rfl rfl _) fun balance => ?_)
  exact Prog.only_bind (only_done (done_orThrew _)) fun difficulty => trivial

theorem only_settleLost (hne : userId ≠ W.userId) {bet : Bet} (hbet : K.bets bet.id) (now : Time)
    (outcome : GameOutcome) : (settleLost now userId bet outcome).Only (W.Spares K) :=
  ⟨spares_ownWallet hne _, fun _ => ⟨spares_updateBet hbet _, fun _ => trivial⟩⟩

theorem only_recordReveal {bet : Bet} (hbet : K.bets bet.id) (multiplier : ℚ) (outcome : GameOutcome) :
    (recordReveal bet multiplier outcome).Only (W.Spares K) :=
  ⟨spares_updateBet hbet _, fun _ => trivial⟩

theorem spared_revealMines (hne : userId ≠ W.userId) (tile : Num) :
    Spared W i (revealMines fresh userId sessionId betReference tile) w := by
  unfold revealMines
  split
  · split
    · exact rfl
    refine spared_requireOpenSession hne fun _ v hK => ?_
    refine spared_findRound hne hK fun bet v hK => ?_
    split
    · exact rfl
    dsimp only
    split
    · exact spared_rest hK (Prog.only_bind (only_settleLost hne rfl _ _) fun _ => trivial)
    refine spared_between hK (only_recordReveal rfl _ _) fun _ v _ => ?_
    split
    · exact spared_cashOutMines hne
    · exact rfl
  · exact rfl

theorem spared_revealTowers (hne : userId ≠ W.userId) (tile : Num) :
    Spared W i (revealTowers fresh userId sessionId betReference tile) w := by
  refine spared_requireOpenSession hne fun _ v hK => ?_
  refine spared_findRound hne hK fun bet v hK => ?_
  split
  · refine spared_between hK (only_done (done_orThrew _)) fun difficulty v hK => ?_
    dsimp only
    split
    · exact rfl
    split
    · exact rfl
    split
    · exact spared_rest hK (Prog.only_bind (only_settleLost hne rfl _ _) fun _ => trivial)
    refine spared_between hK (only_recordReveal rfl _ _) fun _ v _ => ?_
    split
    · exact spared_cashOutTowers hne
    · exact rfl
  · exact rfl

theorem spared_startSession (hne : userId ≠ W.userId) (slug : GameSlug) : Spared W i (startSession fresh userId slug) w := by
  refine spared_rest .none (Prog.only_bind (only_isRead (reads_getPlayableGame ..)) fun game => ?_)
  refine ⟨fun _ s hs => .inl ?_, fun _ => ⟨fun _ => hne, fun _ => only_isRead (reads_toSessionDto ..)⟩⟩
  simp only [Bool.and_eq_true, beq_iff_eq] at hs
  rw [hs.1.1]
  exact hne

theorem spared_endSession (hne : userId ≠ W.userId) : Spared W i (endSession fresh userId sessionId) w := by
  refine safe_bind (p := ask _) fun v hv frame hinv _ rows s hr => ?_
  cases hr
  refine ⟨.refl _, 0, hinv, ?_⟩
  unfold Safe
  beta_reduce
  split
  · rename_i session hsession
    split
    · exact rfl
    have hfound := Table.mem_select.1 (List.mem_of_head? hsession)
    simp only [Bool.and_eq_true, beq_iff_eq] at hfound
    have hK : Known.Elsewhere { sessions := (· = session.id) } W.userId v.store := by
      refine ⟨fun id hid => ⟨session, hfound.1, ?_, ?_⟩, fun _ h => h.elim, fun _ h => h.elim⟩
      · rw [show id = session.id from hid]
        simp [Keyed.keys]
      · rw [show Owned.owner session = userId from hfound.2.2]
        exact hne
    exact spared_rest (K := { sessions := (· = session.id) }) hK
      ⟨fun _ s hs => .inr (beq_iff_eq.1 hs), fun _ => trivial⟩
  · exact rfl

/-- Crediting a deposit that is not of the watched user. -/
theorem spared_creditDeposit {depositId : Id}
    (hdeposit : ∀ r ∈ W.db.sminkTransactions.rows, r.id = depositId → r.userId ≠ W.userId) (now : Time)
    (extraMetadata : Metadata → Metadata) : Spared W i (creditDeposit now depositId extraMetadata) w := by
  have hspares : ∀ {p : SminkTransaction → Bool}, (∀ r, p r = true → r.id = depositId) →
      ∀ r ∈ W.db.sminkTransactions.owned W.userId, p r = false := by
    intro p hp r hr
    obtain ⟨hmem, howner⟩ := List.mem_filter.1 hr
    exact eq_false_of_ne_true fun h => hdeposit r hmem (hp r h) (of_decide_eq_true howner)
  have hid : ∀ r : SminkTransaction, (r.id == depositId) = true → r.id = depositId := fun r h => beq_iff_eq.1 h
  have hand : ∀ (r : SminkTransaction) (b : Bool), (r.id == depositId && b) = true → r.id = depositId :=
    fun r b h => hid r (Bool.and_eq_true_iff.1 h).1
  unfold creditDeposit
  refine spared_between (K := {}) (p := ask _) .none ⟨trivial, fun _ => trivial⟩ fun found v _ => ?_
  split
  · rename_i current _
    refine safe_bind (p := ask _) fun u hu frame hinv _ rows s hr => ?_
    have hq : W.Spares {} (.updateTransaction (fun t => t.id == depositId && creditable t.status)
        (claimSet now (extraMetadata current.metadata))) := hspares fun r h => hand r _ h
    refine ⟨exec_ownersKept hr, 0, exec_untouched hq .none hinv hr, ?_⟩
    cases hr
    unfold Safe
    beta_reduce
    split
    · rename_i claimed hclaimed
      have hne : claimed.userId ≠ W.userId := by
        obtain ⟨row, hrow, rfl⟩ := List.mem_map.1 (List.mem_of_head? hclaimed)
        obtain ⟨hmem, hp⟩ := List.mem_filter.1 hrow
        intro hu
        have howned : row ∈ u.store.sminkTransactions.owned W.userId := List.mem_filter.2 ⟨hmem, decide_eq_true hu⟩
        rw [hinv.transactions] at howned
        rw [hspares (fun r h => hand r _ h) row howned] at hp
        cases hp
      refine spared_rest (K := {}) .none (Prog.only_bind ?_ fun wallet => ?_)
      · refine Prog.only_bind (p := perform _) ⟨hne, fun _ => trivial⟩ fun _ => ?_
        exact ⟨spares_ownWallet hne _, fun _ => trivial⟩
      · split
        · exact ⟨hspares hid, fun _ => trivial⟩
        · exact ⟨hspares hid, fun _ => trivial⟩
    · exact rfl
  · exact rfl

end Others

/-! ## Requests -/

/-- The request only starts, ends or reads sessions and rounds. -/
def Request.sparesMoney : Request → Bool
  | .startSession _ _ | .endSession _ _ | .getSession _ _ | .getOpenMines _ _ | .getOpenTowers _ _ => true
  | _ => false

/-- What leaves the watched rows alone: a request of another user, or one that spares money where only that counts. -/
def Watch.Allows (W : Watch) (request : Request) : Prop :=
  request.userId ≠ W.userId ∨ ¬ W.sessions ∧ request.sparesMoney = true

section Requests

variable {W : Watch} {i : Call} {w : World Call Stmt Db} {α : Type}

/-- Sessions do not count. -/
theorem spared_onSessions (hW : ¬ W.sessions) {p : Sql α} (hp : Reads Stmt.onSessions p) : Spared W i p w := by
  refine spared_rest (K := {}) .none (only_of_reads (fun q hq => ?_) hp)
  cases q <;> first | trivial | exact fun hs => absurd hs hW

theorem spared_isRead {p : Sql α} (hp : Reads Stmt.isRead p) : Spared W i p w :=
  spared_rest (K := {}) .none (only_isRead hp)

/-- **A request that leaves the watched rows alone does so whatever comes between its statements.** -/
theorem spared_serve (D : Digest) (fresh : Fresh) {request : Request} (h : W.Allows request) :
    Spared W i (serve D fresh request) w := by
  cases request with
  | getSession => exact spared_answer (spared_isRead (reads_getSession ..))
  | getOpenMines => exact spared_answer (spared_isRead (reads_getOpenMines ..))
  | getOpenTowers => exact spared_answer (spared_isRead (reads_getOpenTowers ..))
  | startSession userId slug =>
    obtain hne | ⟨hW, -⟩ := h
    · exact spared_answer (spared_startSession hne slug)
    · exact spared_answer (spared_onSessions hW (onSessions_startSession slug))
  | endSession userId sessionId =>
    obtain hne | ⟨hW, -⟩ := h
    · exact spared_answer (spared_endSession hne)
    · exact spared_answer (spared_onSessions hW onSessions_endSession)
  | placeBet => exact spared_answer (spared_placeBet (h.resolve_right fun h => by cases h.2) ..)
  | startMines =>
    have hne := h.resolve_right fun h => by cases h.2
    exact spared_answer (spared_answer (spared_openRound hne minesGame _ _))
  | revealMines => exact spared_answer (spared_revealMines (h.resolve_right fun h => by cases h.2) _)
  | cashOutMines => exact spared_answer (spared_cashOutMines (h.resolve_right fun h => by cases h.2))
  | startTowers =>
    have hne := h.resolve_right fun h => by cases h.2
    exact spared_answer (spared_answer (spared_openRound hne towersGame _ _))
  | revealTowers => exact spared_answer (spared_revealTowers (h.resolve_right fun h => by cases h.2) _)
  | cashOutTowers => exact spared_answer (spared_cashOutTowers (h.resolve_right fun h => by cases h.2))

end Requests

end Smink
