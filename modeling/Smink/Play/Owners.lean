import Smink.Play.Round
import Smink.Store.Owned

/-!
# Rows and their users

Every row of five tables has a user, and no update gives it to another (`KeepsOwner`). `playRegion` is the part of the
database that a call of one user keeps to: the rows of the user, and the unique values that the call takes for its
inserts (`Fresh.claims`). Calls with draws of their own claim different values (`Fresh.Apart.disjoint`).
-/

namespace Smink

open Store

/-! ## Rows and their owners -/

instance : Owned GameSession Id := ⟨GameSession.userId⟩
instance : Owned SminkWallet Id := ⟨SminkWallet.userId⟩
instance : Owned SminkTransaction Id := ⟨SminkTransaction.userId⟩
instance : Owned Bet Id := ⟨Bet.userId⟩
instance : Owned UserGameControl Id := ⟨UserGameControl.userId⟩

instance : KeepsOwner GameSession := ⟨fun _ _ => rfl⟩
instance : KeepsOwner SminkWallet := ⟨fun _ _ => rfl⟩
instance : KeepsOwner SminkTransaction := ⟨fun _ _ => rfl⟩
instance : KeepsOwner Bet := ⟨fun _ _ => rfl⟩
instance : KeepsOwner UserGameControl := ⟨fun _ _ => rfl⟩

/-- The unique values that a call may take, table by table. -/
structure Claims where
  sessions : String × String → Prop
  wallets : String × String → Prop
  transactions : String × String → Prop
  bets : String × String → Prop

/-- The databases look alike to a user whose calls take no unique values but the claimed ones. -/
structure AlikeTo (userId : Id) (claims : Claims) (db t : Db) : Prop where
  users : t.users = db.users
  games : t.games = db.games
  excluded : t.gameExcluded = db.gameExcluded
  sessions : db.gameSessions.Alike userId claims.sessions t.gameSessions
  wallets : db.sminkWallets.Alike userId claims.wallets t.sminkWallets
  transactions : db.sminkTransactions.Alike userId claims.transactions t.sminkTransactions
  bets : db.bets.Alike userId claims.bets t.bets
  controls : db.userGameControl.Alike userId (fun _ => False) t.userGameControl

/-- The user has changed rows of its own, and taken claimed values. -/
structure TouchedBy (userId : Id) (claims : Claims) (db t : Db) : Prop where
  users : t.users = db.users
  games : t.games = db.games
  excluded : t.gameExcluded = db.gameExcluded
  sessions : db.gameSessions.Touches userId claims.sessions t.gameSessions
  wallets : db.sminkWallets.Touches userId claims.wallets t.sminkWallets
  transactions : db.sminkTransactions.Touches userId claims.transactions t.sminkTransactions
  bets : db.bets.Touches userId claims.bets t.bets
  controls : db.userGameControl.Touches userId (fun _ => False) t.userGameControl

section Frames

variable {userId otherId : Id} {claims claims' : Claims} {db t u : Db}

theorem AlikeTo.refl (db : Db) : AlikeTo userId claims db db :=
  ⟨rfl, rfl, rfl, .refl _, .refl _, .refl _, .refl _, .refl _⟩

theorem TouchedBy.refl (db : Db) : TouchedBy userId claims db db :=
  ⟨rfl, rfl, rfl, .refl _, .refl _, .refl _, .refl _, .refl _⟩

theorem TouchedBy.trans (h : TouchedBy userId claims db t) (h' : TouchedBy userId claims t u) :
    TouchedBy userId claims db u :=
  ⟨h'.users.trans h.users, h'.games.trans h.games, h'.excluded.trans h.excluded, h.sessions.trans h'.sessions,
    h.wallets.trans h'.wallets, h.transactions.trans h'.transactions, h.bets.trans h'.bets,
    h.controls.trans h'.controls⟩

/-- No value is claimed by both. -/
structure Claims.Disjoint (claims claims' : Claims) : Prop where
  sessions : ∀ k, claims'.sessions k → ¬ claims.sessions k
  wallets : ∀ k, claims'.wallets k → ¬ claims.wallets k
  transactions : ∀ k, claims'.transactions k → ¬ claims.transactions k
  bets : ∀ k, claims'.bets k → ¬ claims.bets k

theorem TouchedBy.alikeTo (h : TouchedBy userId claims db t) (hne : otherId ≠ userId)
    (hd : claims.Disjoint claims') : AlikeTo otherId claims' db t :=
  ⟨h.users, h.games, h.excluded, h.sessions.alike hne hd.sessions, h.wallets.alike hne hd.wallets,
    h.transactions.alike hne hd.transactions, h.bets.alike hne hd.bets, h.controls.alike hne fun _ hk => hk.elim⟩

end Frames

/-! ## One statement -/

/-- The statement finds rows of the user only, and takes claimed values. -/
def InsideOf (userId : Id) (claims : Claims) : Stmt → Db → Prop
  | .selectGame _, _ | .selectExcluded _, _ => True
  | .selectSession p, db | .selectSessionGame p, db | .updateSession p _, db => db.gameSessions.Picks userId p
  | .insertSession r, _ => r.userId = userId ∧ ∀ k ∈ Keyed.keys r, claims.sessions k
  | .selectWallet p, db | .updateWallet p _, db => db.sminkWallets.Picks userId p
  | .insertWallet id, _ => id = userId ∧ claims.wallets ("user_id", userId)
  | .selectTransaction p, db | .selectTransactionUser p, db | .updateTransaction p _, db =>
    db.sminkTransactions.Picks userId p
  | .insertTransactions rs, _ => ∀ r ∈ rs, r.userId = userId ∧ ∀ k ∈ Keyed.keys r, claims.transactions k
  | .selectBet p, db | .updateBet p _, db => db.bets.Picks userId p
  | .insertBet r, _ => r.userId = userId ∧ ∀ k ∈ Keyed.keys r, claims.bets k
  | .selectControl p, db | .updateControl p _, db => db.userGameControl.Picks userId p

section Statements

variable {userId : Id} {claims : Claims} {db t : Db}

/-- A statement that only reads. -/
theorem step_read {q : Stmt} {r : q.Resp} (h : AlikeTo userId claims db t) (hdb : exec q db = .ok (r, db))
    (ht : exec q t = .ok (r, t)) :
    (∃ e, exec q db = .error e ∧ exec q t = .error e) ∨ ∃ r u u', exec q db = .ok (r, u) ∧ exec q t = .ok (r, u') ∧
      AlikeTo userId claims u u' ∧ TouchedBy userId claims db u :=
  .inr ⟨r, db, t, hdb, ht, h, .refl db⟩

theorem step_inside {q : Stmt} (hdb : InsideOf userId claims q db) (ht : InsideOf userId claims q t)
    (h : AlikeTo userId claims db t) :
    (∃ e, exec q db = .error e ∧ exec q t = .error e) ∨ ∃ r u u', exec q db = .ok (r, u) ∧ exec q t = .ok (r, u') ∧
      AlikeTo userId claims u u' ∧ TouchedBy userId claims db u := by
  cases q with
  | selectGame p => exact step_read h rfl (by simp only [exec, h.games])
  | selectExcluded p => exact step_read h rfl (by simp only [exec, h.excluded])
  | selectSession p => exact step_read h rfl (by simp only [exec, h.sessions.select_eq hdb ht])
  | selectSessionGame p =>
    exact step_read h rfl (by simp only [exec, Db.gamesOf, h.games, h.sessions.select_eq hdb ht])
  | selectWallet p => exact step_read h rfl (by simp only [exec, h.wallets.select_eq hdb ht])
  | selectTransaction p => exact step_read h rfl (by simp only [exec, h.transactions.select_eq hdb ht])
  | selectTransactionUser p =>
    exact step_read h rfl (by simp only [exec, Db.usersOf, h.users, h.transactions.select_eq hdb ht])
  | selectBet p => exact step_read h rfl (by simp only [exec, h.bets.select_eq hdb ht])
  | selectControl p => exact step_read h rfl (by simp only [exec, h.controls.select_eq hdb ht])
  | updateSession p set =>
    exact .inr ⟨(), _, _, rfl, rfl, { h with sessions := h.sessions.update },
      { TouchedBy.refl db with sessions := hdb.touches_update }⟩
  | updateWallet p set =>
    refine .inr ⟨_, _, { t with sminkWallets := t.sminkWallets.update p set }, rfl, ?_,
      { h with wallets := h.wallets.update }, { TouchedBy.refl db with wallets := hdb.touches_update }⟩
    simp only [exec, Table.updated_eq_map, h.wallets.select_eq hdb ht]
  | updateTransaction p set =>
    refine .inr ⟨_, _, { t with sminkTransactions := t.sminkTransactions.update p set }, rfl, ?_,
      { h with transactions := h.transactions.update },
      { TouchedBy.refl db with transactions := hdb.touches_update }⟩
    simp only [exec, Table.updated_eq_map, h.transactions.select_eq hdb ht]
  | updateBet p set =>
    exact .inr ⟨(), _, _, rfl, rfl, { h with bets := h.bets.update },
      { TouchedBy.refl db with bets := hdb.touches_update }⟩
  | updateControl p set =>
    exact .inr ⟨(), _, _, rfl, rfl, { h with controls := h.controls.update },
      { TouchedBy.refl db with controls := hdb.touches_update }⟩
  | insertSession r =>
    obtain ⟨hins, hins'⟩ | ⟨v, v', hins, hins', hlike, htouch⟩ := h.sessions.insert hdb.1 hdb.2
    · exact .inl ⟨.threw, by simp only [exec, hins, orThrow], by simp only [exec, hins', orThrow]⟩
    · exact .inr ⟨(), { db with gameSessions := v }, { t with gameSessions := v' },
        by simp only [exec, hins, orThrow], by simp only [exec, hins', orThrow],
        { h with sessions := hlike }, { TouchedBy.refl db with sessions := htouch }⟩
  | insertWallet id =>
    obtain ⟨rfl, hclaim⟩ := hdb
    have hkeys : ∀ k ∈ Keyed.keys ({ userId := id } : SminkWallet), claims.wallets k := by
      intro k hk
      rw [List.mem_singleton.1 hk]
      exact hclaim
    obtain ⟨hins, hins'⟩ | ⟨v, v', hins, hins', hlike, htouch⟩ :=
      h.wallets.insert (r := { userId := id }) rfl hkeys
    · exact .inr ⟨[], db, t, by simp only [exec, hins], by simp only [exec, hins'], h, .refl db⟩
    · exact .inr ⟨[{ userId := id }], { db with sminkWallets := v }, { t with sminkWallets := v' },
        by simp only [exec, hins], by simp only [exec, hins'],
        { h with wallets := hlike }, { TouchedBy.refl db with wallets := htouch }⟩
  | insertTransactions rs =>
    obtain ⟨hins, hins'⟩ | ⟨v, v', hins, hins', hlike, htouch⟩ :=
      h.transactions.insertAll (fun r hr => (hdb r hr).1) fun r hr => (hdb r hr).2
    · exact .inl ⟨.threw, by simp only [exec, hins, orThrow], by simp only [exec, hins', orThrow]⟩
    · exact .inr ⟨(), { db with sminkTransactions := v }, { t with sminkTransactions := v' },
        by simp only [exec, hins, orThrow], by simp only [exec, hins', orThrow],
        { h with transactions := hlike }, { TouchedBy.refl db with transactions := htouch }⟩
  | insertBet r =>
    obtain ⟨hins, hins'⟩ | ⟨v, v', hins, hins', hlike, htouch⟩ := h.bets.insert hdb.1 hdb.2
    · exact .inl ⟨.threw, by simp only [exec, hins, orThrow], by simp only [exec, hins', orThrow]⟩
    · exact .inr ⟨(), { db with bets := v }, { t with bets := v' },
        by simp only [exec, hins, orThrow], by simp only [exec, hins', orThrow],
        { h with bets := hlike }, { TouchedBy.refl db with bets := htouch }⟩

/-- The rows of a user, with the values its calls may take. -/
def playRegion (userId : Id) (claims : Claims) : Region exec where
  inside := InsideOf userId claims
  alike := AlikeTo userId claims
  touches := TouchedBy userId claims
  touches_refl := .refl
  touches_trans := .trans
  step := step_inside

end Statements

/-! ## What a call claims -/

/-- The ids and references of the ledger rows that a call may insert. -/
def Fresh.transactionIds (fresh : Fresh) : List Id := [fresh.stakeId, fresh.payoutId]

def Fresh.transactionReferences (fresh : Fresh) : List String :=
  [reference "STK" fresh.stakeHex, reference "PAY" fresh.payoutHex]

/-- The references of the bets that it may insert. -/
def Fresh.betReferences (fresh : Fresh) : List String :=
  ["BET", "MIN", "TWR"].map fun kind => reference kind fresh.betHex

/-- The unique values that the inserts of a call take. -/
def Fresh.claims (fresh : Fresh) (userId : Id) : Claims where
  sessions k := k = ("id", fresh.sessionId)
  wallets k := k = ("user_id", userId)
  transactions k := (∃ id ∈ fresh.transactionIds, k = ("id", id)) ∨
    ∃ ref ∈ fresh.transactionReferences, k = ("reference", ref)
  bets k := (∃ id ∈ [fresh.betId], k = ("id", id)) ∨ ∃ ref ∈ fresh.betReferences, k = ("reference", ref)

/-- The generated ids and the random digits of two calls are distinct. -/
structure Fresh.Apart (fresh fresh' : Fresh) : Prop where
  sessionId : fresh.sessionId ≠ fresh'.sessionId
  betId : fresh.betId ≠ fresh'.betId
  betHex : fresh.betHex ≠ fresh'.betHex
  transactionIds : fresh.transactionIds.Disjoint fresh'.transactionIds
  stakeHex : fresh.stakeHex ≠ fresh'.stakeHex
  payoutHex : fresh.payoutHex ≠ fresh'.payoutHex

theorem Fresh.Apart.symm {fresh fresh' : Fresh} (h : fresh.Apart fresh') : fresh'.Apart fresh :=
  ⟨h.sessionId.symm, h.betId.symm, h.betHex.symm, h.transactionIds.symm, h.stakeHex.symm, h.payoutHex.symm⟩

theorem toList_reference (kind hex : String) : (reference kind hex).toList = kind.toList ++ '-' :: hex.toList := by
  simp [reference]

/-- Kinds are of one length, so a reference determines its kind and its digits. -/
theorem reference_inj {kind kind' hex hex' : String} (hlen : kind.toList.length = kind'.toList.length)
    (h : reference kind hex = reference kind' hex') : kind = kind' ∧ hex = hex' := by
  have hlist := congrArg String.toList h
  rw [toList_reference, toList_reference] at hlist
  obtain ⟨hkind, hrest⟩ := List.append_inj hlist hlen
  exact ⟨String.toList_injective hkind, String.toList_injective (List.cons.inj hrest).2⟩

/-- Values of the ids and of the references are of different indexes. -/
theorem keys_disjoint {ids ids' : List Id} {refs refs' : List String} (hids : ids.Disjoint ids')
    (hrefs : refs.Disjoint refs') (k : String × String)
    (h' : (∃ id ∈ ids', k = ("id", id)) ∨ ∃ ref ∈ refs', k = ("reference", ref)) :
    ¬ ((∃ id ∈ ids, k = ("id", id)) ∨ ∃ ref ∈ refs, k = ("reference", ref)) := by
  rintro (⟨a, ha, rfl⟩ | ⟨a, ha, rfl⟩)
  · obtain ⟨b, hb, heq⟩ | ⟨b, -, heq⟩ := h'
    · cases heq
      exact hids ha hb
    · exact absurd (Prod.mk.inj heq).1 (by decide)
  · obtain ⟨b, -, heq⟩ | ⟨b, hb, heq⟩ := h'
    · exact absurd (Prod.mk.inj heq).1 (by decide)
    · cases heq
      exact hrefs ha hb

theorem Fresh.Apart.transactionReferences {fresh fresh' : Fresh} (h : fresh.Apart fresh') :
    fresh.transactionReferences.Disjoint fresh'.transactionReferences := by
  intro ref hmem hmem'
  simp only [Fresh.transactionReferences, List.mem_cons, List.not_mem_nil, or_false] at hmem hmem'
  obtain rfl | rfl := hmem
  · obtain heq | heq := hmem'
    · exact h.stakeHex (reference_inj rfl heq).2
    · exact absurd (reference_inj (by decide) heq).1 (by decide)
  · obtain heq | heq := hmem'
    · exact absurd (reference_inj (by decide) heq).1 (by decide)
    · exact h.payoutHex (reference_inj rfl heq).2

theorem Fresh.Apart.betReferences {fresh fresh' : Fresh} (h : fresh.Apart fresh') :
    fresh.betReferences.Disjoint fresh'.betReferences := by
  have hlen : ∀ kind ∈ ["BET", "MIN", "TWR"], kind.toList.length = 3 := by decide
  intro ref hmem hmem'
  obtain ⟨kind, hkind, rfl⟩ := List.mem_map.1 hmem
  obtain ⟨kind', hkind', heq⟩ := List.mem_map.1 hmem'
  exact h.betHex (reference_inj ((hlen kind hkind).trans (hlen kind' hkind').symm) heq.symm).2

/-- The calls of two users with distinct draws claim different values. -/
theorem Fresh.Apart.disjoint {fresh fresh' : Fresh} {userId otherId : Id} (h : fresh.Apart fresh')
    (hne : userId ≠ otherId) : (fresh.claims userId).Disjoint (fresh'.claims otherId) := by
  refine ⟨?_, ?_, keys_disjoint h.transactionIds h.transactionReferences,
    keys_disjoint (List.disjoint_singleton.2 ?_) h.betReferences⟩
  · rintro _ rfl hk
    exact h.sessionId (Prod.mk.inj hk).2.symm
  · rintro _ rfl hk
    exact hne (Prod.mk.inj hk).2.symm
  · exact fun hmem => h.betId (List.mem_singleton.1 hmem).symm

end Smink
