import Smink.Db.Seed
import Smink.Engine.Layouts
import Smink.Play.Reads
import Smink.Store.Pool
import Mathlib.Algebra.Order.Group.Multiset

/-!
# Reveals of one round

A reveal reads the tiles shown so far, and writes the whole list back with one more. Between that write and its answer,
and from then on, a call holds the tile and its place in the list; `revealDiscipline` says that while the bet is open
the list goes on from the one at the start by exactly what is held. A write that does not find the list it has read
overwrites what another call has answered, so the discipline has a step condition (`MayRecord`): `no_reveal_lost` is
about the runs that meet it, and `reveal_lost` is one that does not.
-/

namespace Smink

open Store

inductive GridKind
  | mines | towers
  deriving DecidableEq

namespace GridKind

def slug : GridKind → GameSlug
  | mines => .mines
  | towers => .towers

/-- `revealed`, or `picks`. -/
def shown : GridKind → Bet → List Nat
  | mines, bet => bet.revealed
  | towers, bet => bet.picks

/-- The multiplier for the tiles shown. -/
def price (houseEdge : ℚ) : GridKind → Bet → Option ℚ
  | mines, bet => some (minesMultiplier bet.mineCount bet.revealed.length houseEdge)
  | towers, bet => bet.difficulty.map fun difficulty => towersMultiplier difficulty bet.picks.length houseEdge

end GridKind

/-- A reveal of the round the calls are about. -/
structure RevealCall where
  fresh : Fresh
  userId : Id
  sessionId : Id
  tile : Num

def RevealCall.prog (D : Digest) (kind : GridKind) (betReference : String) (i : RevealCall) : Sql Response :=
  match kind with
  | .mines => serve D i.fresh (.revealMines i.userId i.sessionId betReference i.tile)
  | .towers => serve D i.fresh (.revealTowers i.userId i.sessionId betReference i.tile)

/-- The tile that an answer says is safe, and its place in the list. -/
def acknowledgment (i : RevealCall) : Response → Option (ℕ × ℕ)
  | .mines data =>
    if data.status = .lost then none else (naturalNumber i.tile).map fun tile => (tile, data.revealed.length - 1)
  | .towers data =>
    if data.status = .lost then none else (naturalNumber i.tile).map fun tile => (tile, data.picks.length - 1)
  | _ => none

abbrev RevealPool := Pool RevealCall Stmt.Resp Fault Response Db

abbrev RevealWorld := World RevealCall Stmt Db

/-- What a call that has ended has acknowledged. -/
def acknowledgedBy (t : RevealCall × Sql Response) : Option (ℕ × ℕ) :=
  match t.2 with
  | .ret r => acknowledgment t.1 r
  | _ => none

/-- The tiles that have been answered to be safe. -/
def acknowledged (c : RevealPool) : List (ℕ × ℕ) := c.threads.filterMap acknowledgedBy

/-! ## What stays while reveals run -/

structure BetStep (b b' : Bet) : Prop where
  id_eq : b'.id = b.id
  reference_eq : b'.reference = b.reference
  userId_eq : b'.userId = b.userId
  sessionId_eq : b'.sessionId = b.sessionId
  selection_eq : b'.selection = b.selection
  closed : b.status ≠ .open → b'.status ≠ .open

theorem BetStep.refl (b : Bet) : BetStep b b := ⟨rfl, rfl, rfl, rfl, rfl, id⟩

theorem BetStep.trans {a b c : Bet} (h : BetStep a b) (h' : BetStep b c) : BetStep a c :=
  ⟨h'.id_eq.trans h.id_eq, h'.reference_eq.trans h.reference_eq, h'.userId_eq.trans h.userId_eq,
    h'.sessionId_eq.trans h.sessionId_eq, h'.selection_eq.trans h.selection_eq, fun hs => h'.closed (h.closed hs)⟩

/-- An update of a bet that does not open it. -/
theorem BetStep.apply {set : BetSet} (hset : set.status ≠ some .open) (b : Bet) : BetStep b (Settable.apply set b) :=
  ⟨rfl, rfl, rfl, rfl, rfl, fun hs hopen => hs (open_of_apply hset hopen)⟩

structure SessionStep (s s' : GameSession) : Prop where
  id_eq : s'.id = s.id
  userId_eq : s'.userId = s.userId
  gameId_eq : s'.gameId = s.gameId
  endedAt_eq : s'.endedAt = s.endedAt

theorem SessionStep.refl (s : GameSession) : SessionStep s s := ⟨rfl, rfl, rfl, rfl⟩

theorem SessionStep.trans {s t u : GameSession} (h : SessionStep s t) (h' : SessionStep t u) : SessionStep s u :=
  ⟨h'.id_eq.trans h.id_eq, h'.userId_eq.trans h.userId_eq, h'.gameId_eq.trans h.gameId_eq,
    h'.endedAt_eq.trans h.endedAt_eq⟩

/-- Bets and sessions are where they were, no bet is opened and no session ended. -/
structure RevealsMove (db t : Db) : Prop where
  games : t.games = db.games
  sessions : Table.Moves SessionStep db.gameSessions t.gameSessions
  bets : Table.Moves BetStep db.bets t.bets

variable {db t : Db} {userId sessionId : Id} {betReference : String} {bet : Bet}

theorem RevealsMove.refl (db : Db) : RevealsMove db db := ⟨rfl, .refl SessionStep.refl _, .refl BetStep.refl _⟩

theorem RevealsMove.trans {u : Db} (h : RevealsMove db t) (h' : RevealsMove t u) : RevealsMove db u :=
  ⟨h'.games.trans h.games, h.sessions.trans (fun _ _ _ => SessionStep.trans) h'.sessions,
    h.bets.trans (fun _ _ _ => BetStep.trans) h'.bets⟩

/-- The player still has the seat. -/
theorem AtTable.move {slug : GameSlug} {session : GameSession} {game : Game}
    (h : AtTable db userId sessionId slug session game) (hm : RevealsMove db t) :
    ∃ session', AtTable t userId sessionId slug session' game := by
  obtain ⟨s, hs, hstep⟩ := hm.sessions.exists_later h.session_mem
  refine ⟨s, ⟨⟨hs, ?_, ?_, ?_, ?_, h.game_slug⟩, ?_, h.active, h.serviced⟩⟩
  · rw [hstep.id_eq, h.session_id]
  · rw [hstep.userId_eq, h.session_user]
  · rw [hm.games]
    exact h.game_mem
  · rw [hstep.gameId_eq, h.game_id]
  · rw [hstep.endedAt_eq, h.live]

/-- The row of the round that a call has read. -/
def HasRound (db : Db) (userId sessionId : Id) (betReference : String) (bet : Bet) : Prop :=
  ∃ b ∈ db.bets.rows, b.id = bet.id ∧ b.reference = betReference ∧ b.userId = userId ∧ b.sessionId = some sessionId ∧
    b.selection = bet.selection

theorem OpenRound.hasRound (h : OpenRound db userId sessionId betReference bet) :
    HasRound db userId sessionId betReference bet :=
  ⟨bet, h.mem, rfl, h.reference, h.user, h.session, rfl⟩

theorem HasRound.move (h : HasRound db userId sessionId betReference bet) (hm : RevealsMove db t) :
    HasRound t userId sessionId betReference bet := by
  obtain ⟨b, hb, hid, href, huser, hsession, hsel⟩ := h
  obtain ⟨b', hb', hstep⟩ := hm.bets.exists_later hb
  exact ⟨b', hb', hstep.id_eq.trans hid, hstep.reference_eq.trans href, hstep.userId_eq.trans huser,
    hstep.sessionId_eq.trans hsession, hstep.selection_eq.trans hsel⟩

/-- The row with the reference is that one. -/
theorem HasRound.eq (h : HasRound db userId sessionId betReference bet) {b : Bet} (hb : b ∈ db.bets.rows)
    (href : b.reference = betReference) :
    b.id = bet.id ∧ b.userId = userId ∧ b.sessionId = some sessionId ∧ b.selection = bet.selection := by
  obtain ⟨a, ha, hid, harefs, huser, hsession, hsel⟩ := h
  obtain rfl := bet_eq_of_reference hb ha (href.trans harefs.symm)
  exact ⟨hid, huser, hsession, hsel⟩

/-- The round is over. -/
def Closed (db : Db) (betReference : String) : Prop :=
  ∀ b ∈ db.bets.rows, b.reference = betReference → b.status ≠ .open

theorem Closed.move (h : Closed db betReference) (hm : RevealsMove db t) : Closed t betReference := by
  intro b' hb' href
  obtain ⟨b, hb, hstep⟩ := hm.bets.exists_earlier hb'
  exact hstep.closed (h b hb (hstep.reference_eq ▸ href))

/-! ## The discipline -/

/-- While the round is open, its list goes on from `base` by the tiles `g`, and its multiplier is the one for it. -/
def GrownBy (kind : GridKind) (betReference : String) (base : List Nat) (db : Db) (g : Multiset (ℕ × ℕ)) : Prop :=
  ∀ b ∈ db.bets.rows, b.reference = betReference → b.status = .open →
    ∃ tiles, kind.shown b = base ++ tiles ∧ (tiles.zipIdx base.length : Multiset (ℕ × ℕ)) = g ∧
      ∀ game ∈ db.games.rows, game.slug = kind.slug → ∀ multiplier ∈ kind.price game.houseEdge b,
        b.multiplier = multiplier

/-- The step condition: a reveal that writes its list back finds the one it has read, which is all but the last tile. -/
def MayRecord (kind : GridKind) (w : RevealWorld) (_ : RevealCall) : Stmt → Prop
  | .updateBet p set => set.status = none → ∀ b ∈ w.store.bets.rows, p b = true →
      (kind.shown (Settable.apply set b)).dropLast = kind.shown b
  | _ => True

def revealDiscipline (kind : GridKind) (betReference : String) (base : List Nat) :
    Discipline RevealCall Stmt Db (Multiset (ℕ × ℕ)) where
  inv w g := GrownBy kind betReference base w.store g
  rely w v := RevealsMove w.store v.store
  rely_refl w := .refl w.store
  rely_trans h h' := h.trans h'
  ok := MayRecord kind

/-- What a call holds when it has answered: the tile it has acknowledged, unless the round is over. -/
def Acknowledges (betReference : String) (i : RevealCall) (r : Response) (v : RevealWorld) (g : Multiset (ℕ × ℕ)) :
    Prop :=
  Closed v.store betReference ∨ g = (acknowledgment i r).elim 0 singleton

variable {kind : GridKind} {base : List Nat} {i : RevealCall} {w : RevealWorld} {g : Multiset (ℕ × ℕ)} {α β : Type}
  {Q : α → RevealWorld → Multiset (ℕ × ℕ) → Prop}

/-- The program keeps to the discipline, holding `g` at its start. -/
def Reveals (kind : GridKind) (betReference : String) (base : List Nat) (i : RevealCall) (p : Sql α) (w : RevealWorld)
    (g : Multiset (ℕ × ℕ)) (Q : α → RevealWorld → Multiset (ℕ × ℕ) → Prop) : Prop :=
  Safe (revealDiscipline kind betReference base) exec i p w g Q

/-- A round that is over may have grown by anything. -/
theorem Closed.grownBy (h : Closed db betReference) (g : Multiset (ℕ × ℕ)) : GrownBy kind betReference base db g :=
  fun b hb href hopen => absurd hopen (h b hb href)

/-! ## One statement -/

theorem reveals_readFree (kind : GridKind) (betReference : String) (base : List Nat) :
    ReadFree (revealDiscipline kind betReference base) Stmt.isRead :=
  fun _ _ _ _ _ h => ⟨.refl _, h⟩

/-- A statement that leaves the bets alone. -/
theorem reveals_quiet {q : Stmt} {k : q.Resp → Sql α}
    (hq : ∀ v r s, exec q v = .ok (r, s) → s.bets = v.bets ∧ s.games = v.games ∧
      Table.Moves SessionStep v.gameSessions s.gameSessions)
    (hk : ∀ r u, RevealsMove w.store u.store → Reveals kind betReference base i (k r) u g Q) :
    Reveals kind betReference base i (.stmt q k) w g Q := by
  intro v hv frame hi _ r s hr
  obtain ⟨hbets, hgames, hsessions⟩ := hq v.store r s hr
  have hmove : RevealsMove v.store s := by
    refine ⟨hgames, hsessions, ?_⟩
    rw [hbets]
    exact .refl BetStep.refl _
  refine ⟨hmove, g, ?_, hk r _ (hv.trans hmove)⟩
  change GrownBy kind betReference base s (g + frame)
  unfold GrownBy
  rw [hbets, hgames]
  exact hi

theorem reveals_done {p : Sql α} {f : α → Sql β} {Q : β → RevealWorld → Multiset (ℕ × ℕ) → Prop}
    (hp : p.done = true) (hf : ∀ a, p = .ret a → Reveals kind betReference base i (f a) w 0 Q) :
    Reveals kind betReference base i (p >>= f) w 0 Q := by
  obtain ⟨a, rfl⟩ | ⟨e, rfl⟩ := Prog.done_cases hp
  · exact hf a rfl
  · exact rfl

/-- A check, by a call that holds nothing yet. -/
theorem reveals_oneRead {p : Sql α} {f : α → Sql β} {Q : β → RevealWorld → Multiset (ℕ × ℕ) → Prop}
    (hp : OneRead Stmt.isRead p)
    (hf : ∀ v a, RevealsMove w.store v.store → p.run exec v.store = (.ok a, v.store) →
      Reveals kind betReference base i (f a) v 0 Q) :
    Reveals kind betReference base i (p >>= f) w 0 Q :=
  safe_bind (safe_oneRead readOnly (reveals_readFree _ _ _) hp fun v a _ hv _ hr => hf v a hv hr)

/-- A check, by a call that holds a tile: it passes, or the round is over. -/
theorem reveals_check {p : Sql α} {f : α → Sql β} {Q : β → RevealWorld → Multiset (ℕ × ℕ) → Prop}
    (hp : OneRead Stmt.isRead p)
    (herr : ∀ (v : RevealWorld) e, RevealsMove w.store v.store → p.run exec v.store = (.error e, v.store) →
      Closed v.store betReference)
    (hf : ∀ (v : RevealWorld) a frame, RevealsMove w.store v.store →
      GrownBy kind betReference base v.store (g + frame) →
      p.run exec v.store = (.ok a, v.store) → Reveals kind betReference base i (f a) v g Q) :
    Reveals kind betReference base i (p >>= f) w g Q := by
  refine safe_bind (safe_check readOnly (reveals_readFree _ _ _) hp fun v frame r hv hi hr => ?_)
  cases r with
  | ok a => exact ⟨g, hi, hf v a frame hv hi hr⟩
  | error e => exact ⟨0, (herr v e hv hr).grownBy _, rfl⟩

theorem reference_updateRow (p : Bet → Bool) (set : BetSet) (b : Bet) :
    (Table.updateRow p set b).reference = b.reference := by
  unfold Table.updateRow
  split <;> rfl

/-- The update that closes the round; nothing needs to be held any more. -/
theorem reveals_close {set : BetSet} {status : BetStatus} {f : Unit → Sql α} (hset : set.status = some status)
    (hne : status ≠ .open) (hbet : HasRound w.store userId sessionId betReference bet)
    (hf : ∀ u, Closed u.store betReference → Reveals kind betReference base i (f ()) u 0 Q) :
    Reveals kind betReference base i (perform (.updateBet (fun b => b.id == bet.id) set) >>= f) w g Q := by
  intro v hv frame _ _ r s hr
  cases hr
  have hnot : set.status ≠ some .open := by
    rw [hset]
    simpa using hne
  have hclosed : Closed { v.store with bets := v.store.bets.update (fun b => b.id == bet.id) set } betReference := by
    intro b' hb' href
    obtain ⟨b, hb, rfl⟩ := Table.mem_update.1 hb'
    have hbref : b.reference = betReference := (reference_updateRow ..).symm.trans href
    rw [Table.updateRow_pos (by simpa using ((hbet.move hv).eq hb hbref).1)]
    simpa only [Settable.apply, hset, Option.getD_some] using hne
  have hmove : RevealsMove v.store { v.store with bets := v.store.bets.update (fun b => b.id == bet.id) set } :=
    ⟨rfl, .refl SessionStep.refl _, Table.moves_update BetStep.refl fun b _ _ => .apply hnot b⟩
  exact ⟨hmove, 0, hclosed.grownBy _, hf _ hclosed⟩

/-- The write of a safe reveal. Where the step condition holds, the list grows by the tile. -/
theorem reveals_record {multiplier : ℚ} {outcome : GameOutcome} {tile : Nat} {f : Unit → Sql α}
    (hbet : HasRound w.store userId sessionId betReference bet)
    (hshown : ∀ b, kind.shown (Settable.apply (revealSet multiplier outcome) b) = kind.shown bet ++ [tile])
    (hprice : ∀ b : Bet, b.selection = bet.selection → ∀ game ∈ w.store.games.rows, game.slug = kind.slug →
      ∀ m ∈ kind.price game.houseEdge (Settable.apply (revealSet multiplier outcome) b), toFixed 4 multiplier = m)
    (hf : ∀ u, RevealsMove w.store u.store →
      Reveals kind betReference base i (f ()) u {(tile, (kind.shown bet).length)} Q) :
    Reveals kind betReference base i (recordReveal bet multiplier outcome >>= f) w 0 Q := by
  intro v hv frame hi hok r s hr
  cases hr
  have hmove : RevealsMove v.store
      { v.store with bets := v.store.bets.update (fun b => b.id == bet.id) (revealSet multiplier outcome) } :=
    ⟨rfl, .refl SessionStep.refl _, Table.moves_update BetStep.refl fun b _ _ => .apply (by simp [revealSet]) b⟩
  refine ⟨hmove, _, ?_, hf _ (hv.trans hmove)⟩
  intro b' hb' href hopen
  obtain ⟨b, hb, rfl⟩ := Table.mem_update.1 hb'
  have hbref : b.reference = betReference := (reference_updateRow ..).symm.trans href
  obtain ⟨hid, -, -, hsel⟩ := (hbet.move hv).eq hb hbref
  have hp : (b.id == bet.id) = true := by simpa using hid
  rw [Table.updateRow_pos (p := fun b : Bet => b.id == bet.id) hp] at hopen ⊢
  obtain ⟨tiles, htiles, hheld, -⟩ := hi b hb hbref hopen
  -- the list that is stored is the one that was read
  have hread : kind.shown bet = base ++ tiles := by
    have hlast := hok rfl b hb hp
    rw [hshown, List.dropLast_concat] at hlast
    rw [hlast, htiles]
  refine ⟨tiles ++ [tile], ?_, ?_, fun game hgame hslug m hm => ?_⟩
  · rw [hshown, hread, List.append_assoc]
  · rw [zero_add] at hheld
    rw [List.zipIdx_append, ← Multiset.coe_add, hheld, hread, List.length_append, add_comm]
    rfl
  · rw [← hv.games] at hprice
    exact hprice b hsel game hgame hslug m hm

/-! ## The calls -/

theorem quiet_wallet (p : SminkWallet → Bool) (set : WalletSet) (v : Db) (r : List SminkWallet) (s : Db)
    (hr : exec (.updateWallet p set) v = .ok (r, s)) :
    s.bets = v.bets ∧ s.games = v.games ∧ Table.Moves SessionStep v.gameSessions s.gameSessions := by
  cases hr
  exact ⟨rfl, rfl, .refl SessionStep.refl _⟩

theorem quiet_transactions (rs : List SminkTransaction) (v : Db) (r : Unit) (s : Db)
    (hr : exec (.insertTransactions rs) v = .ok (r, s)) :
    s.bets = v.bets ∧ s.games = v.games ∧ Table.Moves SessionStep v.gameSessions s.gameSessions := by
  obtain ⟨t, -, he⟩ := orThrow_ok hr
  cases he
  exact ⟨rfl, rfl, .refl SessionStep.refl _⟩

/-- `bumpSession` ends no session. -/
theorem quiet_bump (p : GameSession → Bool) {set : SessionSet} (hset : set.endedAt = none) (v : Db) (r : Unit) (s : Db)
    (hr : exec (.updateSession p set) v = .ok (r, s)) :
    s.bets = v.bets ∧ s.games = v.games ∧ Table.Moves SessionStep v.gameSessions s.gameSessions := by
  cases hr
  exact ⟨rfl, rfl, Table.moves_update SessionStep.refl fun a _ _ => ⟨rfl, rfl, rfl, by simp [Settable.apply, hset]⟩⟩

theorem reveals_settleLost (now : Time) (outcome : GameOutcome)
    (hbet : HasRound w.store userId sessionId betReference bet) :
    Reveals kind betReference base i (settleLost now userId bet outcome) w 0 fun _ v g =>
      Closed v.store betReference ∧ g = 0 := by
  refine reveals_quiet (quiet_wallet _ _) fun _ u hu => ?_
  exact reveals_close (f := fun _ => .ret ()) rfl (by decide) (hbet.move hu) fun _ hclosed => ⟨hclosed, rfl⟩

theorem reveals_payOut (fresh : Fresh) (slug : GameSlug)
    (hbet : HasRound w.store userId sessionId betReference bet) :
    Reveals kind betReference base i (payOut fresh slug userId sessionId betReference bet) w g fun _ v g' =>
      Closed v.store betReference ∧ g' = 0 := by
  unfold payOut
  refine reveals_quiet (quiet_wallet _ _) fun _ u hu => ?_
  refine reveals_close rfl (by decide) (hbet.move hu) fun u hclosed => ?_
  refine reveals_quiet (quiet_transactions _) fun _ v hv => ?_
  exact reveals_quiet (quiet_bump _ rfl) fun _ x hx => ⟨(hclosed.move hv).move hx, rfl⟩

/-- A round that is there and is not found open is over. -/
theorem closed_of_findRound {e : Fault} (hbet : HasRound db userId sessionId betReference bet)
    (hr : (findRound userId sessionId betReference).run exec db = (.error e, t)) : Closed db betReference := by
  intro b hb href hopen
  obtain ⟨-, huser, hsession, -⟩ := hbet.eq hb href
  rw [findRound_of ⟨hb, href, huser, hsession, hopen⟩] at hr
  cases hr

/-- A round in which a call holds a tile has shown one. -/
theorem GrownBy.shown_ne_nil {frame : Multiset (ℕ × ℕ)} (h : GrownBy kind betReference base db (g + frame))
    (hbet : OpenRound db userId sessionId betReference bet) (hg : g ≠ 0) : kind.shown bet ≠ [] := by
  intro hnil
  obtain ⟨tiles, htiles, hheld, -⟩ := h bet hbet.mem hbet.reference hbet.status
  rw [hnil] at htiles
  obtain ⟨-, rfl⟩ := List.append_eq_nil_iff.1 htiles.symm
  rw [List.zipIdx_nil, Multiset.coe_nil] at hheld
  exact hg (add_eq_zero.1 hheld.symm).1

section CashOut

variable {session : GameSession} {game : Game}

/-- The cash-out that follows the last tile closes the round, unless it is over. -/
theorem reveals_cashOutMines (fresh : Fresh) (hseat : AtTable w.store userId sessionId .mines session game)
    (hbet : HasRound w.store userId sessionId betReference bet) (hg : g ≠ 0) :
    Reveals .mines betReference base i (cashOutMines fresh userId sessionId betReference) w g fun _ v g' =>
      Closed v.store betReference ∧ g' = 0 := by
  refine reveals_check (oneRead_requireOpenSession ..) (fun v e hv hr => ?_) fun v _ _ hv _ _ => ?_
  · obtain ⟨session', hseat'⟩ := hseat.move hv
    rw [hseat'.run] at hr
    cases hr
  refine reveals_check (oneRead_findRound ..) (fun u e hu hr => closed_of_findRound ((hbet.move hv).move hu) hr)
    fun u bet' frame _ hgrown hr => ?_
  have hround := run_findRound hr
  have hshown : bet'.revealed ≠ [] := hgrown.shown_ne_nil hround hg
  rw [if_neg hshown]
  exact safe_bind ((reveals_payOut fresh .mines hround.hasRound).mono fun _ _ _ h => h)

theorem reveals_cashOutTowers (fresh : Fresh) (hseat : AtTable w.store userId sessionId .towers session game)
    (hbet : HasRound w.store userId sessionId betReference bet) (hg : g ≠ 0) :
    Reveals .towers betReference base i (cashOutTowers fresh userId sessionId betReference) w g fun _ v g' =>
      Closed v.store betReference ∧ g' = 0 := by
  refine reveals_check (oneRead_requireOpenSession ..) (fun v e hv hr => ?_) fun v _ _ hv _ _ => ?_
  · obtain ⟨session', hseat'⟩ := hseat.move hv
    rw [hseat'.run] at hr
    cases hr
  refine reveals_check (oneRead_findRound ..) (fun u e hu hr => closed_of_findRound ((hbet.move hv).move hu) hr)
    fun u bet' frame _ hgrown hr => ?_
  have hround := run_findRound hr
  have hshown : bet'.picks ≠ [] := hgrown.shown_ne_nil hround hg
  rw [if_neg hshown]
  refine safe_bind ((reveals_payOut fresh .towers hround.hasRound).mono fun _ x _ h => ?_)
  obtain ⟨hclosed, rfl⟩ := h
  exact reveals_done (done_orThrew _) fun _ _ => ⟨hclosed, rfl⟩

end CashOut

theorem game_eq_of_slug {t : Table Game} {a b : Game} (ha : a ∈ t.rows) (hb : b ∈ t.rows) (h : a.slug = b.slug) :
    a = b :=
  t.eq_of_key (k := ("slug", a.slug.text)) ha hb (by simp [Keyed.keys]) (by simp [Keyed.keys, h])

theorem reveals_revealMines (i : RevealCall) :
    Reveals .mines betReference base i (revealMines i.fresh i.userId i.sessionId betReference i.tile) w 0
      fun data v g => Acknowledges betReference i (.mines data) v g := by
  unfold revealMines
  split
  · rename_i tile htile
    split
    · exact rfl
    refine reveals_oneRead (oneRead_requireOpenSession ..) fun v ⟨session, game⟩ _ hseat => ?_
    refine reveals_oneRead (oneRead_findRound ..) fun u bet hu hbet => ?_
    have hseat := AtTable.of_run hseat
    have hround := (run_findRound hbet).hasRound
    obtain ⟨session', hseat'⟩ := hseat.move hu
    dsimp only
    split
    · exact rfl
    split
    · refine safe_bind ((reveals_settleLost _ _ hround).mono fun _ x _ h => ?_)
      exact .inl h.1
    · refine reveals_record hround (fun _ => rfl) (fun b _ game' hgame' hslug m hm => ?_) fun x hx => ?_
      · obtain rfl := game_eq_of_slug hgame' hseat'.game_mem (hslug.trans hseat'.game_slug.symm)
        rw [toFixed_minesMultiplier]
        exact Option.some.inj hm
      split
      · obtain ⟨session'', hseat''⟩ := hseat'.move hx
        refine (reveals_cashOutMines i.fresh hseat'' (hround.move hx) (by simp)).mono fun _ y _ h => ?_
        exact .inl h.1
      · refine .inr ?_
        simp [acknowledgment, htile, GridKind.shown]
  · exact rfl

theorem reveals_revealTowers (i : RevealCall) :
    Reveals .towers betReference base i (revealTowers i.fresh i.userId i.sessionId betReference i.tile) w 0
      fun data v g => Acknowledges betReference i (.towers data) v g := by
  refine reveals_oneRead (oneRead_requireOpenSession ..) fun v ⟨session, game⟩ _ hseat => ?_
  refine reveals_oneRead (oneRead_findRound ..) fun u bet hu hbet => ?_
  have hseat := AtTable.of_run hseat
  have hround := (run_findRound hbet).hasRound
  obtain ⟨session', hseat'⟩ := hseat.move hu
  split
  · rename_i tile htile
    refine reveals_done (done_orThrew _) fun difficulty hdifficulty => ?_
    dsimp only
    split
    · exact rfl
    split
    · exact rfl
    split
    · refine safe_bind ((reveals_settleLost _ _ hround).mono fun _ x _ h => ?_)
      exact .inl h.1
    · refine reveals_record hround (fun _ => rfl) (fun b hsel game' hgame' hslug m hm => ?_) fun x hx => ?_
      · obtain rfl := game_eq_of_slug hgame' hseat'.game_mem (hslug.trans hseat'.game_slug.symm)
        rw [toFixed_towersMultiplier]
        have hsame : b.difficulty = some difficulty := by
          rw [← orThrew_ok hdifficulty]
          unfold Bet.difficulty
          rw [hsel]
        change m ∈ b.difficulty.map _ at hm
        rw [hsame] at hm
        exact Option.some.inj hm
      split
      · obtain ⟨session'', hseat''⟩ := hseat'.move hx
        refine (reveals_cashOutTowers i.fresh hseat'' (hround.move hx) (by simp)).mono fun _ y _ h => ?_
        exact .inl h.1
      · refine .inr ?_
        simp [acknowledgment, htile, GridKind.shown]
  · exact rfl

/-- **At every program point a reveal holds the tile it has written**, and when it has answered the one it has
acknowledged. -/
theorem reveals_prog (D : Digest) (kind : GridKind) (betReference : String) (base : List Nat) (i : RevealCall)
    (w : RevealWorld) :
    Reveals kind betReference base i (i.prog D kind betReference) w 0 (Acknowledges betReference i) := by
  cases kind with
  | mines => exact safe_bind ((reveals_revealMines i).mono fun _ _ _ h => h)
  | towers => exact safe_bind ((reveals_revealTowers i).mono fun _ _ _ h => h)

/-! ## All interleavings -/

theorem acknowledges_of_rely (i : RevealCall) (r : Response) (w v : RevealWorld) (g : Multiset (ℕ × ℕ))
    (hv : RevealsMove w.store v.store) (h : Acknowledges betReference i r w g) : Acknowledges betReference i r v g :=
  h.imp (fun hclosed => hclosed.move hv) id

/-- When all calls have ended and the round is open, what they hold is what they have acknowledged. -/
theorem sum_eq_acknowledged (hopen : ¬ Closed w.store betReference) :
    ∀ {ts : List (RevealCall × Sql Response)} {gs : List (Multiset (ℕ × ℕ))},
      List.Forall₂ (fun t g => Reveals kind betReference base t.1 t.2 w g (Acknowledges betReference t.1)) ts gs →
      (∀ t ∈ ts, t.2.done = true) → gs.sum = (ts.filterMap acknowledgedBy : Multiset (ℕ × ℕ))
  | _, _, .nil, _ => rfl
  | (i, p) :: ts, g :: gs, .cons ht hts, hd => by
    have hrest := sum_eq_acknowledged hopen hts fun t h => hd t (by simp [h])
    have hone : g = (acknowledgedBy (i, p)).elim 0 singleton := by
      obtain ⟨r, rfl⟩ | ⟨e, rfl⟩ := Prog.done_cases (hd (i, p) (by simp))
      · exact ht.resolve_left hopen
      · exact ht
    rw [List.sum_cons, hrest, hone]
    cases hack : acknowledgedBy (i, p) with
    | none => simp [hack]
    | some e => simp [hack]

/-- **No acknowledged reveal is lost in a run whose reveals all find the list they have read.** With no call in flight,
an open round shows what it did at the start and then each acknowledged tile, in its place, and its multiplier is the
one for that many. -/
theorem no_reveal_lost (D : Digest) (kind : GridKind) (db : Db) (bet : Bet) (hbet : bet ∈ db.bets.rows)
    (hprice : ∀ game ∈ db.games.rows, game.slug = kind.slug → ∀ multiplier ∈ kind.price game.houseEdge bet,
      bet.multiplier = multiplier)
    (ms : List (Move RevealCall Fault)) (c : RevealPool)
    (hc : (Pool.init db).replay exec (RevealCall.prog D kind bet.reference) ms = some c)
    (hok : OkMoves (revealDiscipline kind bet.reference (kind.shown bet)) exec (RevealCall.prog D kind bet.reference)
      (Pool.init db : RevealPool) ms) (hidle : c.Idle) :
    ∀ b ∈ c.store.bets.rows, b.reference = bet.reference → b.status = .open →
      ∃ tiles, kind.shown b = kind.shown bet ++ tiles ∧
        (acknowledged c).Perm (tiles.zipIdx (kind.shown bet).length) ∧
        ∀ game ∈ c.store.games.rows, game.slug = kind.slug → ∀ multiplier ∈ kind.price game.houseEdge b,
          b.multiplier = multiplier := by
  have hstart : GrownBy kind bet.reference (kind.shown bet) db 0 := by
    intro b hb href _
    obtain rfl := bet_eq_of_reference hb hbet href
    exact ⟨[], by simp, rfl, hprice⟩
  have hinit : PoolSafe (revealDiscipline kind bet.reference (kind.shown bet)) exec (Acknowledges bet.reference)
      (Pool.init db : RevealPool) := ⟨[], .nil, hstart⟩
  obtain ⟨-, gs, hgs, hinv⟩ :=
    replay_poolSafe (reveals_prog D kind bet.reference (kind.shown bet)) acknowledges_of_rely hc hok hinit
  intro b hb href hopen
  obtain ⟨tiles, htiles, hheld, hmult⟩ := hinv b hb href hopen
  refine ⟨tiles, htiles, ?_, hmult⟩
  have hsum := sum_eq_acknowledged (fun hclosed => hclosed b hb href hopen) hgs hidle
  exact Multiset.coe_eq_coe.1 (hsum.symm.trans hheld.symm)

/-! ## Two reveals at once -/

instance (kind : GridKind) (betReference : String) (base : List Nat) (w : RevealWorld) (i : RevealCall) :
    ∀ q, Decidable ((revealDiscipline kind betReference base).ok w i q)
  | .updateBet p set =>
    inferInstanceAs (Decidable (set.status = none → ∀ b ∈ w.store.bets.rows, p b = true →
      (kind.shown (Settable.apply set b)).dropLast = kind.shown b))
  | .selectGame _ | .selectExcluded _ | .selectSession _ | .selectSessionGame _ | .insertSession _
  | .updateSession _ _ | .selectWallet _ | .insertWallet _ | .updateWallet _ _ | .selectTransaction _
  | .selectTransactionUser _ | .insertTransactions _ | .updateTransaction _ _ | .selectBet _ | .insertBet _
  | .selectControl _ | .updateControl _ _ => .isTrue trivial

/-- A Mines round of $5 with no tile revealed. -/
def startedDb : Db :=
  ((serve zeroDigest (freshAt 1) (.startMines "u1" "s1" (some 5) (some 3))).run exec (tableDb .mines)).2

def revealAt (n : Nat) (tile : Num) : RevealCall where
  fresh := freshAt n
  userId := "u1"
  sessionId := "s1"
  tile := tile

/-- Both calls read the round before either of them writes. -/
def bothReveal : List (Move RevealCall Fault) :=
  [.start (revealAt 2 (some 20)), .start (revealAt 3 (some 21))] ++ [0, 0, 1, 1, 0, 1].map .stmt

/-- Both tiles are answered to be safe, and the round shows one of them. -/
theorem reveal_lost :
    ∃ c, (Pool.init startedDb).replay exec (RevealCall.prog zeroDigest .mines "MIN-1") bothReveal = some c ∧ c.Idle ∧
      ∃ b ∈ c.store.bets.rows, b.reference = "MIN-1" ∧ b.status = .open ∧
        ∃ tile ∈ acknowledged c, tile.1 ∉ b.revealed := by
  have hrun : ((Pool.init startedDb).replay exec (RevealCall.prog zeroDigest .mines "MIN-1") bothReveal).any
      (fun c => decide (c.Idle ∧ ∃ b ∈ c.store.bets.rows, b.reference = "MIN-1" ∧ b.status = .open ∧
        ∃ tile ∈ acknowledged c, tile.1 ∉ b.revealed)) = true := by
    decide +kernel
  obtain ⟨c, hc, h⟩ := (Option.any_eq_true _ _).1 hrun
  rw [decide_eq_true_eq] at h
  exact ⟨c, hc, h⟩

/-- The second call reads the round when the first one has written it. -/
def revealInTurn : List (Move RevealCall Fault) :=
  [.start (revealAt 2 (some 20)), .start (revealAt 3 (some 21))] ++ [0, 0, 1, 0, 1, 1].map .stmt

theorem no_reveal_lost_in_turn :
    ∃ bet ∈ startedDb.bets.rows, ∃ c,
      (Pool.init startedDb).replay exec (RevealCall.prog zeroDigest .mines bet.reference) revealInTurn = some c ∧
      (acknowledged c).length = 2 ∧ ∀ b ∈ c.store.bets.rows, b.reference = bet.reference → b.status = .open →
        ∃ tiles, GridKind.mines.shown b = GridKind.mines.shown bet ++ tiles ∧
          (acknowledged c).Perm (tiles.zipIdx (GridKind.mines.shown bet).length) ∧
          ∀ game ∈ c.store.games.rows, game.slug = GridKind.mines.slug →
            ∀ multiplier ∈ GridKind.mines.price game.houseEdge b, b.multiplier = multiplier := by
  have hrun : startedDb.bets.rows.any (fun bet =>
      decide (∀ game ∈ startedDb.games.rows, game.slug = GridKind.mines.slug →
        ∀ multiplier ∈ GridKind.mines.price game.houseEdge bet, bet.multiplier = multiplier) &&
      decide (OkMoves (revealDiscipline .mines bet.reference (GridKind.mines.shown bet)) exec
        (RevealCall.prog zeroDigest .mines bet.reference) (Pool.init startedDb : RevealPool) revealInTurn) &&
      ((Pool.init startedDb).replay exec (RevealCall.prog zeroDigest .mines bet.reference) revealInTurn).any fun c =>
        decide (c.Idle ∧ (acknowledged c).length = 2)) = true := by
    decide +kernel
  obtain ⟨bet, hbet, h⟩ := List.any_eq_true.1 hrun
  simp only [Bool.and_eq_true, decide_eq_true_eq] at h
  obtain ⟨⟨hprice, hok⟩, hreplay⟩ := h
  obtain ⟨c, hc, hidle⟩ := (Option.any_eq_true _ _).1 hreplay
  rw [decide_eq_true_eq] at hidle
  exact ⟨bet, hbet, c, hc, hidle.2,
    no_reveal_lost zeroDigest .mines startedDb bet hbet hprice revealInTurn c hc hok hidle.1⟩

end Smink
