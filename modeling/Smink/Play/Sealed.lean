import Smink.Play.Effects
import Smink.Play.Seated

/-!
# Commitments stand

A bet commits to its seeds, its selection and its layout when it is inserted. A reveal reads the bet, and later writes
the whole outcome back, layout included; other calls run in between. `sealDiscipline` says that every bet is what its
seeds determine (`Sealed`), and its rely that the commitment of a bet never changes (`SameCommitment`). So what a call
writes back is what is there (`commitments_stand`), in every interleaving and also where statements fail.
-/

namespace Smink

open Store

/-! ## What a bet commits to -/

/-- The bet, with the course that another has taken. -/
def Bet.withCourse (b a : Bet) : Bet :=
  { b with multiplier := a.multiplier, payout := a.payout, status := a.status, outcome := a.outcome,
           settledAt := a.settledAt }

/-- The bets differ in their course only; one without a layout does not differ at all. -/
structure SameCommitment (b b' : Bet) : Prop where
  fixed : b'.withCourse b = b
  mines : b'.minePositions = b.minePositions
  traps : b'.traps = b.traps
  instant : b.minePositions = none → b.traps = none → b' = b

/-- The bet is what its seeds, its selection and the decision about it determine. -/
structure Sealed (D : Digest) (game : Game) (b : Bet) : Prop where
  hash : b.serverSeedHash = hashSeed D b.serverSeed
  mines : game.slug = .mines → ∃ selection forced, b.selection = some (.mines selection) ∧
    b.wasControlled = forced.isSome ∧ b.minePositions = some (buildMinesGrid selection (b.draws D) forced)
  towers : game.slug = .towers → ∃ selection forced, b.selection = some (.towers selection) ∧
    b.wasControlled = forced.isSome ∧ b.traps = some (buildTowersGrid selection (b.draws D) forced)
  instant : isInstantGame game.slug = true → ∃ selection forced raw, b.selection = some selection ∧
    b.wasControlled = forced.isSome ∧ resolveRound game.slug selection (b.draws D) game.config forced = some raw ∧
      b.outcome = some raw.outcome

/-- The bet is sealed, as one of the game of its session. -/
def SealedRow (D : Digest) (db : Db) (b : Bet) : Prop :=
  ∃ s ∈ db.gameSessions.rows, ∃ game ∈ db.games.rows, b.sessionId = some s.id ∧ s.gameId = game.id ∧
    b.gameId = game.id ∧ Sealed D game b

section Bets

variable {D : Digest} {game : Game} {a b c : Bet}

theorem SameCommitment.refl (b : Bet) : SameCommitment b b := ⟨rfl, rfl, rfl, fun _ _ => rfl⟩

theorem SameCommitment.trans (h : SameCommitment a b) (h' : SameCommitment b c) : SameCommitment a c where
  fixed := by
    show (c.withCourse b).withCourse a = a
    rw [h'.fixed, h.fixed]
  mines := h'.mines.trans h.mines
  traps := h'.traps.trans h.traps
  instant hmines htraps := by
    have hb := h.instant hmines htraps
    subst hb
    exact h'.instant hmines htraps

/-- What does not belong to the course. -/
theorem SameCommitment.congr {β : Type} (h : SameCommitment a b) (f : Bet → β)
    (hf : ∀ x y : Bet, f (x.withCourse y) = f x) : f b = f a := by
  rw [← h.fixed, hf]

theorem SameCommitment.id_eq (h : SameCommitment a b) : b.id = a.id := h.congr Bet.id fun _ _ => rfl

theorem SameCommitment.draws_eq (h : SameCommitment a b) : b.draws D = a.draws D :=
  h.congr (Bet.draws D) fun _ _ => rfl

/-- An instant game has no layout. -/
theorem Sealed.no_layout (h : Sealed D game b) (hgame : isInstantGame game.slug = true) :
    b.minePositions = none ∧ b.traps = none := by
  obtain ⟨selection, forced, raw, -, -, hraw, houtcome⟩ := h.instant hgame
  unfold Bet.minePositions Bet.traps
  rw [houtcome]
  unfold resolveRound at hraw
  split at hraw
  all_goals
    cases hraw
    try exact ⟨rfl, rfl⟩

/-- The seal goes with the commitment. -/
theorem Sealed.move (h : Sealed D game b) (hb : SameCommitment b c) : Sealed D game c where
  hash := by
    rw [hb.congr Bet.serverSeedHash fun _ _ => rfl, hb.congr Bet.serverSeed fun _ _ => rfl]
    exact h.hash
  mines hgame := by
    rw [hb.congr Bet.selection fun _ _ => rfl, hb.congr Bet.wasControlled fun _ _ => rfl, hb.draws_eq, hb.mines]
    exact h.mines hgame
  towers hgame := by
    rw [hb.congr Bet.selection fun _ _ => rfl, hb.congr Bet.wasControlled fun _ _ => rfl, hb.draws_eq, hb.traps]
    exact h.towers hgame
  instant hgame := by
    obtain ⟨hmines, htraps⟩ := h.no_layout hgame
    rw [hb.instant hmines htraps]
    exact h.instant hgame

theorem applyWinCap_outcome (raw : RoundResult) (rule : Option ControlRule) :
    (applyWinCap raw rule).outcome = raw.outcome := by
  unfold applyWinCap
  split
  · rfl
  · split_ifs <;> rfl

end Bets

/-! ## The discipline -/

/-- Every commitment of the first database stands in the second. -/
structure CommitmentsKept (db t : Db) : Prop where
  games : t.games = db.games
  sessions : SessionsPersist db t
  bets : ∀ b ∈ db.bets.rows, ∃ b' ∈ t.bets.rows, SameCommitment b b'

theorem CommitmentsKept.refl (db : Db) : CommitmentsKept db db := ⟨rfl, .of_eq rfl, fun b hb => ⟨b, hb, .refl b⟩⟩

theorem CommitmentsKept.trans {db t u : Db} (h : CommitmentsKept db t) (h' : CommitmentsKept t u) :
    CommitmentsKept db u := by
  refine ⟨h'.games.trans h.games, h.sessions.trans h'.sessions, fun b hb => ?_⟩
  obtain ⟨b', hb', hsame⟩ := h.bets b hb
  obtain ⟨b'', hb'', hsame'⟩ := h'.bets b' hb'
  exact ⟨b'', hb'', hsame.trans hsame'⟩

/-- Nothing is held; that the bets are sealed is the invariant. -/
def sealDiscipline (D : Digest) : Discipline Call Stmt Db Unit where
  inv w _ := ∀ b ∈ w.store.bets.rows, SealedRow D w.store b
  rely w v := CommitmentsKept w.store v.store
  rely_refl w := .refl w.store
  rely_trans h h' := h.trans h'
  ok _ _ _ := True

section Seals

variable {D : Digest} {i : Call} {w : World Call Stmt Db} {fresh : Fresh} {userId sessionId : Id}
  {betReference : String}
  {bet : Bet} {game : Game} {slug : GameSlug} {db t : Db} {α β : Type}

/-- Every statement that the program can execute keeps the bets sealed. -/
def KeepsSeals (D : Digest) (i : Call) (p : Sql α) (w : World Call Stmt Db) : Prop :=
  Safe (sealDiscipline D) exec i p w 0 Released

theorem SealedRow.persist {b b' : Bet} (h : SealedRow D db b) (hs : SessionsPersist db t) (hg : t.games = db.games)
    (hb : SameCommitment b b') : SealedRow D t b' := by
  obtain ⟨s, hmem, game, hgame, hses, hat, hof, hseal⟩ := h
  obtain ⟨s', hmem', hid, -, hgameId, -⟩ := hs s hmem
  refine ⟨s', hmem', game, by rw [hg]; exact hgame, ?_, hgameId.trans hat, ?_, hseal.move hb⟩
  · rw [hb.congr Bet.sessionId fun _ _ => rfl, hid]
    exact hses
  · rw [hb.congr Bet.gameId fun _ _ => rfl]
    exact hof

/-! ## One statement -/

theorem seals_respects : Respects (sealDiscipline D) exec Stmt.sparesBets := by
  intro v i q g r s hq h _ hr
  have hbets := exec_sparesBets hq hr
  have hkept : CommitmentsKept v.store s := by
    refine ⟨exec_games hr, exec_sessions hr, fun b hb => ⟨b, ?_, .refl b⟩⟩
    rw [hbets]
    exact hb
  refine ⟨hkept, fun b hb => ?_⟩
  have hold : b ∈ v.store.bets.rows := by
    rw [← hbets]
    exact hb
  exact (h b hold).persist hkept.sessions hkept.games (.refl b)

theorem seals_bind {p : Sql α} {f : α → Sql β} (hp : KeepsSeals D i p w) (hf : ∀ a v, KeepsSeals D i (f a) v) :
    KeepsSeals D i (p >>= f) w :=
  safe_bind_released hp hf

/-- A program that writes no bets. -/
theorem seals_quiet {p : Sql α} (hp : Reads Stmt.sparesBets p) : KeepsSeals D i p w :=
  (safe_of_respects seals_respects hp).mono fun _ _ _ h => h.2

/-- A part of a call that writes no bets. -/
theorem seals_then {p : Sql α} {f : α → Sql β} (hp : Reads Stmt.sparesBets p)
    (hf : ∀ a v, CommitmentsKept w.store v.store → KeepsSeals D i (f a) v) : KeepsSeals D i (p >>= f) w := by
  refine safe_bind ((safe_of_respects seals_respects hp).mono fun a v g h => ?_)
  obtain ⟨hv, rfl⟩ := h
  exact hf a v hv

theorem seals_done {p : Sql α} {f : α → Sql β} (hp : p.done = true) (hf : ∀ a, p = .ret a → KeepsSeals D i (f a) w) :
    KeepsSeals D i (p >>= f) w := by
  obtain ⟨a, rfl⟩ | ⟨e, rfl⟩ := Prog.done_cases hp
  · exact hf a rfl
  · exact rfl

theorem seals_readFree : ReadFree (sealDiscipline D) Stmt.isRead := fun _ _ _ _ _ h => ⟨.refl _, h⟩

/-! ## A seat, and the round that a call has read -/

/-- The session is at the game. -/
def SeatAt (db : Db) (sessionId : Id) (game : Game) : Prop :=
  game ∈ db.games.rows ∧ ∃ s ∈ db.gameSessions.rows, s.id = sessionId ∧ s.gameId = game.id

theorem SeatAt.persist (h : SeatAt db sessionId game) (ht : CommitmentsKept db t) : SeatAt t sessionId game := by
  obtain ⟨hgame, s, hs, hid, hat⟩ := h
  obtain ⟨s', hs', hid', -, hat', -⟩ := ht.sessions s hs
  refine ⟨?_, s', hs', hid'.trans hid, hat'.trans hat⟩
  rw [ht.games]
  exact hgame

/-- The check that finds the session. -/
theorem seals_requireOpenSession {f : GameSession × Game → Sql β}
    (hf : ∀ session game v, game.slug = slug → SeatAt v.store sessionId game → KeepsSeals D i (f (session, game)) v) :
    KeepsSeals D i (requireOpenSession userId sessionId slug >>= f) w := by
  refine safe_bind (safe_oneRead readOnly seals_readFree (oneRead_requireOpenSession ..) fun v
    ⟨session, game⟩ _ _ _ hr => ?_)
  have hopen := run_requireOpenSession hr
  exact hf session game v hopen.game_slug
    ⟨hopen.game_mem, session, hopen.session_mem, hopen.session_id, hopen.game_id.symm⟩

/-- The bet that a call has read: it has a layout, and the commitment of its row is the same. -/
structure HoldsRound (db : Db) (bet : Bet) : Prop where
  row : ∃ b ∈ db.bets.rows, SameCommitment bet b
  layout : bet.minePositions.isSome = true ∨ bet.traps.isSome = true

theorem HoldsRound.persist (h : HoldsRound db bet) (ht : CommitmentsKept db t) : HoldsRound t bet := by
  obtain ⟨b, hb, hsame⟩ := h.row
  obtain ⟨b', hb', hsame'⟩ := ht.bets b hb
  exact ⟨⟨b', hb', hsame.trans hsame'⟩, h.layout⟩

/-- A bet of a session at the game is sealed as one of the game. -/
theorem sealed_at (h : SealedRow D db bet) (hseat : SeatAt db sessionId game) (hses : bet.sessionId = some sessionId) :
    Sealed D game bet := by
  obtain ⟨s, hs, game', hgame', hid, hat, -, hseal⟩ := h
  obtain ⟨hgame, s', hs', hid', hat'⟩ := hseat
  obtain rfl := session_eq_of_id hs hs' ((Option.some.inj (hid.symm.trans hses)).trans hid'.symm)
  obtain rfl := game_eq_of_id hgame hgame' (hat'.symm.trans hat)
  exact hseal

/-- The check that finds the round, by a call that has found the session. -/
theorem seals_findRound {f : Bet → Sql β} (hseat : SeatAt w.store sessionId game)
    (hf : ∀ bet v, CommitmentsKept w.store v.store → Sealed D game bet →
      (∃ b ∈ v.store.bets.rows, SameCommitment bet b) →
      KeepsSeals D i (f bet) v) :
    KeepsSeals D i (findRound userId sessionId betReference >>= f) w := by
  refine safe_bind (safe_oneRead readOnly seals_readFree (oneRead_findRound ..) fun v bet _ hv hinv hr => ?_)
  have hround := run_findRound hr
  exact hf bet v hv (sealed_at (hinv bet hround.mem) (hseat.persist hv) hround.session) ⟨bet, hround.mem, .refl bet⟩

/-- The update leaves the layout that the call has read. -/
def KeepsLayout (bet : Bet) (set : BetSet) : Prop :=
  ∀ outcome ∈ set.outcome, ∀ b : Bet, b.outcome = some outcome →
    b.minePositions = bet.minePositions ∧ b.traps = bet.traps

theorem SameCommitment.apply {b : Bet} (h : SameCommitment bet b) {set : BetSet} (hset : KeepsLayout bet set)
    (hlayout : bet.minePositions.isSome = true ∨ bet.traps.isSome = true) :
    SameCommitment b (Settable.apply set b) := by
  have hkept : (Settable.apply set b : Bet).minePositions = b.minePositions ∧
      (Settable.apply set b : Bet).traps = b.traps := by
    cases hout : set.outcome with
    | none => simp [Bet.minePositions, Bet.traps, Settable.apply, hout]
    | some outcome =>
      obtain ⟨hmines, htraps⟩ := hset outcome (by simp [hout]) (Settable.apply set b) (by simp [Settable.apply, hout])
      exact ⟨hmines.trans h.mines.symm, htraps.trans h.traps.symm⟩
  refine ⟨rfl, hkept.1, hkept.2, fun hmines htraps => ?_⟩
  rw [h.mines] at hmines
  rw [h.traps] at htraps
  rw [hmines, htraps] at hlayout
  obtain hlayout | hlayout := hlayout <;> cases hlayout

/-- A call writes back a round that it has read. -/
theorem seals_updateBet {set : BetSet} {f : Unit → Sql α} (hbet : HoldsRound w.store bet) (hset : KeepsLayout bet set)
    (hf : ∀ u, CommitmentsKept w.store u.store → KeepsSeals D i (f ()) u) :
    KeepsSeals D i (perform (.updateBet (fun b => b.id == bet.id) set) >>= f) w := by
  intro v hv frame hinv _ r s hr
  cases hr
  obtain ⟨a, ha, hsame⟩ := (hbet.persist hv).row
  have hrow : ∀ b ∈ v.store.bets.rows, SameCommitment b (Table.updateRow (fun b => b.id == bet.id) set b) := by
    intro b hb
    cases hp : b.id == bet.id with
    | true =>
      rw [Table.updateRow_pos (p := fun b : Bet => b.id == bet.id) hp]
      obtain rfl := bet_eq_of_id hb ha ((beq_iff_eq.1 hp).trans hsame.id_eq.symm)
      exact hsame.apply hset hbet.layout
    | false =>
      rw [Table.updateRow_neg (p := fun b : Bet => b.id == bet.id) hp]
      exact .refl b
  have hkept : CommitmentsKept v.store
      { v.store with bets := v.store.bets.update (fun b => b.id == bet.id) set } :=
    ⟨rfl, .of_eq rfl, fun b hb => ⟨_, Table.mem_update.2 ⟨b, hb, rfl⟩, hrow b hb⟩⟩
  refine ⟨hkept, 0, fun b' hb' => ?_, hf _ (hv.trans hkept)⟩
  obtain ⟨b, hb, rfl⟩ := Table.mem_update.1 hb'
  exact (hinv b hb).persist hkept.sessions hkept.games (hrow b hb)

/-- A sealed bet is inserted in the session that was found. -/
theorem seals_insertBet {b : Bet} {f : Unit → Sql α} (hseat : SeatAt w.store sessionId game)
    (hses : b.sessionId = some sessionId) (hgame : b.gameId = game.id) (hseal : Sealed D game b)
    (hf : Reads Stmt.sparesBets (f ())) : KeepsSeals D i (perform (.insertBet b) >>= f) w := by
  intro v hv frame hinv _ r s hr
  obtain ⟨bets, hins, he⟩ := orThrow_ok hr
  cases he
  have hkept : CommitmentsKept v.store { v.store with bets } := by
    refine ⟨rfl, .of_eq rfl, fun a ha => ⟨a, ?_, .refl a⟩⟩
    rw [Table.rows_insert hins]
    exact List.mem_append_left _ ha
  refine ⟨hkept, 0, fun a ha => ?_, seals_quiet hf⟩
  have hmem : a ∈ bets.rows := ha
  rw [Table.rows_insert hins] at hmem
  rcases List.mem_append.1 hmem with hold | hnew
  · exact (hinv a hold).persist hkept.sessions hkept.games (.refl a)
  · obtain rfl := List.mem_singleton.1 hnew
    obtain ⟨hmem, s, hs, hid, hat⟩ := hseat.persist hv
    exact ⟨s, hs, game, hmem, by rw [hses, hid], hat, hgame, hseal⟩

/-! ## Grid rounds -/

theorem keepsLayout_cashOut (now : Time) (payout : Money) : KeepsLayout bet (cashedOutSet now payout) :=
  fun _ h => by cases h

/-- The outcome that a Mines reveal writes has the mines that it has read. -/
theorem keepsLayout_mines {positions : List Nat} (hbet : bet.minePositions = some positions) (revealed : List Nat)
    {set : BetSet} (hset : set.outcome = some (.mines positions revealed)) : KeepsLayout bet set := by
  have htraps : bet.traps = none := by
    unfold Bet.minePositions at hbet
    unfold Bet.traps
    split at hbet
    · rename_i h
      rw [h]
    · cases hbet
  intro outcome hout b hb
  obtain rfl := Option.some.inj (hset.symm.trans hout)
  rw [hbet, htraps]
  simp [Bet.minePositions, Bet.traps, hb]

theorem keepsLayout_towers {traps : List (List Nat)} (hbet : bet.traps = some traps) (picks : List Nat)
    {set : BetSet} (hset : set.outcome = some (.towers traps picks)) : KeepsLayout bet set := by
  have hmines : bet.minePositions = none := by
    unfold Bet.traps at hbet
    unfold Bet.minePositions
    split at hbet
    · rename_i h
      rw [h]
    · cases hbet
  intro outcome hout b hb
  obtain rfl := Option.some.inj (hset.symm.trans hout)
  rw [hbet, hmines]
  simp [Bet.minePositions, Bet.traps, hb]

theorem seals_settleLost (now : Time) {outcome : GameOutcome} (hbet : HoldsRound w.store bet)
    (hset : KeepsLayout bet (lostSet now outcome)) : KeepsSeals D i (settleLost now userId bet outcome) w := by
  unfold settleLost
  refine seals_then (p := perform _) ⟨rfl, fun _ => trivial⟩ fun _ v hv => ?_
  exact seals_updateBet (f := fun _ => .ret ()) (hbet.persist hv) hset fun _ _ => rfl

theorem seals_payOut (hbet : HoldsRound w.store bet) :
    KeepsSeals D i (payOut fresh slug userId sessionId betReference bet) w := by
  unfold payOut
  refine seals_then (p := ask _) ⟨rfl, fun _ => trivial⟩ fun wallets v hv => ?_
  refine seals_updateBet (hbet.persist hv) (keepsLayout_cashOut _ _) fun u _ => seals_quiet ?_
  refine reads_bind (p := perform (.insertTransactions _)) ⟨rfl, fun _ => trivial⟩ fun _ => ?_
  exact reads_bind (p := bumpSession _ _ _) ⟨rfl, fun _ => trivial⟩ fun _ => trivial

theorem Sealed.mines_layout (h : Sealed D game bet) (hgame : game.slug = .mines) :
    ∃ positions, bet.minePositions = some positions := by
  obtain ⟨selection, forced, -, -, hmines⟩ := h.mines hgame
  exact ⟨_, hmines⟩

theorem Sealed.towers_layout (h : Sealed D game bet) (hgame : game.slug = .towers) :
    ∃ traps, bet.traps = some traps := by
  obtain ⟨selection, forced, -, -, htraps⟩ := h.towers hgame
  exact ⟨_, htraps⟩

theorem seals_cashOutMines : KeepsSeals D i (cashOutMines fresh userId sessionId betReference) w := by
  refine seals_requireOpenSession fun session game v hslug hseat => ?_
  refine seals_findRound hseat fun bet v hv hseal hrow => ?_
  obtain ⟨positions, hmines⟩ := hseal.mines_layout hslug
  split
  · exact rfl
  · exact seals_bind (seals_payOut ⟨hrow, .inl (by simp [hmines])⟩) fun _ _ => rfl

theorem seals_cashOutTowers : KeepsSeals D i (cashOutTowers fresh userId sessionId betReference) w := by
  refine seals_requireOpenSession fun session game v hslug hseat => ?_
  refine seals_findRound hseat fun bet v hv hseal hrow => ?_
  obtain ⟨traps, htraps⟩ := hseal.towers_layout hslug
  split
  · exact rfl
  · refine seals_bind (seals_payOut ⟨hrow, .inr (by simp [htraps])⟩) fun _ _ => ?_
    exact seals_done (done_orThrew _) fun _ _ => rfl

theorem seals_revealMines (tile : Num) :
    KeepsSeals D i (revealMines fresh userId sessionId betReference tile) w := by
  unfold revealMines
  split
  · split
    · exact rfl
    refine seals_requireOpenSession fun session game v hslug hseat => ?_
    refine seals_findRound hseat fun bet v hv hseal hrow => ?_
    obtain ⟨positions, hmines⟩ := hseal.mines_layout hslug
    have hbet : HoldsRound v.store bet := ⟨hrow, .inl (by simp [hmines])⟩
    have hstored : bet.minePositions.getD [] = positions := by rw [hmines, Option.getD_some]
    dsimp only
    split
    · exact rfl
    split
    · refine seals_bind (seals_settleLost _ hbet ?_) fun _ _ => rfl
      exact keepsLayout_mines hmines _ (congrArg (fun ps => some (GameOutcome.mines ps _)) hstored)
    · refine seals_updateBet hbet (keepsLayout_mines hmines _
        (congrArg (fun ps => some (GameOutcome.mines ps _)) hstored)) fun u _ => ?_
      split
      · exact seals_cashOutMines
      · exact rfl
  · exact rfl

theorem seals_revealTowers (tile : Num) :
    KeepsSeals D i (revealTowers fresh userId sessionId betReference tile) w := by
  refine seals_requireOpenSession fun session game v hslug hseat => ?_
  refine seals_findRound hseat fun bet v hv hseal hrow => ?_
  obtain ⟨traps, htraps⟩ := hseal.towers_layout hslug
  have hbet : HoldsRound v.store bet := ⟨hrow, .inr (by simp [htraps])⟩
  have hstored : bet.traps.getD [] = traps := by rw [htraps, Option.getD_some]
  split
  · refine seals_done (done_orThrew _) fun difficulty _ => ?_
    dsimp only
    split
    · exact rfl
    split
    · exact rfl
    split
    · refine seals_bind (seals_settleLost _ hbet ?_) fun _ _ => rfl
      exact keepsLayout_towers htraps _ (congrArg (fun ts => some (GameOutcome.towers ts _)) hstored)
    · refine seals_updateBet hbet (keepsLayout_towers htraps _
        (congrArg (fun ts => some (GameOutcome.towers ts _)) hstored)) fun u _ => ?_
      split
      · exact seals_cashOutTowers
      · exact rfl
  · exact rfl

/-! ## Bets -/

theorem sparesBets_of_onWallets (q : Stmt) (hq : q.onWallets = true) : q.sparesBets = true := by
  cases q <;> first | rfl | cases hq

theorem sparesBets_oneRead {p : Sql α} (hp : OneRead Stmt.isRead p) : Reads Stmt.sparesBets p :=
  hp.reads.mono sparesBets_of_isRead

/-- The layout of a round that is opened seals it. -/
def SealsRounds {Sel : Type} (G : GridGame Sel) : Prop :=
  ∀ (D : Digest) (game : Game) (b : Bet) (validated : GameSelection) (selection : Sel) (forced : ForcedResult),
    game.slug = G.slug → G.ofSelection validated = some selection → b.selection = some validated →
      b.outcome = some (G.layout selection (b.draws D) forced) → b.wasControlled = forced.isSome →
        b.serverSeedHash = hashSeed D b.serverSeed → Sealed D game b

theorem sealsRounds_mines : SealsRounds minesGame := by
  intro D game b validated selection forced hslug hof hsel hout hcontrolled hhash
  have hmines : game.slug = .mines := hslug
  have hvalid : validated = .mines selection := by
    cases validated <;> cases hof
    rfl
  refine ⟨hhash, fun _ => ⟨selection, forced, by rw [hsel, hvalid], hcontrolled, ?_⟩, fun h => ?_, fun h => ?_⟩
  · simp [Bet.minePositions, hout, minesGame]
  · rw [hmines] at h
    cases h
  · rw [hmines] at h
    cases h

theorem sealsRounds_towers : SealsRounds towersGame := by
  intro D game b validated selection forced hslug hof hsel hout hcontrolled hhash
  have htowers : game.slug = .towers := hslug
  have hvalid : validated = .towers selection := by
    cases validated <;> cases hof
    rfl
  refine ⟨hhash, fun h => ?_, fun _ => ⟨selection, forced, by rw [hsel, hvalid], hcontrolled, ?_⟩, fun h => ?_⟩
  · rw [htowers] at h
    cases h
  · simp [Bet.traps, hout, towersGame]
  · rw [htowers] at h
    cases h

theorem seals_openRound {Sel : Type} {G : GridGame Sel} (hG : SealsRounds G) (stakeInput : Num)
    (selectionInput : RawSelection) :
    KeepsSeals D i (openRound G D fresh userId sessionId stakeInput selectionInput) w := by
  refine seals_requireOpenSession fun session game v hslug hseat => ?_
  refine seals_done (done_orInvalid _) fun validated _ => ?_
  refine seals_done (done_orFail _) fun stake _ => ?_
  refine seals_then (p := ask _) ⟨rfl, fun _ => trivial⟩ fun opened v hv => ?_
  have hseat := hseat.persist hv
  split
  · exact rfl
  refine seals_then ((onWallets_requireWallet userId).mono sparesBets_of_onWallets) fun wallet v hv => ?_
  have hseat := hseat.persist hv
  refine seals_then (sparesBets_oneRead (oneRead_nextNonce _)) fun nonce v hv => ?_
  have hseat := hseat.persist hv
  refine seals_then (sparesBets_oneRead (oneRead_getControlRule ..)) fun row v hv => ?_
  have hseat := hseat.persist hv
  refine seals_done (done_orThrew _) fun selection hof => ?_
  unfold debitStake
  rw [Prog.bind_assoc]
  refine seals_then (p := ask _) ⟨rfl, fun _ => trivial⟩ fun debited v hv => ?_
  have hseat := hseat.persist hv
  split
  · refine seals_insertBet hseat rfl rfl ?_ ?_
    · exact hG D game _ validated selection _ hslug (orThrew_ok hof) rfl rfl rfl rfl
    · exact ⟨rfl, fun _ => ⟨rfl, fun _ => trivial⟩⟩
  · exact rfl

theorem seals_placeBet (slug : GameSlug) (stakeInput : Num) (selectionInput : RawSelection) :
    KeepsSeals D i (placeBet D fresh userId sessionId slug stakeInput selectionInput) w := by
  unfold placeBet
  split
  · exact rfl
  rename_i hinstant
  have hinstant : isInstantGame slug = true := by simpa using hinstant
  refine seals_requireOpenSession fun session game v hslug hseat => ?_
  refine seals_done (done_orInvalid _) fun validated _ => ?_
  refine seals_done (done_orFail _) fun stake _ => ?_
  refine seals_then ((onWallets_requireWallet userId).mono sparesBets_of_onWallets) fun wallet v hv => ?_
  have hseat := hseat.persist hv
  refine seals_then (sparesBets_oneRead (oneRead_nextNonce _)) fun nonce v hv => ?_
  have hseat := hseat.persist hv
  refine seals_then (sparesBets_oneRead (oneRead_getControlRule ..)) fun row v hv => ?_
  have hseat := hseat.persist hv
  refine seals_done (done_orThrew _) fun raw hraw => ?_
  refine seals_then (p := ask _) ⟨rfl, fun _ => trivial⟩ fun debited v hv => ?_
  have hseat := hseat.persist hv
  split
  · refine seals_insertBet hseat rfl rfl ?_ ?_
    · refine ⟨rfl, fun h => ?_, fun h => ?_, fun _ => ?_⟩
      · rw [← hslug, h] at hinstant
        cases hinstant
      · rw [← hslug, h] at hinstant
        cases hinstant
      · refine ⟨validated, controlFor row wallet slug game (resolveSeeds D fresh nonce), raw, rfl, rfl, ?_, ?_⟩
        · rw [hslug]
          exact orThrew_ok hraw
        · exact congrArg some (applyWinCap_outcome raw _)
    · refine reads_bind (p := perform (.insertTransactions _)) ⟨rfl, fun _ => trivial⟩ fun _ => ?_
      refine reads_bind (p := bumpSession _ _ _) ⟨rfl, fun _ => trivial⟩ fun _ => ?_
      exact reads_bind ((onControls_consumeForcedRound row).mono sparesBets_of_onControls) fun _ => trivial
  · exact rfl

/-! ## Requests -/

theorem seals_serve (D : Digest) (fresh : Fresh) (request : Request) : KeepsSeals D i (serve D fresh request) w := by
  have answer : ∀ {γ δ : Type} {p : Sql γ} {f : γ → δ}, KeepsSeals D i p w →
      KeepsSeals D i (p >>= fun a => Prog.ret (f a)) w :=
    fun hp => seals_bind hp fun _ _ => rfl
  cases request with
  | startSession => exact answer (seals_quiet ((onSessions_startSession _).mono sparesBets_of_onSessions))
  | endSession => exact seals_bind (seals_quiet (onSessions_endSession.mono sparesBets_of_onSessions)) fun _ _ => rfl
  | getSession => exact answer (seals_quiet ((reads_getSession ..).mono sparesBets_of_isRead))
  | placeBet => exact answer (seals_placeBet ..)
  | startMines => exact answer (answer (seals_openRound sealsRounds_mines _ _))
  | revealMines => exact answer (seals_revealMines _)
  | cashOutMines => exact answer seals_cashOutMines
  | getOpenMines => exact answer (seals_quiet ((reads_getOpenMines ..).mono sparesBets_of_isRead))
  | startTowers => exact answer (answer (seals_openRound sealsRounds_towers _ _))
  | revealTowers => exact answer (seals_revealTowers _)
  | cashOutTowers => exact answer seals_cashOutTowers
  | getOpenTowers => exact answer (seals_quiet ((reads_getOpenTowers ..).mono sparesBets_of_isRead))

theorem sparesBets_of_onDeposit (q : Stmt) (hq : q.onDeposit = true) : q.sparesBets = true := by
  cases q <;> first | rfl | cases hq

theorem seals_prog (D : Digest) (i : Call) (w : World Call Stmt Db) : KeepsSeals D i (i.prog D) w := by
  cases i with
  | play fresh request => exact seals_bind (seals_serve D fresh request) fun _ _ => rfl
  | credit now depositId extraMetadata =>
    refine seals_bind (seals_quiet ?_) fun _ _ => rfl
    exact (onDeposit_creditDeposit now depositId extraMetadata).mono sparesBets_of_onDeposit

/-- What a run of moves keeps, from any state in which the bets are sealed. -/
theorem seals_replay {moves : List (Move Call Fault)} {c c' : Pool Call Stmt.Resp Fault Answer Db}
    (hc : c.replay exec (Call.prog D) moves = some c') (hinv : PoolInv (sealDiscipline D) exec c) :
    CommitmentsKept c.store c'.store ∧ PoolInv (sealDiscipline D) exec c' :=
  replay_safe_fail (seals_prog D) hc (mayMoves_of_ok (fun _ _ _ => trivial) moves _) hinv

end Seals

/-- **Commitments stand.** In every state of every interleaving of requests and credited deposits, also where statements
fail, each bet is what its seeds, its selection and the decision about it determine, and its hash is that of its server
seed. Whatever happens from there on, no bet disappears, and nothing of it but its course ever changes. -/
theorem commitments_stand (D : Digest) (db : Db) (hnone : db.bets.rows = []) (moves moves' : List (Move Call Fault))
    (c c' : Pool Call Stmt.Resp Fault Answer Db) (hc : (Pool.init db).replay exec (Call.prog D) moves = some c)
    (hc' : c.replay exec (Call.prog D) moves' = some c') :
    (∀ b ∈ c.store.bets.rows, ∃ game ∈ c.store.games.rows, b.gameId = game.id ∧ Sealed D game b) ∧
      ∀ b ∈ c.store.bets.rows, ∃ b' ∈ c'.store.bets.rows, SameCommitment b b' := by
  have hempty : (sealDiscipline D).inv (⟨db, []⟩ : World Call Stmt Db) () := by
    intro b hb
    have hmem : b ∈ db.bets.rows := hb
    rw [hnone] at hmem
    cases hmem
  have hinit : PoolInv (sealDiscipline D) exec (Pool.init db : Pool Call Stmt.Resp Fault Answer Db) :=
    poolInv_init hempty
  have hsealed := (seals_replay hc hinit).2
  refine ⟨fun b hb => ?_, (seals_replay hc' hsealed).1.bets⟩
  obtain ⟨s, -, game, hgame, -, -, hof, hseal⟩ := hsealed.inv b hb
  exact ⟨game, hgame, hof, hseal⟩

/-- A player opens a Mines round. -/
def opensRound : List (Move Call Fault) :=
  .start (.play (freshAt 1) (.startMines "u1" "s1" (some 5) (some 3))) :: List.replicate 9 (.stmt 0)

/-- Two reveals of the round have read the same bet; one writes it back, and the write of the other fails. -/
def revealsAtOnce : List (Move Call Fault) :=
  [.start (.play (freshAt 2) (.revealMines "u1" "s1" "MIN-1" (some 20))),
    .start (.play (freshAt 3) (.revealMines "u1" "s1" "MIN-1" (some 21))), .stmt 1, .stmt 2, .stmt 1, .stmt 2, .stmt 1,
    .fail 2 .threw]

theorem commitments_stand_revealsAtOnce : ∃ c c' : Pool Call Stmt.Resp Fault Answer Db,
    (Pool.init (tableDb .mines)).replay exec (Call.prog zeroDigest) opensRound = some c ∧
      c.replay exec (Call.prog zeroDigest) revealsAtOnce = some c' ∧
        c'.store.bets.rows.map Bet.revealed = [[20]] ∧ c'.store.bets.rows.map Bet.minePositions = [some [1, 2, 3]] ∧
          (∀ b ∈ c.store.bets.rows, ∃ game ∈ c.store.games.rows, b.gameId = game.id ∧ Sealed zeroDigest game b) ∧
            ∀ b ∈ c.store.bets.rows, ∃ b' ∈ c'.store.bets.rows, SameCommitment b b' := by
  have hrun : ((Pool.init (tableDb .mines)).replay exec (Call.prog zeroDigest) opensRound).any (fun c =>
      (c.replay exec (Call.prog zeroDigest) revealsAtOnce).any fun c' =>
        decide (c'.store.bets.rows.map Bet.revealed = [[20]] ∧
          c'.store.bets.rows.map Bet.minePositions = [some [1, 2, 3]])) = true := by
    decide +kernel
  obtain ⟨c, hc, hrest⟩ := (Option.any_eq_true _ _).1 hrun
  obtain ⟨c', hc', hreached⟩ := (Option.any_eq_true _ _).1 hrest
  obtain ⟨hrevealed, hmines⟩ := of_decide_eq_true hreached
  exact ⟨c, c', hc, hc', hrevealed, hmines,
    commitments_stand zeroDigest (tableDb .mines) rfl opensRound revealsAtOnce c c' hc hc'⟩

end Smink
