import Smink.Play.Grid
import Smink.Play.Locked

/-!
# Stranded rounds

An open round can be finished by its owner as long as the session it was opened in is live: there is a mine left to hit
(`finishable_of_live`). Once that session has ended, by `endSession` or by the `startSession` of a new one, nothing
moves the round any more, and its stake stays locked (`orphaned_run`). `finishable_iff` says this of every state of
every run; `round_stranded` is a round that is left behind.
-/

namespace Smink

open Store

/-- The player a request is of. -/
def Request.userId : Request → Id
  | .startSession userId _ => userId
  | .endSession userId _ => userId
  | .getSession userId _ => userId
  | .placeBet userId _ _ _ _ => userId
  | .startMines userId _ _ _ => userId
  | .revealMines userId _ _ _ => userId
  | .cashOutMines userId _ _ => userId
  | .getOpenMines userId _ => userId
  | .startTowers userId _ _ _ => userId
  | .revealTowers userId _ _ _ => userId
  | .cashOutTowers userId _ _ => userId
  | .getOpenTowers userId _ => userId

/-- From `db` to `t` the bet was closed, and its stake has left the locked balance of its owner. -/
structure Finished (db t : Db) (b : Bet) : Prop where
  closed : ∃ b' ∈ t.bets.rows, b'.id = b.id ∧ b'.status ≠ .open
  unlocked : ∀ w ∈ db.sminkWallets.rows, w.userId = b.userId → ∃ w' ∈ t.sminkWallets.rows,
    w'.userId = b.userId ∧ w'.lockedBalance = w.lockedBalance - b.stake

/-- The owner has requests that finish the round. -/
def Finishable (D : Digest) (db : Db) (b : Bet) : Prop :=
  ∃ requests : List (Fresh × Request), (∀ r ∈ requests, r.2.userId = b.userId) ∧
    ∃ t ∈ runRequests D requests db, Finished db t b

variable {D : Digest} {db t : Db} {b : Bet} {userId sessionId : Id}

/-! ## A session that has ended -/

/-- The bet is there, and its session has ended. -/
structure Orphaned (db : Db) (b : Bet) : Prop where
  mem : b ∈ db.bets.rows
  ended : ∃ s ∈ db.gameSessions.rows, b.sessionId = some s.id ∧ s.endedAt.isSome = true

/-- A move is of a bet whose session is live. -/
theorem Orphaned.moved (h : Orphaned db b) {slug : GameSlug} {move : ℚ → Bet → Option Nat → Bet → Prop}
    {step : Option Nat} {betReference : String} (hm : BetMoved slug move step db t userId sessionId betReference) :
    b ∈ t.bets.rows := by
  obtain ⟨session, game, bet, bet', hat, hb, hturned, -⟩ := hm
  refine hturned.mem_iff.2 (.inr ⟨h.mem, fun hid => ?_⟩)
  obtain rfl := bet_eq_of_id h.mem hb.mem hid
  obtain ⟨s, hs, hses, hended⟩ := h.ended
  have hsid : s.id = session.id := by
    rw [hat.session_id]
    exact Option.some.inj (hses.symm.trans hb.session)
  obtain rfl := session_eq_of_id hs hat.session_mem hsid
  rw [hat.live] at hended
  cases hended

theorem Orphaned.effect (h : Orphaned db b) {request : Request} (he : BetEffect D db t request)
    (hs : SessionsPersist db t) : Orphaned t b := by
  refine ⟨?_, ?_⟩
  · have insert : ∀ {a : Bet}, db.bets.insert a = some t.bets → b ∈ t.bets.rows := by
      intro a hins
      rw [Table.rows_insert hins]
      exact List.mem_append_left _ h.mem
    cases he with
    | same _ hb => rw [hb]; exact h.mem
    | placed hp => obtain ⟨_, _, _, _, _, -, hins⟩ := hp; exact insert hins
    | openedMines ho => obtain ⟨_, _, _, _, -, hins⟩ := ho; exact insert hins
    | openedTowers ho => obtain ⟨_, _, _, _, -, hins⟩ := ho; exact insert hins
    | shownMines _ hm => exact h.moved hm
    | cashedOutMines hm => exact h.moved hm
    | shownTowers _ hm => exact h.moved hm
    | cashedOutTowers hm => exact h.moved hm
  · obtain ⟨s, hmem, hses, hended⟩ := h.ended
    obtain ⟨s', hmem', hid, -, -, hend⟩ := hs s hmem
    exact ⟨s', hmem', hses.trans (congrArg some hid.symm), hend hended⟩

/-- A round whose session has ended stays as it is. -/
theorem orphaned_run (D : Digest) : ∀ {requests : List (Fresh × Request)} {db : Db}, Orphaned db b →
    ∀ t ∈ runRequests D requests db, Orphaned t b
  | [], _, _, _, ht => nomatch ht
  | (fresh, request) :: rest, db, h, t, ht => by
    have hafter := h.effect (ends_serve D fresh request db) (run_sessions rfl)
    rcases List.mem_cons.1 ht with rfl | ht
    · exact hafter
    · exact orphaned_run D hafter t ht

theorem not_finishable_of_ended (h : Orphaned db b) (hopen : b.status = .open) : ¬ Finishable D db b := by
  rintro ⟨requests, -, t, ht, hdone⟩
  obtain ⟨b', hmem, hid, hstatus⟩ := hdone.closed
  obtain rfl := bet_eq_of_id (orphaned_run D h t ht).mem hmem hid.symm
  exact hstatus hopen

/-! ## A session that is live -/

theorem naturalNumber_cast (n : Nat) : naturalNumber (some (n : ℚ)) = some n := by
  simp [naturalNumber]

/-- A lost round is finished. -/
theorem finished_of_lost (hcover : LocksCover db) (hmem : b ∈ db.bets.rows) (hopen : b.status = .open) {bet' : Bet}
    {set : BetSet} (hturned : Turned db t b bet') (hlost : bet'.status = .lost) (ht : t = db.lose b.userId b set) :
    Finished db t b := by
  refine ⟨⟨bet', hturned.mem_iff.2 (.inl rfl), hturned.id_eq, by rw [hlost]; decide⟩, fun w hw hu => ?_⟩
  have hle := hcover.stake_le hmem hopen hw hu
  refine ⟨Settable.apply (releaseSet b.stake 0) w, ?_, hu, max_eq_left (by linarith)⟩
  rw [ht]
  exact Table.mem_update.2 ⟨w, hw, Table.updateRow_pos (by simp [hu])⟩

/-- An open Mines round has a mine that is not shown. -/
theorem MinesBet.exists_mine {houseEdge : ℚ} (h : MinesBet houseEdge b) (hopen : b.status = .open) :
    ∃ tile ∈ b.minePositions.getD [], tile < MINES_TILE_COUNT ∧ tile ∉ b.revealed := by
  obtain ⟨mineCount, positions, revealed, hrec⟩ := h
  have hstanding := hrec.standing
  unfold MinesStanding at hstanding
  rw [hopen] at hstanding
  obtain ⟨tile, htile⟩ : ∃ tile, tile ∈ positions := by
    refine List.exists_mem_of_length_pos ?_
    rw [hrec.layout.length_eq]
    exact hrec.count_pos
  refine ⟨tile, ?_, hrec.layout.lt tile htile, ?_⟩
  · rw [hrec.minePositions_eq]
    exact htile
  · rw [hrec.revealed_eq]
    exact fun hshown => hstanding.1 tile hshown htile

/-- An open Towers round has a floor to climb, and that floor has a trap. -/
theorem TowersBet.exists_trap {houseEdge : ℚ} (h : TowersBet houseEdge b) (hopen : b.status = .open) :
    ∃ difficulty, b.difficulty = some difficulty ∧ b.picks.length < (towersConfig difficulty).rows ∧
      ∃ tile ∈ (b.traps.getD []).getD b.picks.length [], tile < (towersConfig difficulty).tiles := by
  obtain ⟨difficulty, traps, picks, hrec⟩ := h
  have hstanding := hrec.standing
  unfold TowersStanding at hstanding
  rw [hopen] at hstanding
  have hrow := hstanding.2.1
  have hfloor : traps.getD picks.length [] ∈ traps := by
    rw [List.getD_eq_getElem?_getD, List.getElem?_eq_getElem (by rw [hrec.height]; exact hrow), Option.getD_some]
    exact List.getElem_mem _
  obtain ⟨count, hpos, -, htiles⟩ := hrec.floors _ hfloor
  obtain ⟨tile, htile⟩ : ∃ tile, tile ∈ traps.getD picks.length [] := by
    refine List.exists_mem_of_length_pos ?_
    rw [htiles.length_eq]
    exact hpos
  refine ⟨difficulty, hrec.difficulty_eq, ?_, tile, ?_, htiles.lt tile htile⟩
  · rw [hrec.picks_eq]
    exact hrow
  · rw [hrec.traps_eq, hrec.picks_eq]
    exact htile

section Live

variable {s : GameSession} {game : Game}

/-- The owner hits a mine. -/
theorem finishable_mines (hcover : LocksCover db) (hat : AtTable db b.userId s.id .mines s game)
    (hb : OpenRound db b.userId s.id b.reference b) (hbet : MinesBet game.houseEdge b) : Finishable D db b := by
  obtain ⟨tile, hmine, hlt, hnew⟩ := hbet.exists_mine hb.status
  have hends : Prog.Ends exec (serve D (freshAt 0) (.revealMines b.userId s.id b.reference (some tile))) db
      fun _ t => _ :=
    ends_answer (ends_revealMines_of hat hb (naturalNumber_cast tile) hlt hnew)
  obtain ⟨bet', hturned, -, hlost, -⟩ := hends
  obtain ⟨hstatus, set, ht⟩ := hlost hmine
  exact ⟨[(freshAt 0, .revealMines b.userId s.id b.reference (some tile))], (by simp [Request.userId]), _,
    List.mem_singleton_self _, finished_of_lost hcover hb.mem hb.status hturned hstatus ht⟩

/-- The owner steps on a trap of the next floor. -/
theorem finishable_towers (hcover : LocksCover db) (hat : AtTable db b.userId s.id .towers s game)
    (hb : OpenRound db b.userId s.id b.reference b) (hbet : TowersBet game.houseEdge b) : Finishable D db b := by
  obtain ⟨difficulty, hd, hrow, tile, htrap, hlt⟩ := hbet.exists_trap hb.status
  have hends : Prog.Ends exec (serve D (freshAt 0) (.revealTowers b.userId s.id b.reference (some tile))) db
      fun _ t => _ :=
    ends_answer (ends_revealTowers_of hat hb (naturalNumber_cast tile) hd hlt hrow)
  obtain ⟨bet', hturned, -, hlost, -⟩ := hends
  obtain ⟨hstatus, set, ht⟩ := hlost htrap
  exact ⟨[(freshAt 0, .revealTowers b.userId s.id b.reference (some tile))], (by simp [Request.userId]), _,
    List.mem_singleton_self _, finished_of_lost hcover hb.mem hb.status hturned hstatus ht⟩

theorem finishable_of_live (h : GridInv db) (hcover : LocksCover db) (hmem : b ∈ db.bets.rows)
    (hopen : b.status = .open) (hs : s ∈ db.gameSessions.rows) (hses : b.sessionId = some s.id)
    (hlive : s.endedAt = none) (hg : game ∈ db.games.rows) (hgid : game.id = b.gameId)
    (hslug : game.slug = .mines ∨ game.slug = .towers) (hactive : game.isActive = true)
    (hserviced : game.underMaintenance = false) : Finishable D db b := by
  obtain ⟨s', hs', hses', hgame, huser⟩ := h.seated b hmem
  obtain rfl := session_eq_of_id hs hs' (Option.some.inj (hses.symm.trans hses'))
  have hb : OpenRound db b.userId s.id b.reference b := ⟨hmem, rfl, rfl, hses, hopen⟩
  obtain ⟨game', hg', hgid', hgrid⟩ := h.grid b hmem
  obtain rfl := game_eq_of_id hg hg' (hgid.trans hgid'.symm)
  have hat : ∀ {slug : GameSlug}, game.slug = slug → AtTable db b.userId s.id slug s game := fun hslug =>
    ⟨⟨hs, rfl, huser, hg, hgid.trans hgame.symm, hslug⟩, hlive, hactive, hserviced⟩
  obtain hslug | hslug := hslug
  · exact finishable_mines hcover (hat hslug) hb (hgrid.mines hslug)
  · exact finishable_towers hcover (hat hslug) hb (hgrid.towers hslug)

end Live

/-! ## Runs -/

theorem locksCover_run (D : Digest) : ∀ {requests : List (Fresh × Request)} {db : Db}, LocksCover db →
    ∀ t ∈ runRequests D requests db, LocksCover t
  | [], _, _, _, ht => nomatch ht
  | (fresh, request) :: rest, db, h, t, ht => by
    have hafter : LocksCover ((serve D fresh request).run exec db).2 := locksCover_serve h D fresh request
    rcases List.mem_cons.1 ht with rfl | ht
    · exact hafter
    · exact locksCover_run D hafter t ht

theorem locksCover_of_none (hnone : db.bets.rows = []) (hlocked : ∀ w ∈ db.sminkWallets.rows, 0 ≤ w.lockedBalance) :
    LocksCover db := by
  refine ⟨db.gap, ⟨fun _ => rfl, ?_, ?_, ?_⟩, fun u => ?_⟩
  iterate 3
    · rw [hnone]
      exact fun b hb => nomatch hb
  · have hzero : db.bets.total (betCounter (.locked u)) = 0 := by simp [Table.total, hnone]
    rw [gap_locked, hzero, sub_zero]
    refine List.sum_nonneg fun x hx => ?_
    obtain ⟨w, hw, rfl⟩ := List.mem_map.1 hx
    unfold walletCounter
    dsimp only
    split_ifs
    · exact hlocked w hw
    · exact le_refl 0

/-- **An open round can be finished by its owner exactly while its session is live.** -/
theorem finishable_iff (D : Digest) (requests : List (Fresh × Request)) (db : Db) (hnone : db.bets.rows = [])
    (hlocked : ∀ w ∈ db.sminkWallets.rows, 0 ≤ w.lockedBalance)
    (hgames : ∀ game ∈ db.games.rows, game.isActive = true ∧ game.underMaintenance = false) :
    ∀ t ∈ runRequests D requests db, ∀ b ∈ t.bets.rows, b.status = .open → ∀ game ∈ t.games.rows, game.id = b.gameId →
      game.slug = .mines ∨ game.slug = .towers →
        (Finishable D t b ↔ ∃ s ∈ t.gameSessions.rows, b.sessionId = some s.id ∧ s.endedAt = none) := by
  intro t ht b hmem hopen game hg hgid hslug
  have hgrid : GridInv t := ((gridInv_run D requests (gridInv_of_none hnone)).1 t ht).1
  have hcover := locksCover_run D (locksCover_of_none hnone hlocked) t ht
  constructor
  · intro hfin
    obtain ⟨s, hs, hses, -, -⟩ := hgrid.seated b hmem
    refine ⟨s, hs, hses, ?_⟩
    by_contra hended
    exact not_finishable_of_ended ⟨hmem, s, hs, hses, Option.isSome_iff_ne_none.2 hended⟩ hopen hfin
  · rintro ⟨s, hs, hses, hlive⟩
    rw [games_runRequests D t ht] at hg
    obtain ⟨hactive, hserviced⟩ := hgames game hg
    rw [← games_runRequests D t ht] at hg
    exact finishable_of_live hgrid hcover hmem hopen hs hses hlive hg hgid hslug hactive hserviced

/-- A Mines round is opened, and the session ended. -/
def leftBehind : List (Fresh × Request) := [
  (freshAt 1, .startMines "u1" "s1" (some 5) (some 3)),
  (freshAt 2, .endSession "u1" "s1")]

theorem round_stranded : ∃ t ∈ runRequests zeroDigest leftBehind (tableDb .mines), ∃ b ∈ t.bets.rows,
    b.status = .open ∧ (∃ w ∈ t.sminkWallets.rows, w.lockedBalance = b.stake) ∧ ¬ Finishable zeroDigest t b := by
  obtain ⟨t, ht, b, hb, hopen, hlocked, hended⟩ : ∃ t ∈ runRequests zeroDigest leftBehind (tableDb .mines),
      ∃ b ∈ t.bets.rows, b.status = .open ∧ (∃ w ∈ t.sminkWallets.rows, w.lockedBalance = b.stake) ∧
        ∃ s ∈ t.gameSessions.rows, b.sessionId = some s.id ∧ s.endedAt.isSome = true := by
    decide +kernel
  exact ⟨t, ht, b, hb, hopen, hlocked, not_finishable_of_ended ⟨hb, hended⟩ hopen⟩

/-- With its session live, the round can be finished. -/
theorem finishable_iff_opened : ∃ t ∈ runRequests zeroDigest (leftBehind.take 1) (tableDb .mines), ∃ b ∈ t.bets.rows,
    b.status = .open ∧ Finishable zeroDigest t b := by
  obtain ⟨t, ht, b, hb, hopen, ⟨game, hg, hgid, hslug⟩, hlive⟩ :
      ∃ t ∈ runRequests zeroDigest (leftBehind.take 1) (tableDb .mines), ∃ b ∈ t.bets.rows, b.status = .open ∧
        (∃ game ∈ t.games.rows, game.id = b.gameId ∧ game.slug = .mines) ∧
          ∃ s ∈ t.gameSessions.rows, b.sessionId = some s.id ∧ s.endedAt = none := by
    decide +kernel
  exact ⟨t, ht, b, hb, hopen, (finishable_iff zeroDigest (leftBehind.take 1) (tableDb .mines) rfl (by decide +kernel)
    (by decide +kernel) t ht b hb hopen game hg hgid (.inl hslug)).2 hlive⟩

end Smink
