import Smink.Db.Seed
import Smink.Play.Footprint

/-!
# Metered rules

A control row in a force mode decides the rounds it applies to while it has rounds left, and is meant to count them
down. `placeBet` reads the row and counts it down at the end (`post_placeBet`); `startMines` and `startTowers`
read it and do not. A run in which these two only ever start rounds that the row does not decide, and in which no
statement throws, uses up one of the row's rounds for each it decides (`metered_rule_expires`). `metered_forever` is a
run in which a row with one round left decides two.
-/

namespace Smink

open Store

/-! ## What is claimed -/

/-- The bet that a request has inserted, if it has. -/
def Db.inserted (db t : Db) : Option Bet := t.bets.rows[db.bets.rows.length]?

/-- The control row that applies to the round of `b`, if it decides the round. -/
def Db.decider (D : Digest) (db : Db) (b : Bet) : Option UserGameControl :=
  (db.controlRow b.userId b.gameId).filter fun row => (decideForcedResult (some row.rule) (b.draws D)).isSome

/-- The request has started a round that the row decides. -/
def takesRound (D : Digest) (rowId : Id) (db t : Db) : Bool :=
  (db.inserted t).any fun b => (db.decider D b).any fun row => row.id == rowId

/-- How many rounds of a run have their result from the row. -/
def forcedRounds (D : Digest) (rowId : Id) : List (Fresh × Request) → Db → Nat
  | [], _ => 0
  | (fresh, request) :: rest, db =>
    let after := ((serve D fresh request).run exec db).2
    (if takesRound D rowId db after then 1 else 0) + forcedRounds D rowId rest after

/-- The store after all requests. -/
def afterRequests (D : Digest) : List (Fresh × Request) → Db → Db
  | [], db => db
  | (fresh, request) :: rest, db => afterRequests D rest ((serve D fresh request).run exec db).2

/-! ## When it holds -/

/-- The row has no say in a round of the player at the game. -/
def NotForced (db : Db) (rowId userId : Id) (slug : GameSlug) : Prop :=
  ∀ game ∈ db.games.rows, game.slug = slug → ∀ row ∈ db.controlRow userId game.id, row.id = rowId →
    row.forceRounds ≤ 0

instance (db : Db) (rowId userId : Id) (slug : GameSlug) : Decidable (NotForced db rowId userId slug) :=
  inferInstanceAs (Decidable (∀ game ∈ db.games.rows, game.slug = slug →
    ∀ row ∈ db.controlRow userId game.id, row.id = rowId → row.forceRounds ≤ 0))

/-- The request opens no grid round while the row decides it. -/
def SparesMeter (db : Db) (rowId : Id) : Request → Prop
  | .startMines userId _ _ _ => NotForced db rowId userId .mines
  | .startTowers userId _ _ _ => NotForced db rowId userId .towers
  | _ => True

instance (db : Db) (rowId : Id) : ∀ request, Decidable (SparesMeter db rowId request)
  | .startMines userId _ _ _ => inferInstanceAs (Decidable (NotForced db rowId userId .mines))
  | .startTowers userId _ _ _ => inferInstanceAs (Decidable (NotForced db rowId userId .towers))
  | .startSession .. | .endSession .. | .getSession .. | .placeBet .. | .revealMines .. | .cashOutMines ..
  | .getOpenMines .. | .revealTowers .. | .cashOutTowers .. | .getOpenTowers .. => inferInstanceAs (Decidable True)

/-- No grid round is opened while the row decides it, and no statement throws. -/
def SparesMeterAll (D : Digest) (rowId : Id) : List (Fresh × Request) → Db → Prop
  | [], _ => True
  | (fresh, request) :: rest, db =>
    (SparesMeter db rowId request ∧ (serve D fresh request).Completes exec db) ∧
      SparesMeterAll D rowId rest ((serve D fresh request).run exec db).2

instance decidableSparesMeterAll (D : Digest) (rowId : Id) :
    ∀ (requests : List (Fresh × Request)) (db : Db), Decidable (SparesMeterAll D rowId requests db)
  | [], _ => .isTrue trivial
  | (_, _) :: rest, _ => @instDecidableAnd _ _ inferInstance (decidableSparesMeterAll D rowId rest _)

variable {D : Digest} {db t : Db} {fresh : Fresh} {userId sessionId rowId : Id} {row : UserGameControl} {α β : Type}

/-! ## The row -/

/-- A row in a force mode decides as long as it has rounds left. -/
theorem isSome_decideForcedResult (hforce : row.forces = true) (u : Stream) :
    (decideForcedResult (some row.rule) u).isSome = decide (0 < row.forceRounds) := by
  unfold decideForcedResult UserGameControl.rule
  unfold UserGameControl.forces at hforce
  rcases Bool.or_eq_true _ _ ▸ hforce with hmode | hmode
  · rw [beq_iff_eq.1 hmode]
    by_cases h : row.forceRounds ≤ 0
    · simp [h]
    · simp [h, not_le.1 h]
  · rw [beq_iff_eq.1 hmode]
    by_cases h : row.forceRounds ≤ 0
    · simp [h]
    · simp [h, not_le.1 h]

/-- A row whose rounds are used up leaves the round to the difficulty. -/
theorem resolveControl_of_expired (hforce : row.forces = true) (hexpired : row.forceRounds ≤ 0)
    (profileDifficulty : Option ℚ) (gameDifficulty : ℚ) (u : Stream) :
    resolveControl (some row.rule) profileDifficulty gameDifficulty u =
      decideFromDifficulty (effectiveDifficulty profileDifficulty gameDifficulty) u := by
  have hnone := isSome_decideForcedResult hforce u
  rw [decide_eq_false (not_lt.2 hexpired)] at hnone
  unfold resolveControl
  rw [Option.not_isSome_iff_eq_none.1 (ne_true_of_eq_false hnone)]

/-! ## The requests -/

/-- The statement does not write control rows. -/
theorem exec_controls {q : Stmt} (hq : q.inPlay false = true) {r : q.Resp} (h : exec q db = .ok (r, t)) :
    t.userGameControl = db.userGameControl := by
  cases q with
  | insertWallet userId =>
    have hframe := exec_insertWallet_frame h
    rw [hframe]
  | insertSession s => obtain ⟨u, -, he⟩ := orThrow_ok h; cases he; rfl
  | insertTransactions rs => obtain ⟨u, -, he⟩ := orThrow_ok h; cases he; rfl
  | insertBet b => obtain ⟨u, -, he⟩ := orThrow_ok h; cases he; rfl
  | updateControl p set => cases hq
  | _ => cases h; rfl

/-- Only `placeBet` writes control rows. -/
theorem run_controls {request : Request} (hquiet : ∀ u s slug stake sel, request ≠ .placeBet u s slug stake sel) :
    ((serve D fresh request).run exec db).2.userGameControl = db.userGameControl := by
  have hreads : Reads (Stmt.inPlay false) (serve D fresh request) := inPlay_quiet hquiet
  have hends : Prog.Ends exec (serve D fresh request) db fun _ u => u.userGameControl = db.userGameControl :=
    hreads.ends_keeps (J := fun u => u.userGameControl = db.userGameControl)
      (fun q hq _ _ _ hs hr => (exec_controls hq hr).trans hs) rfl
  exact hends

theorem inserted_of_eq (h : t.bets.rows.length = db.bets.rows.length) : db.inserted t = none :=
  List.getElem?_eq_none h.le

theorem inserted_of_insert {b : Bet} (h : db.bets.insert b = some t.bets) : db.inserted t = some b := by
  unfold Db.inserted
  rw [Table.rows_insert h]
  simp

theorem takesRound_of_eq (h : t.bets.rows.length = db.bets.rows.length) : takesRound D rowId db t = false := by
  unfold takesRound
  rw [inserted_of_eq h]
  rfl

/-- A round that the row decides. -/
theorem takesRound_of_insert {b : Bet} (hins : db.bets.insert b = some t.bets) :
    takesRound D row.id db t = true ↔ ∃ a, db.controlRow b.userId b.gameId = some a ∧ a.id = row.id ∧
      (decideForcedResult (some a.rule) (b.draws D)).isSome = true := by
  unfold takesRound Db.decider
  rw [inserted_of_insert hins, Option.any_some]
  cases db.controlRow b.userId b.gameId with
  | none => simp
  | some a =>
    rw [Option.filter_some]
    by_cases h : (decideForcedResult (some a.rule) (b.draws D)).isSome = true
    · simp [h]
    · simp [h]

/-- The row in the next store, with as many rounds less as the request has taken. -/
def Counted (D : Digest) (db t : Db) (row : UserGameControl) : Prop :=
  ∃ row' ∈ t.userGameControl.rows, row'.id = row.id ∧ row'.forces = true ∧
    row'.forceRounds.toNat + (if takesRound D row.id db t then 1 else 0) = row.forceRounds.toNat

theorem counted_quiet (hrow : row ∈ db.userGameControl.rows) (hforce : row.forces = true)
    (hcontrols : t.userGameControl = db.userGameControl) (hnot : takesRound D row.id db t = false) :
    Counted D db t row := by
  refine ⟨row, by rw [hcontrols]; exact hrow, rfl, hforce, ?_⟩
  rw [hnot]
  rfl

/-- A round that `placeBet` has settled is counted. -/
theorem counted_placeBet (hrow : row ∈ db.userGameControl.rows) (hforce : row.forces = true) {b : Bet}
    (hins : db.bets.insert b = some t.bets)
    (hcontrols : t.userGameControl = countDown (db.controlRow b.userId b.gameId) db.userGameControl) :
    Counted D db t row := by
  by_cases happlies : db.controlRow b.userId b.gameId = some row
  · rw [happlies] at hcontrols
    by_cases hleft : 0 < row.forceRounds
    · have htaken : takesRound D row.id db t = true := (takesRound_of_insert hins).2
        ⟨row, happlies, rfl, by rw [isSome_decideForcedResult hforce]; exact decide_eq_true hleft⟩
      refine ⟨Table.updateRow (fun c => c.id == row.id) ({ spend := 1 } : ControlSet) row, ?_, ?_, ?_, ?_⟩
      · rw [hcontrols, countDown, if_pos (by simp [hforce, hleft])]
        exact Table.mem_update.2 ⟨row, hrow, rfl⟩
      all_goals rw [Table.updateRow_pos (by simp)]
      · rfl
      · exact hforce
      · rw [htaken, if_pos rfl]
        change (max (row.forceRounds - 1) 0).toNat + 1 = row.forceRounds.toNat
        omega
    · have hnot : takesRound D row.id db t = false := by
        rw [← Bool.not_eq_true, takesRound_of_insert hins]
        rintro ⟨a, ha, -, hsome⟩
        obtain rfl := Option.some.inj (ha.symm.trans happlies)
        rw [isSome_decideForcedResult hforce, decide_eq_true_iff] at hsome
        exact hleft hsome
      refine counted_quiet hrow hforce ?_ hnot
      rw [hcontrols, countDown, if_neg (by simp [hleft])]
  · have hother : ∀ a, db.controlRow b.userId b.gameId = some a → a.id ≠ row.id := by
      rintro a ha hid
      obtain rfl := control_eq_of_id (mem_of_controlRow ha) hrow hid
      exact happlies ha
    have hnot : takesRound D row.id db t = false := by
      rw [← Bool.not_eq_true, takesRound_of_insert hins]
      rintro ⟨a, ha, hid, -⟩
      exact hother a ha hid
    refine ⟨row, ?_, rfl, hforce, by rw [hnot]; rfl⟩
    rw [hcontrols]
    unfold countDown
    split
    · rename_i a ha
      split_ifs
      · refine Table.mem_update.2 ⟨row, hrow, ?_⟩
        exact Table.updateRow_neg (by simpa using (hother a ha).symm)
      · exact hrow
    · exact hrow

/-- A round that is opened while the row has no say in it. -/
theorem takesRound_opened {Sel : Type} {G : GridGame Sel} (hrow : row ∈ db.userGameControl.rows)
    (hforce : row.forces = true) (hnot : NotForced db row.id userId G.slug) (ho : BetOpened G D db t userId) :
    takesRound D row.id db t = false := by
  obtain ⟨game, _, _, b, hopened, hins⟩ := ho
  obtain ⟨_, _, hat, -⟩ := hopened.seat
  rw [← Bool.not_eq_true, takesRound_of_insert hins]
  rintro ⟨a, ha, hid, hsome⟩
  rw [hopened.userId_eq, hopened.gameId_eq] at ha
  obtain rfl := control_eq_of_id (mem_of_controlRow ha) hrow hid
  rw [isSome_decideForcedResult hforce, decide_eq_true_iff] at hsome
  exact absurd hsome (not_lt.2 (hnot game hat.game_mem hat.game_slug _ ha rfl))

theorem length_turned {bet bet' : Bet} (h : Turned db t bet bet') : t.bets.rows.length = db.bets.rows.length := by
  rw [h.rows, List.length_map]

/-- A request that spares the meter counts the rounds it takes. -/
theorem counted_serve {request : Request} (hrow : row ∈ db.userGameControl.rows) (hforce : row.forces = true)
    (hspares : SparesMeter db row.id request) (hc : (serve D fresh request).Completes exec db) :
    Counted D db ((serve D fresh request).run exec db).2 row := by
  by_cases hplace : ∃ u s slug stake sel, request = .placeBet u s slug stake sel
  · obtain ⟨u, s, slug, stake, sel, rfl⟩ := hplace
    have hpost : Prog.Post exec (serve D fresh (.placeBet u s slug stake sel)) db fun _ t =>
        t.bets = db.bets ∧ t.userGameControl = db.userGameControl ∨
        ∃ b, db.bets.insert b = some t.bets ∧
          t.userGameControl = countDown (db.controlRow b.userId b.gameId) db.userGameControl := by
      refine Prog.post_bind ((post_placeBet slug stake sel).mono fun a t ht => ?_)
      rcases ht with hsame | ⟨_, b, rfl, hins, hcontrols, -⟩
      · cases a <;> exact .inl hsame
      · exact .inr ⟨b, hins, hcontrols⟩
    rcases hpost.run hc with ⟨hbets, hcontrols⟩ | ⟨b, hins, hcontrols⟩
    · exact counted_quiet hrow hforce hcontrols (takesRound_of_eq (by rw [hbets]))
    · exact counted_placeBet hrow hforce hins hcontrols
  · have hcontrols : ((serve D fresh request).run exec db).2.userGameControl = db.userGameControl :=
      run_controls fun u s slug stake sel he => hplace ⟨u, s, slug, stake, sel, he⟩
    refine counted_quiet hrow hforce hcontrols ?_
    have heffect : BetEffect D db ((serve D fresh request).run exec db).2 request := ends_serve D fresh request db
    cases heffect with
    | same _ hb => exact takesRound_of_eq (by rw [hb])
    | placed hp => exact absurd ⟨_, _, _, _, _, rfl⟩ hplace
    | openedMines ho => exact takesRound_opened (G := minesGame) hrow hforce hspares ho
    | openedTowers ho => exact takesRound_opened (G := towersGame) hrow hforce hspares ho
    | shownMines _ hm => obtain ⟨_, _, _, _, _, _, hturned, _⟩ := hm; exact takesRound_of_eq (length_turned hturned)
    | cashedOutMines hm => obtain ⟨_, _, _, _, _, _, hturned, _⟩ := hm; exact takesRound_of_eq (length_turned hturned)
    | shownTowers _ hm => obtain ⟨_, _, _, _, _, _, hturned, _⟩ := hm; exact takesRound_of_eq (length_turned hturned)
    | cashedOutTowers hm => obtain ⟨_, _, _, _, _, _, hturned, _⟩ := hm; exact takesRound_of_eq (length_turned hturned)

/-! ## Runs -/

/-- The rounds a run has taken are those the row has less. -/
theorem counted_run : ∀ {requests : List (Fresh × Request)} {db : Db} {row : UserGameControl},
    row ∈ db.userGameControl.rows → row.forces = true → SparesMeterAll D row.id requests db →
      ∃ row' ∈ (afterRequests D requests db).userGameControl.rows, row'.id = row.id ∧ row'.forces = true ∧
        row'.forceRounds.toNat + forcedRounds D row.id requests db = row.forceRounds.toNat
  | [], _, row, hrow, hforce, _ => ⟨row, hrow, rfl, hforce, rfl⟩
  | (fresh, request) :: rest, db, row, hrow, hforce, ⟨⟨hspares, hc⟩, hrest⟩ => by
    obtain ⟨next, hnext, hid, hforce', hcount⟩ := counted_serve hrow hforce hspares hc
    rw [← hid] at hrest hcount ⊢
    obtain ⟨last, hlast, hid', hforce'', hcount'⟩ := counted_run hnext hforce' hrest
    refine ⟨last, hlast, hid', hforce'', ?_⟩
    unfold forcedRounds
    dsimp only
    omega

/-- **A metered rule expires**, in a run that spares the meter: the row decides at most as many rounds as it has left,
and once it has decided them all, every round it applies to is left to the difficulty. -/
theorem metered_rule_expires (D : Digest) (requests : List (Fresh × Request)) (db : Db) (row : UserGameControl)
    (hrow : row ∈ db.userGameControl.rows) (hforce : row.mode = .forceWin ∨ row.mode = .forceLoss)
    (hspares : SparesMeterAll D row.id requests db) :
    forcedRounds D row.id requests db ≤ row.forceRounds.toNat ∧
      (forcedRounds D row.id requests db = row.forceRounds.toNat →
        ∀ row' ∈ (afterRequests D requests db).userGameControl.rows, row'.id = row.id →
          ∀ profileDifficulty gameDifficulty u, resolveControl (some row'.rule) profileDifficulty gameDifficulty u =
            decideFromDifficulty (effectiveDifficulty profileDifficulty gameDifficulty) u) := by
  have hforce' : row.forces = true := by
    unfold UserGameControl.forces
    rwa [Bool.or_eq_true, beq_iff_eq, beq_iff_eq]
  obtain ⟨last, hlast, hid, hforces, hcount⟩ := counted_run hrow hforce' hspares
  refine ⟨by omega, fun hall row' hrow' hid' => ?_⟩
  obtain rfl := control_eq_of_id hrow' hlast (hid'.trans hid.symm)
  exact resolveControl_of_expired hforces (by omega)

/-- A player at one game whose next round is forced to a win. -/
def forcedOnce : UserGameControl :=
  { id := "c1", userId := "u1", gameId := none, mode := .forceWin, winRate := none, forceRounds := 1,
    maxWinMultiplier := none }

def forcedDb (slug : GameSlug) : Db :=
  { tableDb slug with userGameControl := ⟨[forcedOnce], List.pairwise_singleton _ _⟩ }

/-- Two dice bets. -/
def twoBets : List (Fresh × Request) := [
  (freshAt 1, .placeBet "u1" "s1" .dice (some 5) { target := some 50, direction := "under" }),
  (freshAt 2, .placeBet "u1" "s1" .dice (some 5) { target := some 50, direction := "under" })]

theorem metered_rule_expires_twoBets :
    forcedRounds zeroDigest "c1" twoBets (forcedDb .dice) ≤ 1 ∧
      (forcedRounds zeroDigest "c1" twoBets (forcedDb .dice) = 1 →
        ∀ row' ∈ (afterRequests zeroDigest twoBets (forcedDb .dice)).userGameControl.rows, row'.id = "c1" →
          ∀ profileDifficulty gameDifficulty u, resolveControl (some row'.rule) profileDifficulty gameDifficulty u =
            decideFromDifficulty (effectiveDifficulty profileDifficulty gameDifficulty) u) :=
  metered_rule_expires zeroDigest twoBets (forcedDb .dice) forcedOnce (List.mem_singleton_self _) (.inl rfl)
    (by decide +kernel)

/-- Two Mines rounds, the first of which is lost at once. -/
def twoMinesRounds : List (Fresh × Request) := [
  (freshAt 1, .startMines "u1" "s1" (some 5) (some 22)),
  (freshAt 2, .revealMines "u1" "s1" "MIN-1" (some 1)),
  (freshAt 3, .startMines "u1" "s1" (some 5) (some 22))]

/-- Both have their result from the row, which has one round left before the first and after the last. -/
theorem metered_forever :
    (∃ row ∈ (forcedDb .mines).userGameControl.rows, row.id = "c1" ∧ row.mode = .forceWin ∧ row.forceRounds = 1) ∧
      forcedRounds zeroDigest "c1" twoMinesRounds (forcedDb .mines) = 2 ∧
      (∃ row ∈ (afterRequests zeroDigest twoMinesRounds (forcedDb .mines)).userGameControl.rows,
        row.id = "c1" ∧ row.forceRounds = 1) ∧
      ¬ forcedRounds zeroDigest "c1" twoMinesRounds (forcedDb .mines) ≤ 1 := by
  decide +kernel

end Smink
