import Smink.Db.Seed
import Smink.Play.Footprint
import Smink.Store.Schedule
import Mathlib.Algebra.Order.PUnit

/-!
# One open round a player and game

`openRound` looks for an open round of the player at the game, and inserts one several statements later. No statement
opens a bet that is there already, so what a check has not found open has been inserted since. `one_open_round_iff` says
that a run keeps the rule exactly when no call inserts a round while another one, inserted since the call looked, is
open (`MayInsertBet`). The code does not see to that, and `two_open_rounds` is a run in which two calls have both looked
before either of them inserts.
-/

namespace Smink

open Store

/-- A request, with the draws of its call. -/
abbrev PlayCall := Fresh × Request

def PlayCall.prog (D : Digest) (i : PlayCall) : Sql Response := serve D i.1 i.2

/-- The open bets of a player at a game. -/
def Db.openRounds (db : Db) (userId gameId : Id) : List Bet :=
  db.bets.select fun b => b.userId == userId && b.gameId == gameId && b.status == .open

/-- No player has two open rounds at one game. -/
def OneOpenRound (db : Db) : Prop := ∀ userId gameId, (db.openRounds userId gameId).length ≤ 1

/-! ## The rule and its step condition -/

/-- The statement opens no bet: it inserts none that is open, and opens none that is there already. -/
def Stmt.opensNoBet : Stmt → Bool
  | .insertBet b => decide (b.status ≠ .open)
  | .updateBet _ set => decide (set.status ≠ some .open)
  | _ => true

/-- The call looks for bets. -/
def looksForBets (i : PlayCall) : PlayCall × Stmt → Bool
  | (j, q) => decide (j = i) && q.selectsBet

/-- The bets that the entries insert. -/
def insertedBets (log : List (PlayCall × Stmt)) : List Id :=
  log.filterMap fun
    | (_, .insertBet b) => some b.id
    | _ => none

/-- The step condition: a round is inserted only while no other round of the player at the game is open that has been
inserted since the call first looked for one. -/
def MayInsertBet (w : World PlayCall Stmt Db) (i : PlayCall) : Stmt → Prop
  | .insertBet b => b.status = .open →
    ∀ a ∈ w.store.openRounds b.userId b.gameId, a.id ∉ insertedBets (sinceFirst (looksForBets i) w.log)
  | _ => True

/-- What calls do: the log grows, and a bet that is open was open before or has been inserted since. -/
def OpensByInsert (w v : World PlayCall Stmt Db) : Prop :=
  ∃ post, v.log = w.log ++ post ∧ ∀ a ∈ v.store.bets.rows, a.status = .open →
    a.id ∈ insertedBets post ∨
    ∃ b ∈ w.store.bets.rows, b.id = a.id ∧ b.userId = a.userId ∧ b.gameId = a.gameId ∧ b.status = .open

theorem OpensByInsert.refl (w : World PlayCall Stmt Db) : OpensByInsert w w :=
  ⟨[], (List.append_nil _).symm, fun a ha hopen => .inr ⟨a, ha, rfl, rfl, rfl, hopen⟩⟩

theorem OpensByInsert.trans {u v w : World PlayCall Stmt Db} (h₁ : OpensByInsert u v) (h₂ : OpensByInsert v w) :
    OpensByInsert u w := by
  obtain ⟨post₁, hlog₁, hopen₁⟩ := h₁
  obtain ⟨post₂, hlog₂, hopen₂⟩ := h₂
  refine ⟨post₁ ++ post₂, by rw [hlog₂, hlog₁, List.append_assoc], fun a ha hopen => ?_⟩
  have hboth : insertedBets (post₁ ++ post₂) = insertedBets post₁ ++ insertedBets post₂ := List.filterMap_append
  rw [hboth, List.mem_append]
  obtain hnew | ⟨b, hb, hid, huser, hgame, hbopen⟩ := hopen₂ a ha hopen
  · exact .inl (.inr hnew)
  · obtain hnew | ⟨c, hc, hid', huser', hgame', hcopen⟩ := hopen₁ b hb hbopen
    · exact .inl (.inl (hid ▸ hnew))
    · exact .inr ⟨c, hc, hid'.trans hid, huser'.trans huser, hgame'.trans hgame, hcopen⟩

/-- Nothing is held; the rule is the invariant. -/
def oneRoundDiscipline : Discipline PlayCall Stmt Db Unit where
  inv w _ := OneOpenRound w.store
  rely := OpensByInsert
  rely_refl := .refl
  rely_trans := .trans
  ok := MayInsertBet

section Statements

variable {db t : Db}

theorem openRounds_insertBet {b : Bet} {bets : Table Bet} (hins : db.bets.insert b = some bets) (userId gameId : Id) :
    Db.openRounds { db with bets } userId gameId = db.openRounds userId gameId ++
      if b.userId = userId ∧ b.gameId = gameId ∧ b.status = .open then [b] else [] := by
  unfold Db.openRounds Table.select
  dsimp only
  rw [Table.rows_insert hins, List.filter_append]
  congr 1
  by_cases hb : b.userId = userId ∧ b.gameId = gameId ∧ b.status = .open
  · simp [hb]
  · rw [if_neg hb, List.filter_cons_of_neg (by simpa [and_assoc] using hb), List.filter_nil]

/-- An update that opens no bet leaves no more rounds open than there were. -/
theorem length_openRounds_update {p : Bet → Bool} {set : BetSet} (hset : set.status ≠ some .open) (userId gameId : Id) :
    (Db.openRounds { db with bets := db.bets.update p set } userId gameId).length ≤
      (db.openRounds userId gameId).length := by
  unfold Db.openRounds Table.select
  dsimp only
  rw [Table.rows_update, List.filter_map, List.length_map]
  refine List.Sublist.length_le (List.monotone_filter_right _ fun b hb => ?_)
  unfold Table.updateRow at hb
  dsimp only [Function.comp_apply] at hb
  split at hb
  · simp only [Bool.and_eq_true, beq_iff_eq] at hb ⊢
    exact ⟨hb.1, open_of_apply hset hb.2⟩
  · exact hb

theorem OneOpenRound.of_eq (h : OneOpenRound db) (ht : t.bets = db.bets) : OneOpenRound t := by
  intro userId gameId
  unfold Db.openRounds
  rw [ht]
  exact h userId gameId

/-- What a statement leaves open was open, or the statement has inserted it. -/
theorem opensByInsert_exec {v : World PlayCall Stmt Db} {q : Stmt} {r : q.Resp} {s : Db} (i : PlayCall)
    (hq : q.opensNoBet = true ∨ ∃ b, q = .insertBet b) (hr : exec q v.store = .ok (r, s)) :
    OpensByInsert v (v.after i q s) := by
  refine ⟨[(i, q)], rfl, fun a ha hopen => ?_⟩
  cases q with
  | insertBet b =>
    obtain ⟨bets, hins, he⟩ := orThrow_ok hr
    cases he
    have hrows : a ∈ v.store.bets.rows ++ [b] := Table.rows_insert hins ▸ ha
    rcases List.mem_append.1 hrows with ha | ha
    · exact .inr ⟨a, ha, rfl, rfl, rfl, hopen⟩
    · rw [List.mem_singleton.1 ha]
      exact .inl (by simp [insertedBets])
  | updateBet p set =>
    cases hr
    obtain ⟨b, hb, rfl⟩ := Table.mem_update.1 ha
    have hset : set.status ≠ some .open := by
      rcases hq with hq | ⟨b, hb⟩
      · exact of_decide_eq_true hq
      · cases hb
    refine .inr ⟨b, hb, ?_⟩
    unfold Table.updateRow at hopen ⊢
    split at hopen
    · rename_i hp
      rw [if_pos hp]
      exact ⟨rfl, rfl, rfl, open_of_apply hset hopen⟩
    · rename_i hp
      rw [if_neg hp]
      exact ⟨rfl, rfl, rfl, hopen⟩
  | _ =>
    have hbets : s.bets = v.store.bets := exec_sparesBets rfl hr
    have hmem : a ∈ v.store.bets.rows := hbets ▸ ha
    exact .inr ⟨a, hmem, rfl, rfl, rfl, hopen⟩

/-- A statement that opens no bet keeps the rule. -/
theorem respects_oneRound : Respects oneRoundDiscipline exec Stmt.opensNoBet := by
  intro v i q _ r s hq hinv _ hr
  refine ⟨opensByInsert_exec i (.inl hq) hr, ?_⟩
  have hv : OneOpenRound v.store := hinv
  show OneOpenRound s
  cases q with
  | insertBet b =>
    obtain ⟨bets, hins, he⟩ := orThrow_ok hr
    cases he
    have hsettled : b.status ≠ .open := of_decide_eq_true hq
    intro userId gameId
    rw [openRounds_insertBet hins, if_neg (fun h => hsettled h.2.2), List.append_nil]
    exact hv userId gameId
  | updateBet p set =>
    cases hr
    exact fun userId gameId => (length_openRounds_update (of_decide_eq_true hq) userId gameId).trans (hv userId gameId)
  | _ => exact hv.of_eq (exec_sparesBets rfl hr)

/-- Where the player has no open round at the game, one can be inserted. -/
theorem OneOpenRound.insert {b : Bet} {bets : Table Bet} (h : OneOpenRound db) (hins : db.bets.insert b = some bets)
    (hnone : db.openRounds b.userId b.gameId = []) : OneOpenRound { db with bets } := by
  intro userId gameId
  rw [openRounds_insertBet hins, List.length_append]
  split
  · rename_i hb
    obtain ⟨rfl, rfl, -⟩ := hb
    rw [hnone]
    simp
  · simpa using h userId gameId

end Statements

/-! ## The check -/

variable {D : Digest} {i : PlayCall} {w : World PlayCall Stmt Db} {fresh : Fresh} {userId sessionId gameId : Id}
  {α β : Type}

/-- The program keeps the rule, whatever the others do in between, if its inserts meet the step condition. -/
def KeepsOneRound (i : PlayCall) (p : Sql α) (w : World PlayCall Stmt Db) : Prop :=
  Safe oneRoundDiscipline exec i p w 0 Released

/-- The call has looked for an open round of the player at the game, and there was none. -/
def FoundNone (w : World PlayCall Stmt Db) (i : PlayCall) (userId gameId : Id) : Prop :=
  ∃ u, OpensByInsert u w ∧ u.store.openRounds userId gameId = [] ∧ ∃ e ∈ u.log, looksForBets i e = true

theorem FoundNone.persist {v : World PlayCall Stmt Db} (h : FoundNone w i userId gameId) (hv : OpensByInsert w v) :
    FoundNone v i userId gameId := by
  obtain ⟨u, hu, hnone, hlooked⟩ := h
  exact ⟨u, hu.trans hv, hnone, hlooked⟩

/-- Where the call may insert, there is still none: one that is open now would have been inserted since. -/
theorem FoundNone.none {b : Bet} (h : FoundNone w i b.userId b.gameId) (hopen : b.status = .open)
    (hok : MayInsertBet w i (.insertBet b)) : w.store.openRounds b.userId b.gameId = [] := by
  obtain ⟨u, ⟨post, hlog, hopens⟩, hnone, hlooked⟩ := h
  rw [List.eq_nil_iff_forall_not_mem]
  intro a ha
  obtain ⟨hmem, hp⟩ := Table.mem_select.1 ha
  simp only [Bool.and_eq_true, beq_iff_eq] at hp
  obtain hnew | ⟨c, hc, -, huser, hgame, hcopen⟩ := hopens a hmem hp.2
  · refine hok hopen a ha ?_
    rw [hlog, sinceFirst_append hlooked]
    have hboth : insertedBets (sinceFirst (looksForBets i) u.log ++ post) =
        insertedBets (sinceFirst (looksForBets i) u.log) ++ insertedBets post := List.filterMap_append
    rw [hboth]
    exact List.mem_append_right _ hnew
  · have hold : c ∈ u.store.openRounds b.userId b.gameId :=
      Table.mem_select.2 ⟨hc, by simp [huser, hgame, hcopen, hp.1.1, hp.1.2]⟩
    rw [hnone] at hold
    cases hold

/-- A program that opens no bet. -/
theorem keeps_quiet {p : Sql α} (hp : Reads Stmt.opensNoBet p) : KeepsOneRound i p w :=
  (safe_of_respects respects_oneRound hp).mono fun _ _ _ h => h.2

theorem keeps_bind {p : Sql α} {f : α → Sql β} (hp : KeepsOneRound i p w) (hf : ∀ a v, KeepsOneRound i (f a) v) :
    KeepsOneRound i (p >>= f) w :=
  safe_bind_released hp hf

/-- A part of a call that opens no bet. -/
theorem keeps_before {p : Sql α} {f : α → Sql β} (hp : Reads Stmt.opensNoBet p)
    (hf : ∀ a v, KeepsOneRound i (f a) v) : KeepsOneRound i (p >>= f) w :=
  keeps_bind (keeps_quiet hp) hf

/-- A part of a call between its check and its insert. -/
theorem keeps_between {p : Sql α} {f : α → Sql β} (hnone : FoundNone w i userId gameId)
    (hp : Reads Stmt.opensNoBet p) (hf : ∀ a v, FoundNone v i userId gameId → KeepsOneRound i (f a) v) :
    KeepsOneRound i (p >>= f) w := by
  refine safe_bind ((safe_of_respects respects_oneRound hp).mono fun a v g h => ?_)
  obtain ⟨hv, rfl⟩ := h
  exact hf a v (hnone.persist hv)

/-- The check for an open round. -/
theorem keeps_look {f : List Bet → Sql α} (hrefuse : ∀ b bets v, KeepsOneRound i (f (b :: bets)) v)
    (hf : ∀ v, FoundNone v i userId gameId → KeepsOneRound i (f []) v) :
    KeepsOneRound i (ask (.selectBet fun b => b.userId == userId && b.gameId == gameId && b.status == .open) >>= f)
      w := by
  intro v _ _ hinv _ r s hr
  cases hr
  have hquiet : OpensByInsert v (v.after i (.selectBet fun b =>
      b.userId == userId && b.gameId == gameId && b.status == .open) v.store) :=
    opensByInsert_exec i (.inl rfl) rfl
  refine ⟨hquiet, 0, hinv, ?_⟩
  cases hrows : v.store.openRounds userId gameId with
  | cons b bets =>
    have hselect : v.store.bets.select (fun b => b.userId == userId && b.gameId == gameId && b.status == .open) =
        b :: bets := hrows
    rw [hselect]
    exact hrefuse b bets _
  | nil =>
    have hselect : v.store.bets.select (fun b => b.userId == userId && b.gameId == gameId && b.status == .open) =
        [] := hrows
    rw [hselect]
    refine hf _ ⟨_, .refl _, hrows, _, List.mem_append_right _ (List.mem_singleton_self _), ?_⟩
    simp [looksForBets, Stmt.selectsBet]

/-- The insert of a round. -/
theorem keeps_insert {b : Bet} {f : Unit → Sql α} (hnone : FoundNone w i b.userId b.gameId) (hopen : b.status = .open)
    (hf : Reads Stmt.opensNoBet (f ())) : KeepsOneRound i (perform (.insertBet b) >>= f) w := by
  intro v hv _ hinv hok r s hr
  have hgrow := opensByInsert_exec i (.inr ⟨b, rfl⟩) hr
  obtain ⟨bets, hins, he⟩ := orThrow_ok hr
  cases he
  have hone : OneOpenRound v.store := hinv
  exact ⟨hgrow, 0, hone.insert hins ((hnone.persist hv).none hopen hok), keeps_quiet hf⟩

/-! ## The calls -/

/-- A program of statements of another kind. -/
theorem opensNoBet_of {P : Stmt → Bool} (hP : ∀ b, P (.insertBet b) = false)
    (hP' : ∀ p set, P (.updateBet p set) = true → set.status ≠ some .open) {p : Sql α} (hp : Reads P p) :
    Reads Stmt.opensNoBet p := by
  refine hp.mono fun q hq => ?_
  cases q with
  | insertBet b => rw [hP] at hq; cases hq
  | updateBet p set => exact decide_eq_true (hP' p set hq)
  | _ => rfl

theorem opensNoBet_of_oneRead {p : Sql α} (hp : OneRead Stmt.isRead p) : Reads Stmt.opensNoBet p :=
  opensNoBet_of (fun _ => rfl) (fun _ _ h => by cases h) hp.reads

theorem opensNoBet_requireWallet (userId : Id) : Reads Stmt.opensNoBet (requireWallet userId) :=
  opensNoBet_of (fun _ => rfl) (fun _ _ h => by cases h) (onWallets_requireWallet userId)

theorem keeps_openRound {Sel : Type} (G : GridGame Sel) (stakeInput : Num) (selectionInput : RawSelection) :
    KeepsOneRound i (openRound G D fresh userId sessionId stakeInput selectionInput) w := by
  refine keeps_before (opensNoBet_of_oneRead (oneRead_requireOpenSession ..)) fun ⟨_, game⟩ v => ?_
  refine keeps_before (reads_of_done (done_orInvalid _)) fun validated v => ?_
  refine keeps_before (reads_of_done (done_orFail _)) fun stake v => ?_
  refine keeps_look (fun _ _ _ => rfl) fun v hnone => ?_
  refine keeps_between hnone (opensNoBet_requireWallet userId) fun wallet v hnone => ?_
  refine keeps_between hnone (opensNoBet_of_oneRead (oneRead_nextNonce _)) fun nonce v hnone => ?_
  refine keeps_between hnone (opensNoBet_of_oneRead (oneRead_getControlRule ..)) fun row v hnone => ?_
  refine keeps_between hnone (reads_of_done (done_orThrew _)) fun selection v hnone => ?_
  unfold debitStake
  rw [Prog.bind_assoc]
  refine keeps_between hnone (p := ask _) ⟨rfl, fun _ => trivial⟩ fun debited v hnone => ?_
  split
  · exact keeps_insert hnone rfl ⟨rfl, fun _ => ⟨rfl, fun _ => trivial⟩⟩
  · exact rfl

/-- A settled bet opens nothing. -/
theorem opensNoBet_placeBet (slug : GameSlug) (stakeInput : Num) (selectionInput : RawSelection) :
    Reads Stmt.opensNoBet (placeBet D fresh userId sessionId slug stakeInput selectionInput) := by
  unfold placeBet
  split
  · trivial
  refine reads_bind (opensNoBet_of_oneRead (oneRead_requireOpenSession ..)) fun _ => ?_
  refine reads_bind (reads_of_done (done_orInvalid _)) fun validated => ?_
  refine reads_bind (reads_of_done (done_orFail _)) fun stake => ?_
  refine reads_bind (opensNoBet_requireWallet userId) fun wallet => ?_
  refine reads_bind (opensNoBet_of_oneRead (oneRead_nextNonce _)) fun nonce => ?_
  refine reads_bind (opensNoBet_of_oneRead (oneRead_getControlRule ..)) fun row => ?_
  refine reads_bind (reads_of_done (done_orThrew _)) fun raw => ?_
  refine reads_bind (p := ask _) ⟨rfl, fun _ => trivial⟩ fun debited => ?_
  split
  · refine reads_bind (p := perform _) ⟨?_, fun _ => trivial⟩ fun _ => ?_
    · simp only [Stmt.opensNoBet]
      split <;> rfl
    refine reads_bind (p := perform _) ⟨rfl, fun _ => trivial⟩ fun _ => ?_
    refine reads_bind (p := bumpSession _ _ _) ⟨rfl, fun _ => trivial⟩ fun _ => ?_
    refine reads_bind ?_ fun _ => trivial
    exact opensNoBet_of (fun _ => rfl) (fun _ _ h => by cases h) (onControls_consumeForcedRound row)
  · trivial

theorem oneRound_serve (D : Digest) (fresh : Fresh) (request : Request) (i : PlayCall)
    (w : World PlayCall Stmt Db) : KeepsOneRound i (serve D fresh request) w := by
  have answer : ∀ {γ δ : Type} {p : Sql γ} {f : γ → δ}, KeepsOneRound i p w →
      KeepsOneRound i (p >>= fun a => pure (f a)) w := fun hp => keeps_bind hp fun _ _ => rfl
  have onRound : ∀ {γ : Type} {p : Sql γ}, Reads Stmt.onRound p → KeepsOneRound i p w := fun hp =>
    keeps_quiet (opensNoBet_of (fun _ => rfl) (fun _ _ h => of_decide_eq_true h) hp)
  have reads : ∀ {γ : Type} {p : Sql γ}, Reads Stmt.isRead p → KeepsOneRound i p w := fun hp =>
    keeps_quiet (opensNoBet_of (fun _ => rfl) (fun _ _ h => by cases h) hp)
  have onSessions : ∀ {γ : Type} {p : Sql γ}, Reads Stmt.onSessions p → KeepsOneRound i p w := fun hp =>
    keeps_quiet (opensNoBet_of (fun _ => rfl) (fun _ _ h => by cases h) hp)
  cases request with
  | startSession userId gameSlug => exact answer (onSessions (onSessions_startSession gameSlug))
  | endSession userId sessionId => exact keeps_bind (onSessions onSessions_endSession) fun _ _ => rfl
  | getSession userId sessionId => exact answer (reads (reads_getSession ..))
  | placeBet userId sessionId slug stakeInput selectionInput =>
    exact answer (keeps_quiet (opensNoBet_placeBet slug stakeInput selectionInput))
  | startMines userId sessionId stakeInput mineCountInput =>
    exact answer (keeps_bind (keeps_openRound minesGame _ _) fun _ _ => rfl)
  | revealMines userId sessionId betReference tile => exact answer (onRound (onRound_revealMines betReference tile))
  | cashOutMines userId sessionId betReference => exact answer (onRound (onRound_cashOutMines betReference))
  | getOpenMines userId sessionId => exact answer (reads (reads_getOpenMines ..))
  | startTowers userId sessionId stakeInput difficultyInput =>
    exact answer (keeps_bind (keeps_openRound towersGame _ _) fun _ _ => rfl)
  | revealTowers userId sessionId betReference tile =>
    exact answer (onRound (onRound_revealTowers betReference tile))
  | cashOutTowers userId sessionId betReference => exact answer (onRound (onRound_cashOutTowers betReference))
  | getOpenTowers userId sessionId => exact answer (reads (reads_getOpenTowers ..))

theorem oneRound_prog (D : Digest) (i : PlayCall) (w : World PlayCall Stmt Db) :
    Safe oneRoundDiscipline exec i (i.prog D) w 0 Released :=
  oneRound_serve D i.1 i.2 i w

/-! ## All interleavings -/

/-- An insert after which the rule holds has met the step condition. -/
theorem okMove_of_oneOpenRound {D : Digest} {c d : Pool PlayCall Stmt.Resp Fault Response Db} {m : Move PlayCall Fault}
    (h : c.move exec (PlayCall.prog D) m = some d) (hd : OneOpenRound d.store) (hm : m.ok = true) :
    OkMove oneRoundDiscipline c m := by
  obtain ⟨i, rfl, rfl⟩ | ⟨n, i, q, k, r, s, rfl, hn, hq, rfl⟩ | ⟨n, i, q, k, e, rfl, -, -⟩ := Pool.move_cases h
  · trivial
  · simp only [OkMove, hn]
    cases q with
    | insertBet b =>
      intro hopen
      obtain ⟨bets, hins, he⟩ := orThrow_ok hq
      cases he
      have hone : (Db.openRounds { c.store with bets } b.userId b.gameId).length ≤ 1 := hd b.userId b.gameId
      rw [openRounds_insertBet hins, if_pos ⟨rfl, rfl, hopen⟩, List.length_append, List.length_singleton] at hone
      have hnone : c.store.openRounds b.userId b.gameId = [] := List.length_eq_zero_iff.1 (by omega)
      rw [hnone]
      exact fun a ha => nomatch ha
    | _ => trivial
  · cases hm

/-- **At most one round of a player is open at a game in every state of a run exactly when no call inserts a round while
another one is open that was inserted since the call looked for one.** -/
theorem one_open_round_iff (D : Digest) (db : Db) (h : OneOpenRound db) (ms : List (Move PlayCall Fault))
    (c : Pool PlayCall Stmt.Resp Fault Response Db)
    (hc : (Pool.init db).replay exec (PlayCall.prog D) ms = some c) :
    (∀ ns d, ns <+: ms → (Pool.init db).replay exec (PlayCall.prog D) ns = some d → OneOpenRound d.store) ↔
      MayMoves oneRoundDiscipline exec (PlayCall.prog D)
        (Pool.init db : Pool PlayCall Stmt.Resp Fault Response Db) ms := by
  constructor
  · intro hreach
    exact mayMoves_of_reached (J := fun d => OneOpenRound d.store)
      (fun _ _ _ hm hd hok => okMove_of_oneOpenRound hm hd hok) hc hreach
  · rintro hmay ns d ⟨ns', rfl⟩ hd
    have hinv : PoolInv oneRoundDiscipline exec (Pool.init db : Pool PlayCall Stmt.Resp Fault Response Db) :=
      poolInv_init h
    exact (replay_safe_fail (oneRound_prog D) hd (mayMoves_of_append hmay) hinv).2.inv

/-! ## Two starts -/

instance (w : World PlayCall Stmt Db) (i : PlayCall) : ∀ q, Decidable (oneRoundDiscipline.ok w i q)
  | .insertBet b => inferInstanceAs (Decidable (b.status = .open → ∀ a ∈ w.store.openRounds b.userId b.gameId, _))
  | .selectGame _ | .selectExcluded _ | .selectSession _ | .selectSessionGame _ | .insertSession _
  | .updateSession _ _ | .selectWallet _ | .insertWallet _ | .updateWallet _ _ | .selectTransaction _
  | .selectTransactionUser _ | .insertTransactions _ | .updateTransaction _ _ | .selectBet _ | .updateBet _ _
  | .selectControl _ | .updateControl _ _ => .isTrue trivial

theorem tableDb_oneOpenRound (slug : GameSlug) : OneOpenRound (tableDb slug) := fun _ _ => by
  simp [Db.openRounds, Table.select, tableDb, Table.empty]

def startAt (n : Nat) : PlayCall := (freshAt n, .startMines "u1" "s1" (some 5) (some 3))

/-- Both calls find no round in progress before either of them inserts one. -/
def bothStart : List (Move PlayCall Fault) :=
  [.start (startAt 1), .start (startAt 2)] ++ [0, 0, 1, 1, 0, 0, 0, 0, 0, 0, 0, 1, 1, 1, 1, 1, 1, 1].map .stmt

/-- The player has two Mines rounds in progress. -/
theorem two_open_rounds :
    ∃ c, (Pool.init (tableDb .mines)).replay exec (PlayCall.prog zeroDigest) bothStart = some c ∧ c.Idle ∧
      ¬ OneOpenRound c.store := by
  have hrun : ((Pool.init (tableDb .mines)).replay exec (PlayCall.prog zeroDigest) bothStart).any (fun c =>
      decide (c.Idle ∧ (c.store.openRounds "u1" GameSlug.mines.text).length = 2)) = true := by
    decide +kernel
  obtain ⟨c, hc, h⟩ := (Option.any_eq_true _ _).1 hrun
  rw [decide_eq_true_eq] at h
  refine ⟨c, hc, h.1, fun hone => ?_⟩
  have hle := hone "u1" GameSlug.mines.text
  omega

/-- The second call looks when the first one has inserted its round. -/
def startInTurn : List (Move PlayCall Fault) :=
  [.start (startAt 1), .start (startAt 2)] ++ [0, 0, 1, 0, 0, 0, 0, 0, 1, 0, 0].map .stmt

theorem one_open_round_in_turn :
    ∃ c, (Pool.init (tableDb .mines)).replay exec (PlayCall.prog zeroDigest) startInTurn = some c ∧ c.Idle ∧
      ∀ ns d, ns <+: startInTurn →
        (Pool.init (tableDb .mines)).replay exec (PlayCall.prog zeroDigest) ns = some d → OneOpenRound d.store := by
  have hrun : ((Pool.init (tableDb .mines)).replay exec (PlayCall.prog zeroDigest) startInTurn).any (fun c =>
      decide c.Idle) = true := by
    decide +kernel
  obtain ⟨c, hc, hidle⟩ := (Option.any_eq_true _ _).1 hrun
  refine ⟨c, hc, of_decide_eq_true hidle, ?_⟩
  exact (one_open_round_iff zeroDigest (tableDb .mines) (tableDb_oneOpenRound .mines) startInTurn c hc).2
    (by decide +kernel)

end Smink
