import Smink.Play.Effects

/-!
# The statements of a request

Which statements the methods run, apart from what they put into them: no method writes a transaction that is there, only
`placeBet` writes a control row (`inPlay_quiet`), and no statement sets a bet to open.
-/

namespace Smink

open Store

/-- The statements of the methods. Only those that count a rule down write a control row. -/
def Stmt.inPlay (controls : Bool) : Stmt → Bool
  | .updateBet _ set => decide (set.status ≠ some .open)
  | .updateControl _ _ => controls
  | .updateTransaction _ _ => false
  | _ => true

/-- The statements of a reveal or a cash-out. -/
def Stmt.onRound : Stmt → Bool
  | .updateWallet _ _ | .insertTransactions _ | .updateSession _ _ => true
  | .updateBet _ set => decide (set.status ≠ some .open)
  | q => q.isRead

section Methods

variable {D : Digest} {fresh : Fresh} {userId sessionId : Id} {controls : Bool} {α β : Type}

theorem inPlay_of_isRead (q : Stmt) (hq : q.isRead = true) : q.inPlay controls = true := by
  cases q <;> first | rfl | cases hq

theorem inPlay_of_onSessions (q : Stmt) (hq : q.onSessions = true) : q.inPlay controls = true := by
  cases q <;> first | rfl | cases hq

theorem inPlay_oneRead {p : Sql α} {f : α → Sql β} (hp : OneRead Stmt.isRead p)
    (hf : ∀ a, Reads (Stmt.inPlay controls) (f a)) : Reads (Stmt.inPlay controls) (p >>= f) :=
  reads_bind (hp.reads.mono inPlay_of_isRead) hf

theorem inPlay_done {p : Sql α} {f : α → Sql β} (hp : p.done = true) (hf : ∀ a, Reads (Stmt.inPlay controls) (f a)) :
    Reads (Stmt.inPlay controls) (p >>= f) :=
  reads_bind (reads_of_done hp) hf

theorem inPlay_requireWallet (userId : Id) : Reads (Stmt.inPlay controls) (requireWallet userId) :=
  (onWallets_requireWallet userId).mono fun q hq => by cases q <;> first | rfl | cases hq

theorem inPlay_of_onRound (q : Stmt) (hq : q.onRound = true) : q.inPlay controls = true := by
  cases q <;> first | rfl | exact hq | cases hq

theorem onRound_of_isRead (q : Stmt) (hq : q.isRead = true) : q.onRound = true := by
  cases q <;> first | rfl | cases hq

theorem onRound_oneRead {p : Sql α} {f : α → Sql β} (hp : OneRead Stmt.isRead p)
    (hf : ∀ a, Reads Stmt.onRound (f a)) : Reads Stmt.onRound (p >>= f) :=
  reads_bind (hp.reads.mono onRound_of_isRead) hf

theorem onRound_settleLost (now : Time) (bet : Bet) (outcome : GameOutcome) :
    Reads Stmt.onRound (settleLost now userId bet outcome) :=
  ⟨rfl, fun _ => ⟨rfl, fun _ => trivial⟩⟩

theorem onRound_payOut (slug : GameSlug) (betReference : String) (bet : Bet) :
    Reads Stmt.onRound (payOut fresh slug userId sessionId betReference bet) :=
  ⟨rfl, fun _ => ⟨rfl, fun _ => ⟨rfl, fun _ => ⟨rfl, fun _ => trivial⟩⟩⟩⟩

theorem onRound_cashOutMines (betReference : String) :
    Reads Stmt.onRound (cashOutMines fresh userId sessionId betReference) := by
  refine onRound_oneRead (oneRead_requireOpenSession ..) fun _ => ?_
  refine onRound_oneRead (oneRead_findRound ..) fun bet => ?_
  split
  · trivial
  · exact reads_bind (onRound_payOut ..) fun _ => trivial

theorem onRound_cashOutTowers (betReference : String) :
    Reads Stmt.onRound (cashOutTowers fresh userId sessionId betReference) := by
  refine onRound_oneRead (oneRead_requireOpenSession ..) fun _ => ?_
  refine onRound_oneRead (oneRead_findRound ..) fun bet => ?_
  split
  · trivial
  · refine reads_bind (onRound_payOut ..) fun _ => ?_
    exact reads_bind (reads_of_done (done_orThrew _)) fun _ => trivial

theorem onRound_recordReveal (bet : Bet) (multiplier : ℚ) (outcome : GameOutcome) {f : Unit → Sql α}
    (hf : Reads Stmt.onRound (f ())) : Reads Stmt.onRound (recordReveal bet multiplier outcome >>= f) :=
  ⟨rfl, fun _ => hf⟩

theorem onRound_revealMines (betReference : String) (tile : Num) :
    Reads Stmt.onRound (revealMines fresh userId sessionId betReference tile) := by
  unfold revealMines
  split
  · split
    · trivial
    refine onRound_oneRead (oneRead_requireOpenSession ..) fun _ => ?_
    refine onRound_oneRead (oneRead_findRound ..) fun bet => ?_
    dsimp only
    split
    · trivial
    split
    · exact reads_bind (onRound_settleLost ..) fun _ => trivial
    · refine onRound_recordReveal bet _ _ ?_
      split
      · exact onRound_cashOutMines betReference
      · trivial
  · trivial

theorem onRound_revealTowers (betReference : String) (tile : Num) :
    Reads Stmt.onRound (revealTowers fresh userId sessionId betReference tile) := by
  refine onRound_oneRead (oneRead_requireOpenSession ..) fun _ => ?_
  refine onRound_oneRead (oneRead_findRound ..) fun bet => ?_
  split
  · refine reads_bind (reads_of_done (done_orThrew _)) fun difficulty => ?_
    dsimp only
    split
    · trivial
    split
    · trivial
    split
    · exact reads_bind (onRound_settleLost ..) fun _ => trivial
    · refine onRound_recordReveal bet _ _ ?_
      split
      · exact onRound_cashOutTowers betReference
      · trivial
  · trivial

theorem inPlay_openRound {Sel : Type} (G : GridGame Sel) (stakeInput : Num) (selectionInput : RawSelection) :
    Reads (Stmt.inPlay controls) (openRound G D fresh userId sessionId stakeInput selectionInput) := by
  refine inPlay_oneRead (oneRead_requireOpenSession ..) fun _ => ?_
  refine inPlay_done (done_orInvalid _) fun validated => ?_
  refine inPlay_done (done_orFail _) fun stake => ?_
  refine inPlay_oneRead ⟨_, _, rfl, rfl, fun _ => rfl⟩ fun opened => ?_
  split
  · trivial
  refine reads_bind (inPlay_requireWallet userId) fun wallet => ?_
  refine inPlay_oneRead (oneRead_nextNonce _) fun nonce => ?_
  refine inPlay_oneRead (oneRead_getControlRule ..) fun row => ?_
  refine inPlay_done (done_orThrew _) fun selection => ?_
  refine reads_bind (reads_bind (p := ask _) ⟨rfl, fun _ => trivial⟩ fun debited => ?_) fun _ => ?_
  · split <;> trivial
  · exact ⟨rfl, fun _ => ⟨rfl, fun _ => ⟨rfl, fun _ => trivial⟩⟩⟩

theorem inPlay_placeBet (slug : GameSlug) (stakeInput : Num) (selectionInput : RawSelection) :
    Reads (Stmt.inPlay true) (placeBet D fresh userId sessionId slug stakeInput selectionInput) := by
  unfold placeBet
  split
  · trivial
  refine inPlay_oneRead (oneRead_requireOpenSession ..) fun _ => ?_
  refine inPlay_done (done_orInvalid _) fun validated => ?_
  refine inPlay_done (done_orFail _) fun stake => ?_
  refine reads_bind (inPlay_requireWallet userId) fun wallet => ?_
  refine inPlay_oneRead (oneRead_nextNonce _) fun nonce => ?_
  refine inPlay_oneRead (oneRead_getControlRule ..) fun row => ?_
  refine inPlay_done (done_orThrew _) fun raw => ?_
  refine reads_bind (p := ask _) ⟨rfl, fun _ => trivial⟩ fun debited => ?_
  split
  · refine reads_bind (p := perform _) ⟨rfl, fun _ => trivial⟩ fun _ => ?_
    refine reads_bind (p := perform _) ⟨rfl, fun _ => trivial⟩ fun _ => ?_
    refine reads_bind (p := bumpSession _ _ _) ⟨rfl, fun _ => trivial⟩ fun _ => ?_
    refine reads_bind ((onControls_consumeForcedRound row).mono fun q hq => ?_) fun _ => trivial
    exact by cases q <;> first | rfl | cases hq
  · trivial

/-- A request that does not place a bet writes no control row. -/
theorem inPlay_quiet {request : Request} (h : ∀ u s slug stake sel, request ≠ .placeBet u s slug stake sel) :
    Reads (Stmt.inPlay controls) (serve D fresh request) := by
  cases request with
  | startSession userId gameSlug =>
    exact reads_bind ((onSessions_startSession gameSlug).mono inPlay_of_onSessions) fun _ => trivial
  | endSession userId sessionId =>
    exact reads_bind (onSessions_endSession.mono inPlay_of_onSessions) fun _ => trivial
  | getSession userId sessionId => exact reads_bind ((reads_getSession ..).mono inPlay_of_isRead) fun _ => trivial
  | placeBet userId sessionId slug stakeInput selectionInput =>
    exact absurd rfl (h userId sessionId slug stakeInput selectionInput)
  | startMines userId sessionId stakeInput mineCountInput =>
    exact reads_bind (reads_bind (inPlay_openRound minesGame stakeInput _) fun _ => trivial) fun _ => trivial
  | revealMines userId sessionId betReference tile =>
    exact reads_bind ((onRound_revealMines betReference tile).mono inPlay_of_onRound) fun _ => trivial
  | cashOutMines userId sessionId betReference =>
    exact reads_bind ((onRound_cashOutMines betReference).mono inPlay_of_onRound) fun _ => trivial
  | getOpenMines userId sessionId => exact reads_bind ((reads_getOpenMines ..).mono inPlay_of_isRead) fun _ => trivial
  | startTowers userId sessionId stakeInput difficultyInput =>
    exact reads_bind (reads_bind (inPlay_openRound towersGame stakeInput _) fun _ => trivial) fun _ => trivial
  | revealTowers userId sessionId betReference tile =>
    exact reads_bind ((onRound_revealTowers betReference tile).mono inPlay_of_onRound) fun _ => trivial
  | cashOutTowers userId sessionId betReference =>
    exact reads_bind ((onRound_cashOutTowers betReference).mono inPlay_of_onRound) fun _ => trivial
  | getOpenTowers userId sessionId =>
    exact reads_bind ((reads_getOpenTowers ..).mono inPlay_of_isRead) fun _ => trivial

/-- The statements of a request. -/
theorem inPlay_serve (D : Digest) (fresh : Fresh) (request : Request) :
    Reads (Stmt.inPlay true) (serve D fresh request) := by
  by_cases h : ∃ u s slug stake sel, request = .placeBet u s slug stake sel
  · obtain ⟨u, s, slug, stake, sel, rfl⟩ := h
    exact reads_bind (inPlay_placeBet slug stake sel) fun _ => trivial
  · refine inPlay_quiet fun u s slug stake sel he => ?_
    exact h ⟨u, s, slug, stake, sel, he⟩

end Methods

end Smink
