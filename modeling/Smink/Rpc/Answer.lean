import Smink.Play.Counters
import Smink.Rpc.Engine

/-!
# Does a failed fan-out change the answer

A handler answers after its fan-out. A rejected publish is caught where it is made, a rejected job is not, and only the
handler of `bet.place` catches what its fan-out throws. So an answer is kept exactly when no job that its handler adds
is rejected (`answer_kept_iff`); `cashOut_reported_failed` is a cash-out that has paid and is reported as failed.
-/

namespace Smink

open Store

/-! ## When it holds -/

/-- The jobs that the handler of a successful command adds and does not guard. -/
def unguardedJobs : Request → List Target
  | .startSession _ _ => [.queue .realtime "started"]
  | .endSession _ _ => [.queue .session "ended"]
  | .revealMines _ _ _ _ => [.queue .realtime "mines"]
  | .revealTowers _ _ _ _ => [.queue .realtime "towers"]
  | .cashOutMines _ _ _ | .cashOutTowers _ _ _ => [.queue .realtime "bet", .queue .session "history"]
  | .getSession _ _ | .placeBet _ _ _ _ _ | .startMines _ _ _ _ | .getOpenMines _ _ | .startTowers _ _ _ _
  | .getOpenTowers _ _ => []

variable {D : Digest} {db : Db} {fresh : Fresh} {emission : Emission} {fails : Target → Bool} {userId sessionId : Id}

/-! ## How a fan-out ends -/

section Outcome

variable {α β : Type} {f : Unit → Fanout α}

theorem outcome_bind {p : Fanout β} {f : β → Fanout α} : (p >>= f).outcome fails =
    match p.outcome fails with
    | .ok b => (f b).outcome fails
    | .error e => .error e := by
  induction p with
  | ret b => rfl
  | throw e => rfl
  | stmt call k ih => exact ih _

/-- A publish is passed, whether it is rejected or not. -/
theorem outcome_channel (channel : String) (event : ChannelEvent) (payload : ChannelPayload) :
    (RealtimeService.publish channel event payload >>= f).outcome fails = (f ()).outcome fails := rfl

theorem outcome_exchange (routingKey : RoutingKey) (payload : EventPayload) :
    (EventsService.publish routingKey payload >>= f).outcome fails = (f ()).outcome fails := rfl

/-- A job that is rejected is thrown. -/
theorem outcome_add (queue : BullQueue) (name : String) (job : Job) :
    (queue.add name job).outcome fails = if fails (.queue queue name) then .error .threw else .ok () := by
  change Fanout.outcome fails (if !fails (.queue queue name) then Prog.ret () else Prog.throw .threw) = _
  cases fails (.queue queue name) <;> rfl

/-- The fan-out of a bet ends well when both of its jobs are added. -/
theorem outcome_fanoutBet (bet : SettledBet) : (EngineController.fanoutBet emission userId bet).outcome fails =
    if fails (.queue .realtime "bet") || fails (.queue .session "history") then .error .threw else .ok () := by
  have hrest : Fanout.outcome fails (do
      EventsService.publish .betSettled (.bet (EngineController.settledEvent emission userId bet))
      BullQueue.realtime.add "bet" (.update userId bet.sessionId .betSettled (.bet bet))
      BullQueue.session.add "history" (.history bet.sessionId (EngineController.queuedItem bet))) =
        if fails (.queue .realtime "bet") || fails (.queue .session "history") then .error .threw else .ok () := by
    rw [outcome_exchange, outcome_bind, outcome_add]
    cases fails (.queue .realtime "bet") with
    | true => rfl
    | false => exact outcome_add ..
  unfold EngineController.fanoutBet
  rw [RealtimeService.publishToUser, outcome_channel]
  -- the publishes to the session and to the lobby are passed
  split <;> split <;> exact hrest

theorem outcome_fanoutSession (session : GameSessionDto) :
    (EngineController.fanoutSession emission userId session true).outcome fails =
      if fails (.queue .realtime "started") then .error .threw else .ok () :=
  outcome_add ..

end Outcome

/-! ## What a success answers with -/

theorem returns_cashOutMines (betReference : String) :
    Prog.Returns (fun data : MinesRoundState => data.status = .cashedOut)
      (cashOutMines fresh userId sessionId betReference) := by
  refine Prog.returns_bind fun _ => Prog.returns_bind fun bet => ?_
  split
  · trivial
  · exact Prog.returns_bind fun balance => rfl

theorem returns_cashOutTowers (betReference : String) :
    Prog.Returns (fun data : TowersRoundState => data.status = .cashedOut)
      (cashOutTowers fresh userId sessionId betReference) := by
  refine Prog.returns_bind fun _ => Prog.returns_bind fun bet => ?_
  split
  · trivial
  · exact Prog.returns_bind fun balance => Prog.returns_bind fun difficulty => rfl

/-- The request that the response is one to. -/
def Response.answers : Response → Request → Prop
  | .session _, .startSession _ _ => True
  | .ended, .endSession _ _ => True
  | .session _, .getSession _ _ => True
  | .settled _, .placeBet _ _ _ _ _ => True
  | .mines _, .startMines _ _ _ _ => True
  | .mines _, .revealMines _ _ _ _ => True
  | .mines data, .cashOutMines _ _ _ => data.status = .cashedOut
  | .openMines _, .getOpenMines _ _ => True
  | .towers _, .startTowers _ _ _ _ => True
  | .towers _, .revealTowers _ _ _ _ => True
  | .towers data, .cashOutTowers _ _ _ => data.status = .cashedOut
  | .openTowers _, .getOpenTowers _ _ => True
  | _, _ => False

/-- A result that is put into another form. -/
theorem returns_map {α : Type} {Q : α → Prop} {Q' : Response → Prop} {p : Sql α} {f : α → Response}
    (hp : p.Returns Q) (hf : ∀ a, Q a → Q' (f a)) : Prog.Returns Q' (p >>= fun a => pure (f a)) := by
  induction p with
  | ret a => exact hf a hp
  | throw e => trivial
  | stmt q k ih => exact fun r => ih r (hp r)

theorem returns_any {α : Type} {Q' : Response → Prop} {p : Sql α} {f : α → Response} (hf : ∀ a, Q' (f a)) :
    Prog.Returns Q' (p >>= fun a => pure (f a)) :=
  Prog.returns_bind hf

/-- A request is answered by a response of its kind. -/
theorem returns_serve (request : Request) :
    Prog.Returns (fun response : Response => response.answers request) (serve D fresh request) := by
  cases request with
  | cashOutMines userId sessionId betReference => exact returns_map (returns_cashOutMines betReference) fun _ h => h
  | cashOutTowers userId sessionId betReference => exact returns_map (returns_cashOutTowers betReference) fun _ h => h
  | _ => exact returns_any fun _ => trivial

/-! ## The handlers -/

/-- A list of targets that all work. -/
theorem ok_iff {b : Bool} : (if b then .error .threw else .ok () : Except Fault Unit) = .ok () ↔ b = false := by
  cases b <;> simp

/-- How the fan-out of a command ends, where it is not caught. -/
theorem outcome_fanout (emission : Emission) {request : Request} {response : Response} (h : response.answers request)
    (hcatch : EngineController.catches request = false) :
    (EngineController.fanout emission request response).outcome fails = .ok () ↔
      ∀ target ∈ unguardedJobs request, fails target = false := by
  have one : ∀ {p : Fanout Unit} {target : Target},
      p.outcome fails = (if fails target then .error .threw else .ok ()) →
        (p.outcome fails = .ok () ↔ ∀ t ∈ [target], fails t = false) := by
    intro p target hp
    rw [hp, ok_iff, List.forall_mem_singleton]
  have bet : ∀ {p : Fanout Unit}, p.outcome fails = (if fails (.queue .realtime "bet") ||
        fails (.queue .session "history") then .error .threw else .ok ()) →
      (p.outcome fails = .ok () ↔
        ∀ t ∈ [Target.queue .realtime "bet", .queue .session "history"], fails t = false) := by
    intro p hp
    rw [hp, ok_iff, Bool.or_eq_false_iff, List.forall_mem_cons, List.forall_mem_singleton]
  have none : ∀ {p : Fanout Unit}, p.outcome fails = .ok () →
      (p.outcome fails = .ok () ↔ ∀ t ∈ ([] : List Target), fails t = false) :=
    fun hp => iff_of_true hp fun _ ht => nomatch ht
  cases request <;> cases response <;> first | exact h.elim | skip
  case startSession.session userId slug data => exact one (outcome_fanoutSession data)
  case endSession.ended userId sessionId => exact one (outcome_add ..)
  case placeBet.settled => cases hcatch
  case revealMines.mines => exact one (outcome_add ..)
  case revealTowers.towers => exact one (outcome_add ..)
  case cashOutMines.mines userId sessionId betReference data =>
    have hstatus : data.status = .cashedOut := h
    refine bet ?_
    change Fanout.outcome fails (EngineController.minesCashout emission userId sessionId data) = _
    unfold EngineController.minesCashout
    rw [outcome_exchange, if_pos hstatus]
    exact outcome_fanoutBet _
  case cashOutTowers.towers userId sessionId betReference data =>
    have hstatus : data.status = .cashedOut := h
    refine bet ?_
    change Fanout.outcome fails (EngineController.towersCashout emission userId sessionId data) = _
    unfold EngineController.towersCashout
    rw [outcome_exchange, if_pos hstatus]
    exact outcome_fanoutBet _
  all_goals exact none rfl

/-- **An answer is kept exactly when the handler catches what its fan-out throws, or no job that it adds is
rejected.** -/
theorem answer_kept_iff (D : Digest) (fresh : Fresh) (emission : Emission) (fails : Target → Bool) (request : Request)
    (db : Db) :
    (EngineController.handle D fresh emission fails request db).answer = ((serve D fresh request).run exec db).1 ↔
      ∀ response, ((serve D fresh request).run exec db).1 = .ok response →
        ∀ target ∈ unguardedJobs request, fails target = false := by
  unfold EngineController.handle
  cases hrun : (serve D fresh request).run exec db with
  | mk result after =>
    cases result with
    | error e => exact iff_of_true rfl fun response h => nomatch h
    | ok response =>
      have hok : ((serve D fresh request).run exec db).1 = .ok response := by rw [hrun]
      have hanswers : response.answers request := (returns_serve request).run hok
      dsimp only
      rw [run_fanout]
      cases hcatch : EngineController.catches request with
      | true =>
        have hjobs : unguardedJobs request = [] := by
          cases request <;> first | rfl | cases hcatch
        refine iff_of_true ?_ fun _ _ target ht => by rw [hjobs] at ht; cases ht
        cases Fanout.outcome fails (EngineController.fanout emission request response) <;> rfl
      | false =>
        rw [← outcome_fanout emission hanswers hcatch]
        cases hend : Fanout.outcome fails (EngineController.fanout emission request response) with
        | ok done => exact iff_of_true rfl fun _ _ => rfl
        | error e =>
          dsimp only
          rw [if_neg Bool.false_ne_true]
          exact iff_of_false (fun h => nomatch h) fun h => nomatch h response rfl

/-! ## When it does not -/

/-- A Mines round with one tile opened, worth $5.55. -/
def openedMinesRound : Db :=
  ((serve zeroDigest (freshAt 2) (.revealMines "u1" "s1" "MIN-1" (some 20))).run exec
    ((serve zeroDigest (freshAt 1) (.startMines "u1" "s1" (some 5) (some 3))).run exec (tableDb .mines)).2).2

/-- BullMQ's queue of updates is down. The cash-out is paid and committed, and answered as failed. -/
theorem cashOut_reported_failed :
    let fails : Target → Bool := fun target => target = .queue .realtime "bet"
    let request := Request.cashOutMines "u1" "s1" "MIN-1"
    let handled := EngineController.handle zeroDigest (freshAt 3) ⟨"e1", 3⟩ fails request openedMinesRound
    (∃ response, ((serve zeroDigest (freshAt 3) request).run exec openedMinesRound).1 = .ok response) ∧
      openedMinesRound.sminkWallets.rows.map SminkWallet.balance = [9500] ∧
      handled.after.sminkWallets.rows.map SminkWallet.balance = [10055] ∧
      handled.answer = .error .threw ∧
      handled.answer ≠ ((serve zeroDigest (freshAt 3) request).run exec openedMinesRound).1 := by
  refine ⟨?_, by decide +kernel⟩
  have hok : ((serve zeroDigest (freshAt 3) (.cashOutMines "u1" "s1" "MIN-1")).run exec openedMinesRound).1.isOk :=
    by decide +kernel
  cases h : ((serve zeroDigest (freshAt 3) (.cashOutMines "u1" "s1" "MIN-1")).run exec openedMinesRound).1 with
  | ok response => exact ⟨response, rfl⟩
  | error e =>
    rw [h] at hok
    cases hok

end Smink
